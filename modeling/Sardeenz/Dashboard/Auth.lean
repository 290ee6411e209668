/-
# `Sardeenz.Dashboard.Auth` — pending OAuth states

`server/routes/auth.ts` holds the states of the OAuth logins in `pendingStates` ("in-memory with
TTL").  A state leaves the table when it is presented.  The cleanup timer ("so the map doesn't grow
unbounded") visits `loginAttempts` only.

**Proved here.**  What is accepted, and what stays stored (`states_expire`).
-/
import Mathlib.Logic.Function.Basic

namespace Sardeenz.Dashboard.Auth

open Function

def stateTtlMs : Nat := 300000
def cleanupIntervalMs : Nat := 300000

/-- `createState` for a login, the state that a callback presents, if any, or a tick. -/
inductive OAuthEvent (State : Type) where
  | login (state : State)
  | callback (state : Option State)
  | tick
deriving DecidableEq

section
variable {State : Type} [DecidableEq State] (pending : State → Option Nat)

def consumeState (now : Nat) (state : State) : Bool × (State → Option Nat) :=
  match pending state with
  | none => (false, pending)
  | some expiresAt => (now < expiresAt, update pending state none)

/-- Whether a state is accepted, and `pendingStates`, which the timer does not visit. -/
def serve (now : Nat) : OAuthEvent State → Bool × (State → Option Nat)
  | .login state => (false, update pending state (some (now + stateTtlMs)))
  | .callback (some state) => consumeState pending now state
  | .callback none | .tick => (false, pending)

/-- When a state is accepted. -/
def accepted (state : State) : (State → Option Nat) → List (Nat × OAuthEvent State) → List Nat
  | _, [] => []
  | pending, (now, event) :: history =>
    (if event = .callback (some state) ∧ (serve pending now event).1 then [now] else []) ++
      accepted state (serve pending now event).2 history

def stored (history : List (Nat × OAuthEvent State)) : State → Option Nat :=
  history.foldl (fun pending x => (serve pending x.1 x.2).2) pending

variable {pending} (state : State) (history : List (Nat × OAuthEvent State))

theorem serve_state (now : Nat) (event : OAuthEvent State) :
    (serve pending now event).2 state =
      if event = .login state then some (now + stateTtlMs)
      else if event = .callback (some state) then none else pending state := by
  cases event with
  | login s => simp [serve, update_apply, eq_comm]
  | callback s =>
    cases s with
    | none => rfl
    | some s =>
      by_cases hs : state = s
      · subst hs
        cases h : pending state <;> simp [serve, consumeState, h]
      · cases h : pending s <;> simp [serve, consumeState, h, update_of_ne hs, Ne.symm hs]
  | tick => rfl

/-- A state is accepted once for each time it was stored, before that has expired. -/
theorem accepted_spec : (accepted state pending history).length ≤
      (pending state).toList.length + history.countP (·.2 = .login state) ∧
    ∀ time ∈ accepted state pending history, (pending state).any (time < ·) ∨
      ∃ start, (start, .login state) ∈ history ∧ time < start + stateTtlMs := by
  induction history generalizing pending with
  | nil => simp [accepted]
  | cons x history ih =>
    obtain ⟨now, event⟩ := x
    have hrest := @ih (serve pending now event).2
    rw [serve_state] at hrest
    have hyes : (serve pending now (.callback (some state))).1 = (pending state).any (now < ·) := by
      simp only [serve, consumeState]
      cases pending state <;> rfl
    cases hp : pending state <;> grind [accepted]

/-- What is stored was there before, or is that of a login; and it has not been presented. -/
theorem stored_ne_none (h : stored pending history state ≠ none) :
    pending state ≠ none ∧ (∀ time, (time, .callback (some state)) ∉ history) ∨
      ∃ before time later, history = before ++ (time, .login state) :: later ∧
        ∀ time, (time, .callback (some state)) ∉ later := by
  induction history generalizing pending with
  | nil => exact .inl ⟨h, by simp⟩
  | cons x history ih =>
    have := @serve_state _ _ pending state x.1 x.2
    rcases ih h with ⟨hp, hn⟩ | ⟨before, time, later, rfl, hn⟩
    · by_cases hl : x.2 = .login state
      · exact .inr ⟨[], x.1, history, by simp [← hl], hn⟩
      · grind
    · exact .inr ⟨x :: before, time, later, rfl, hn⟩

/-- A state is accepted at most once, before it expires.  If it has been presented once it is older
than its lifetime and an interval of the timer, it is stored only while younger. -/
theorem states_expire (history : List (Nat × OAuthEvent State)) (state : State) :
    (history.countP (·.2 = .login state) ≤ 1 →
      (accepted state (fun _ => none) history).length ≤ 1) ∧
    (∀ time ∈ accepted state (fun _ => none) history,
      ∃ start, (start, .login state) ∈ history ∧ time < start + stateTtlMs) ∧
    ∀ now, (∀ before start later, history = before ++ (start, .login state) :: later →
        start + stateTtlMs + cleanupIntervalMs < now →
        ∃ time, (time, .callback (some state)) ∈ later) →
      stored (fun _ => none) history state ≠ none →
      ∃ start, (start, .login state) ∈ history ∧ now ≤ start + stateTtlMs + cleanupIntervalMs := by
  obtain ⟨honce, hbefore⟩ := accepted_spec state history
  refine ⟨fun h => by grind, fun time h => (hbefore time h).resolve_left (by simp), fun now hold h => ?_⟩
  obtain ⟨before, start, later, rfl, hn⟩ := (stored_ne_none state history h).resolve_left (by simp)
  refine ⟨start, by simp, Nat.le_of_not_lt fun hlt => ?_⟩
  obtain ⟨time, hmem⟩ := hold before start later rfl hlt
  exact hn time hmem

end

/-- A state that is never presented stays, although the timer has run twice since it expired. -/
theorem unpresented_state_stays :
    stored (fun _ => none) [(0, .login "s"), (300000, .tick), (600000, .tick), (900000, .tick)] "s" =
      some 300000 := by
  decide +kernel

end Sardeenz.Dashboard.Auth
