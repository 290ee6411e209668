/-
# `Sardeenz.Run` — runs of a system that takes one labelled step at a time

Everything concurrent in this development has one form.  A state `S` holds
the shared stores and, for every task, the point at which it is suspended; an
action `A` names the task that moves and what its environment answers; and
`step : S → A → Option S` performs the action, or is `none` when the action
is not enabled.  An interleaving is a list of actions, so a schedule can be
executed (`exec`) and a property of every schedule is an induction.

Two notions of run are used.

    exec step s as = some s'     the schedule `as` leads from `s` to `s'`
    Reach step ok s₀ s           some schedule leads from `s₀` to `s`, and
                                 each of its actions met `ok` when it was taken

`ok` is how a result is restricted to the schedules that avoid a given race:
`anyStep` is no restriction at all.  The module knows nothing about the
systems it is used for.
-/
import Mathlib.Logic.Function.Basic

namespace Interleave

section
variable {S : Type*} {A : Type*}

/-- Perform a schedule; `none` if one of its actions is not enabled. -/
def exec (step : S → A → Option S) : S → List A → Option S
  | s, [] => some s
  | s, a :: as =>
    match step s a with
    | some s' => exec step s' as
    | none => none

/-- No restriction on the actions of a run. -/
def anyStep (_ : S) (_ : A) : Prop := True

instance (s : S) (a : A) : Decidable (anyStep s a) := isTrue trivial

/-- The states reached from `s₀` by enabled actions that met `ok` in the
state they were taken in. -/
inductive Reach (step : S → A → Option S) (ok : S → A → Prop) (s₀ : S) : S → Prop
  | start : Reach step ok s₀ s₀
  | snoc {s s' : S} {a : A} :
      Reach step ok s₀ s → ok s a → step s a = some s' → Reach step ok s₀ s'

variable {step : S → A → Option S} {ok : S → A → Prop} {s₀ : S}

/-- **The invariant rule.**  What holds at the start and is kept by every
permitted step holds in every reached state. -/
theorem Reach.inductive_inv {I : S → Prop} (hinit : I s₀)
    (hkeep : ∀ {s : S} {a : A} {s' : S}, I s → ok s a → step s a = some s' → I s')
    {s : S} (hr : Reach step ok s₀ s) : I s := by
  induction hr with
  | start => exact hinit
  | snoc _ hok hs ih => exact hkeep ih hok hs

/-- Keep only the actions that meet a decidable condition. -/
def guarded (step : S → A → Option S) (ok : S → A → Prop) [∀ s a, Decidable (ok s a)]
    (s : S) (a : A) : Option S :=
  if ok s a then step s a else none

theorem guarded_eq_some [∀ s a, Decidable (ok s a)] {s s' : S} {a : A} :
    guarded step ok s a = some s' ↔ ok s a ∧ step s a = some s' := by
  unfold guarded
  by_cases h : ok s a
  · simp [h]
  · simp [h]

/-- A schedule executed under a condition is a run under that condition; this
is how a concrete run is exhibited. -/
theorem reach_of_exec [∀ s a, Decidable (ok s a)] : ∀ {as : List A} {s s' : S}, Reach step ok s₀ s →
      exec (guarded step ok) s as = some s' → Reach step ok s₀ s'
  | [], s, s', hr, h => by
    have : s = s' := by simpa [exec] using h
    exact this ▸ hr
  | a :: as, s, s', hr, h => by
    unfold exec at h
    cases hg : guarded step ok s a with
    | none => simp [hg] at h
    | some =>
      obtain ⟨hok, hs⟩ := guarded_eq_some.mp hg
      exact reach_of_exec (.snoc hr hok hs) (by simpa [hg] using h)

theorem reach_get [∀ s a, Decidable (ok s a)] {as : List A}
    (h : (exec (guarded step ok) s₀ as).isSome) :
    Reach step ok s₀ ((exec (guarded step ok) s₀ as).get h) :=
  reach_of_exec .start (Option.some_get h).symm

/-! ## The transitions of a run -/

/-- The transitions a schedule performs, in order, up to the first action that
is not enabled. -/
def transitions (step : S → A → Option S) : S → List A → List (S × A × S)
  | _, [] => []
  | s, a :: as =>
    match step s a with
    | some s' => (s, a, s') :: transitions step s' as
    | none => []

theorem step_of_mem_transitions :
    ∀ {as : List A} {s : S} {t : S × A × S}, t ∈ transitions step s as → step t.1 t.2.1 = some t.2.2
  | a :: as, s, t, h => by
    unfold transitions at h
    cases hs : step s a with
    | none => simp [hs] at h
    | some =>
      simp only [hs, List.mem_cons] at h
      rcases h with rfl | h
      · exact hs
      · exact step_of_mem_transitions h

end

/-! ## The threads of small runs -/

/-- The thread of a run with one thread. -/
def lone : Fin 1 := Fin.last 0

def left : Fin 2 := Fin.castSucc lone

def right : Fin 2 := Fin.last 1

end Interleave
