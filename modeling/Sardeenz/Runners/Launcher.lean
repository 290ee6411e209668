/-
# `Sardeenz.Runners.Launcher` — the exit of a runner's process

`ApptainerLauncher.start` (`apptainer-launcher.ts`) spawns a child and polls its health
until it is ready, has failed or is too late; a child that exits meanwhile sets a flag,
which the loop reads before each probe:

    checking → probing → sleeping → checking → …
    probing → returned       READY: the listener that calls `onExit` is registered
    checking, probing → stopping → rejected

Each arrow is what the code does between two awaits.  When `start` returns, the manager
records the runner before the next event; its `onExit` takes the record away.

**Proved here.**  When the exit of a child is noticed exactly once (`exit_supervised`).
-/
import Sardeenz.Run

namespace Sardeenz.Runners.Launcher

open Interleave

/-- What a health probe answers. -/
inductive Health where
  | ready
  | error (message : Option String)
  | other

inductive Stage where
  | checking
  | probing
  | sleeping
  | stopping (error : String)
  | returned
  | rejected (error : String)
deriving DecidableEq

/-- A start after the spawn. -/
structure Launch where
  stage : Stage := .checking
  exited : Bool := false
  onExitCalls : Nat := 0
  live : Bool := false

/-- The catch block of `start`: a child that has not exited is stopped first. -/
def Launch.throws (s : Launch) (error : String) : Launch :=
  { s with stage := if s.exited then .rejected error else .stopping error }

inductive Event where
  | clock (late : Bool)
  | answer (probe : Option Health)
  | slept
  | stopped
  | exit

/-- `start` of a runner on a port, with `healthTimeoutMs`. -/
def step (port healthTimeoutMs : Nat) (s : Launch) : Event → Option Launch
  | .clock late =>
    if s.stage ≠ .checking then none
    else if late then
      some (s.throws s!"Runner on :{port} did not become healthy within {healthTimeoutMs}ms")
    else if s.exited then some (s.throws s!"Runner on :{port} exited before becoming healthy")
    else some { s with stage := .probing }
  | .answer probe =>
    if s.stage ≠ .probing then none
    else
      match probe with
      | some .ready => some { s with stage := .returned, live := true }
      | some (.error message) =>
        some (s.throws (s!"Runner on :{port} reported ERROR while starting" ++
          (message.map (": " ++ ·)).getD ""))
      | some .other | none => some { s with stage := .sleeping }
  | .slept => if s.stage = .sleeping then some { s with stage := .checking } else none
  | .stopped =>
    match s.stage with
    | .stopping error => some { s with stage := .rejected error }
    | _ => none
  | .exit =>
    if s.exited then none
    else if s.stage = .returned then
      some { s with exited := true, onExitCalls := s.onExitCalls + 1, live := false }
    else some { s with exited := true }

def ReadyAlive (s : Launch) : Event → Prop
  | .answer (some .ready) => s.exited = false
  | _ => True

def Launch.stepsLeft (s : Launch) : Nat :=
  match s.stage with
  | .probing => 3
  | .sleeping => 2
  | .checking | .stopping _ => 1
  | .returned | .rejected _ => 0

structure Supervised (s : Launch) : Prop where
  live : s.live = true → s.exited = false ∧ s.stage = .returned
  calls : s.onExitCalls = if s.exited ∧ s.stage = .returned then 1 else 0

variable {port healthTimeoutMs : Nat} {s s' : Launch} {e : Event}

theorem Supervised.step (hs : Supervised s) (hok : ReadyAlive s e)
    (h : Launcher.step port healthTimeoutMs s e = some s') : Supervised s' := by
  obtain ⟨_, _⟩ := hs
  revert h
  fun_cases Launcher.step port healthTimeoutMs s e
  all_goals
    intro h
  all_goals constructor <;> grind -ring -linarith [Launch.throws, ReadyAlive]

theorem stepsLeft_step (hexited : s.exited = true) (hok : ReadyAlive s e)
    (h : step port healthTimeoutMs s e = some s') : s'.stepsLeft < s.stepsLeft := by
  revert h
  fun_cases step port healthTimeoutMs s e
  all_goals grind -ring -linarith [Launch.throws, Launch.stepsLeft]

/-- **Exit supervision.**  In every run in which the child does not exit during the probe
that answers READY, once it has exited there is no record of it; and either the start
has returned and `onExit` has been called once, or the start has rejected or is still
to: it is not stuck, and each of its steps leaves it fewer of them. -/
theorem exit_supervised (hr : Reach (step port healthTimeoutMs) ReadyAlive {} s)
    (hexited : s.exited = true) :
    s.live = false ∧ (s.stage = .returned → s.onExitCalls = 1) ∧
    (s.stage ≠ .returned → s.onExitCalls = 0 ∧
      (s.stepsLeft = 0 → ∃ error, s.stage = .rejected error) ∧
      (s.stepsLeft ≠ 0 → ∃ e, ReadyAlive s e ∧ (step port healthTimeoutMs s e).isSome = true) ∧
      ∀ e s', ReadyAlive s e → step port healthTimeoutMs s e = some s' →
        s'.stepsLeft < s.stepsLeft ∧ s'.stage ≠ .returned) := by
  have hs : Supervised s :=
    hr.inductive_inv ⟨by simp, by simp⟩ fun hs hok h => hs.step hok h
  have hlive := hs.live
  have hcalls := hs.calls
  refine ⟨by grind, by grind, fun _ => ⟨by grind, ?_, ?_, fun e s' hok h => ?_⟩⟩
  · cases hst : s.stage <;> simp_all [Launch.stepsLeft]
  · intro _
    cases hst : s.stage with
    | checking => exact ⟨.clock false, trivial, by simp [step, hst, hexited]⟩
    | probing => exact ⟨.answer none, trivial, by simp [step, hst]⟩
    | sleeping => exact ⟨.slept, trivial, by simp [step, hst]⟩
    | stopping error => exact ⟨.stopped, trivial, by simp [step, hst]⟩
    | returned | rejected => simp_all [Launch.stepsLeft]
  · refine ⟨stepsLeft_step hexited hok h, ?_⟩
    revert h
    fun_cases step port healthTimeoutMs s e
    all_goals grind -ring -linarith [Launch.throws, ReadyAlive]

instance (s : Launch) (e : Event) : Decidable (ReadyAlive s e) := by
  unfold ReadyAlive
  split <;> infer_instance

/-- The child exits after the start has returned. -/
theorem exit_supervised_returned :
    let s := (exec (guarded (step 9000 60000) ReadyAlive) {}
      [.clock false, .answer (some .ready), .exit]).get rfl
    s.stage = .returned ∧ s.live = false ∧ s.onExitCalls = 1 := by
  intro s
  have hs := exit_supervised (s := s) (reach_get rfl) rfl
  exact ⟨rfl, hs.1, hs.2.1 rfl⟩

/-- **A record of a dead process.**  The child exits during the probe that answers READY:
the start returns, and nothing is left that would call `onExit`. -/
theorem live_after_exit_while_probing :
    ∃ s, exec (step 9000 60000) {} [.clock false, .exit, .answer (some .ready)] = some s ∧
      s.exited = true ∧ s.stage = .returned ∧ s.live = true ∧ s.onExitCalls = 0 ∧
      ∀ e, step 9000 60000 s e = none := by
  refine ⟨_, rfl, rfl, rfl, rfl, rfl, fun e => ?_⟩
  cases e <;> rfl

end Sardeenz.Runners.Launcher
