/-
# `Sardeenz.Lifecycle.Linear` — one instance key under concurrent callers

Any number of callers work on one instance key.  Each Redis command or script
is one step; `setRunnerEndpoint` is two, and a caller that has done the first
keeps the record it read (`reads`) until it does the second.  A call that
fails writes nothing, so it is a step that changes nothing.

A step is **linear** when it does what the table promises: an existing record
keeps its state or moves along an edge, and a record only comes into being by
`createInstance`.  Of the five kinds of step four are linear in every state.
The fifth, the `SET` of `setRunnerEndpoint`, writes back what its `GET` saw:

    step                         linear
    createInstance               always
    transition                   always
    GET of setRunnerEndpoint     always (writes nothing)
    removeInstance               always
    SET of setRunnerEndpoint     iff the record is still there, in the state that was
                                 read or in one with an edge to it

so a schedule is linear exactly when every such `SET` finds the record that way
(`linear_iff_endpointWritesFresh`), and there are schedules where it does not
(`endpoint_write_revives_record`).
-/
import Sardeenz.Run
import Sardeenz.Lifecycle.Store

namespace Sardeenz.Lifecycle

open Interleave

/-- One instance key and the callers that are inside `setRunnerEndpoint`. -/
structure KeyState where
  record : Option InstanceState
  reads : Nat → Option InstanceState

/-- One Redis command or script on the key. -/
inductive KeyAction where
  | createInstance (workerId : Option String) (protocol : Option Protocol) (now : Nat)
  | transition (target : ModelLifecycleState) (updates : InstanceUpdates) (now : Nat)
  | getForEndpoint (caller : Nat)
  | setEndpoint (caller : Nat) (endpoint : RunnerPlacement)
  | removeInstance

def persist (record : Option InstanceState) (result : Except ControlPlaneError InstanceState) :
    Option InstanceState :=
  match result with
  | .ok r => some r
  | .error _ => record

variable (modelName instanceId : String)

/-- One step on the key `models:modelName:instanceId`. -/
def keyStep (s : KeyState) : KeyAction → Option KeyState
  | .createInstance workerId protocol now =>
    some { s with
      record := persist s.record
        (createInstance s.record modelName instanceId workerId protocol now) }
  | .transition target updates now =>
    some { s with
      record := persist s.record
        (Sardeenz.transition s.record modelName instanceId target updates now) }
  | .getForEndpoint caller =>
    match s.reads caller with
    | some _ => none
    | none =>
      match readForEndpoint s.record modelName instanceId with
      | .ok r => some { s with reads := Function.update s.reads caller (some r) }
      | .error _ => some s
  | .setEndpoint caller endpoint =>
    match s.reads caller with
    | none => none
    | some r =>
      some { record := some (r.withEndpoint endpoint),
             reads := Function.update s.reads caller none }
  | .removeInstance => some { s with record := none }

/-! ## What is promised of a step -/

/-- The call is `createInstance`. -/
def KeyAction.isCreate : KeyAction → Bool
  | .createInstance .. => true
  | _ => false

def Linear (before : Option InstanceState) (a : KeyAction) (after : Option InstanceState) : Prop :=
  match before, after with
  | some r, some r' => r'.state = r.state ∨ isValidTransition r.state r'.state = true
  | none, some _ => a.isCreate = true
  | _, none => True

instance (before after : Option InstanceState) (a : KeyAction) :
    Decidable (Linear before a after) := by
  unfold Linear
  split <;> infer_instance

/-- The condition on a `SET` of `setRunnerEndpoint`, in the state it is taken
in: there is a record, in the state the caller's `GET` saw or in a state with
an edge to it. -/
def EndpointWriteFresh (s : KeyState) : KeyAction → Prop
  | .setEndpoint caller _ =>
    ∃ r read, s.record = some r ∧ s.reads caller = some read ∧
      (read.state = r.state ∨ isValidTransition r.state read.state = true)
  | _ => True

theorem linear_of_record_eq {before after a}
    (h : after = before) : Linear before a after := by
  subst h
  cases after with
  | none => exact trivial
  | some => exact .inl rfl

variable (record : Option InstanceState)

theorem linear_createInstance (workerId : Option String) (protocol : Option Protocol) (now : Nat) :
    Linear record (.createInstance workerId protocol now)
      (persist record (createInstance record modelName instanceId workerId protocol now)) := by
  cases record with
  | none => exact rfl
  | some => exact linear_of_record_eq rfl

theorem linear_transition (target : ModelLifecycleState) (updates : InstanceUpdates) (now : Nat) :
    Linear record (.transition target updates now)
      (persist record (transition record modelName instanceId target updates now)) := by
  cases h : transition record modelName instanceId target updates now with
  | error => exact linear_of_record_eq rfl
  | ok =>
    obtain ⟨r, rfl, hedge, rfl⟩ := transition_eq_ok.mp h
    exact .inr (by simpa using hedge)

/-- **The step lemma.**  A step is linear exactly when it is not a stale `SET`. -/
theorem linear_step_iff {s s' a}
    (h : keyStep modelName instanceId s a = some s') :
    Linear s.record a s'.record ↔ EndpointWriteFresh s a := by
  cases a with
  | createInstance _ _ now =>
    cases h
    exact iff_of_true (linear_createInstance ..) trivial
  | transition _ _ now =>
    cases h
    exact iff_of_true (linear_transition ..) trivial
  | removeInstance =>
    cases h
    cases hr : s.record <;> exact iff_of_true trivial trivial
  | getForEndpoint caller =>
    have hrec : s'.record = s.record := by
      grind [keyStep]
    exact iff_of_true (linear_of_record_eq hrec) trivial
  | setEndpoint caller =>
    simp only [keyStep] at h
    split at h
    · exact absurd h (by simp)
    · rename_i read hread
      cases h
      cases hr : s.record with
      | none => simp [Linear, KeyAction.isCreate, EndpointWriteFresh, hr]
      | some => simp [Linear, EndpointWriteFresh, hr, hread]

/-- **Lifecycle linearity, exactly.**  From every state of the key and for
every schedule of any number of callers: every step of the run keeps the
record's state or moves it along an edge of the table, and brings a record
into being only by `createInstance`, if and only if every `SET` of a
`setRunnerEndpoint` call finds the record still there, in the state its own
`GET` read or in a state with an edge to it. -/
theorem linear_iff_endpointWritesFresh (s : KeyState) (schedule : List KeyAction) :
    (∀ t ∈ transitions (keyStep modelName instanceId) s schedule,
        Linear t.1.record t.2.1 t.2.2.record) ↔
      ∀ t ∈ transitions (keyStep modelName instanceId) s schedule, EndpointWriteFresh t.1 t.2.1 :=
  forall₂_congr fun _ ht => linear_step_iff modelName instanceId (step_of_mem_transitions ht)

def emptyKey : KeyState := ⟨none, fun _ => none⟩

/-- A deploy's `setRunnerEndpoint` reads the record, a teardown takes it
through `ERROR` and `STOPPED` and removes it, and the deploy's `SET` follows. -/
def endpointWriteAfterRemoval : List KeyAction :=
  [.createInstance none none 0, .transition .starting {} 1, .getForEndpoint 0,
    .transition .error {} 2, .transition .stopped {} 3, .removeInstance,
    .setEndpoint 0 ⟨"r1", "10.0.0.7", 9000, none⟩]

/-- The last step brings the removed record back, `STARTING` as it was read,
and no `createInstance` did. -/
theorem endpoint_write_revives_record :
    ((transitions (keyStep "m" "m-1") emptyKey endpointWriteAfterRemoval).getLast?.map
      fun t => (t.1.record.map (·.state), t.2.2.record.map (·.state))) =
        some (none, some .starting) ∧
    ¬ ∀ t ∈ transitions (keyStep "m" "m-1") emptyKey endpointWriteAfterRemoval,
        Linear t.1.record t.2.1 t.2.2.record := by
  decide

end Sardeenz.Lifecycle
