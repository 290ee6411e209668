/-
# `Sardeenz.Lifecycle.MoveFence` — the move operation of one model under concurrent callers

Any number of callers create, update and remove the move operation of one
model.  Each call is one Redis command or one Lua script, so it is one step:

    call                    acts when                                    otherwise
    createMoveOperation     the key is empty                             `false`
    updateMoveOperation     the stored id is the caller's, and the       `null`
                            phase is kept or is one of `allowedPhases`
    removeMoveOperation     the stored id is the caller's                `false`

A caller of `createMoveOperation` brings an id of its own (`randomUUID`), so it
is one the key has never held; the other two bring any id at all.

**Proved here.**  One operation at a time, phases by the table, and no call that acts on
another operation than its own (`move_operation_compare_and_set`).
-/
import Mathlib.Data.List.Chain
import Sardeenz.Run
import Sardeenz.Lifecycle.Store

namespace Sardeenz.MoveFence

open Interleave List

/-- One call on the key. -/
inductive FenceCall where
  | create (operation : MoveOperation)
  | update (operationId : String) (updates : MoveOperationUpdates) (now : Nat)
  | remove (operationId : String)

def FenceCall.operationId : FenceCall → String
  | .create operation => operation.operationId
  | .update operationId _ _ => operationId
  | .remove operationId => operationId

/-- The key `move-operation:modelName` and its history. -/
structure FenceState where
  stored : Option MoveOperation
  written : List MoveOperation
  existing : List String

variable (stored : Option MoveOperation)

def FenceState.start : FenceState where
  stored := stored
  written := stored.toList
  existing := (stored.map (·.operationId)).toList

def fenceStep (s : FenceState) : FenceCall → Option FenceState
  | .create operation =>
    if operation.operationId ∈ s.written.map (·.operationId) then none
    else
      match createMoveOperation s.stored operation with
      | (stored, true) =>
        some { stored := stored, written := operation :: s.written,
               existing := operation.operationId :: s.existing }
      | (stored, false) => some { s with stored := stored }
  | .update operationId updates now =>
    match updateMoveOperation s.stored operationId updates now with
    | some operation =>
      some { s with stored := some operation, written := operation :: s.written }
    | none => some s
  | .remove operationId =>
    match removeMoveOperation s.stored operationId with
    | (stored, true) => some { s with stored := stored, existing := s.existing.erase operationId }
    | (stored, false) => some { s with stored := stored }

/-- The permitted phase graph: a phase is kept, or the script's table has the
edge. -/
def PhaseStep (current next : MoveOperationPhase) : Prop :=
  next = current ∨ next ∈ allowedPhases current

def FenceState.valuesOf (s : FenceState) (operationId : String) : List MoveOperation :=
  s.written.filter fun operation => operation.operationId = operationId

def FenceState.phasesOf (s : FenceState) (operationId : String) : List MoveOperationPhase :=
  ((s.valuesOf operationId).map (·.phase)).reverse

/-! ## What one call can do -/

theorem phaseStep_of_phaseAllowed {current phase} (h : phaseAllowed current phase = true) :
    PhaseStep current (phase.getD current) := by
  cases phase with
  | none => exact .inl rfl
  | some =>
    rcases Bool.or_eq_true_iff.mp h with h | h
    · exact .inl (of_decide_eq_true h)
    · exact .inr (contains_iff_mem.mp h)

/-- The effects a call can have. -/
inductive FenceEffect (s : FenceState) : FenceCall → FenceState → Prop
  | unchanged {call : FenceCall} : FenceEffect s call s
  | created {operation : MoveOperation} : s.stored = none →
      operation.operationId ∉ s.written.map (·.operationId) →
      FenceEffect s (.create operation)
        { stored := some operation, written := operation :: s.written,
          existing := operation.operationId :: s.existing }
  | updated {operation operation' : MoveOperation} {updates : MoveOperationUpdates} {now : Nat} :
      s.stored = some operation → operation'.operationId = operation.operationId →
      PhaseStep operation.phase operation'.phase →
      FenceEffect s (.update operation.operationId updates now)
        { s with stored := some operation', written := operation' :: s.written }
  | removed {operation : MoveOperation} : s.stored = some operation →
      FenceEffect s (.remove operation.operationId)
        { s with stored := none, existing := s.existing.erase operation.operationId }

variable {s s' : FenceState} {call : FenceCall}

/-- **The step lemma.** -/
theorem fenceStep_effect (h : fenceStep s call = some s') : FenceEffect s call s' := by
  obtain ⟨stored, _, _⟩ := s
  cases call with
  | create operation =>
    obtain ⟨hfresh, h⟩ := Option.ite_none_left_eq_some.mp h
    cases stored with
    | none =>
      cases h
      exact .created rfl hfresh
    | some =>
      cases h
      exact .unchanged
  | update operationId updates now =>
    simp only [fenceStep] at h
    cases hu : updateMoveOperation stored operationId updates now with
    | none =>
      rw [hu] at h
      cases h
      exact .unchanged
    | some =>
      rw [hu] at h
      cases h
      obtain ⟨operation, rfl, rfl, hallowed, hid, hphase, -, -⟩ := updateMoveOperation_eq_some hu
      exact .updated rfl hid (hphase ▸ phaseStep_of_phaseAllowed hallowed)
  | remove operationId =>
    cases stored with
    | none =>
      cases h
      exact .unchanged
    | some operation =>
      by_cases hid : operation.operationId = operationId
      · subst hid
        simp only [fenceStep, removeMoveOperation] at h
        cases h
        exact .removed rfl
      · simp only [fenceStep, removeMoveOperation, if_neg hid] at h
        cases h
        exact .unchanged

variable {operation : MoveOperation}

theorem FenceEffect.stored_of_ne (h : FenceEffect s call s') (hs : s.stored = some operation)
    (hne : call.operationId ≠ operation.operationId) :
    s'.stored = some operation := by
  cases h with
  | unchanged => exact hs
  | created hnone => exact absurd (hnone.symm.trans hs) (Option.some_ne_none _).symm
  | updated hs' _ _ | removed hs' =>
    exact absurd (congrArg (·.operationId) (Option.some.inj (hs'.symm.trans hs))) hne

/-! ## The history of the key -/

/-- What holds after any calls. -/
structure Inv (s : FenceState) : Prop where
  latest : ∀ operation, s.stored = some operation → s.written.head? = some operation
  existing : s.existing = (s.stored.map (·.operationId)).toList
  chain : ∀ id, ((s.valuesOf id).map (·.phase)).IsChain fun later earlier => PhaseStep earlier later

theorem Inv.start : Inv (.start stored) where
  latest := by
    rintro operation rfl
    rfl
  existing := rfl
  chain := by
    intro id
    cases stored with
    | none => exact .nil
    | some operation =>
      by_cases hid : operation.operationId = id
      all_goals simp [FenceState.valuesOf, FenceState.start, hid]

theorem filter_cons_of_ne {written id}
    (h : operation.operationId ≠ id) :
    (operation :: written).filter (fun o => o.operationId = id) =
      written.filter fun o => o.operationId = id :=
  filter_cons_of_neg (by simpa using h)

theorem Inv.created (hi : Inv s) (hnone : s.stored = none)
    (hfresh : operation.operationId ∉ s.written.map (·.operationId)) :
    Inv { stored := some operation, written := operation :: s.written,
          existing := operation.operationId :: s.existing } where
  latest := by
    rintro _ ⟨⟩
    rfl
  existing := by
    rw [hi.existing, hnone]
    rfl
  chain := by
    intro id
    by_cases hid : operation.operationId = id
    · -- the id is new, so the key has had no value with it
      subst hid
      have hnil : s.written.filter (fun o => o.operationId = operation.operationId) = [] := by
        rw [filter_eq_nil_iff]
        intro o ho
        simpa using fun h => hfresh (mem_map.mpr ⟨o, ho, h⟩)
      simp [FenceState.valuesOf, hnil]
    · simp only [FenceState.valuesOf, filter_cons_of_ne hid]
      exact hi.chain id

theorem Inv.updated (hi : Inv s) {operation'} (hs : s.stored = some operation)
    (hid' : operation'.operationId = operation.operationId)
    (hphase : PhaseStep operation.phase operation'.phase) :
    Inv { s with stored := some operation', written := operation' :: s.written } where
  latest := by
    rintro _ ⟨⟩
    rfl
  existing := by
    rw [hi.existing, hs]
    exact congrArg (fun id => [id]) hid'.symm
  chain := by
    intro id
    by_cases hid : operation'.operationId = id
    · -- the value before this one is the stored operation, which has the same id
      subst hid
      obtain ⟨_, hrest⟩ := head?_eq_some_iff.mp (hi.latest operation hs)
      have hold := hi.chain operation'.operationId
      rw [FenceState.valuesOf, hrest, filter_cons_of_pos (by simpa using hid'.symm)] at hold
      rw [FenceState.valuesOf, filter_cons_of_pos (by simp), hrest,
        filter_cons_of_pos (by simpa using hid'.symm)]
      exact isChain_cons_cons.mpr ⟨hphase, hold⟩
    · simp only [FenceState.valuesOf, filter_cons_of_ne hid]
      exact hi.chain id

theorem Inv.step (hi : Inv s) (h : fenceStep s call = some s') : Inv s' := by
  cases fenceStep_effect h with
  | unchanged => exact hi
  | created hnone hfresh => exact hi.created hnone hfresh
  | updated hs hid hphase => exact hi.updated hs hid hphase
  | removed hs =>
    refine ⟨fun _ h => absurd h.symm (Option.some_ne_none _), ?_, hi.chain⟩
    rw [hi.existing, hs]
    exact erase_cons_head _ _

/-- **The move operation is a compare-and-set register.**  After any calls of
any number of callers on the key of one model: at most one operation exists, by
what the callers were told; the phases any id went through form a path of the
permitted phase graph; and a call that carries another id than the operation
in the key, an older one or any other, neither changes nor removes it. -/
theorem move_operation_compare_and_set {stored : Option MoveOperation} {s : FenceState}
    (hr : Reach fenceStep anyStep (.start stored) s) :
    s.existing.length ≤ 1 ∧ (∀ operationId, (s.phasesOf operationId).IsChain PhaseStep) ∧
      ∀ operation, s.stored = some operation → ∀ (call : FenceCall) (s' : FenceState),
        fenceStep s call = some s' → call.operationId ≠ operation.operationId →
          s'.stored = some operation := by
  have hi : Inv s := hr.inductive_inv (.start stored) fun hi _ h => hi.step h
  refine ⟨?_, fun id => isChain_reverse.mpr (hi.chain id), ?_⟩
  · rw [hi.existing]
    cases s.stored with
    | none => exact Nat.zero_le 1
    | some operation => exact Nat.le_refl 1
  · intro operation hs call s' h hne
    exact (fenceStep_effect h).stored_of_ne hs hne

def exampleOperation (operationId : String) : MoveOperation where
  operationId := operationId
  modelName := "m"
  sourceInstanceId := "s"
  replacementInstanceId := "i"
  targetWorkerId := "w"
  targetDeviceIndices := [0]
  phase := .replacementStarting
  createdAt := 0
  updatedAt := 0

/-- A first move is cleaned up and removed, a second one is created and made
ready, and the first move's late calls and a third creation are refused. -/
def lateCalls : List FenceCall :=
  [.create (exampleOperation "a"), .update "a" { phase := some .replacementCleanup } 1, .remove "a",
    .create (exampleOperation "b"), .update "b" { phase := some .replacementReady } 2,
    .update "a" { phase := some .replacementReady } 3, .remove "a", .create (exampleOperation "c")]

theorem lateCalls_isSome : (exec (guarded fenceStep anyStep) (.start none) lateCalls).isSome := by
  decide +kernel

/-- The late calls leave the second move in the key, and both ids went through
paths of the graph. -/
theorem lateCalls_compare_and_set :
    let s := (exec (guarded fenceStep anyStep) (.start none) lateCalls).get lateCalls_isSome
    (s.stored.map (·.operationId) = some "b" ∧
      s.phasesOf "a" = [.replacementStarting, .replacementCleanup] ∧
      s.phasesOf "b" = [.replacementStarting, .replacementReady]) ∧
    s.existing.length ≤ 1 ∧
      (∀ operationId, (s.phasesOf operationId).IsChain PhaseStep) ∧
      ∀ operation, s.stored = some operation → ∀ (call : FenceCall) (s' : FenceState),
        fenceStep s call = some s' → call.operationId ≠ operation.operationId →
          s'.stored = some operation :=
  ⟨by decide +kernel, move_operation_compare_and_set (reach_get lateCalls_isSome)⟩

end Sardeenz.MoveFence
