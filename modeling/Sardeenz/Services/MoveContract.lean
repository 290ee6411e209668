/-
# `Sardeenz.Services.MoveContract` — which calls the tasks of a move make

Two kinds of tasks drive one move: `runMove`, which deploys the replacement,
and any number of `resume`s, in any number of processes.  What a task knows of
the move is a `Know`:

    nothing      outside `resume`, or before the operation has been read
    early        in `resume`; the phase is STARTING, READY or CLEANUP
    cutting a    in `resume`; the phase is CUTTING_OVER (`a`: the source is ACTIVE)
    restored     … and the source has its weight back
    ended        the phase was SOURCE_DRAINING, or the source was seen to be gone

**Proved here.**  Only a task that is `cutting` takes traffic from the source, only one
that is `ended` tears it down, and `resume` gives up only while it is `early` or has
`restored` the weight (`obeys_resume`, `obeys_runMove`).  These are facts about the text
of the tasks.
-/
import Sardeenz.Services.World
import Sardeenz.Services.Move

namespace Sardeenz.MoveSafety

open Interleave Move DeployModelParams

/-- The move: its operation, its source and where that serves; the instance of
the setting is the replacement. -/
structure MoveSetting extends Setting where
  operationId : String
  sourceId : String
  sourceAddress : String × Nat
  source_ne : sourceId ≠ instanceId
  address_ne : sourceAddress ≠ info.address

/-! ## The contract -/

/-- What a task knows of the move. -/
inductive Know where
  | nothing
  | early
  | cutting (active : Bool)
  | restored
  | ended
deriving DecidableEq

/-- Knowledge that lasts only while no other task is in `resume`. -/
def Know.exclusive : Know → Bool
  | early | cutting _ | restored => true
  | nothing | ended => false

def Know.ofPhase : MoveOperationPhase → Know
  | .replacementStarting | .replacementReady | .replacementCleanup => early
  | .cuttingOver => cutting false
  | .sourceDraining => ended

/-- Where a task is: in `resume` or not, and in which process. -/
structure Stage where
  process : Nat
  inside : Bool
  know : Know
deriving DecidableEq

def alive : Option InstanceState → Bool
  | some record => record.state = .active || record.state = .draining
  | none => false

def learn (μ : MoveSetting) (k : Know) (c : Call) (r : Except Failure (Reply c)) : Know :=
  match k, c, r with
  | .ended, _, _ => .ended
  | .nothing, .getMoveOperation, .ok (some operation) => .ofPhase operation.phase
  | .nothing, .scan, .ok ids => if μ.sourceId ∉ ids then .ended else .nothing
  | .nothing, .scanned startIds, .ok keys =>
    if μ.sourceId ∈ startIds ∧ μ.sourceId ∉ keys then .ended else .nothing
  | .nothing, .getInstance id, .ok record =>
    if id = μ.sourceId ∧ alive record = false then .ended else .nothing
  | .cutting active, .getInstance id, .ok (some record) =>
    .cutting (if id = μ.sourceId then record.state = .active else active)
  | .cutting active, .transition id _ _, _ => .cutting (active && id ≠ μ.sourceId)
  | .cutting true, .updateEndpointWeight _ _ _, .ok true => .restored
  | .early, .updateMoveOperation _ _, .ok (some operation) =>
    if operation.phase = .cuttingOver then .cutting true else .early
  | .cutting active, .updateMoveOperation _ _, .ok (some operation) =>
    if operation.phase = .sourceDraining then .ended else .cutting active
  | .restored, .updateMoveOperation _ _, .ok (some operation) =>
    if operation.phase = .replacementCleanup then .early else .nothing
  | _, .updateMoveOperation _ _, _ => .nothing
  | _, .removeMoveOperation _ _, _ => .nothing
  | k, _, _ => k

def mayWrite (l : Stage) : Option MoveOperationPhase → Prop
  | none | some .replacementReady => True
  | some .replacementCleanup => l.inside = false ∨ l.know = .early ∨ l.know = .restored
  | some .cuttingOver => l.inside = true ∧ (l.know = .early ∨ ∃ active, l.know = .cutting active)
  | some .sourceDraining => l.inside = true ∧ ∃ active, l.know = .cutting active
  | some .replacementStarting => False

def Owns (μ : MoveSetting) (operation : MoveOperation) : Prop :=
  operation.operationId = μ.operationId ∧ operation.sourceInstanceId = μ.sourceId ∧
    operation.replacementInstanceId = μ.instanceId

/-- The calls a task makes on the operation, the source and the routing map, by
what it knows. -/
def contract (μ : MoveSetting) : Contract Call Reply Failure Stage where
  allowed l
    | .getMoveOperation => l.inside = true
    | .updateMoveOperation operationId updates =>
      operationId = μ.operationId ∧ mayWrite l updates.phase
    | .removeMoveOperation operationId success =>
      operationId = μ.operationId ∧
        ((success = true ∧ l.know = .ended) ∨
          (success = false ∧ (l.know = .early ∨ l.know = .restored)))
    | .removeModel => l.know = .ended
    | .addEndpoint endpoint _ => endpoint.address ≠ μ.sourceAddress
    | .removeEndpoint host port => (host, port) = μ.sourceAddress → l.know = .ended
    | .updateEndpointWeight host port weight =>
      (host, port) = μ.sourceAddress ∧ weight = 1 ∧ l.know = .cutting true
    | .cutoverEndpointAndWait _ _ => ∃ active, l.know = .cutting active
    | .transition id target updates =>
      (id = μ.sourceId → l.know = .ended ∨
        ((∃ active, l.know = .cutting active) ∧ target = .draining ∧ updates = {})) ∧
      (id = μ.instanceId → (updates.runnerHost = none ∧ updates.runnerPort = none ∧
          updates.runnerEnginePort = none) ∨
        updates = DeployModelParams.activeUpdates μ.info)
    | .writeInstance id record =>
      (id = μ.sourceId → l.know = .ended) ∧
        (id = μ.instanceId → record.endpointAddress = some μ.info.address)
    | .removeInstance id => id = μ.sourceId → l.know = .ended
    | .enterResume process => process = l.process ∧ l.inside = false
    | .leaveResume process => process = l.process ∧ l.inside = true
    | _ => True
  expected l c r :=
    match c, r with
    | .getMoveOperation, .ok (some operation) =>
      Owns μ operation ∧ (l.know = .ended → operation.phase = .sourceDraining)
    | .updateMoveOperation _ updates, .ok (some operation) =>
      Owns μ operation ∧ ∀ phase, updates.phase = some phase → operation.phase = phase
    | .scan, .ok ids => l.know.exclusive = true → μ.sourceId ∈ ids
    | .scanned startIds, .ok keys =>
      l.know.exclusive = true → μ.sourceId ∈ startIds → μ.sourceId ∈ keys
    | .getInstance id, .ok record =>
      (id = μ.sourceId → l.know.exclusive = true → alive record = true ∧
        record.bind (·.endpointAddress) = some μ.sourceAddress ∧
        (l.know = .early → record.map (·.state) = some .active)) ∧
      (id = μ.instanceId → ∀ address, record.bind (·.endpointAddress) = some address →
        address = μ.info.address)
    | .getRunnerByInstance id, .ok (.ready info) => id = μ.instanceId → info = μ.info
    | .awaitStart, .ok info => info = μ.info
    | _, _ => True
  next l c r :=
    match c, r with
    | .enterResume _, .ok true => { l with inside := true }
    | .leaveResume _, _ =>
      { l with inside := false, know := if l.know = .ended then .ended else .nothing }
    | c, r => { l with know := learn μ l.know c r }

variable {μ : MoveSetting}

/-! ## Calls that leave the knowledge as it is -/

/-- Task in process `p`, in `resume` or not, with knowledge in `K`. -/
def Within (p : Nat) (b : Bool) (K : Know → Prop) (l : Stage) : Prop :=
  l.process = p ∧ l.inside = b ∧ K l.know

/-- The call is not on the operation, and changes neither the source nor its
weight. -/
def quiet : Call → Bool
  | .getMoveOperation | .updateMoveOperation _ _ | .removeMoveOperation _ _
  | .updateEndpointWeight _ _ _ | .transition _ _ _ | .enterResume _ | .leaveResume _ => false
  | _ => true

/-- Quiet calls keep the knowledge in `K`. -/
def Steady (μ : MoveSetting) (K : Know → Prop) : Prop :=
  ∀ k c r, K k → quiet c = true → K (learn μ k c r)

theorem steady_early : Steady μ (· = .early) := by
  rintro _ c r rfl hq
  cases c <;> first | rfl | exact absurd hq Bool.false_ne_true

theorem steady_ended : Steady μ (· = .ended) := by
  rintro _ c r rfl -
  rfl

/-- Outside `resume` nothing is known, or that the source is gone. -/
def Know.Loose (k : Know) : Prop := k = .nothing ∨ k = .ended

theorem loose_ite {c} [Decidable c] : (if c then Know.ended else .nothing).Loose := by
  by_cases h : c
  · rw [if_pos h]
    exact .inr rfl
  · rw [if_neg h]
    exact .inl rfl

theorem steady_loose : Steady μ Know.Loose := by
  rintro _ c r (rfl | rfl) hq
  · cases c with
    | getInstance =>
      match r with
      | .error _ => exact .inl rfl
      | .ok record => exact loose_ite
    | scan =>
      match r with
      | .error _ => exact .inl rfl
      | .ok ids => exact loose_ite
    | scanned =>
      match r with
      | .error _ => exact .inl rfl
      | .ok keys => exact loose_ite
    | _ => first | exact .inl rfl | exact absurd hq Bool.false_ne_true
  · exact .inr rfl

def Know.Cutting (k : Know) : Prop := ∃ active, k = .cutting active

theorem steady_cutting : Steady μ Know.Cutting := by
  rintro _ c r ⟨_, rfl⟩ hq
  cases c with
  | getInstance =>
    match r with
    | .error _ | .ok none | .ok (some _) => exact ⟨_, rfl⟩
  | _ => first | exact ⟨_, rfl⟩ | exact absurd hq Bool.false_ne_true

variable {c : Call} {l : Stage}

theorem next_learn (hc : c.part ≠ some .resuming) (r : Except Failure (Reply c)) :
    (contract μ).next l c r = { l with know := learn μ l.know c r } := by
  cases c <;> first | rfl | exact absurd rfl hc

theorem next_quiet (hq : quiet c = true) (r : Except Failure (Reply c)) :
    (contract μ).next l c r = { l with know := learn μ l.know c r } := by
  refine next_learn ?_ r
  cases c with
  | enterResume | leaveResume => exact absurd hq Bool.false_ne_true
  | _ => exact nofun

variable {p : Nat} {b : Bool} {K : Know → Prop}

theorem keepsCall_quiet (hK : Steady μ K) (hq : quiet c = true)
    (ha : ∀ l, Within p b K l → (contract μ).allowed l c) :
    KeepsCall (contract μ) (Within p b K) c := by
  intro l hl
  refine ⟨ha l hl, fun r _ => ?_⟩
  rw [next_quiet hq]
  exact ⟨hl.1, hl.2.1, hK _ _ _ hl.2.2 hq⟩

def free : Call → Bool
  | .removeModel | .addEndpoint _ _ | .removeEndpoint _ _ | .cutoverEndpointAndWait _ _
  | .writeInstance _ _ | .removeInstance _ => false
  | c => quiet c

theorem keepsCall_free (hK : Steady μ K) (c : Call) (hf : free c = true) :
    KeepsCall (contract μ) (Within p b K) c := by
  refine keepsCall_quiet hK ?_ fun l _ => ?_
  · cases c <;> first | rfl | exact absurd hf Bool.false_ne_true
  · cases c <;> first | exact trivial | exact absurd hf Bool.false_ne_true

variable {updates : InstanceUpdates} {target : ModelLifecycleState}

theorem learn_transition {k id} (hid : id ≠ μ.sourceId) (r : Except Failure InstanceState) :
    learn μ k (.transition id target updates) r = k := by
  cases k with
  | cutting active =>
    show Know.cutting (active && decide (id ≠ μ.sourceId)) = .cutting active
    rw [decide_eq_true hid, Bool.and_true]
  | _ => rfl

theorem keepsCall_transition (hu : (updates.runnerHost = none ∧ updates.runnerPort = none ∧
      updates.runnerEnginePort = none) ∨ updates = activeUpdates μ.info) :
    KeepsCall (contract μ) (Within p b K) (.transition μ.instanceId target updates) := by
  intro l hl
  refine ⟨⟨fun h => absurd h.symm μ.source_ne, fun _ => hu⟩, fun r _ => ?_⟩
  refine ⟨hl.1, hl.2.1, ?_⟩
  show K (learn μ l.know _ r)
  rw [learn_transition (Ne.symm μ.source_ne)]
  exact hl.2.2

/-! ## `refreshModelRoutingState` -/

theorem refreshDecision_of_alive {records record}
    (hmem : record ∈ records) (ha : alive (some record) = true) :
    ∃ decision, refreshDecision records = some decision := by
  have hstate : ∃ q, (q = .active ∨ q = .draining) ∧ HasState records q :=
    ⟨record.state, by simpa [alive] using ha, record, hmem, rfl⟩
  obtain ⟨q, hq, hhas⟩ := hstate
  have hrel : q ∈ (records.filter fun i => i.state ≠ .stopped).map (·.state) :=
    mem_relevant.mpr ⟨by rcases hq with rfl | rfl <;> exact nofun, hhas⟩
  unfold refreshDecision deriveAggregateState
  generalize (records.filter fun i => i.state ≠ .stopped).map (·.state) = relevant at hrel
  have hne : relevant.isEmpty = false := by
    cases relevant with
    | nil => exact absurd hrel List.not_mem_nil
    | cons => rfl
  rcases hq with rfl | rfl
  · simp [hne, hrel, aggregateStatePrecedence, toRoutingState]
  · by_cases hactive : .active ∈ relevant
    · simp [hne, hactive, aggregateStatePrecedence, toRoutingState]
    · by_cases hstarting : .starting ∈ relevant
      · simp [hne, hactive, hstarting, aggregateStatePrecedence, toRoutingState]
      · simp [hne, hactive, hstarting, hrel, aggregateStatePrecedence, toRoutingState]

theorem learn_ended_or {k r seen}
    (hx : k.exclusive = true → seen) (hn : learn μ .nothing c r = .ended ∨ seen) :
    learn μ k c r = .ended ∨ seen := by
  cases k with
  | nothing => exact hn
  | ended => exact .inl rfl
  | early | cutting _ | restored => exact .inr (hx rfl)

theorem seen_of_getInstance {record : Option InstanceState}
    (hexp : (contract μ).expected l (.getInstance μ.sourceId) (.ok record)) :
    ((contract μ).next l (.getInstance μ.sourceId) (.ok record)).know = .ended ∨
      alive record = true := by
  refine learn_ended_or (fun hx => (hexp.1 rfl hx).1) ?_
  by_cases ha : alive record = true
  · exact .inr ha
  · exact .inl (if_pos ⟨rfl, Bool.eq_false_iff.mpr ha⟩)

theorem seen_of_scan {ids : List String} (hexp : (contract μ).expected l .scan (.ok ids)) :
    ((contract μ).next l .scan (.ok ids)).know = .ended ∨ μ.sourceId ∈ ids := by
  refine learn_ended_or hexp ?_
  by_cases ha : μ.sourceId ∈ ids
  · exact .inr ha
  · exact .inl (if_pos ha)

theorem seen_of_scanned {startIds keys : List String} (hstart : μ.sourceId ∈ startIds)
    (hexp : (contract μ).expected l (.scanned startIds) (.ok keys)) :
    ((contract μ).next l (.scanned startIds) (.ok keys)).know = .ended ∨ μ.sourceId ∈ keys := by
  refine learn_ended_or (fun hx => hexp hx hstart) ?_
  by_cases ha : μ.sourceId ∈ keys
  · exact .inr ha
  · exact .inl (if_pos ⟨hstart, ha⟩)

theorem ended_next (l : Stage) (hq : quiet c = true) (r : Except Failure (Reply c))
    (h : l.know = .ended) : ((contract μ).next l c r).know = .ended := by
  rw [next_quiet hq, h]
  rfl

/-- The source is among the records that were read, or the task knows that it
is gone. -/
def Sees (μ : MoveSetting) (ids : List String) (l : Stage)
    (r : Except Failure (List InstanceState)) : Prop :=
  ∀ records, r = .ok records → l.know = .ended ∨
    (μ.sourceId ∈ ids → ∃ record ∈ records, alive (some record) = true)

theorem obeys_readInstances (hK : Steady μ K) : ∀ (ids : List String) (l : Stage),
    Within p b K l → Obeys (contract μ)
      (fun l' r => Within p b K l' ∧ (l.know = .ended → l'.know = .ended) ∧ Sees μ ids l' r)
      (readInstances ids) l
  | [], l, hl => by
    refine ⟨hl, id, ?_⟩
    rintro records -
    exact .inr fun h => absurd h List.not_mem_nil
  | id :: ids, l, hl => by
    refine obeys_bind.mpr ⟨trivial, fun r hr => ?_⟩
    have hnext := (keepsCall_free hK (.getInstance id) rfl l hl).2 r hr
    have hover := ended_next (μ := μ) l rfl r
    cases r with
    | error e => exact ⟨hnext, hover, nofun⟩
    | ok record =>
      refine obeys_bind.mpr ((obeys_readInstances hK ids _ hnext).mono ?_)
      rintro l' (e | records) ⟨hl', hover', hsees⟩
      · exact ⟨hl', fun h => hover' (hover h), nofun⟩
      · refine ⟨hl', fun h => hover' (hover h), ?_⟩
        intro records' heq
        obtain rfl : record.toList ++ records = records' := Except.ok.inj heq
        rcases hsees records rfl with h | h
        · exact .inl h
        by_cases hid : id = μ.sourceId
        · subst hid
          rcases seen_of_getInstance hr with hgone | halive
          · exact .inl (hover' hgone)
          · cases record with
            | none => cases halive
            | some record => exact .inr fun _ => ⟨record, by simp, halive⟩
        · refine .inr fun hmem => ?_
          rcases List.mem_cons.mp hmem with h' | h'
          · exact absurd h'.symm hid
          · obtain ⟨record', hrec, ha⟩ := h h'
            exact ⟨record', List.mem_append_right _ hrec, ha⟩

theorem keeps_refresh_move (hK : Steady μ K) :
    Keeps (contract μ) (Within p b K) refreshModelRoutingState := by
  intro l hl
  have hread : Obeys (contract μ)
      (fun l r => Within p b K l ∧ ∀ records, r = .ok records →
        l.know = .ended ∨ ∃ record ∈ records, alive (some record) = true)
      getInstancesForModel l := by
    refine obeys_bind.mpr ⟨trivial, fun r hr => ?_⟩
    have hl₁ := (keepsCall_free hK .scan rfl l hl).2 r hr
    cases r with
    | error e => exact ⟨hl₁, nofun⟩
    | ok startIds =>
      refine obeys_bind.mpr ⟨trivial, fun r hr' => ?_⟩
      have hl₂ := (keepsCall_free hK (.scanned startIds) rfl _ hl₁).2 r hr'
      have hover := ended_next (μ := μ) ((contract μ).next l .scan (.ok startIds))
        rfl r
      cases r with
      | error e => exact ⟨hl₂, nofun⟩
      | ok keys =>
        refine (obeys_readInstances hK keys _ hl₂).mono ?_
        rintro _ r ⟨hl', hover', hsees⟩
        refine ⟨hl', fun records hrecords => ?_⟩
        rcases seen_of_scan hr with hgone | hstart
        · exact .inl (hover' (hover hgone))
        rcases seen_of_scanned hstart hr' with hgone | hkey
        · exact .inl (hover' hgone)
        · exact (hsees records hrecords).imp_right fun h => h hkey
  refine obeys_bind.mpr (hread.mono ?_)
  rintro l (e | records) ⟨hl, hsees⟩
  · exact hl
  change Obeys (contract μ) _ _ l
  cases hd : refreshDecision records with
  | some decision => exact keepsCall_free hK (.setModelState _ _) rfl l hl
  | none =>
    rcases hsees records rfl with hover | ⟨record, hmem, ha⟩
    · refine ⟨hover, fun r _ => ?_⟩
      exact ⟨hl.1, hl.2.1, hK _ _ _ hl.2.2 rfl⟩
    · obtain ⟨decision, hsome⟩ := refreshDecision_of_alive hmem ha
      exact nomatch hd.symm.trans hsome

/-! ## The helpers obey it -/

theorem keepsCall_getReplacement :
    KeepsCall (contract μ) (Within p b K) (.getInstance μ.instanceId) := by
  intro l hl
  refine ⟨trivial, fun r _ => ⟨hl.1, hl.2.1, ?_⟩⟩
  have hsame : learn μ l.know (.getInstance μ.instanceId) r = l.know := by
    cases l.know with
    | nothing =>
      match r with
      | .error _ => rfl
      | .ok record => exact if_neg fun h => μ.source_ne h.1.symm
    | cutting =>
      match r with
      | .error _ | .ok none => rfl
      | .ok (some record) => exact congrArg Know.cutting (if_neg (Ne.symm μ.source_ne))
    | _ => rfl
  show K (learn μ l.know _ r)
  rw [hsame]
  exact hl.2.2

theorem upkeep_replacement (hK : Steady μ K) : Upkeep (contract μ) (Within p b K) μ.instanceId where
  refresh := keeps_refresh_move hK
  getInstance := keepsCall_getReplacement
  transition := fun _ _ hu => keepsCall_transition (.inl ⟨hu.1, hu.2.1, hu.2.2.1⟩)
  getHealth := keepsCall_free hK _ rfl
  aborted := keepsCall_free hK _ rfl

section
variable (hK : Steady μ K) (modelName : String)
include hK modelName

theorem keeps_setReplacement : Keeps (contract μ) (Within p b K)
      (setRunnerEndpoint modelName μ.instanceId μ.info.placement) := by
  refine keeps_setRunnerEndpoint keepsCall_getReplacement ?_ modelName
  intro _ record _ _
  refine keepsCall_quiet hK rfl fun l _ => ⟨fun h => absurd h.symm μ.source_ne, fun _ => ?_⟩
  exact endpointAddress_withEndpoint record μ.info

theorem obeys_lookup (hl : Within p b K l) :
    Obeys (contract μ) (fun l r => Within p b K l ∧ ∀ info, r = .ok (.ready info) → info = μ.info ∧
        Keeps (contract μ) (Within p b K) (setRunnerEndpoint modelName μ.instanceId info.placement))
      (await (.getRunnerByInstance μ.instanceId)) l := by
  refine (keepsCall_free hK (.getRunnerByInstance μ.instanceId) rfl l hl).imp_right
    fun h r hr => ⟨h r hr, ?_⟩
  rintro info rfl
  obtain rfl : info = μ.info := hr rfl
  exact ⟨rfl, keeps_setReplacement hK modelName⟩

theorem reaping_replacement : Move.Reaping (contract μ) (Within p b K) modelName μ.instanceId where
  upkeep := upkeep_replacement hK
  worker := fun _ => keepsCall_free hK _ rfl
  now := keepsCall_free hK _ rfl
  stopRunner := fun _ => keepsCall_free hK _ rfl
  bookkeeping := keepsCall_free hK _ rfl
  removeInstance := keepsCall_quiet hK rfl fun l _ h => absurd h.symm μ.source_ne
  lookup := fun _ hl => (obeys_lookup hK modelName hl).mono fun _ _ h =>
    ⟨h.1, fun info hinfo => (h.2 info hinfo).2⟩
  removeEndpoint := by
    intro l _ address _ hexp haddr
    obtain rfl : address = μ.info.address := hexp.2 rfl address haddr
    exact keepsCall_quiet hK rfl fun l _ h => absurd h.symm μ.address_ne

end

theorem keepsCall_ended (hpart : c.part ≠ some .resuming)
    (ha : ∀ l, Within p true (· = .ended) l → (contract μ).allowed l c) :
    KeepsCall (contract μ) (Within p true (· = .ended)) c := by
  intro l hl
  refine ⟨ha l hl, fun r _ => ?_⟩
  have hlearn : learn μ l.know c r = .ended := by
    rw [hl.2.2]
    rfl
  rw [next_learn hpart]
  exact ⟨hl.1, hl.2.1, hlearn⟩

theorem reaping_source (modelName : String) :
    Move.Reaping (contract μ) (Within p true (· = .ended)) modelName μ.sourceId where
  upkeep :=
    { refresh := keeps_refresh_move steady_ended
      getInstance := keepsCall_free steady_ended _ rfl
      transition := fun _ _ _ => keepsCall_ended nofun fun _ hl =>
        ⟨fun _ => .inl hl.2.2, fun h => absurd h μ.source_ne⟩
      getHealth := keepsCall_free steady_ended _ rfl
      aborted := keepsCall_free steady_ended _ rfl }
  worker := fun _ => keepsCall_free steady_ended _ rfl
  now := keepsCall_free steady_ended _ rfl
  stopRunner := fun _ => keepsCall_free steady_ended _ rfl
  bookkeeping := keepsCall_free steady_ended _ rfl
  removeInstance := keepsCall_ended nofun fun _ hl _ => hl.2.2
  lookup := by
    intro l hl
    refine (keepsCall_free steady_ended (.getRunnerByInstance μ.sourceId) rfl l hl).imp_right
      fun h r hr => ⟨h r hr, fun _ _ => ?_⟩
    refine keeps_setRunnerEndpoint (keepsCall_free steady_ended _ rfl) ?_ modelName
    intro _ _ _ _
    exact keepsCall_ended nofun fun _ hl => ⟨fun _ => hl.2.2, fun h => absurd h μ.source_ne⟩
  removeEndpoint := fun _ _ _ _ _ _ => keepsCall_ended nofun fun _ hl _ => hl.2.2

variable {params : DeployModelParams}

theorem deploying_loose (hid : params.instanceId = μ.instanceId) :
    Deploying (contract μ) (Within p false Know.Loose) params where
  leader := keepsCall_free steady_loose _ rfl
  bookkeeping := keepsCall_free steady_loose _ rfl
  upkeep := hid ▸ upkeep_replacement steady_loose

theorem keepsCall_addReplacement (hK : Steady μ K) (protocol : Protocol) :
    KeepsCall (contract μ) (Within p b K)
      (.addEndpoint (routedEndpoint μ.info) protocol) :=
  keepsCall_quiet hK rfl fun _ _ => Ne.symm μ.address_ne

theorem obeys_deployModel (timeouts : Timeouts) (hid : params.instanceId = μ.instanceId)
    (hl : Within p false Know.Loose l) :
    Obeys (contract μ) (fun l _ => Within p false Know.Loose l) (deployModel timeouts params)
      l := by
  have hdep := deploying_loose (μ := μ) (p := p) hid
  refine (hdep.deployModel hdep hdep (J := Within p false Know.Loose) ?_ ?_ hl).mono fun l _ h => ?_
  · intro l hl
    refine hdep.prepareStart (keepsCall_free steady_loose _ rfl) (fun l hl => ?_) hl
    refine (keepsCall_free steady_loose .sendStart rfl l hl).imp_right fun h r hr => ?_
    match r, h r hr with
    | .error _, h | .ok false, h | .ok true, h => exact h
  · intro l hl
    refine (keepsCall_free steady_loose .awaitStart rfl l hl).imp_right fun h r hr => ?_
    match r, hr, h r hr with
    | .error _, _, h => exact h
    | .ok info, hr, h =>
      obtain rfl : info = μ.info := hr
      refine ⟨h, hdep.activate ?_ (keepsCall_addReplacement steady_loose _) ?_ timeouts⟩
      · rw [hid]
        exact keeps_setReplacement steady_loose _
      · rw [hid]
        exact keepsCall_transition (.inr rfl)
  · grind

theorem keeps_recoverReplacementStart (hK : Steady μ K) (timeouts : Timeouts) (modelName : String)
    {operation} (hown : Owns μ operation) (initial : InstanceState) :
    Keeps (contract μ) (Within p b K)
      (recoverReplacementStart timeouts modelName operation initial) := by
  obtain ⟨-, -, hid⟩ := hown
  have habsent : Keeps (contract μ) (Within p b K) (recoverAbsent operation) := by
    unfold recoverAbsent
    rw [hid]
    refine ((keepsCall_transition (.inl ⟨rfl, rfl, rfl⟩)).bind fun _ =>
      .pure _).tryCatch fun err => ?_
    exact keepsCall_getReplacement.bind fun _ => .ite (.pure _) (.throw _)
  have hready : ∀ workerId, Keeps (contract μ) (Within p b K)
      (recoverReady modelName workerId operation initial μ.info) := by
    intro workerId
    unfold recoverReady recoverReady.markStarting
    rw [hid]
    refine (Keeps.ite (keepsCall_transition (.inl ⟨rfl, rfl, rfl⟩)).perform (Keeps.pure _)).bind
      fun _ => (keeps_setReplacement hK modelName).bind fun _ => ?_
    refine (keepsCall_addReplacement hK _).bind fun _ => ?_
    refine (Keeps.tryCatch (keepsCall_transition (.inr rfl)).perform fun err => ?_).bind
      fun _ => (keeps_refresh_move hK).bind fun _ => ?_
    · refine keepsCall_getReplacement.bind fun current => ?_
      cases current with
      | some current => exact .ite (.pure _) (.throw _)
      | none => exact .throw _
    · exact (keeps_ignoringErrors (keepsCall_free hK _ rfl).perform).bind fun _ => .pure _
  refine (keepsCall_free hK (.getWorker _) rfl).bind fun _ =>
    .ite ?_ (.pure _)
  rw [hid]
  intro l hl
  refine obeys_bind.mpr ((obeys_lookup hK modelName hl).mono fun l r hlr => ?_)
  match r, hlr with
  | .error e, hlr | .ok (.starting _), hlr => exact hlr.1
  | .ok .absent, hlr =>
    have hwait := (keepsCall_free hK .now rfl).bind fun now =>
      .ite (c := now < operation.createdAt + timeouts.ambiguousStartGraceMs) (.pure none) habsent
    exact hwait l hlr.1
  | .ok (.ready info), hlr =>
    obtain ⟨rfl, -⟩ := hlr.2 info rfl
    exact hready _ l hlr.1

/-! ## The phases obey it -/

/-- In `resume`, whatever is known. -/
abbrev Inside (p : Nat) : Stage → Prop := Within p true fun _ => True

/-- In `resume`, with this knowledge. -/
abbrev At (p : Nat) (k : Know) : Stage → Prop := Within p true (· = k)

theorem Within.inside (h : Within p true K l) : Inside p l := ⟨h.1, h.2.1, trivial⟩

theorem next_inside (hl : Inside p l) (c : Call) (hc : c.part ≠ some .resuming)
    (r : Except Failure (Reply c)) : Inside p ((contract μ).next l c r) := by
  rw [next_learn hc]
  exact ⟨hl.1, hl.2.1, trivial⟩

/-- The program ends in `resume`, whatever its outcome. -/
abbrev Stays {α : Type} (μ : MoveSetting) (p : Nat) (q : Service α) (l : Stage) : Prop :=
  Obeys (contract μ) (fun l _ => Inside p l) q l

section
variable {α β : Type} {l : Stage}

theorem stays_call {f : Reply c → Service β} (hl : Inside p l) (hc : c.part ≠ some .resuming)
    (ha : (contract μ).allowed l c) (hf : ∀ a, (contract μ).expected l c (.ok a) →
      Inside p ((contract μ).next l c (.ok a)) → Stays μ p (f a) ((contract μ).next l c (.ok a))) :
    Stays μ p (await c >>= f) l := by
  refine obeys_bind.mpr ⟨ha, fun r hr => ?_⟩
  have hin := next_inside (μ := μ) hl c hc r
  cases r with
  | error => exact hin
  | ok a => exact hf a hr hin

theorem stays_keeps {q : Service α} {f : α → Service β} (hq : Keeps (contract μ) (Within p true K) q)
    (hl : Within p true K l) (hf : ∀ l a, Within p true K l → Stays μ p (f a) l) :
    Stays μ p (q >>= f) l :=
  hq.obeys_bind hl hf fun _ _ hl => hl.inside

end

variable {operation : MoveOperation} {timeouts : Timeouts} {modelName : String} {l : Stage}

theorem obeys_finish (hown : Owns μ operation) {success} (hl : Inside p l)
    (h : (success = true ∧ l.know = .ended) ∨
      (success = false ∧ (l.know = .early ∨ l.know = .restored))) :
    Stays μ p (finish operation success) l :=
  stays_call hl nofun ⟨hown.1, h⟩ fun _ _ hin => hin

theorem obeys_resumeCleanup (hown : Owns μ operation) (hl : At p .early l) :
    Stays μ p (resumeCleanup timeouts modelName operation) l := by
  have hfinish : ∀ l, At p .early l → Stays μ p (finish operation false) l :=
    fun l hl => obeys_finish hown hl.inside (.inr ⟨rfl, .inl hl.2.2⟩)
  unfold resumeCleanup
  rw [hown.2.2]
  refine stays_keeps keepsCall_getReplacement.perform hl fun l replacement hl => ?_
  cases replacement with
  | none => exact hfinish l hl
  | some replacement =>
    refine stays_keeps ((reaping_replacement steady_early modelName).teardown timeouts replacement
      true) hl fun l gone hl => ?_
    cases gone with
    | true => exact hfinish l hl
    | false => exact hl.inside

theorem obeys_resumeDraining (hown : Owns μ operation) (hl : At p .ended l) :
    Stays μ p (resumeDraining timeouts modelName operation) l := by
  have hfinish : ∀ l, At p .ended l → Stays μ p (finish operation true) l :=
    fun l hl => obeys_finish hown hl.inside (.inl ⟨rfl, hl.2.2⟩)
  unfold resumeDraining
  rw [hown.2.1]
  refine stays_keeps (keepsCall_free steady_ended .isLeader rfl).perform hl fun l leader hl => ?_
  cases leader with
  | false => exact hl.inside
  | true =>
    refine stays_keeps (keepsCall_free steady_ended (.getInstance μ.sourceId) rfl).perform hl
      fun l source hl => ?_
    cases source with
    | none => exact hfinish l hl
    | some source =>
      refine stays_keeps ((reaping_source modelName).teardown timeouts source false) hl
        fun l gone hl => ?_
      cases gone with
      | true => exact hfinish l hl
      | false => exact hl.inside

/-- What `resume` knows once it has read the source: its record, and in
`CUTTING_OVER` whether it is still `ACTIVE`. -/
def SourceRead (μ : MoveSetting) (p : Nat) (operation : MoveOperation) (source : InstanceState)
    (l : Stage) : Prop :=
  source.endpointAddress = some μ.sourceAddress ∧
    ((operation.phase = .replacementReady ∧ source.state = .active ∧ At p .early l) ∨
      (operation.phase = .cuttingOver ∧ At p (.cutting (source.state = .active)) l))

variable {source : InstanceState}

theorem SourceRead.inside (h : SourceRead μ p operation source l) : Inside p l := by
  rcases h.2 with ⟨-, -, h⟩ | ⟨-, h⟩
  · exact h.inside
  · exact h.inside

theorem keeps_shiftTraffic (hown : Owns μ operation) (source : InstanceState) :
    Keeps (contract μ) (Within p true Know.Cutting) (shiftTraffic operation source) := by
  have hdrain : KeepsCall (contract μ) (Within p true Know.Cutting)
      (.transition μ.sourceId .draining {}) := by
    rintro l ⟨hp, hin, active, hk⟩
    refine ⟨⟨fun _ => .inr ⟨⟨active, hk⟩, rfl, rfl⟩, fun h => absurd h μ.source_ne⟩,
      fun r _ => ⟨hp, hin, ?_⟩⟩
    show Know.Cutting (learn μ l.know _ r)
    rw [hk]
    exact ⟨_, rfl⟩
  unfold shiftTraffic
  rw [hown.2.1]
  refine .ite ?_ (.ite (.pure _) (.throw _))
  split
  · exact .throw _
  · refine .bind (KeepsCall.perform ?_) fun _ => .ite ?_ (.throw _)
    · exact keepsCall_quiet steady_cutting rfl fun l hl => hl.2.2
    · refine (keepsCall_free steady_cutting .isLeader rfl).bind fun _ =>
        .ite ?_ (.pure _)
      exact hdrain.bind fun _ => (keeps_refresh_move steady_cutting).bind fun _ =>
        .pure _

theorem obeys_cutOver (hown : Owns μ operation) (hl : SourceRead μ p operation source l) :
    Stays μ p (cutOver timeouts modelName operation source) l := by
  have hknow : l.know = .early ∨ l.know.Cutting := by
    rcases hl.2 with ⟨-, -, h⟩ | ⟨-, h⟩
    · exact .inl h.2.2
    · exact .inr ⟨_, h.2.2⟩
  refine stays_call hl.inside nofun ⟨hown.1, hl.inside.2.1, hknow⟩ fun updated hr hin => ?_
  cases updated with
  | none => exact hin
  | some cuttingOver =>
    obtain ⟨hown', hphase⟩ := hr
    replace hphase : cuttingOver.phase = .cuttingOver := hphase _ rfl
    have hcut : Within p true Know.Cutting ((contract μ).next l
        (.updateMoveOperation operation.operationId { phase := some .cuttingOver })
        (.ok (some cuttingOver))) := by
      refine ⟨hin.1, hin.2.1, ?_⟩
      show Know.Cutting (learn μ l.know _ _)
      rcases hknow with h | ⟨active, h⟩
      · rw [h]
        exact ⟨true, if_pos hphase⟩
      · rw [h]
        exact ⟨active, if_neg (by rw [hphase]; exact nofun)⟩
    refine stays_keeps (keepsCall_free steady_cutting .isLeader rfl).perform hcut
      fun l leader hl => ?_
    cases leader with
    | false => exact hl.inside
    | true =>
      refine stays_keeps (keeps_shiftTraffic hown' source) hl fun l shifted hl => ?_
      cases shifted with
      | false => exact hl.inside
      | true =>
        refine stays_call hl.inside nofun ⟨hown'.1, hl.2.1, hl.2.2⟩ fun updated hr hin => ?_
        cases updated with
        | none => exact hin
        | some =>
          obtain ⟨active, hk⟩ := hl.2.2
          refine obeys_resumeDraining hr.1 ⟨hin.1, hin.2.1, ?_⟩
          show learn μ l.know _ _ = .ended
          rw [hk]
          exact if_pos (hr.2 _ rfl)

theorem obeys_toCleanup (hown : Owns μ operation) (hl : Inside p l)
    (h : l.know = .early ∨ l.know = .restored) (errorMessage : String) :
    Obeys (contract μ) (fun l r => Inside p l ∧ ∀ updated, r = .ok (some updated) →
        Owns μ updated ∧ updated.phase = .replacementCleanup ∧ l.know = .early)
      (toCleanup operation errorMessage) l := by
  refine ⟨⟨hown.1, .inr h⟩, fun r hr => ⟨next_inside hl (.updateMoveOperation
    operation.operationId
    { phase := some .replacementCleanup, errorMessage := some errorMessage }) nofun r, ?_⟩⟩
  rintro updated rfl
  have hphase : updated.phase = .replacementCleanup := hr.2 _ rfl
  refine ⟨hr.1, hphase, ?_⟩
  show learn μ l.know _ _ = .early
  rcases h with h | h
  · rw [h]
    exact if_neg (by rw [hphase]; exact nofun)
  · rw [h]
    exact if_pos hphase

theorem obeys_rollBack (hl : SourceRead μ p operation source l) : Obeys (contract μ)
      (fun l r => Inside p l ∧ ∀ a, r = .ok a → l.know = .early ∨ l.know = .restored)
      (replacementUnavailable.rollBack operation source) l := by
  unfold replacementUnavailable.rollBack
  by_cases hactive : source.state = .active
  · rw [if_neg (not_not.mpr hactive)]
    obtain ⟨haddr, ⟨hphase, -, hk⟩ | ⟨hphase, hk⟩⟩ := hl
    · rw [if_neg (by rw [hphase]; exact nofun)]
      exact ⟨hk.inside, fun _ _ => .inl hk.2.2⟩
    · rw [if_pos hphase]
      have hcut : l.know = .cutting true := by
        simpa [hactive] using hk.2.2
      simp only [restoreSourceWeight, haddr]
      refine obeys_bind.mpr ⟨⟨rfl, rfl, hcut⟩, fun r _ => ?_⟩
      have hin := next_inside (μ := μ) hk.inside
        (.updateEndpointWeight μ.sourceAddress.1 μ.sourceAddress.2 1) nofun r
      match r, hin with
      | .error e, hin | .ok false, hin => exact ⟨hin, nofun⟩
      | .ok true, hin =>
        refine ⟨hin, fun _ _ => .inr ?_⟩
        show learn μ l.know _ _ = .restored
        rw [hcut]
        rfl
  · rw [if_pos hactive]
    exact ⟨hl.inside, nofun⟩

theorem obeys_replacementUnavailable (hown : Owns μ operation)
    (hl : SourceRead μ p operation source l) (replacement : Option InstanceState) :
    Stays μ p (replacementUnavailable operation source replacement) l := by
  unfold replacementUnavailable
  cases replacement with
  | none =>
    refine obeys_bind.mpr ((obeys_rollBack hl).mono ?_)
    grind [obeys_finish]
  | some =>
    dsimp only
    split
    · refine obeys_bind.mpr ((obeys_rollBack hl).mono ?_)
      rintro l (e | u) ⟨hin, hk⟩
      · exact hin
      · refine obeys_bind.mpr ((obeys_toCleanup hown hin (hk u rfl) _).mono ?_)
        rintro l (e | _) ⟨hin, -⟩
        · exact hin
        · exact hin
    · exact hl.inside

theorem obeys_resumeCutover (hown : Owns μ operation)
    (hl : (operation.phase = .replacementReady ∧ At p .early l) ∨
      (operation.phase = .cuttingOver ∧ Within p true Know.Cutting l)) :
    Stays μ p (resumeCutover timeouts modelName operation) l := by
  have hin : Inside p l := by
    rcases hl with ⟨-, h⟩ | ⟨-, h⟩
    all_goals exact h.inside
  have hexcl : l.know.exclusive = true := by
    rcases hl with ⟨-, -, -, h⟩ | ⟨-, -, -, active, h⟩
    · rw [h]
      rfl
    · rw [h]
      rfl
  unfold resumeCutover
  rw [hown.2.1, hown.2.2]
  refine stays_call hin nofun trivial fun read hr hin' => ?_
  cases read with
  | none => exact nomatch (hr.1 rfl hexcl).1
  | some source =>
    obtain ⟨-, haddr, hearly⟩ := hr.1 rfl hexcl
    have hread : SourceRead μ p operation source
        ((contract μ).next l (.getInstance μ.sourceId) (.ok (some source))) := by
      refine ⟨haddr, ?_⟩
      rcases hl with ⟨hphase, -, -, h⟩ | ⟨hphase, -, -, active, h⟩
      · refine .inl ⟨hphase, by simpa using hearly h, hin'.1, hin'.2.1, ?_⟩
        show learn μ l.know _ _ = .early
        rw [h]
        rfl
      · refine .inr ⟨hphase, hin'.1, hin'.2.1, ?_⟩
        show learn μ l.know _ _ = .cutting _
        rw [h]
        exact congrArg Know.cutting (if_pos rfl)
    -- The read of the replacement does not change what is known of the source.
    have hkeep : KeepsCall (contract μ) (SourceRead μ p operation source)
        (.getInstance μ.instanceId) := by
      intro l hl
      refine ⟨trivial, fun r hr => ⟨hl.1, ?_⟩⟩
      rcases hl.2 with ⟨hphase, hactive, h⟩ | ⟨hphase, h⟩
      · exact .inl ⟨hphase, hactive, (keepsCall_getReplacement l h).2 r hr⟩
      · exact .inr ⟨hphase, (keepsCall_getReplacement l h).2 r hr⟩
    refine hkeep.obeys_bind hread (fun l _ hl => ?_) fun l _ hl => hl.inside
    grind [obeys_cutOver, obeys_replacementUnavailable]

def Matches (p : Nat) (phase : MoveOperationPhase) (l : Stage) : Prop :=
  match phase with
  | .replacementStarting | .replacementReady | .replacementCleanup => At p .early l
  | .cuttingOver => Within p true Know.Cutting l
  | .sourceDraining => At p .ended l

theorem Matches.inside {phase} (h : Matches p phase l) : Inside p l := by
  cases phase <;> exact ⟨h.1, h.2.1, trivial⟩

theorem obeys_resumeFrom (hown : Owns μ operation) (hl : Matches p operation.phase l) :
    Stays μ p (resumeFrom timeouts modelName operation) l := by
  unfold resumeFrom
  cases hphase : operation.phase with
  | replacementStarting => exact hl.inside
  | replacementCleanup =>
    rw [hphase] at hl
    exact obeys_resumeCleanup hown hl
  | replacementReady =>
    rw [hphase] at hl
    exact obeys_resumeCutover hown (.inl ⟨hphase, hl⟩)
  | cuttingOver =>
    rw [hphase] at hl
    exact obeys_resumeCutover hown (.inr ⟨hphase, hl⟩)
  | sourceDraining =>
    rw [hphase] at hl
    exact obeys_resumeDraining hown hl

theorem obeys_settleReplacement (hown : Owns μ operation) (hl : At p .early l)
    (replacement : InstanceState) :
    Stays μ p (settleReplacement timeouts modelName operation replacement) l := by
  have hbook : Keeps (contract μ) (At p .early) (Service.ignoringErrors (await .bookkeeping)) :=
    keeps_ignoringErrors (keepsCall_free steady_early _ rfl).perform
  have hgoOn : ∀ l updated, At p .early l → Owns μ updated →
      (updated.phase = .replacementReady ∨ updated.phase = .replacementCleanup) →
      Stays μ p (settleReplacement.goOn timeouts modelName (some updated)) l := by
    intro l updated hl hown hphase
    refine obeys_resumeFrom hown ?_
    rcases hphase with h | h
    all_goals
      rw [h]
      exact hl
  unfold settleReplacement
  split
  · refine stays_keeps hbook hl fun l _ hl => ?_
    refine stays_call hl.inside nofun ⟨hown.1, trivial⟩ fun updated hr hin => ?_
    cases updated with
    | none => exact hin
    | some updated =>
      have hphase : updated.phase = .replacementReady := hr.2 _ rfl
      refine hgoOn _ updated ⟨hin.1, hin.2.1, ?_⟩ hr.1 (.inl hphase)
      show learn μ l.know _ _ = .early
      rw [hl.2.2]
      exact if_neg (by rw [hphase]; exact nofun)
  · split
    · refine stays_keeps hbook hl fun l _ hl => ?_
      refine obeys_bind.mpr ((obeys_toCleanup hown hl.inside (.inl hl.2.2) _).mono ?_)
      rintro l (e | _ | updated) ⟨hin, hupd⟩
      · exact hin
      · exact hin
      · obtain ⟨hown', hphase, hk⟩ := hupd updated rfl
        exact hgoOn l updated ⟨hin.1, hin.2.1, hk⟩ hown' (.inr hphase)
    · exact hl.inside

theorem obeys_resumeStarting (hown : Owns μ operation) (hl : At p .early l) :
    Stays μ p (resumeStarting timeouts modelName operation) l := by
  unfold resumeStarting
  rw [hown.2.2]
  refine stays_keeps keepsCall_getReplacement.perform hl fun l replacement hl => ?_
  cases replacement with
  | none => exact obeys_finish hown hl.inside (.inr ⟨rfl, .inl hl.2.2⟩)
  | some replacement =>
    dsimp only
    split
    · refine stays_keeps (keeps_recoverReplacementStart steady_early timeouts modelName hown
        replacement) hl fun l recovered hl => ?_
      cases recovered with
      | none => exact hl.inside
      | some recovered => exact obeys_settleReplacement hown hl recovered
    · exact obeys_settleReplacement hown hl replacement

/-! ## The tasks obey it -/

theorem obeys_resumeOperation (hl : Within p true Know.Loose l) :
    Stays μ p (resumeOperation timeouts modelName) l := by
  refine stays_call hl.inside nofun hl.2.1 fun stored hr hin => ?_
  cases stored with
  | none => exact hin
  | some operation =>
    have hmatch : Matches p operation.phase
        ((contract μ).next l .getMoveOperation (.ok (some operation))) := by
      have hknow : ((contract μ).next l .getMoveOperation (.ok (some operation))).know =
          .ofPhase operation.phase := by
        show learn μ l.know _ _ = _
        rcases hl.2.2 with h | h
        · rw [h]
          rfl
        · rw [hr.2 h, h]
          rfl
      cases hphase : operation.phase with
      | cuttingOver => exact ⟨hin.1, hin.2.1, false, by rw [hknow, hphase]; rfl⟩
      | _ => exact ⟨hin.1, hin.2.1, by rw [hknow, hphase]; rfl⟩
    have hkeep : KeepsCall (contract μ) (Matches p operation.phase) .isLeader := by
      cases operation.phase with
      | cuttingOver => exact keepsCall_free steady_cutting _ rfl
      | sourceDraining => exact keepsCall_free steady_ended _ rfl
      | _ => exact keepsCall_free steady_early _ rfl
    refine hkeep.obeys_bind hmatch (fun l leader hl => ?_) fun l _ hl => hl.inside
    cases leader with
    | false => exact hl.inside
    | true =>
      show Obeys (contract μ) _ (if operation.phase = .replacementStarting then
        resumeStarting timeouts modelName operation
        else resumeFrom timeouts modelName operation) l
      split
      · rename_i hphase
        rw [hphase] at hl
        exact obeys_resumeStarting hr.1 hl
      · exact obeys_resumeFrom hr.1 hl

theorem obeys_noteFailure (err : Failure) (hl : Inside p l) :
    Stays μ p (noteFailure err) l := by
  refine obeys_bind.mpr (obeys_tryCatch.mpr ⟨hl.2.1, fun r hr => ?_⟩)
  have hin := next_inside (μ := μ) hl .getMoveOperation nofun r
  match r, hr, hin with
  | .error e, _, hin | .ok none, _, hin => exact hin
  | .ok (some operation), hr, hin =>
    refine obeys_tryCatch.mpr (obeys_bind.mpr ⟨⟨hr.1.1, trivial⟩, fun r _ => ?_⟩)
    have hin' := next_inside (μ := μ) hin (.updateMoveOperation operation.operationId
      { errorMessage := some err.message }) nofun r
    cases r with
    | error _ | ok _ => exact hin'

theorem obeys_resume (hl : Within p false Know.Loose l) :
    Obeys (contract μ) (fun _ _ => True) (resume timeouts modelName p) l := by
  refine obeys_bind.mpr ⟨⟨hl.1.symm, hl.2.1⟩, fun r _ => ?_⟩
  match r with
  | .error e | .ok false => exact trivial
  | .ok true =>
    have hbody : Stays μ p (tryCatch (resumeOperation timeouts modelName) noteFailure)
        ((contract μ).next l (.enterResume p) (.ok true)) := by
      have hentered : Within p true Know.Loose
          ((contract μ).next l (.enterResume p) (.ok true)) := ⟨hl.1, rfl, hl.2.2⟩
      refine obeys_tryCatch.mpr ((obeys_resumeOperation hentered).mono ?_)
      rintro l (e | u) hl
      · exact obeys_noteFailure e hl
      · exact hl
    refine obeys_andFinally.mpr (hbody.mono fun l r hl => ?_)
    refine ⟨⟨hl.1.symm, hl.2.1⟩, fun r' _ => ?_⟩
    cases r' with
    | ok _ | error _ => exact trivial

theorem obeys_runMove (hid : params.instanceId = μ.instanceId) (hl : Within p false Know.Loose l) :
    Obeys (contract μ) (fun _ _ => True) (runMove timeouts μ.operationId params p) l := by
  have hleader := (keepsCall_free (μ := μ) (p := p) (b := false) steady_loose .isLeader rfl).perform
  have hreport : ∀ updates : MoveOperationUpdates,
      (updates.phase = some .replacementReady ∨ updates.phase = some .replacementCleanup) →
      Keeps (contract μ) (Within p false Know.Loose) (do
        if ← await .isLeader then
          let _ ← await (.updateMoveOperation μ.operationId updates)
        else pure ()) := by
    intro updates hphase
    refine hleader.bind fun _ => .ite (.bind (KeepsCall.perform ?_) fun _ =>
      .pure _) (.pure _)
    rintro l ⟨hp, hout, hk⟩
    refine ⟨⟨rfl, ?_⟩, fun r _ => ⟨hp, hout, ?_⟩⟩
    · rcases hphase with h | h
      · rw [h]
        exact trivial
      · rw [h]
        exact .inl hout
    · show Know.Loose (learn μ l.know _ r)
      rcases hk with h | h
      · rw [h]
        exact .inl rfl
      · rw [h]
        exact .inr rfl
  have hdeploy : Obeys (contract μ) (fun l _ => Within p false Know.Loose l)
      (deployReplacement timeouts μ.operationId params) l := by
    refine obeys_tryCatch.mpr (((obeys_deployModel timeouts hid hl).bind_keeps fun _ =>
      hreport _ (.inl rfl)).mono ?_)
    rintro l (e | u) hl
    · exact hreport _ (.inr rfl) l hl
    · exact hl
  refine obeys_andFinally.mpr (hdeploy.mono fun l r hl => (obeys_resume hl).mono ?_)
  grind

end Sardeenz.MoveSafety
