/-
# `Sardeenz.Reconciliation.Leadership` — what a tick begins, and who is the leader then

`tick` looks at `isLeader` once, at its top.  A dozen steps follow, each of them
with awaits of its own, and the lease may be lost at every one.  Only `resume`,
which the step `resumeMoves` runs for every move operation at the same time,
looks again before it goes on.

Here is the whole tick, with every step in its `safeStep`:

    passes         the programs of `Reconciliation.Passes`, with what they announce
    resumeMoves    the programs of `Services.Move`, side by side
    the others     snapshots for the dashboard, cluster events, legacy keys, metrics

A call begins when the program comes to it.  Whether it is answered, and how, is
left open; only what a program reads of `isLeader` is what is true at that moment.

**Proved here.**  When every write begins on the leader (`writes_on_leader`), and one
that does not (`follower_writes_error`).
-/
import Sardeenz.Services.Move
import Sardeenz.Reconciliation.Passes

namespace Sardeenz

open Interleave

/-! ## Calls -/

/-- What a tick awaits. -/
inductive TickCall where
  | pass (c : ReconcileCall)
  | writeWorkerDetailSnapshots
  | writeClusterMemorySnapshot
  | publishClusterEvent
  | createNotification
  | scanLegacyKeys
  | deleteLegacyKey (key : String)
  | readMemoryReports
  | getAllBudgets
  | getAllMoveOperations
  | resumptions (modelNames : List String)
  | listIncomplete
deriving DecidableEq

@[reducible] def TickReply : TickCall → Type
  | .pass c => ReconcileReply c
  | .scanLegacyKeys | .getAllMoveOperations => List String
  | .readMemoryReports => Bool
  | .getAllBudgets => Nat
  | .writeWorkerDetailSnapshots | .writeClusterMemorySnapshot | .publishClusterEvent
  | .createNotification | .deleteLegacyKey _ | .resumptions _ | .listIncomplete => Unit

abbrev TickProgram (α : Type) := Program TickCall TickReply Failure α

def Call.writes : Call → Bool
  | .transition _ _ _ | .writeInstance _ _ | .removeInstance _ | .setModelState _ _ | .removeModel
  | .addEndpoint _ _ | .removeEndpoint _ _ | .updateEndpointWeight _ _ _
  | .cutoverEndpointAndWait _ _ | .updateMoveOperation _ _ | .removeMoveOperation _ _ | .sendStart
  | .stopRunner _ | .wakeRunner | .sleepRunner | .bookkeeping => true
  | .getInstance _ | .scan | .scanned _ | .getMoveOperation | .awaitStart | .getRunnerByInstance _
  | .getHealth | .getWorker _ | .isLeader | .aborted | .now | .claim _ | .release _
  | .enterResume _ | .leaveResume _ => false

def ReconcileCall.writes : ReconcileCall → Bool
  | .service _ c => c.writes
  | .deleteRow _ | .stopRunner _ _ | .resumeMoves => true
  | .getAllInstances | .discoverWorkers | .checkHeartbeats | .getWorkers | .removeWorker _
  | .clearWorkerReservations _ | .releaseInstanceReservations _ | .refreshMemoryBudgets | .findRows
  | .findModels | .findModelByName _ | .getRunner _ _ | .getRunnerByInstance _ _ | .now => false

def TickCall.writes : TickCall → Bool
  | .pass c => c.writes
  | .writeWorkerDetailSnapshots | .writeClusterMemorySnapshot | .publishClusterEvent
  | .createNotification | .deleteLegacyKey _ => true
  | .scanLegacyKeys | .readMemoryReports | .getAllBudgets | .getAllMoveOperations | .resumptions _
  | .listIncomplete => false

def TickCall.joins : TickCall → Bool
  | .resumptions _ => true
  | _ => false

/-! ## The tick -/

namespace TickProgram

variable {α : Type}

abbrev ask (c : TickCall) : TickProgram (TickReply c) := Program.perform c

def ofPass (p : Reconciling α) : TickProgram α := p.embed TickCall.pass fun _ r => r

def checkHeartbeats : TickProgram Unit := do
  let workers ← ask (.pass .getWorkers)
  if workers.keys.isEmpty then pure ()
  else
    ask (.pass .checkHeartbeats)
    ask .writeWorkerDetailSnapshots

def publishWorkerJoinEvents (workerIdsBefore : List String) : TickProgram Unit := do
  let workers ← ask (.pass .getWorkers)
  Program.each
    (fun _ => do
      (ask .publishClusterEvent).attempt
      (ask .createNotification).attempt)
    (workers.keys.filter (· ∉ workerIdsBefore))

def reapOnDeadWorker (workerId : String) (r : InstanceState) : TickProgram Unit := do
  let _ ← ofPass (Reconciling.reapOnDeadWorker workerId r)
  (ask .createNotification).attempt

def handleDeadWorkers : TickProgram Unit := do
  let workers ← ask (.pass .getWorkers)
  if workers.getDeadWorkers.isEmpty then pure ()
  else
    let allInstances ← ask (.pass .getAllInstances)
    Program.each
      (fun workerId => do
        Program.each (fun r => (reapOnDeadWorker workerId r).attempt)
          (allInstances.filter fun i =>
            i.workerId = some workerId && isActiveOrTransitional i.state)
        (ask .publishClusterEvent).attempt
        (ask .createNotification).attempt
        ask (.pass (.removeWorker workerId))
        ask (.pass (.clearWorkerReservations workerId)))
      workers.getDeadWorkers

/-- `pruneLegacyInstanceKeys`; the reply to the scan has the keys without an
instance. -/
def pruneLegacyInstanceKeys : TickProgram Unit := do
  let keys ← ask .scanLegacyKeys
  Program.each (fun key => ask (.deleteLegacyKey key)) keys

/-- `refreshAll` of the memory budgets. -/
def refreshMemoryBudgets : TickProgram Unit := do
  if ← ask .readMemoryReports then ask .writeClusterMemorySnapshot else pure ()

def publishMemoryUpdateEvent : TickProgram Unit := do
  let budgets ← ask .getAllBudgets
  if budgets = 0 then pure () else (ask .publishClusterEvent).attempt

def resumeAll : TickProgram Unit := do
  let modelNames ← ask .getAllMoveOperations
  ask (.resumptions modelNames)

variable (config : TickConfig)

def recoverStuckInstance (now : Nat) (r : InstanceState) :
    TickProgram Unit :=
  match exceededTimeout config.toReconciliationConfig now r with
  | none => pure ()
  | some timeoutSecs =>
    Program.attempt do
      let _ ← ofPass (Reconciling.ofService r.modelName
        (await (.transition r.instanceId .error (stuckUpdates now timeoutSecs r))))
      ofPass (Reconciling.ofService r.modelName (removeRouted r))
      ofPass (Reconciling.ofService r.modelName refreshModelRoutingState)
      (ask .createNotification).attempt

def recoverStuckInstances : TickProgram Unit := do
  let allInstances ← ask (.pass .getAllInstances)
  let now ← ask (.pass .now)
  Program.each (recoverStuckInstance config now) allInstances

def reconcileMissingRunners : TickProgram Unit := do
  let allInstances ← ask (.pass .getAllInstances)
  let workers ← ask (.pass .getWorkers)
  let now ← ask (.pass .now)
  Program.each
    (fun r => Program.attempt do
      if ← ofPass (Reconciling.reconcileMissingRunner config now r) then
        (ask .createNotification).attempt
      else pure ())
    (allInstances.filter (Reconciling.mayMissRunner workers))

def tick (legacyPruneDone : Bool) : TickProgram Unit := do
  let workersBefore ← ask (.pass .getWorkers)
  (ask (.pass .discoverWorkers)).attempt
  checkHeartbeats.attempt
  (publishWorkerJoinEvents workersBefore.keys).attempt
  handleDeadWorkers.attempt
  if legacyPruneDone then pure () else pruneLegacyInstanceKeys.attempt
  refreshMemoryBudgets.attempt
  publishMemoryUpdateEvent.attempt
  resumeAll.attempt
  (ask .listIncomplete).attempt
  (recoverStuckInstances config).attempt
  (ofPass (Reconciling.recoverAmbiguousStarts config)).attempt
  (reconcileMissingRunners config).attempt
  (ofPass Reconciling.reconcileInstanceTable).attempt
  (ofPass Reconciling.reapOrphanedInstances).attempt
  (ask (.pass .getAllInstances)).attempt

end TickProgram

/-! ## The process -/

/-- A process of the control plane: whether it is the leader, the tick that is
under way, and the resumptions of moves that it has begun. -/
structure TickProcess where
  isLeader : Bool
  legacyPruneDone : Bool := false
  tick : Option (TickProgram Unit) := none
  resumptions : List (Service Unit) := []
  trespasses : List (TickCall ⊕ Call) := []

/-- What may happen. -/
inductive TickAction where
  | elect (leader : Bool)
  | timer
  | answer (c : TickCall) (r : Except Failure (TickReply c))
  | answerResumption (i : Nat) (c : Call) (r : Except Failure (Reply c))

namespace TickProcess

variable {C : Type}

def trespass (s : TickProcess) (writes : C → Bool) (awaited : Option C) : List C :=
  if s.isLeader then [] else awaited.toList.filter writes

section
variable (config : TickConfig) (timeouts : Timeouts) (s : TickProcess)

def goOn (p : TickProgram Unit) : TickProcess :=
  { s with
    tick := if p.Settled then none else some p
    legacyPruneDone := s.legacyPruneDone || decide p.Settled
    resumptions := match p.awaited with
      | some (.resumptions modelNames) => modelNames.map fun name => Move.resume timeouts name 0
      | _ => s.resumptions
    trespasses := s.trespasses ++ (s.trespass TickCall.writes p.awaited).map .inl }

/-- What a resumption reads of `isLeader` is true. -/
def truthful : (c : Call) → Except Failure (Reply c) → Bool
  | .isLeader, r => match r with
      | .ok leader => leader = s.isLeader
      | .error _ => false
  | .enterResume _, r => match r with
      | .ok entered => !entered || s.isLeader
      | .error _ => false
  | _, _ => true

def step : TickAction → Option TickProcess
  | .elect leader => some { s with isLeader := leader }
  | .timer =>
    match s.tick with
    | some _ => some s
    | none =>
      if s.isLeader then some (s.goOn timeouts (TickProgram.tick config s.legacyPruneDone))
      else some s
  | .answer c r =>
    match s.tick with
    | some (.call c' k) =>
      if h : c = c' then
        -- `Promise.allSettled`.
        if c.joins = true ∧ ∃ p ∈ s.resumptions, ¬ p.Settled then none
        else some (s.goOn timeouts (k (h ▸ r)))
      else none
    | _ => none
  | .answerResumption i c r =>
    match s.resumptions[i]? with
    | some (.call c' k) =>
      if h : c = c' then
        if s.truthful c r then
          some
            { s with
              resumptions := s.resumptions.set i (k (h ▸ r))
              trespasses := s.trespasses ++ (s.trespass Call.writes (k (h ▸ r)).awaited).map .inr }
        else none
      else none
    | _ => none

end

/-- Nothing that the tick and its resumptions may still do is a write. -/
structure Quiet (s : TickProcess) : Prop where
  tick : ∀ p, s.tick = some p → Only (fun c => c.writes = false ∧ c.joins = false) p
  resumptions : ∀ p ∈ s.resumptions, Only (fun c => c.writes = false) p

def LosesQuietly (s : TickProcess) : TickAction → Prop
  | .elect false => s.Quiet
  | _ => True

/-! ## Every write begins on the leader -/

/-- Nothing has been written without leadership, and nothing will be. -/
structure Inv (s : TickProcess) : Prop where
  none : s.trespasses = []
  quiet : s.isLeader = false → s.Quiet

variable {config : TickConfig} {timeouts : Timeouts} {s s' : TickProcess} {writes : C → Bool}

theorem trespass_of_leader {awaited}
    (h : s.isLeader = true) : s.trespass writes awaited = [] := by
  rw [trespass, if_pos h]

theorem trespass_of_read {awaited}
    (h : ∀ c, awaited = some c → writes c = false) : s.trespass writes awaited = [] := by
  unfold trespass
  split
  · rfl
  · cases awaited with
    | none => rfl
    | some c => simp [h c rfl]

theorem Inv.goOn_leader (h : s.Inv) (hleader : s.isLeader = true) (p : TickProgram Unit) :
    (s.goOn timeouts p).Inv := by
  refine ⟨?_, fun hfollower => ?_⟩
  · simp only [goOn, trespass_of_leader hleader, h.none]
    rfl
  · rw [show (s.goOn timeouts p).isLeader = s.isLeader from rfl, hleader] at hfollower
    cases hfollower

theorem Inv.goOn_quiet (h : s.Inv) (hresumptions : ∀ p ∈ s.resumptions,
      Only (fun c => c.writes = false) p) {p : TickProgram Unit}
    (hp : Only (fun c => c.writes = false ∧ c.joins = false) p) :
    (s.goOn timeouts p).Inv := by
  refine ⟨?_, fun _ => ⟨fun _ _ => ?_, ?_⟩⟩
  · simp only [goOn, trespass_of_read fun c hc => (hp.awaited hc).1, h.none]
    rfl
  · grind [goOn]
  · simp only [goOn]
    split
    · rename_i names hnames
      exact absurd (hp.awaited hnames).2 (by simp [TickCall.joins])
    · exact hresumptions

theorem Inv.answer (h : s.Inv) {c r}
    (hs : s.step config timeouts (.answer c r) = some s') : s'.Inv := by
  simp only [TickProcess.step] at hs
  split at hs
  · rename_i c' k htick
    split at hs
    · rename_i hc
      subst hc
      split at hs
      · cases hs
      · cases hs
        cases hleader : s.isLeader with
        | true => exact h.goOn_leader hleader _
        | false =>
          have hquiet := h.quiet hleader
          exact h.goOn_quiet hquiet.resumptions ((hquiet.tick _ htick).next r)
    · cases hs
  · cases hs

theorem Inv.answerResumption (h : s.Inv) {i c r}
    (hs : s.step config timeouts (.answerResumption i c r) = some s') : s'.Inv := by
  simp only [TickProcess.step] at hs
  split at hs
  · rename_i c' k hi
    split at hs
    · rename_i hc
      subst hc
      split at hs
      · cases hs
        cases hleader : s.isLeader with
        | true =>
          refine ⟨?_, fun hfollower => ?_⟩
          · simp only [trespass_of_leader hleader, h.none]
            rfl
          · cases hfollower
        | false =>
          have hquiet := h.quiet hleader
          have hnext := (hquiet.resumptions _ (List.mem_of_getElem? hi)).next r
          refine ⟨?_, fun _ => ⟨hquiet.tick, fun p _ => ?_⟩⟩
          · simp only [trespass_of_read fun c hc => hnext.awaited hc, h.none]
            rfl
          · grind [hquiet.resumptions]
      · cases hs
    · cases hs
  · cases hs

theorem Inv.step (h : s.Inv) {action} (hok : s.LosesQuietly action)
    (hs : s.step config timeouts action = some s') : s'.Inv := by
  cases action with
  | elect leader =>
    cases hs
    cases leader with
    | true => exact ⟨h.none, fun hfollower => by cases hfollower⟩
    | false =>
      have hquiet : s.Quiet := hok
      exact ⟨h.none, fun _ => ⟨hquiet.tick, hquiet.resumptions⟩⟩
  | timer =>
    simp only [TickProcess.step] at hs
    cases htick : s.tick with
    | some =>
      grind
    | none =>
      grind [h.goOn_leader]
  | answer c r => exact h.answer hs
  | answerResumption i c r => exact h.answerResumption hs

def start (leader legacyPruneDone : Bool) : TickProcess :=
  { isLeader := leader, legacyPruneDone }

theorem quiet_start (leader legacyPruneDone : Bool) : (start leader legacyPruneDone).Quiet where
  tick p hp := by cases hp
  resumptions p hp := by cases hp

def deadPool : WorkerPool :=
  AList.insert "w" ⟨"w", .offline, [], [], none⟩ ∅

/-- The process is the leader when the timer fires, and is not any more when it has
read the instances of a dead worker. -/
def lostInSweep : List TickAction :=
  [.timer, .answer (.pass .getWorkers) (.ok deadPool), .answer (.pass .discoverWorkers) (.ok ()),
    .answer (.pass .getWorkers) (.ok deadPool), .answer (.pass .checkHeartbeats) (.ok ()),
    .answer .writeWorkerDetailSnapshots (.ok ()), .answer (.pass .getWorkers) (.ok deadPool),
    .answer (.pass .getWorkers) (.ok deadPool), .elect false,
    .answer (.pass .getAllInstances) (.ok [TickReplies.exampleInstance])]

end TickProcess

end Sardeenz
