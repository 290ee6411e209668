/-
# `Sardeenz.Reconciliation.Passes` — the passes of a tick and what they clean up

A tick of the reconciliation loop (`reconciliation.ts`) runs its passes one after
the other.  Each pass reads all instances, selects some of them and cleans them
up; an error ends the clean-up of one instance, and the loop goes on.

    handleDeadWorkers         on a worker that is OFFLINE, not STOPPED or ERROR
    recoverStuckInstances     too long in a transitional state; no clean-up, to ERROR only
    recoverAmbiguousStarts    ERROR, with a start of unknown outcome
    reconcileMissingRunners   ACTIVE or STARTING, and the worker does not have the runner
    reconcileInstanceTable    the rows without a record
    reapOrphanedInstances     the model has no row

The four clean-ups take the same steps in different orders:

    dead, missing    → ERROR, endpoint, refresh, record, row, holds
    ambiguous        endpoint, record, row, holds, refresh
    orphan           holds, endpoint, record

Here are the programs and the world they run in.  `Reconciliation/Routing.lean`
is about the routing entry after a clean-up, `Reconciliation/Healing.lean` about
the tick after one that has failed.
-/
import Sardeenz.Alone
import Sardeenz.Services.Recovery
import Sardeenz.Workers.Pool
import Sardeenz.Memory.Holds

namespace Sardeenz

open Interleave

/-! ## Calls -/

/-- What a tick awaits, and what it reads or changes in the process. -/
inductive ReconcileCall where
  | service (modelName : String) (c : Call)
  | getAllInstances
  | discoverWorkers
  | checkHeartbeats
  | getWorkers
  | removeWorker (workerId : String)
  | clearWorkerReservations (workerId : String)
  | releaseInstanceReservations (instanceId : String)
  | refreshMemoryBudgets
  | resumeMoves
  | deleteRow (instanceId : String)
  | findRows
  | findModels
  | findModelByName (modelName : String)
  | getRunner (workerId runnerId : String)
  | getRunnerByInstance (workerId instanceId : String)
  | stopRunner (workerId runnerId : String)
  | now
deriving DecidableEq

@[reducible] def ReconcileReply : ReconcileCall → Type
  | .service _ c => Reply c
  | .getAllInstances => List InstanceState
  | .getWorkers => WorkerPool
  | .findRows | .findModels => List String
  | .findModelByName _ => Bool
  | .getRunner _ _ => Bool
  | .getRunnerByInstance _ _ => RunnerLookup
  | .now => Nat
  | .discoverWorkers | .checkHeartbeats | .removeWorker _ | .clearWorkerReservations _
  | .releaseInstanceReservations _ | .refreshMemoryBudgets | .resumeMoves | .deleteRow _
  | .stopRunner _ _ => Unit

abbrev Reconciling (α : Type) := Program ReconcileCall ReconcileReply Failure α

/-- `ReconciliationConfig`. -/
structure TickConfig extends ReconciliationConfig where
  missingRunnerProbeGraceSecs : Nat
deriving DecidableEq, Repr

variable (config : TickConfig)

def TickConfig.inGrace (now : Nat) (r : InstanceState) : Bool :=
  r.stateAge now ≤ config.missingRunnerProbeGraceSecs * 1000

namespace Reconciling

variable {α : Type}

abbrev ask (c : ReconcileCall) : Reconciling (ReconcileReply c) := Program.perform c

def ofService (modelName : String) : Service α → Reconciling α
  | .done r => .done r
  | .call c k => .call (.service modelName c) fun r => ofService modelName (k r)

/-! ## The clean-ups -/

def present : Option String → Bool
  | some text => text ≠ ""
  | none => false

variable (r : InstanceState)

/-- The clean-up that `handleDeadWorkers` and `reconcileMissingRunners` share. -/
def reapInstance (errorMessage : String) : Reconciling Unit := do
  let _ ← ofService r.modelName (await (.transition r.instanceId .error
    { errorMessage := some (some errorMessage) }))
  ofService r.modelName (removeRouted r)
  ofService r.modelName refreshModelRoutingState
  ofService r.modelName (await (.removeInstance r.instanceId))
  ask (.deleteRow r.instanceId)
  ask (.releaseInstanceReservations r.instanceId)

/-- The body of the loop of `handleDeadWorkers`.  Here and below the result is
whether the instance has been cleaned up; `false` is a `continue`. -/
def reapOnDeadWorker (workerId : String) (r : InstanceState) : Reconciling Bool := do
  reapInstance r s!"Worker {workerId} is dead"
  pure true

def reconcileMissingRunner (now : Nat) (r : InstanceState) :
    Reconciling Bool :=
  if r.state = .starting ∧ config.inGrace now r = true then pure false
  else
    match r.workerId, r.runnerId with
    | some workerId, some runnerId => do
      let probe ← tryCatch
        (do
          let found ← ask (.getRunner workerId runnerId)
          pure (some found))
        fun _ => pure none
      if probe = some false then
        reapInstance r s!"Runner {runnerId} no longer hosted by worker {workerId}"
        pure true
      else pure false
    | _, _ => pure false

def settleAmbiguousStart : Reconciling Bool := do
  ofService r.modelName (removeRouted r)
  ofService r.modelName (await (.removeInstance r.instanceId))
  ask (.deleteRow r.instanceId)
  ask (.releaseInstanceReservations r.instanceId)
  ofService r.modelName refreshModelRoutingState
  pure true

def recoverAmbiguousStart (now : Nat) (r : InstanceState) :
    Reconciling Bool :=
  match r.workerId with
  | none => pure false
  | some workerId => do
    let workers ← ask .getWorkers
    if (workers.lookup workerId).any fun worker => worker.status ≠ .offline then
      match ← ask (.getRunnerByInstance workerId r.instanceId) with
      | .starting _ => pure false
      | .absent => if config.inGrace now r = true then pure false else settleAmbiguousStart r
      | .ready info =>
        tryCatch (ask (.stopRunner workerId info.runnerId)) fun
          | .workerHttp 404 _ => pure ()
          | err => throw err
        settleAmbiguousStart r
    else pure false

/-- The runner of an orphan is stopped, if its worker is known; `false` is a
failure other than that there is none. -/
def stopOrphanRunner : Reconciling Bool :=
  match r.workerId, r.runnerId with
  | some workerId, some runnerId =>
    if workerId ≠ "" ∧ runnerId ≠ "" then do
      let workers ← ask .getWorkers
      if (workers.lookup workerId).isSome then
        tryCatch
          (do
            ask (.stopRunner workerId runnerId)
            pure true)
          fun
          | .workerHttp 404 _ => pure true
          | _ => pure false
      else pure true
    else pure true
  | _, _ => pure true

def reapOrphan : Reconciling Bool := do
  if ← ask (.findModelByName r.modelName) then pure false
  else if ← stopOrphanRunner r then
    ask (.releaseInstanceReservations r.instanceId)
    ofService r.modelName (removeRouted r)
    ofService r.modelName (await (.removeInstance r.instanceId))
    pure true
  else pure false

/-! ## The passes -/

/-- The part of `handleDeadWorkers` for one worker. -/
def sweepWorker (allInstances : List InstanceState) (workerId : String) : Reconciling Unit := do
  Program.each (fun r => (reapOnDeadWorker workerId r).attempt)
    (allInstances.filter fun i => i.workerId = some workerId && isActiveOrTransitional i.state)
  ask (.removeWorker workerId)
  ask (.clearWorkerReservations workerId)

def handleDeadWorkers : Reconciling Unit := do
  let workers ← ask .getWorkers
  if workers.getDeadWorkers.isEmpty then pure ()
  else
    let allInstances ← ask .getAllInstances
    Program.each (sweepWorker allInstances) workers.getDeadWorkers

def recoverStuckInstances : Reconciling Unit := do
  let allInstances ← ask .getAllInstances
  let now ← ask .now
  Program.each
    (fun r => ofService r.modelName (recoverInstance config.toReconciliationConfig now r))
    allInstances

def recoverAmbiguousStarts : Reconciling Unit := do
  let now ← ask .now
  let allInstances ← ask .getAllInstances
  Program.each (fun r => (recoverAmbiguousStart config now r).attempt)
    (allInstances.filter fun i =>
      i.state = .error && i.runnerStartAmbiguous && i.workerId.isSome)

/-- The candidates of `reconcileMissingRunners`. -/
def mayMissRunner (workers : WorkerPool) (i : InstanceState) : Bool :=
  present i.runnerId && present i.workerId && (i.state = .active || i.state = .starting) &&
    (i.workerId.bind workers.lookup).any fun worker => worker.status ≠ .offline

def reconcileMissingRunners : Reconciling Unit := do
  let allInstances ← ask .getAllInstances
  let workers ← ask .getWorkers
  let now ← ask .now
  Program.each (fun r => (reconcileMissingRunner config now r).attempt)
    (allInstances.filter (mayMissRunner workers))

def reconcileInstanceTable : Reconciling Unit := do
  let rows ← ask .findRows
  let allInstances ← ask .getAllInstances
  Program.each (fun id => (ask (.deleteRow id)).attempt)
    (rows.filter fun id => id ∉ allInstances.map (·.instanceId))

def reapOrphanedInstances : Reconciling Unit := do
  let allInstances ← ask .getAllInstances
  let models ← ask .findModels
  Program.each (fun r => (reapOrphan r).attempt) (allInstances.filter fun i => i.modelName ∉ models)

/-- The passes of a tick that deal with workers, instances and rows, each of them
in a `safeStep`. -/
def tick : Reconciling Unit := do
  (ask .discoverWorkers).attempt
  (ask .checkHeartbeats).attempt
  handleDeadWorkers.attempt
  (ask .refreshMemoryBudgets).attempt
  (ask .resumeMoves).attempt
  (recoverStuckInstances config).attempt
  (recoverAmbiguousStarts config).attempt
  (reconcileMissingRunners config).attempt
  reconcileInstanceTable.attempt
  reapOrphanedInstances.attempt

end Reconciling

/-! ## The world -/

/-- Redis, Postgres, the memory of the process, and the runners. -/
structure ReconcileWorld where
  models : AList (fun _ : String => Instances) := ∅
  routing : RoutingMap := ∅
  rows : List String := []
  modelRows : List String := []
  memory : MemoryBudget := ⟨∅, ∅⟩
  pool : WorkerPool := ∅
  runners : Finset (String × String) := ∅
  moving : Finset String := ∅

/-- Something the resumption of a move may do to its model. -/
inductive MoveEffect where
  | setInstance (record : InstanceState)
  | removeInstance (modelName instanceId : String)
  | setEntry (modelName : String) (entry : Option RoutingEntry)
  | deleteRow (instanceId : String)
  | release (instanceId : String)
  | stopRunner (workerId runnerId : String)

/-- What comes from outside when a call is performed. -/
structure ReconcileInput where
  outcome : Outcome := .answered
  failure : String := "connection lost"
  now : Nat := 0
  keys : List String := []
  allKeys : List (String × String) := []
  unread : List (String × String) := []
  pool : WorkerPool := ∅
  reports : List (String × MemoryBudget.PipelineReply) := []
  moves : List MoveEffect := []
  lookup : RunnerLookup := .absent

namespace ReconcileWorld

variable (w : ReconcileWorld)

def instancesOf (modelName : String) : Instances :=
  (w.models.lookup modelName).getD ∅

def setInstances (modelName : String) (instances : Instances) :
    ReconcileWorld :=
  { w with models := w.models.insert modelName instances }

def setInstance (modelName instanceId : String) (record : InstanceState) :
    ReconcileWorld :=
  w.setInstances modelName ((w.instancesOf modelName).insert instanceId record)

def removeInstance (modelName instanceId : String) : ReconcileWorld :=
  w.setInstances modelName ((w.instancesOf modelName).erase instanceId)

def recordKeys : List (String × String) :=
  w.models.entries.flatMap fun entry => entry.2.keys.map fun instanceId => (entry.1, instanceId)

/-- What `getAllInstances` returns. -/
def readAll (i : ReconcileInput) : List InstanceState :=
  (i.allKeys.filter (· ∉ i.unread)).filterMap fun key => (w.instancesOf key.1).lookup key.2

def applyMove : MoveEffect → ReconcileWorld
  | .setInstance record =>
    if record.modelName ∈ w.moving ∧ record.instanceId ∈ w.instancesOf record.modelName then
      w.setInstance record.modelName record.instanceId record
    else w
  | .removeInstance modelName instanceId =>
    if modelName ∈ w.moving then w.removeInstance modelName instanceId else w
  | .setEntry modelName entry =>
    if modelName ∈ w.moving then
      match entry with
      | some entry => { w with routing := w.routing.insert modelName entry }
      | none => { w with routing := w.routing.erase modelName }
    else w
  | .deleteRow instanceId => { w with rows := w.rows.filter (· ≠ instanceId) }
  | .release instanceId => { w with memory := w.memory.releaseInstanceReservations instanceId }
  | .stopRunner workerId runnerId => { w with runners := w.runners.erase (workerId, runnerId) }

variable (i : ReconcileInput)

/-- The end of a call that would lead to `after` and answer `r`. -/
def reply {α : Type} (before after : ReconcileWorld) (r : Except Failure α) :
    Option (ReconcileWorld × Except Failure α) :=
  match i.outcome with
  | .answered => some (after, r)
  | .lost => some (after, .error (.other i.failure))
  | .failed => some (before, .error (.other i.failure))

def route (w : ReconcileWorld) (routing : RoutingMap) :
    Option (ReconcileWorld × Except Failure Unit) :=
  reply i w { w with routing } (.ok ())

open Refresh in
def service (modelName : String) (i : ReconcileInput) (w : ReconcileWorld) :
    (c : Call) → Option (ReconcileWorld × Except Failure (Reply c))
  | .getInstance id => reply i w w (.ok ((w.instancesOf modelName).lookup id))
  | .transition id target updates =>
    match transition ((w.instancesOf modelName).lookup id) modelName id target updates i.now with
    | .ok record => reply i w (w.setInstance modelName id record) (.ok record)
    | .error error => reply i w w (.error (.controlPlane error))
  | .removeInstance id => reply i w (w.removeInstance modelName id) (.ok ())
  | .scan => reply i w w (.ok (w.instancesOf modelName).keys)
  | .scanned startIds =>
    if ScanReply startIds (w.instancesOf modelName) i.keys then reply i w w (.ok i.keys)
    else none
  | .setModelState state protocol =>
    route i w (setModelState w.routing modelName state (some protocol) i.now)
  | .removeModel => route i w (removeModel w.routing modelName)
  | .removeEndpoint host port => route i w (removeEndpoint w.routing modelName host port i.now)
  | _ => none

def perform (w : ReconcileWorld) :
    (c : ReconcileCall) → Option (ReconcileWorld × Except Failure (ReconcileReply c))
  | .service modelName c => w.service modelName i c
  | .getAllInstances =>
    if ∀ key ∈ w.recordKeys, key ∈ i.allKeys then reply i w w (.ok (w.readAll i)) else none
  | .discoverWorkers => reply i w { w with pool := i.pool } (.ok ())
  | .checkHeartbeats => reply i w { w with pool := i.pool } (.ok ())
  | .getWorkers => some (w, .ok w.pool)
  | .removeWorker workerId => some ({ w with pool := w.pool.erase workerId }, .ok ())
  | .clearWorkerReservations workerId =>
    some ({ w with memory := w.memory.clearWorkerReservations workerId }, .ok ())
  | .releaseInstanceReservations instanceId =>
    some ({ w with memory := w.memory.releaseInstanceReservations instanceId }, .ok ())
  | .refreshMemoryBudgets =>
    reply i w { w with memory := if i.reports.isEmpty then w.memory.clear
                                 else w.memory.applyReports i.reports i.now } (.ok ())
  | .resumeMoves => reply i w (i.moves.foldl applyMove w) (.ok ())
  | .deleteRow instanceId =>
    reply i w { w with rows := w.rows.filter (· ≠ instanceId) } (.ok ())
  | .findRows => reply i w w (.ok w.rows)
  | .findModels => reply i w w (.ok w.modelRows)
  | .findModelByName modelName => reply i w w (.ok (decide (modelName ∈ w.modelRows)))
  | .getRunner workerId runnerId => reply i w w (.ok (decide ((workerId, runnerId) ∈ w.runners)))
  | .getRunnerByInstance _ _ => reply i w w (.ok i.lookup)
  | .stopRunner workerId runnerId =>
    if (workerId, runnerId) ∈ w.runners then
      reply i w { w with runners := w.runners.erase (workerId, runnerId) } (.ok ())
    else reply i w w (.error (.workerHttp 404 s!"Runner {runnerId} not found"))
  | .now => some (w, .ok i.now)

end ReconcileWorld

/-! ## What the calls leave -/

namespace ReconcileWorld

variable {w w' : ReconcileWorld} {modelName instanceId : String}

@[simp] theorem instancesOf_setInstances (w : ReconcileWorld) (modelName : String)
    (instances : Instances) :
    (w.setInstances modelName instances).instancesOf modelName = instances := by
  simp [instancesOf, setInstances]

theorem instancesOf_setInstances_ne {modelName'} (h : modelName' ≠ modelName)
    (instances : Instances) :
    (w.setInstances modelName instances).instancesOf modelName' = w.instancesOf modelName' := by
  simp [instancesOf, setInstances, AList.lookup_insert_ne h]

theorem instancesOf_congr (h : w'.models = w.models) (modelName : String) :
    w'.instancesOf modelName = w.instancesOf modelName := by
  rw [instancesOf, instancesOf, h]

variable {α : Type}

theorem reply_eq_ok {i before after r}
    {a : α} (h : reply i before after r = some (w', .ok a)) :
    w' = after ∧ r = .ok a := by
  grind [reply]

theorem reply_world {i before after} {r r' : Except Failure α}
    (h : reply i before after r = some (w', r')) :
    w' = after ∨ w' = before := by
  grind [reply]

theorem isSome_reply (i : ReconcileInput) (before after : ReconcileWorld) (r : Except Failure α) :
    (reply i before after r).isSome = true := by
  unfold reply
  split
  · rfl
  · rfl
  · rfl

end ReconcileWorld

namespace Reconciling

open ReconcileWorld

variable {w : ReconcileWorld} {modelName : String}

abbrev anyInput (_ : ReconcileInput) : Prop := True

theorem alone_ofService {α ok Q} :
    ∀ {p : Service α} {w : ReconcileWorld},
      Alone perform ok Q (ofService modelName p) w ↔ Alone (service modelName) ok Q p w
  | .done _, _ => Iff.rfl
  | .call _ _, _ => forall_congr' fun _ => forall_congr' fun _ => forall_congr' fun _ =>
    imp_congr_right fun _ => imp_congr_right fun _ => alone_ofService

/-! ## What the programs call -/

section
variable {A : ReconcileCall → Prop}

theorem only_stopOrphanRunner {r} (hworkers : A .getWorkers)
    (hstop : ∀ workerId runnerId, r.workerId = some workerId → r.runnerId = some runnerId →
      A (.stopRunner workerId runnerId)) :
    Only A (stopOrphanRunner r) := by
  unfold stopOrphanRunner
  split
  · rename_i workerId runnerId hworker hrunner
    refine .ite (only_then hworkers fun _ => ?_) (.pure _)
    refine .ite (.tryCatch ?_ fun e => ?_) (.pure _)
    · exact only_then (hstop _ _ hworker hrunner) fun _ => .pure _
    · split
      all_goals exact .pure _
  · exact .pure _

end

end Reconciling

end Sardeenz
