/-
# `Sardeenz.Routes.Launch` — from a model record to a dispatched deployment

`deployFromRecord` (`routes/models.ts`) with everything it sets going: the
request part, and the background task it leaves behind, which is `deployModel`
in the direct branch and the capacity reclamation in the other.

    request part        checks, createInstance, refreshAll, place + reserve,
                        transition to STARTING, instance row, checks again
    direct              deployModel
    reclamation         evict, refreshAll, place + reserve, transition, row,
                        checks, deployModel

What runs between two awaits is one call: the placement decision with its
reservations is `placeAndReserve`, and taking over the reports of a refresh is
`applyReports`.  The calls of the services are calls here too (`service`).

`deployModel` is the program of `Services.Deploy` with the hold added: it is
released when the deployment has succeeded or failed, and kept (`retain`) when
the worker's answer was ambiguous or the process is no longer the owner.
-/
import Sardeenz.Memory.Placement
import Sardeenz.Services.Deploy

namespace Sardeenz

open Interleave

/-! ## Calls -/

/-- The claims on a model that `assertLaunchAllowed` looks at. -/
structure LaunchClaims where
  deleting : Bool := false
  moving : Bool := false
  configurationUpdate : Bool := false
deriving DecidableEq, Repr

structure FixedPlacement where
  workerId : String
  deviceIndices : List Nat
deriving DecidableEq, Repr

/-- One call of a launch. -/
inductive LaunchCall where
  | service (c : Call)
  | readClaims
  | resolveRunnerMetadata
  | createInstance (protocol : Protocol)
  | scanMemoryKeys
  | getMemoryReports (workerIds : List String)
  | applyReports (replies : List (String × MemoryBudget.PipelineReply))
  | clearBudgets
  | writeClusterMemorySnapshot
  /-- The placement decision, on the current workers or on those given, and the
  reservations for it. -/
  | placeAndReserve (request : PlacementRequest) (fixed : Option FixedPlacement)
      (workers : Option (List WorkerRecord))
  | releaseReservations
  | retainReservations
  | createRow (result : PlacementResult)
  | deleteRow
  | selectVictims (eligibleWorkerIds : List String)
  | evictVictims (victims : List String)
deriving DecidableEq

@[reducible] def LaunchReply : LaunchCall → Type
  | .service c => Reply c
  | .readClaims => LaunchClaims
  | .resolveRunnerMetadata => Protocol
  | .scanMemoryKeys => List String
  | .getMemoryReports _ => Option (List (String × MemoryBudget.PipelineReply))
  | .placeAndReserve _ _ _ => List WorkerRecord × Option PlacementResult
  | .selectVictims _ => List String
  | .createInstance _ | .applyReports _ | .clearBudgets | .writeClusterMemorySnapshot
  | .releaseReservations | .retainReservations | .createRow _ | .deleteRow
  | .evictVictims _ => Unit

abbrev Launching (α : Type) := Program LaunchCall LaunchReply Failure α

namespace Launching

variable {α : Type}

abbrev request (c : LaunchCall) : Launching (LaunchReply c) := Program.perform c

def ofService : Service α → Launching α
  | .done r => .done r
  | .call c k => .call (.service c) fun r => ofService (k r)

/-- `throw` of a `ControlPlaneError`. -/
def throwControlPlane (error : ControlPlaneError) : Launching α := throw (.controlPlane error)

/-- `promise.catch(() => {})`. -/
def ignoringErrors (p : Launching Unit) : Launching Unit := tryCatch p fun _ => pure ()

def refreshAll : Launching Unit := do
  let workerIds ← request .scanMemoryKeys
  if workerIds.isEmpty then request .clearBudgets
  else
    match ← request (.getMemoryReports workerIds) with
    | none => pure ()
    | some replies =>
      request (.applyReports replies)
      request .writeClusterMemorySnapshot

end Launching

/-! ## deployModel, with the hold -/

namespace DeployModelParams

open Launching

/-- The `catch` of `deployModel`: the hold is released, unless the start is
ambiguous or the process has lost ownership. -/
def deployFailedHolding {α : Type} (params : DeployModelParams) (startReplyAmbiguous : Bool)
    (err : Failure) : Launching α :=
  tryCatch (ofService (params.deployFailed startReplyAmbiguous err)) fun err => do
    if err = .ownershipLost ∨ startReplyAmbiguous = true then request .retainReservations
    else request .releaseReservations
    throw err

/-- `deployModel`. -/
def deployModelHolding (timeouts : Timeouts) (params : DeployModelParams) : Launching Unit := do
  tryCatch (ofService params.prepareStart) (params.deployFailedHolding false)
  let info ← tryCatch (ofService (await .awaitStart)) fun err =>
    params.deployFailedHolding err.leavesStartOpen err
  tryCatch
    (do
      ofService (params.activate timeouts info)
      request .releaseReservations)
    (params.deployFailedHolding false)

end DeployModelParams

/-! ## deployFromRecord -/

/-- The arguments of `deployFromRecord`: the record, as far as it is looked at,
the id of the new instance and the options. -/
structure LaunchParams where
  name : String
  instanceId : String
  runnerType : String
  modelPathContained : Bool
  requiredMemory : Option Nat
  tensorParallel : Nat
  deviceType : Option String
  fixedPlacement : Option FixedPlacement := none
  allowMoveClaim : Bool := false
  moveOperationId : Option String := none
deriving DecidableEq

namespace LaunchParams

open Launching

variable (params : LaunchParams)

def inProgress (reason detail : String) : ControlPlaneError :=
  .operationInProgress params.name "start a new instance for" reason detail

def deleteInProgress : ControlPlaneError :=
  params.inProgress "delete-in-progress" "a delete is already in progress"

def launchAllowed (claims : LaunchClaims) :
    Except ControlPlaneError Unit :=
  if claims.deleting then .error params.deleteInProgress
  else if claims.moving && !params.allowMoveClaim then
    .error (params.inProgress "move-in-progress" "a move is already in progress")
  else if claims.configurationUpdate then
    .error (params.inProgress "configuration-update-in-progress"
      "a configuration update is in progress")
  else .ok ()

def assertLaunchAllowed (claims : LaunchClaims) : Launching Unit :=
  match params.launchAllowed claims with
  | .ok _ => pure ()
  | .error error => throwControlPlane error

def assertMoveStillOwned : Launching Unit :=
  match params.moveOperationId with
  | none => pure ()
  | some operationId => do
    let operation ← ofService (await .getMoveOperation)
    if operation.map (·.operationId) = some operationId then pure ()
    else
      throwControlPlane (.operationInProgress params.name "start a move replacement for"
        "move-ownership-lost"
        "the durable move transaction is no longer owned by this request")

def placementRequest (requiredMemory : Nat) : PlacementRequest where
  runnerType := params.runnerType
  requiredMemory := requiredMemory
  deviceType := params.deviceType
  tensorParallel := params.tensorParallel

/-- The parameters of the deployment on a placement; only that of a move is
fenced. -/
def deployParams (protocol : Protocol) (result : PlacementResult)
    (fenced : Bool) : DeployModelParams where
  modelName := params.name
  instanceId := params.instanceId
  workerId := result.workerId
  protocol := protocol
  fenced := fenced

/-- The transition to `STARTING` and the instance row, on a placement. -/
def recordPlacement (result : PlacementResult) : Launching Unit := do
  let _ ← ofService (await (.transition params.instanceId .starting
    { workerId := some (some result.workerId)
      deviceIndices := some (some result.deviceIndices) }))
  request (.createRow result)

/-- What the request leaves to run in the background. -/
inductive Background where
  | deploy (result : PlacementResult)
  | reclaim (workers : List WorkerRecord) (victims : List String)

/-- The request part after `createInstance`. -/
def placeOrReclaim (requiredMemory : Nat) : Launching Background := do
  refreshAll
  let placementRequest := params.placementRequest requiredMemory
  let (workers, result) ← request (.placeAndReserve placementRequest params.fixedPlacement none)
  match result with
  | some result =>
    params.recordPlacement result
    let claims ← request .readClaims
    if claims.deleting then
      ignoringErrors (request .deleteRow)
      throwControlPlane params.deleteInProgress
    else
      params.assertLaunchAllowed claims
      params.assertMoveStillOwned
      pure (.deploy result)
  | none =>
    let eligibleWorkerIds := Placement.eligibleWorkerIds placementRequest workers
    if params.fixedPlacement.isSome then
      throwControlPlane (.placementFailed params.name
        "fixed-target-insufficient-capacity-or-incompatible")
    else if eligibleWorkerIds.isEmpty then
      throwControlPlane (.placementFailed params.name "No worker with sufficient capacity")
    else
      let victims ← request (.selectVictims eligibleWorkerIds)
      if victims.isEmpty then
        throwControlPlane (.placementFailed params.name "No worker with sufficient capacity")
      else pure (.reclaim workers victims)

/-- The request part: its `catch` removes the record, if it was created, and
releases the hold. -/
def requestPart (requiredMemory : Nat) (protocol : Protocol) :
    Launching Background := do
  tryCatch (request (.createInstance protocol)) fun err => do
    request .releaseReservations
    throw err
  tryCatch (params.placeOrReclaim requiredMemory) fun err => do
    ignoringErrors (ofService (await (.removeInstance params.instanceId)))
    request .releaseReservations
    throw err

/-- The reclamation, without its `catch`. -/
def reclaimCapacity (timeouts : Timeouts) (requiredMemory : Nat)
    (protocol : Protocol) (workers : List WorkerRecord) (victims : List String) :
    Launching Unit := do
  request (.evictVictims victims)
  refreshAll
  let (_, reclaimed) ← request
    (.placeAndReserve (params.placementRequest requiredMemory) none (some workers))
  match reclaimed with
  | none =>
    throwControlPlane (.placementFailed params.name
      "No worker with sufficient capacity after capacity reclamation")
  | some result =>
    params.recordPlacement result
    let claims ← request .readClaims
    if claims.deleting then
      request .releaseReservations
      let _ ← ofService (await (.transition params.instanceId .error
        { errorMessage := some (some "Deployment aborted: model delete in progress") }))
      ofService refreshModelRoutingState
    else
      params.assertLaunchAllowed claims
      (params.deployParams protocol result false).deployModelHolding timeouts

def background (timeouts : Timeouts) (requiredMemory : Nat)
    (protocol : Protocol) : Background → Launching Unit
  | .deploy result =>
    (params.deployParams protocol result params.moveOperationId.isSome).deployModelHolding timeouts
  | .reclaim workers victims =>
    tryCatch (params.reclaimCapacity timeouts requiredMemory protocol workers victims)
      fun err => ofService (transitionToError params.instanceId err.message false)

def deployFromRecord (timeouts : Timeouts) : Launching Unit := do
  params.assertLaunchAllowed (← request .readClaims)
  if params.modelPathContained then
    match params.requiredMemory with
    | some (requiredMemory + 1) =>
      let protocol ← request .resolveRunnerMetadata
      let task ← params.requestPart (requiredMemory + 1) protocol
      params.background timeouts (requiredMemory + 1) protocol task
    | _ =>
      throwControlPlane (.invalidRequest
        s!"Model {params.name} has no stored requiredMemory; cannot start")
  else
    throwControlPlane (.invalidRequest
      s!"Model {params.name} has a stored modelPath outside the weights directory")

/-- `deployFromRecord` up to its answer. -/
def launch : Launching (Nat × Protocol × Background) := do
  params.assertLaunchAllowed (← request .readClaims)
  if params.modelPathContained then
    match params.requiredMemory with
    | some (requiredMemory + 1) =>
      let protocol ← request .resolveRunnerMetadata
      let task ← params.requestPart (requiredMemory + 1) protocol
      pure (requiredMemory + 1, protocol, task)
    | _ =>
      throwControlPlane (.invalidRequest
        s!"Model {params.name} has no stored requiredMemory; cannot start")
  else
    throwControlPlane (.invalidRequest
      s!"Model {params.name} has a stored modelPath outside the weights directory")

theorem deployFromRecord_eq (timeouts : Timeouts) : params.deployFromRecord timeouts = (do
          let (requiredMemory, protocol, task) ← params.launch
          params.background timeouts requiredMemory protocol task) := by
  unfold deployFromRecord launch
  simp only [bind_assoc]
  split
  · rcases params.requiredMemory with _ | _ | requiredMemory
    · rfl
    · rfl
    · simp only [bind_assoc, pure_bind]
  · rfl

end LaunchParams

/-! ## The calls of a refresh -/

/-- The calls of `refreshAll`. -/
def LaunchCall.ofRefresh : LaunchCall → Bool
  | .scanMemoryKeys | .getMemoryReports _ | .applyReports _ | .clearBudgets
  | .writeClusterMemorySnapshot => true
  | _ => false

theorem Launching.keeps_refreshAll_of {L P}
    {I : L → Prop} (h : ∀ c, c.ofRefresh = true → KeepsCall P I c) :
    Keeps P I Launching.refreshAll := by
  refine (h .scanMemoryKeys rfl).bind fun workerIds =>
    .ite (h .clearBudgets rfl).perform ?_
  refine (h (.getMemoryReports workerIds) rfl).bind fun replies => ?_
  cases replies with
  | none => exact .pure _
  | some replies =>
    exact (h (.applyReports replies) rfl).bind fun _ =>
      (h .writeClusterMemorySnapshot rfl).perform

end Sardeenz
