/-
# `Sardeenz.Routes.Handlers` — the requests that take a claim

The handlers of `routes/models.ts` that mutate a model, from the check of the
leader to the end of the task they leave in the background.  A handler awaits its
reads and checks, adds its claim to one of the in-flight sets, does its work, and
the claim is deleted when the work, or the background task, has settled:

    handler                    claim                        deleted by
    stop, delete (force)       stopping, deleting           `finally`
    stop, delete               stopping, deleting           `finally` of the task
    update                     configurationUpdate          `finally`
    sleep, wake                modelLifecycle               `catch`; `finally` of the tasks
    add instance, start        launching                    `catch`; `finally` of the deployment
    move                       moving                       `catch`; `finally` of `runMove`
    per-instance operations    instanceOp                   `catch`; `finally` of the task
    deploy                     none

What a handler does between two awaits is one call: `claim` looks at the sets and
adds, or answers with the sets that refuse it.  `Promise.all` and
`Promise.allSettled` are programs side by side (`Parallel.lean`).  A `Promise.all`
whose parts fail throws here when all of them have settled.

A handler returns its response together with the background task (`Answer`);
`serve` sends the one and runs the other.
-/
import Sardeenz.Parallel
import Sardeenz.Routes.Claims
import Sardeenz.Routes.Launch
import Sardeenz.Routes.Teardown
import Sardeenz.Services.Eviction
import Sardeenz.Services.Move

namespace Sardeenz

open Interleave
open Routes (Claims Operation NoMove MoveAdmitted)

/-! ## Records and bodies -/

/-- `ModelRecord`, without its times; the engine configuration is JSON text. -/
structure ModelRecord where
  name : String
  runnerType : String
  modelPath : String
  requiredMemory : Option Nat
  deviceType : Option String := none
  tensorParallel : Nat := 1
  engineConfig : Option String := none
  engineArgs : Option (List String) := none
  runtimeModule : Option String := none
  servedModelName : Option String := none
  displayName : Option String := none
  pinned : Bool := false
deriving DecidableEq, Repr

/-- `DeployBody` and `UpdateModelBody`, without the name.  The types are those of
the contract. -/
structure ModelBody where
  runnerType : String
  modelPath : String
  requiredMemory : Nat
  deviceType : Option String := none
  tensorParallel : Option Nat := none
  engineConfig : Option String := none
  engineArgs : Option (List String) := none
  runtimeModule : Option String := none
  servedModelName : Option String := none
  displayName : Option String := none
  pinned : Option Bool := none
deriving DecidableEq, Repr

/-- What the handlers know of their deployment. -/
structure RouteConfig where
  timeouts : Timeouts
  isModelName : String → Bool
  isRuntimeModule : String → Bool
  isContained : String → Bool
  trim : String → String
  process : Nat := 0

/-- `String.prototype.length`. -/
def utf16Length (text : String) : Nat :=
  (text.toList.map fun c => if c.toNat < 0x10000 then 1 else 2).sum

def maxEngineArgsCount : Nat := 128

def maxEngineArgLength : Nat := 512

namespace ModelBody

abbrev Check := Bool × String

def firstFailing : List Check → Option ControlPlaneError
  | [] => none
  | (holds, message) :: checks =>
    if holds then firstFailing checks else some (.invalidRequest message)

variable (config : RouteConfig) (body : ModelBody)

def hasRequired : Bool :=
  body.runnerType ≠ "" && body.modelPath ≠ "" && decide (body.requiredMemory > 0)

def containedCheck : Check :=
  (config.isContained body.modelPath,
    "modelPath must be an absolute path inside the weights directory")

def tensorParallelCheck (holds : Bool) : Check :=
  (holds, "tensorParallel must be a positive integer")

def optionalChecks : List Check :=
  [(body.runtimeModule.all config.isRuntimeModule,
      "runtimeModule must match ^[A-Za-z0-9_.-]+$ (e.g. \"vllm-0.21\")"),
    (body.engineArgs.all fun args => args.length ≤ maxEngineArgsCount,
      s!"engineArgs must contain at most {maxEngineArgsCount} elements"),
    (body.engineArgs.all fun args => args.all fun arg => utf16Length arg ≤ maxEngineArgLength,
      s!"each engineArgs element must be at most {maxEngineArgLength} characters"),
    (body.servedModelName.all config.isModelName,
      "servedModelName must match ^[A-Za-z0-9._/-]\x7b1,200\x7d$"),
    (body.displayName.all fun name =>
        let length := utf16Length (config.trim name)
        0 < length && length ≤ 200,
      "displayName must be 1–200 characters when provided")]

/-- The checks of `POST /api/v1/models`. -/
def deployError (modelName : String) : Option ControlPlaneError :=
  firstFailing <|
    [(modelName ≠ "" && body.hasRequired,
        "modelName (string), runnerType (string), modelPath (string), and requiredMemory " ++
          "(positive number) are required"),
      (config.isModelName modelName, "modelName must match ^[A-Za-z0-9._/-]\x7b1,200\x7d$"),
      body.containedCheck config,
      tensorParallelCheck (body.tensorParallel.all (1 ≤ ·))] ++ body.optionalChecks config

/-- The checks of `PUT /api/v1/models/:modelName`. -/
def updateError : Option ControlPlaneError :=
  firstFailing <|
    [(body.hasRequired,
        "runnerType (string), modelPath (string), and requiredMemory (positive number) are required"),
      body.containedCheck config,
      tensorParallelCheck (body.tensorParallel.any (1 ≤ ·)),
      (body.pinned.isSome, "pinned must be a boolean")] ++ body.optionalChecks config

def record (modelName : String) : ModelRecord where
  name := modelName
  runnerType := body.runnerType
  modelPath := body.modelPath
  requiredMemory := some body.requiredMemory
  deviceType := body.deviceType
  tensorParallel := body.tensorParallel.getD 1
  engineConfig := body.engineConfig
  engineArgs := body.engineArgs
  runtimeModule := body.runtimeModule
  servedModelName := body.servedModelName
  displayName := body.displayName.map config.trim
  pinned := body.pinned.getD false

end ModelBody

def ModelRecord.launchParams (config : RouteConfig) (record : ModelRecord) (instanceId : String) :
    LaunchParams where
  name := record.name
  instanceId := instanceId
  runnerType := record.runnerType
  modelPathContained := config.isContained record.modelPath
  requiredMemory := record.requiredMemory
  tensorParallel := record.tensorParallel
  deviceType := record.deviceType

/-- The body of an answer that is no error, with its status. -/
structure RouteResponse where
  statusCode : Nat := 202
  modelName : String
  instanceId : Option String := none
  sourceInstanceId : Option String := none
  replacementInstanceId : Option String := none
  state : Option ModelLifecycleState := none
  previousState : Option ModelLifecycleState := none
  message : Option String := none
deriving DecidableEq, Repr

/-! ## Calls -/

/-- What a handler awaits, and what it reads or changes in the process. -/
inductive RouteCall where
  | service (modelName : String) (c : Call)
  | launch (record : ModelRecord) (instanceId : String) (c : LaunchCall)
  | findByName (modelName : String)
  | findAll
  | createModel (record : ModelRecord)
  | updateModel (record : ModelRecord)
  | deleteModel (modelName : String)
  | deleteRow (instanceId : String)
  | getAllInstances
  | getLastInferenceTimestamps (modelNames : List String)
  | createMoveOperation (operation : MoveOperation)
  | availableMemory (workerId : String)
  | selectVictims (allInstances : List InstanceState) (pinnedModels : List String)
      (requiredBytes : Nat) (targetWorkerIds : List String) (memoryByModel : List (String × Nat))
  | releaseInstanceReservations (instanceId : String)
  | workerDevices (workerId : String)
  | mintId
  | claims
  /-- The synchronous checks in front of a claim, and the claim; answered with the
  sets if they refuse it. -/
  | claim (modelName : String) (o : Operation)
  | release (modelName : String) (o : Operation)
  | claimMove (modelName : String)
  | releaseMove (modelName : String)
  | answer (response : Except Failure RouteResponse)
  | turn
deriving DecidableEq

@[reducible] def RouteReply : RouteCall → Type
  | .service _ c => Reply c
  | .launch _ _ c => LaunchReply c
  | .findByName _ => Option ModelRecord
  | .findAll => List ModelRecord
  | .updateModel _ => Bool
  | .getAllInstances => List InstanceState
  | .getLastInferenceTimestamps _ => List (String × Nat)
  | .createMoveOperation _ => Bool
  | .availableMemory _ => Nat
  | .selectVictims _ _ _ _ _ => List EvictionCandidate
  | .workerDevices _ => Option (List Nat)
  | .mintId => String
  | .claims => Claims
  | .claim _ _ => Option Claims
  | .turn => Bool
  | .createModel _ | .deleteModel _ | .deleteRow _ | .releaseInstanceReservations _
  | .release _ _ | .claimMove _ | .releaseMove _ | .answer _ => Unit

abbrev Handling (α : Type) := Program RouteCall RouteReply Failure α

abbrev Answer := RouteResponse × Handling Unit

namespace Handling

variable {α β : Type}

abbrev ask (c : RouteCall) : Handling (RouteReply c) := Program.perform c

def ofService (modelName : String) : Service α → Handling α
  | .done r => .done r
  | .call c k => .call (.service modelName c) fun r => ofService modelName (k r)

def ofLaunch (record : ModelRecord) (instanceId : String) : Launching α → Handling α
  | .done r => .done r
  | .call c k => .call (.launch record instanceId c) fun r => ofLaunch record instanceId (k r)

/-- `throw` of a `ControlPlaneError`. -/
def throwControlPlane (error : ControlPlaneError) : Handling α := throw (.controlPlane error)

def goesFirst : Except Failure Bool → Bool
  | .ok first => first
  | .error _ => true

/-- `Promise.all([p, q])`. -/
def both (p : Handling α) (q : Handling β) : Handling (α × β) := do
  match ← Program.par .turn goesFirst p q with
  | (.ok a, .ok b) => pure (a, b)
  | (.error err, _) => throw err
  | (_, .error err) => throw err

def all : List (Handling α) → Handling (List α)
  | [] => pure []
  | p :: ps => do
    let (a, as) ← both p (all ps)
    pure (a :: as)

def allSettled (ps : List (Handling α)) : Handling Unit := Program.settleAll .turn goesFirst ps

/-- `p` goes on while `q` runs beside it.  What is left of `q` is returned with the
result of `p`; if `p` throws, nothing waits for `q`, and it goes on to its end. -/
def beside (p : Handling α) (q : Handling Unit) : Handling (α × Handling Unit) := do
  match ← Program.overlap .turn goesFirst p q with
  | (.ok a, rest) => pure (a, rest)
  | (.error err, rest) => do
    rest
    throw err

end Handling

open Handling

namespace Handler

variable (config : RouteConfig) (modelName : String)

/-! ## The checks -/

def admission : Handling Unit := do
  if ← ofService modelName (await .isLeader) then
    if config.isModelName modelName then pure ()
    else
      throwControlPlane (.invalidRequest
        "modelName must match ^[A-Za-z0-9._/-]\x7b1,200\x7d$")
  else throwControlPlane .notLeader

variable (action : String)

/-- `operationInProgress`, for a move. -/
def moveInProgress : ControlPlaneError :=
  .operationInProgress modelName action "move-in-progress" "a move is already in progress"

/-- `operationInProgress`, for any other operation. -/
def otherInProgress : ControlPlaneError :=
  .operationInProgress modelName action "operation-in-progress"
    "another lifecycle operation is already in progress"

def assertNoMove : Handling Unit := do
  let durableMove ← ofService modelName (await .getMoveOperation)
  let claims ← ask .claims
  if NoMove claims modelName durableMove.isSome then pure ()
  else throwControlPlane (moveInProgress modelName action)

def assertMoveAdmission : Handling Unit := do
  let durableMove ← ofService modelName (await .getMoveOperation)
  let claims ← ask .claims
  if MoveAdmitted claims modelName durableMove.isSome then pure ()
  else if NoMove claims modelName durableMove.isSome then
    throwControlPlane (otherInProgress modelName "move")
  else throwControlPlane (moveInProgress modelName "move")

def clearMoveForDelete (force : Bool) : Handling Unit := do
  match ← ofService modelName (await .getMoveOperation) with
  | none => pure ()
  | some operation =>
    let claims ← ask .claims
    if modelName ∈ claims.movingInFlight ∨
        (force = false ∧ operation.phase ≠ .replacementCleanup) then
      throwControlPlane (moveInProgress modelName "delete")
    else
      let removed ← ofService modelName
        (await (.removeMoveOperation operation.operationId false))
      let left ← if removed then pure none else ofService modelName (await .getMoveOperation)
      if left.isSome then throwControlPlane (moveInProgress modelName "delete")
      else
        let claims ← ask .claims
        if modelName ∈ claims.movingInFlight then
          throwControlPlane (moveInProgress modelName "delete")
        else pure ()

def teardown (context : String) (i : InstanceState) : Handling Bool :=
  ofService modelName
    (teardownInstance config.timeouts modelName i.instanceId i.endpointAddress.isSome context)

def noEndpoint (instanceId : String) : ControlPlaneError :=
  ⟨500, .internalError, s!"Instance {instanceId} of {modelName} has no runner endpoint", []⟩

/-! ## Stop -/

def stoppable (i : InstanceState) : Bool :=
  i.state = .starting || i.state = .active || i.state = .sleeping || i.state = .error

variable (instances : List InstanceState)

def forceStop : Handling Answer := do
  match ← ask (.claim modelName (.stop true)) with
  | some _ =>
    throwControlPlane (.operationInProgress modelName "force stop" "stop-in-progress"
      "a stop is already in progress")
  | none =>
    Program.andFinally
      (do
        let _ ← all (instances.map fun i => do
          ofService modelName (await (.removeInstance i.instanceId))
          (ask (.deleteRow i.instanceId)).attempt
          ask (.releaseInstanceReservations i.instanceId))
        ofService modelName (await .removeModel))
      (ask (.release modelName (.stop true)))
    pure ({ modelName, state := some .stopped
            previousState := some (deriveAggregateState instances)
            message := some "Model force-stopped without runner teardown" }, pure ())

def softStop : Handling Answer := do
  let refused : ControlPlaneError :=
    .invalidState modelName (deriveAggregateState instances).text "stop"
  if instances.any stoppable then
    if modelName ∈ (← ask .claims).stoppingInFlight then throwControlPlane refused
    else
      assertNoMove modelName "stop"
      match ← ask (.claim modelName (.stop false)) with
      | some _ => throwControlPlane refused
      | none =>
        let targets := instances.filter stoppable
        pure ({ modelName, state := some .stopping
                previousState := some (deriveAggregateState instances)
                message := some s!"Stop initiated for {targets.length} instance(s)" },
          Program.andFinally (allSettled (targets.map (teardown config modelName "Stop")))
            (ask (.release modelName (.stop false))))
  else throwControlPlane refused

def stop (force : Bool) : Handling Answer := do
  admission config modelName
  assertNoMove modelName "stop"
  let instances ← ofService modelName getInstancesForModel
  if instances.isEmpty then throwControlPlane (.modelNotFound modelName)
  else if force then forceStop modelName instances
  else softStop config modelName instances

/-! ## Delete -/

def transientForDelete (i : InstanceState) : Bool :=
  i.state = .pending || i.state = .draining || i.state = .stopping

def deleteRefusal (instances : List String) (claims : Claims) : ControlPlaneError :=
  let inProgress := ControlPlaneError.operationInProgress modelName "delete"
  if modelName ∈ claims.configurationUpdateInFlight then
    inProgress "configuration-update-in-progress" "a configuration update is in progress"
  else if modelName ∈ claims.deletingInFlight then
    inProgress "delete-in-progress" "a delete is already in progress"
  else if modelName ∈ claims.stoppingInFlight then
    inProgress "stop-in-progress" "a stop is already in progress"
  else
    let busy := (instances.find? fun id => (modelName, id) ∈ claims.instanceOpInFlight).getD ""
    inProgress "instance-operation-in-progress"
      s!"an operation is already in progress on instance {busy}"

/-- Delete with force: the records and the row go, the runners are left alone. -/
def forceDelete : Handling Answer := do
  let o := Operation.delete true (instances.map (·.instanceId))
  match ← ask (.claim modelName o) with
  | some claims => throwControlPlane (deleteRefusal modelName (instances.map (·.instanceId)) claims)
  | none =>
    Program.andFinally
      (do
        clearMoveForDelete modelName true
        let _ ← all (instances.map fun i =>
          ofService modelName (await (.removeInstance i.instanceId)))
        Program.each (fun i => ask (.releaseInstanceReservations i.instanceId)) instances
        ofService modelName (await .removeModel)
        ask (.deleteModel modelName))
      (ask (.release modelName o))
    pure ({ modelName, state := some .stopped
            previousState := some (deriveAggregateState instances)
            message := some "Model force-deleted without runner teardown" }, pure ())

def deleteRecord : Handling Answer := do
  match ← ask (.claim modelName (.delete false [])) with
  | some claims => throwControlPlane (deleteRefusal modelName [] claims)
  | none =>
    Program.andFinally
      (do
        clearMoveForDelete modelName false
        ask (.deleteModel modelName))
      (ask (.release modelName (.delete false [])))
    pure ({ modelName, state := some .stopped, previousState := some .stopped
            message := some "Model record removed" }, pure ())

def deleteInstances : Handling Unit := do
  allSettled (instances.map (teardown config modelName "Delete"))
  let states ← all (instances.map fun i =>
    ofService modelName (await (.getInstance i.instanceId)))
  if states.any fun state => (state.map (·.runnerStartAmbiguous)).getD false then pure ()
  else
    Program.attempt do
      ask (.deleteModel modelName)
      ofService modelName (await .removeModel)

def softDelete : Handling Answer := do
  let ids := instances.map (·.instanceId)
  let o := Operation.delete false ids
  match instances.find? transientForDelete with
  | some busy =>
    if modelName ∈ (← ask .claims).configurationUpdateInFlight then
      throwControlPlane (.operationInProgress modelName "delete"
        "configuration-update-in-progress" "a configuration update is in progress")
    else
      throwControlPlane ⟨409, .invalidState,
        s!"Cannot delete model {modelName}: instance {busy.instanceId} is in " ++
          s!"{busy.state.text} state",
        [("modelName", modelName), ("instanceId", busy.instanceId),
          ("currentState", busy.state.text), ("action", "delete")]⟩
  | none =>
    match ← ask (.claim modelName o) with
    | some claims => throwControlPlane (deleteRefusal modelName ids claims)
    | none =>
      tryCatch (clearMoveForDelete modelName false) fun err => do
        ask (.release modelName o)
        throw err
      pure ({ modelName, state := some .stopping
              previousState := some (deriveAggregateState instances)
              message := some "Model removal initiated" },
        Program.andFinally (deleteInstances config modelName instances)
          (ask (.release modelName o)))

def delete (force : Bool) : Handling Answer := do
  admission config modelName
  let (instances, record) ← both (ofService modelName getInstancesForModel)
    (ask (.findByName modelName))
  if instances.isEmpty && record.isNone then throwControlPlane (.modelNotFound modelName)
  else if force then forceDelete modelName instances
  else if instances.isEmpty then deleteRecord modelName
  else softDelete config modelName instances

/-! ## Sleep and wake -/

def drainAll (active : List InstanceState) : Handling Unit := do
  Program.each (fun i => do
    let _ ← ofService modelName (await (.transition i.instanceId .draining {}))) active
  ofService modelName refreshModelRoutingState

def sleepRequest : Handling (List InstanceState) := do
  admission config modelName
  assertNoMove modelName "sleep"
  let instances ← ofService modelName getInstancesForModel
  if instances.isEmpty then throwControlPlane (.modelNotFound modelName)
  else
    let active := instances.filter (·.state = .active)
    if active.isEmpty then
      throwControlPlane (.invalidState modelName (deriveAggregateState instances).text "sleep")
    else
      match active.find? (·.endpointAddress.isNone) with
      | some i => throwControlPlane (noEndpoint modelName i.instanceId)
      | none =>
        assertNoMove modelName "sleep"
        match ← ask (.claim modelName .sleep) with
        | some _ => throwControlPlane (otherInProgress modelName "sleep")
        | none =>
          tryCatch (drainAll modelName active) fun err => do
            ask (.release modelName .sleep)
            throw err
          pure active

def sleep : Handling Answer := do
  let active ← sleepRequest config modelName
  pure ({ modelName, state := some .draining, previousState := some .active
          message := some s!"Sleep initiated for {active.length} instance(s)" },
    Program.andFinally
      (allSettled (active.map fun i =>
        ofService modelName (sleepModel config.timeouts modelName i.instanceId)))
      (ask (.release modelName .sleep)))

def claimAsleep : List InstanceState → Handling (List InstanceState)
  | [] => pure []
  | i :: rest => do
    let claimed ← tryCatch
      (do
        let _ ← ofService modelName (await (.transition i.instanceId .starting {}))
        pure [i])
      fun _ => pure []
    let others ← claimAsleep rest
    pure (claimed ++ others)

def evict (victims : List EvictionCandidate) (context : String) : Handling Unit :=
  allSettled (victims.map fun victim => do
    let state ← ofService victim.modelName (await (.getInstance victim.instanceId))
    ofService victim.modelName
      (teardownInstance config.timeouts victim.modelName victim.instanceId
        (state.bind (·.endpointAddress)).isSome context))

/-- `lastInferenceAt`, where there is a newer one. -/
def stamped (timestamps : List (String × Nat)) (i : InstanceState) : InstanceState :=
  { i with lastInferenceAt := (timestamps.lookup i.modelName).or i.lastInferenceAt }

def makeRoom (requiredMemory : Nat) (i : InstanceState) : Handling Unit :=
  match i.workerId.filter (· ≠ "") with
  | none => pure ()
  | some workerId =>
    if requiredMemory > 0 then do
      if (← ask (.availableMemory workerId)) < requiredMemory then
        let allInstances ← ask .getAllInstances
        let timestamps ← ask (.getLastInferenceTimestamps (allInstances.map (·.modelName)))
        let allRecords ← ask .findAll
        let victims ← ask (.selectVictims (allInstances.map (stamped timestamps))
          (modelName :: (allRecords.filter (·.pinned)).map (·.name)) requiredMemory [workerId]
          (allRecords.filterMap fun r => r.requiredMemory.map (r.name, ·)))
        evict config victims "Eviction (wake capacity reclamation)"
      else pure ()
    else pure ()

/-- The wakes are begun one by one, with room made for each; what is left of them
when the last one has begun. -/
def beginWakes (requiredMemory : Nat) : List InstanceState → Handling (List (Handling Unit))
  | [] => pure []
  | i :: rest => do
    makeRoom config modelName requiredMemory i
    let (others, task) ← beside (beginWakes requiredMemory rest)
      (ofService modelName (wakeModel config.timeouts modelName i.instanceId)).attempt
    pure (task :: others)

/-- A wake, after its claim.  The reads here are in no `try`. -/
def wakeClaimed (sleeping : List InstanceState) : Handling Answer := do
  let claimed ← tryCatch
    (do
      let claimed ← claimAsleep modelName sleeping
      ofService modelName refreshModelRoutingState
      pure claimed)
    fun err => do
      ask (.release modelName .wake)
      throw err
  let record ← ask (.findByName modelName)
  let tasks ← beginWakes config modelName ((record.bind (·.requiredMemory)).getD 0) claimed
  pure ({ modelName, state := some .starting, previousState := some .sleeping
          message := some s!"Wake initiated for {claimed.length} instance(s)" },
    Program.andFinally (allSettled tasks) (ask (.release modelName .wake)))

def wake : Handling Answer := do
  admission config modelName
  assertNoMove modelName "wake"
  let instances ← ofService modelName getInstancesForModel
  if instances.isEmpty then throwControlPlane (.modelNotFound modelName)
  else
    let sleeping := instances.filter (·.state = .sleeping)
    if sleeping.isEmpty then
      if instances.any (·.state = .starting) then
        pure ({ modelName, state := some .starting, previousState := some .starting
                message := some "Model is already waking up" }, pure ())
      else throwControlPlane (.invalidState modelName (deriveAggregateState instances).text "wake")
    else
      match sleeping.find? (·.endpointAddress.isNone) with
      | some i => throwControlPlane (noEndpoint modelName i.instanceId)
      | none =>
        assertNoMove modelName "wake"
        match ← ask (.claim modelName .wake) with
        | some _ => throwControlPlane (otherInProgress modelName "wake")
        | none => wakeClaimed config modelName sleeping

/-! ## Launches -/

def launchState : LaunchParams.Background → ModelLifecycleState × String
  | .deploy result => (.starting, s!"Placed on worker {result.workerId}")
  | .reclaim _ _ => (.pending, "Capacity reclamation in progress")

def launchHeld (o : Operation) (record : ModelRecord) (instanceId : String) :
    Handling (LaunchParams.Background × Handling Unit) := do
  let params := record.launchParams config instanceId
  let (requiredMemory, protocol, task) ← tryCatch (ofLaunch record instanceId params.launch)
    fun err => do
      ask (.release modelName o)
      throw err
  pure (task, do
    (ofLaunch record instanceId
      (params.background config.timeouts requiredMemory protocol task)).attempt
    ask (.release modelName o))

/-- `POST /api/v1/models/:modelName/instances`. -/
def addInstance : Handling Answer := do
  admission config modelName
  match ← ask (.findByName modelName) with
  | none => throwControlPlane (.modelNotFound modelName)
  | some record =>
    assertNoMove modelName "add an instance for"
    let instanceId ← ask .mintId
    let _ ← ask (.claim modelName .addInstance)
    let (task, background) ← launchHeld config modelName .addInstance record instanceId
    pure ({ modelName, instanceId := some instanceId, state := some (launchState task).1
            message := some (launchState task).2 }, background)

def start : Handling Answer := do
  admission config modelName
  let (instances, record) ← both (ofService modelName getInstancesForModel)
    (ask (.findByName modelName))
  match record with
  | none => throwControlPlane (.modelNotFound modelName)
  | some record =>
    if instances.isEmpty then
      assertNoMove modelName "start"
      let instanceId ← ask .mintId
      let _ ← ask (.claim modelName .start)
      let (task, background) ← launchHeld config modelName .start record instanceId
      pure ({ modelName, instanceId := some instanceId, state := some (launchState task).1
              previousState := some .stopped, message := some (launchState task).2 }, background)
    else throwControlPlane (.invalidState modelName (deriveAggregateState instances).text "start")

def mentions (text word : String) : Bool := (text.splitOn word).length > 1

/-- `POST /api/v1/models`. -/
def deploy (body : ModelBody) : Handling Answer := do
  if ← ofService modelName (await .isLeader) then
    match body.deployError config modelName with
    | some error => throwControlPlane error
    | none =>
      let record := body.record config modelName
      tryCatch (ask (.createModel record)) fun err =>
        if mentions err.message "unique" then
          throwControlPlane (.modelAlreadyExists modelName)
        else throw err
      let instanceId ← ask .mintId
      let params := record.launchParams config instanceId
      let (requiredMemory, protocol, task) ← tryCatch
        (ofLaunch record instanceId params.launch) fun err => do
          (ask (.deleteModel modelName)).attempt
          throw err
      pure ({ modelName, instanceId := some instanceId, state := some (launchState task).1
              message := some (launchState task).2 },
        (ofLaunch record instanceId
          (params.background config.timeouts requiredMemory protocol task)).attempt)
  else throwControlPlane .notLeader

/-! ## Move -/

structure MoveBody where
  targetWorkerId : String
  targetDeviceIndices : List Nat
deriving DecidableEq, Repr

def invalidTarget (message reason : String) : ControlPlaneError :=
  ⟨400, .invalidRequest, message, [("reason", reason)]⟩

/-- The checks of the target, on the record, the instance and the devices of the
worker. -/
def moveError (instanceId : String) (body : MoveBody) (record : ModelRecord)
    (source : InstanceState) (devices : Option (List Nat)) : Option ControlPlaneError :=
  if source.state ≠ .active then
    some (.invalidState s!"{modelName}/{instanceId}" source.state.text "move")
  else if (source.workerId.filter (· ≠ "")).isNone || source.endpointAddress.isNone then
    some ⟨500, .internalError,
      s!"Active instance {instanceId} of {modelName} has no runner endpoint", []⟩
  else if body.targetDeviceIndices.length ≠ record.tensorParallel then
    some (invalidTarget "Target device count must equal tensor parallelism"
      "tensor-parallel-mismatch")
  else
    match devices with
    | none => some (.workerNotFound body.targetWorkerId)
    | some devices =>
      if body.targetDeviceIndices.any (· ∉ devices) then
        some ⟨400, .invalidRequest, "Target device does not exist on target worker",
          [("reason", "target-device-not-found"), ("targetWorkerId", body.targetWorkerId)]⟩
      else if source.workerId = some body.targetWorkerId &&
          source.deviceIndices.any fun indices =>
            indices.length = body.targetDeviceIndices.length &&
              indices.all (· ∈ body.targetDeviceIndices) then
        some (invalidTarget "Target placement is identical to source placement"
          "identical-source-placement")
      else none

def runMove (operationId : String) (deployment : Handling Unit) : Handling Unit :=
  Program.andFinally
    (tryCatch
      (do
        deployment
        if ← ofService modelName (await .isLeader) then
          let _ ← ofService modelName
            (await (.updateMoveOperation operationId { phase := some .replacementReady }))
        else pure ())
      fun err => do
        if ← ofService modelName (await .isLeader) then
          let _ ← ofService modelName (await (.updateMoveOperation operationId
            { phase := some .replacementCleanup, errorMessage := some err.message }))
        else pure ())
    (do
      ofService modelName (Move.resume config.timeouts modelName config.process)
      ask (.releaseMove modelName))

variable (instanceId : String)

def moveClaimed (body : MoveBody) (record : ModelRecord)
    (operationId replacementInstanceId : String) : Handling Answer := do
  let params : LaunchParams :=
    { record.launchParams config replacementInstanceId with
      fixedPlacement := some ⟨body.targetWorkerId, body.targetDeviceIndices⟩
      allowMoveClaim := true
      moveOperationId := some operationId }
  let (requiredMemory, protocol, task) ← tryCatch
    (ofLaunch record replacementInstanceId params.launch) fun err => do
      ask (.releaseMove modelName)
      (ofService modelName (await (.removeMoveOperation operationId false))).attempt
      throw err
  pure ({ modelName, sourceInstanceId := some instanceId
          replacementInstanceId := some replacementInstanceId },
    runMove config modelName operationId (ofLaunch record replacementInstanceId
      (params.background config.timeouts requiredMemory protocol task)))

def move (body : MoveBody) : Handling Answer := do
  admission config modelName
  if body.targetWorkerId = "" || body.targetDeviceIndices.isEmpty ||
      !decide body.targetDeviceIndices.Nodup then
    throwControlPlane (invalidTarget
      "A target worker and unique non-negative device indices are required" "invalid-move-target")
  else
    assertMoveAdmission modelName
    match ← both (ask (.findByName modelName))
        (ofService modelName (await (.getInstance instanceId))) with
    | (some record, some source) =>
      assertMoveAdmission modelName
      match moveError modelName instanceId body record source
          (← ask (.workerDevices body.targetWorkerId)) with
      | some error => throwControlPlane error
      | none =>
        assertMoveAdmission modelName
        let operationId ← ask .mintId
        let replacementInstanceId ← ask .mintId
        let now ← ofService modelName (await .now)
        if ← ask (.createMoveOperation
            { operationId, modelName, sourceInstanceId := instanceId, replacementInstanceId
              targetWorkerId := body.targetWorkerId
              targetDeviceIndices := body.targetDeviceIndices
              phase := .replacementStarting, createdAt := now, updatedAt := now }) then
          ask (.claimMove modelName)
          moveClaimed config modelName instanceId body record operationId replacementInstanceId
        else throwControlPlane (moveInProgress modelName "move")
    | _ =>
      throwControlPlane ⟨404, .modelNotFound,
        s!"Model instance not found: {modelName}/{instanceId}",
        [("modelName", modelName), ("instanceId", instanceId), ("reason", "instance-not-found")]⟩

/-! ## Update -/

/-- `PUT /api/v1/models/:modelName`.  The checks of the body come after those of
the sets, in the same turn. -/
def update (body : ModelBody) : Handling Answer := do
  admission config modelName
  assertNoMove modelName "modify"
  let (record, instances) ← both (ask (.findByName modelName))
    (ofService modelName getInstancesForModel)
  if record.isNone then throwControlPlane (.modelNotFound modelName)
  else if instances.isEmpty then
    match body.updateError config with
    | some error =>
      if Operation.update.Refused (← ask .claims) modelName then
        throwControlPlane (otherInProgress modelName "modify")
      else throwControlPlane error
    | none =>
      match ← ask (.claim modelName .update) with
      | some _ => throwControlPlane (otherInProgress modelName "modify")
      | none =>
        Program.andFinally
          (do
            if ← ask (.updateModel (body.record config modelName)) then pure ()
            else throwControlPlane (.modelNotFound modelName))
          (ask (.release modelName .update))
        pure ({ statusCode := 200, modelName, state := some .stopped
                previousState := some .stopped
                message := some "Model configuration updated" }, pure ())
  else throwControlPlane (.invalidState modelName (deriveAggregateState instances).text "modify")

/-! ## One instance -/

def findInstance (action instanceId : String) : Handling InstanceState := do
  admission config modelName
  assertNoMove modelName action
  match ← ofService modelName (await (.getInstance instanceId)) with
  | none => throwControlPlane (.modelNotFound s!"{modelName}/{instanceId}")
  | some instanceState => pure instanceState

/-- `DELETE /api/v1/models/:modelName/instances/:instanceId`. -/
def deleteInstance : Handling Answer := do
  let i ← findInstance config modelName "delete an instance for" instanceId
  let refused : ControlPlaneError :=
    .invalidState s!"{modelName}/{instanceId}" i.state.text "delete"
  if transientForDelete i then throwControlPlane refused
  else
    assertNoMove modelName "delete an instance for"
    match ← ask (.claim modelName (.instanceOp instanceId)) with
    | some _ => throwControlPlane refused
    | none =>
      pure ({ modelName, instanceId := some instanceId, state := some .stopping
              previousState := some i.state, message := some "Instance removal initiated" },
        Program.andFinally
          (do let _ ← teardown config modelName "Instance delete" i)
          (ask (.release modelName (.instanceOp instanceId))))

/-- What the sleep and the wake of one instance share: the claim, the transition to
`target`, and `task` in the background. -/
def shiftInstance (action : String) (i : InstanceState) (target : ModelLifecycleState)
    (task : Service Unit) (message : String) : Handling Answer := do
  if i.endpointAddress.isNone then throwControlPlane (noEndpoint modelName i.instanceId)
  else
    assertNoMove modelName s!"{action} an instance for"
    match ← ask (.claim modelName (.instanceOp i.instanceId)) with
    | some _ =>
      throwControlPlane (.invalidState s!"{modelName}/{i.instanceId}" i.state.text action)
    | none =>
      tryCatch
        (ofService modelName do
          let _ ← await (.transition i.instanceId target {})
          refreshModelRoutingState)
        fun err => do
          ask (.release modelName (.instanceOp i.instanceId))
          throw err
      pure ({ modelName, instanceId := some i.instanceId, state := some target
              previousState := some i.state, message := some message },
        do
          (ofService modelName task).attempt
          ask (.release modelName (.instanceOp i.instanceId)))

/-- `POST /api/v1/models/:modelName/instances/:instanceId/sleep`. -/
def sleepInstance : Handling Answer := do
  let i ← findInstance config modelName "sleep an instance for" instanceId
  if i.state = .active then
    shiftInstance modelName "sleep" { i with instanceId } .draining
      (sleepModel config.timeouts modelName instanceId) "Sleep initiated"
  else
    throwControlPlane (.invalidState s!"{modelName}/{instanceId}" i.state.text "sleep")

/-- `POST /api/v1/models/:modelName/instances/:instanceId/wake`. -/
def wakeInstance : Handling Answer := do
  let i ← findInstance config modelName "wake an instance for" instanceId
  if i.state = .starting then
    pure ({ modelName, instanceId := some instanceId, state := some .starting
            previousState := some .starting
            message := some "Instance is already waking up" }, pure ())
  else if i.state = .sleeping then
    shiftInstance modelName "wake" { i with instanceId } .starting
      (wakeModel config.timeouts modelName instanceId) "Wake initiated"
  else throwControlPlane (.invalidState s!"{modelName}/{instanceId}" i.state.text "wake")

end Handler

/-! ## Requests -/

/-- The requests that change a model. -/
inductive Request where
  | deploy (body : ModelBody)
  | stop (force : Bool)
  | delete (force : Bool)
  | sleep
  | wake
  | addInstance
  | start
  | move (instanceId : String) (body : Handler.MoveBody)
  | update (body : ModelBody)
  | deleteInstance (instanceId : String)
  | sleepInstance (instanceId : String)
  | wakeInstance (instanceId : String)

def Request.handler (config : RouteConfig) (modelName : String) : Request → Handling Answer
  | .deploy body => Handler.deploy config modelName body
  | .stop force => Handler.stop config modelName force
  | .delete force => Handler.delete config modelName force
  | .sleep => Handler.sleep config modelName
  | .wake => Handler.wake config modelName
  | .addInstance => Handler.addInstance config modelName
  | .start => Handler.start config modelName
  | .move instanceId body => Handler.move config modelName instanceId body
  | .update body => Handler.update config modelName body
  | .deleteInstance instanceId => Handler.deleteInstance config modelName instanceId
  | .sleepInstance instanceId => Handler.sleepInstance config modelName instanceId
  | .wakeInstance instanceId => Handler.wakeInstance config modelName instanceId

def serve (handler : Handling Answer) : Handling Unit :=
  handler.handle fun
    | .ok (response, background) => do
      ask (.answer (.ok response))
      background
    | .error err => ask (.answer (.error err))

/-! ## What the programs call -/

section
variable {α β : Type} {A : RouteCall → Prop} {modelName : String}

theorem Handling.only_ofService :
    ∀ {p : Service α}, Only (fun c => A (.service modelName c)) p → Only A (ofService modelName p)
  | .done _, _ => fun _ _ => trivial
  | .call _ _, hp => Only.call (hp.awaited rfl) fun r => only_ofService (hp.next r)

theorem Handling.only_await {c} (h : A (.service modelName c)) :
    Only A (ofService modelName (await c)) :=
  Only.call h fun _ _ _ => trivial

theorem Handling.only_ofLaunch {record instanceId} :
    ∀ {p : Launching α}, Only (fun c => A (.launch record instanceId c)) p →
      Only A (ofLaunch record instanceId p)
  | .done _, _ => fun _ _ => trivial
  | .call _ _, hp => Only.call (hp.awaited rfl) fun r => only_ofLaunch (hp.next r)

theorem Handling.only_both {p : Handling α} {q : Handling β} (hturn : A .turn) (hp : Only A p)
    (hq : Only A q) : Only A (both p q) := by
  refine (Only.par hturn hp hq).bind fun outcomes => ?_
  rcases outcomes with ⟨_ | a, _ | b⟩
  · exact .throw _
  · exact .throw _
  · exact .throw _
  · exact .pure _

theorem Handling.only_all (hturn : A .turn) :
    ∀ {ps : List (Handling α)}, (∀ p ∈ ps, Only A p) → Only A (all ps)
  | [], _ => .pure _
  | _ :: _, h => (only_both hturn (h _ List.mem_cons_self)
      (only_all hturn fun p hp => h p (List.mem_cons_of_mem _ hp))).bind fun _ => .pure _

theorem Handler.only_admission {config} (hleader : A (.service modelName .isLeader)) :
    Only A (admission config modelName) := by
  refine (only_await hleader).bind fun _ => ?_
  exact .ite (.ite (.pure _) (.throw _)) (.throw _)

theorem Handler.only_assertNoMove (hread : A (.service modelName .getMoveOperation))
    (hclaims : A .claims) (action : String) : Only A (assertNoMove modelName action) := by
  refine (only_await hread).bind fun _ => ?_
  exact only_then hclaims fun claims => .ite (.pure _) (.throw _)

end

end Sardeenz
