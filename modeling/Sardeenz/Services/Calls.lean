/-
# `Sardeenz.Services.Calls` — what the services await

The services of the control plane are asynchronous functions on one model:
between two awaits a function runs undisturbed, and what it awaits is one of
the calls listed here, each of which takes effect at one moment.

    lifecycle       Redis: the instance records and the move operation
    routing map     Redis: the entry of the model
    worker          HTTP: start, look up and stop a runner
    runner          HTTP: health, wake and sleep
    process         the pool of workers, the leader flag, timers, claims

A call that is not awaited in the source but reads what other code of the
process may change (`isLeader`, the clock, an abort signal, a claim) is a call
as well: its answer belongs to the moment the function is resumed.  The name
of the model is a parameter of the functions and of what the calls mean, and
is left out of the calls.
-/
import Sardeenz.Program
import Sardeenz.Lifecycle.Store

namespace Sardeenz

/-- What an asynchronous function throws. -/
inductive Failure where
  | controlPlane (error : ControlPlaneError)
  | workerHttp (status : Nat) (message : String)
  | ownershipLost
  | other (message : String)
deriving DecidableEq

def Failure.message : Failure → String
  | controlPlane error => error.message
  | workerHttp _ message => message
  | ownershipLost => "Deployment ownership was lost during runner startup"
  | other message => message

/-- `RunnerByInstanceLookup`. -/
inductive RunnerLookup where
  | absent
  | starting (runnerId : String)
  | ready (info : RunnerInfo)
deriving DecidableEq

inductive RunnerState where
  | starting
  | ready
  | busy
  | sleeping
  | error
deriving DecidableEq

/-- `RunnerHealthResult`, and the body of `GET /health`. -/
structure RunnerHealth where
  state : RunnerState
  activeRequests : Option Nat
  message : Option String
deriving DecidableEq

/-- The claims of the routes that cancel a deployment. -/
inductive CancelClaim where
  | stopping
  | deleting
  | instanceOp
deriving DecidableEq

/-- One call. -/
inductive Call where
  | getInstance (instanceId : String)
  | transition (instanceId : String) (target : ModelLifecycleState) (updates : InstanceUpdates)
  | writeInstance (instanceId : String) (record : InstanceState)
  | removeInstance (instanceId : String)
  | scan
  | scanned (startIds : List String)
  | setModelState (state : ModelState) (protocol : Protocol)
  | removeModel
  | addEndpoint (endpoint : RunnerEndpoint) (protocol : Protocol)
  | removeEndpoint (host : String) (port : Nat)
  | updateEndpointWeight (host : String) (port weight : Nat)
  | cutoverEndpointAndWait (host : String) (port : Nat)
  | getMoveOperation
  | updateMoveOperation (operationId : String) (updates : MoveOperationUpdates)
  | removeMoveOperation (operationId : String) (success : Bool)
  /-- `POST /runners` is sent, unless `isCancelled()`: one turn of the event loop. -/
  | sendStart
  | awaitStart
  | getRunnerByInstance (instanceId : String)
  | stopRunner (runnerId : String)
  | getHealth
  | wakeRunner
  | sleepRunner
  | getWorker (workerId : String)
  | isLeader
  | aborted
  | now
  | claim (c : CancelClaim)
  | release (c : CancelClaim)
  | enterResume (process : Nat)
  | leaveResume (process : Nat)
  | bookkeeping
deriving DecidableEq

@[reducible] def Reply : Call → Type
  | .getInstance _ => Option InstanceState
  | .transition _ _ _ => InstanceState
  | .scan => List String
  | .scanned _ => List String
  | .updateEndpointWeight _ _ _ => Bool
  | .cutoverEndpointAndWait _ _ => Bool
  | .getMoveOperation => Option MoveOperation
  | .updateMoveOperation _ _ => Option MoveOperation
  | .removeMoveOperation _ _ => Bool
  | .sendStart => Bool
  | .awaitStart => RunnerInfo
  | .getRunnerByInstance _ => RunnerLookup
  | .getHealth => RunnerHealth
  | .getWorker _ => Bool
  | .isLeader => Bool
  | .aborted => Bool
  | .now => Nat
  | .claim _ => Bool
  | .enterResume _ => Bool
  | .writeInstance _ _ | .removeInstance _ | .setModelState _ _ | .removeModel
  | .addEndpoint _ _ | .removeEndpoint _ _ | .stopRunner _ | .wakeRunner | .sleepRunner
  | .release _ | .leaveResume _ | .bookkeeping => Unit

abbrev Service (α : Type) := Interleave.Program Call Reply Failure α

abbrev await (c : Call) : Service (Reply c) := Interleave.Program.perform c

namespace Service

variable {α : Type}

/-- `throw` of a `ControlPlaneError`. -/
def throwControlPlane (error : ControlPlaneError) : Service α := throw (.controlPlane error)

/-- `if (c) { p }` in the middle of a function. -/
def when (c : Prop) [Decidable c] (p : Service Unit) : Service Unit := if c then p else pure ()

/-- `promise.catch(() => {})`. -/
def ignoringErrors (p : Service Unit) : Service Unit := tryCatch p fun _ => pure ()

end Service

/-! ## The compound operations of the lifecycle service -/

/-- The `GET`s of a pipeline; a key that has gone by then is left out. -/
def readInstances : List String → Service (List InstanceState)
  | [] => pure []
  | id :: ids => do
    let record ← await (.getInstance id)
    let records ← readInstances ids
    pure (record.toList ++ records)

def getInstancesForModel : Service (List InstanceState) := do
  let startIds ← await .scan
  let keys ← await (.scanned startIds)
  readInstances keys

def setRunnerEndpoint (modelName instanceId : String) (endpoint : RunnerPlacement) :
    Service Unit := do
  match ← await (.getInstance instanceId) with
  | none => Service.throwControlPlane (.modelNotFound s!"{modelName}/{instanceId}")
  | some record => await (.writeInstance instanceId (record.withEndpoint endpoint))

/-- Where the endpoint of an instance is registered, if the record names it:
`runnerHost && runnerPort`, and then the engine port before the port. -/
def InstanceState.endpointAddress (r : InstanceState) : Option (String × Nat) :=
  match r.runnerHost, r.runnerPort with
  | some host, some port =>
    if host ≠ "" ∧ port ≠ 0 then some (host, r.runnerEnginePort.getD port) else none
  | _, _ => none

theorem endpointAddress_transitioned {record target updates now} (hhost : updates.runnerHost = none)
    (hport : updates.runnerPort = none) (hengine : updates.runnerEnginePort = none) :
    (transitioned record target updates now).endpointAddress = record.endpointAddress := by
  grind [transitioned, InstanceUpdates.apply, InstanceState.endpointAddress]

def RunnerInfo.address (info : RunnerInfo) : String × Nat := (info.host, info.enginePort)

def RunnerInfo.placement (info : RunnerInfo) : RunnerPlacement where
  runnerId := info.runnerId
  host := info.host
  port := info.port
  enginePort := some info.enginePort

end Sardeenz
