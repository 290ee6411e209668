/-
# `Sardeenz.Types` — the records the control plane and the proxy share

The data model of the control plane's Redis state (`model-lifecycle.ts`,
`routing-map.ts`) and of the proxy's copy of it
(`generated/proxy_control_plane.rs`), under the names the sources use.

Two conventions hold throughout.  A timestamp is the number of milliseconds
since the epoch: the sources write it as an ISO string or as a decimal and
read it back with `Date.getTime` or `Number`.  A field that the sources declare
`T | null` or optional is an `Option`.
-/
import Mathlib.Data.List.AList

namespace Sardeenz

/-- `ModelLifecycleState`: where one instance is in its life. -/
inductive ModelLifecycleState where
  | pending
  | starting
  | active
  | draining
  | sleeping
  | stopping
  | stopped
  | error
deriving DecidableEq, Repr

/-- `ModelState`: the state of a model as the routing map shows it. -/
inductive ModelState where
  | active
  | sleeping
  | starting
  | draining
  | error
deriving DecidableEq, Repr

/-- `Protocol`: the protocol family of a runner. -/
inductive Protocol where
  | openai
  | oip
deriving DecidableEq, Repr

/-- `RunnerEndpoint`: one address inference can be forwarded to. -/
structure RunnerEndpoint where
  host : String
  port : Nat
  weight : Nat
  healthy : Bool
  runnerId : Option String := none
deriving DecidableEq, Repr

structure RoutingEntryMetadata where
  ownedBy : Option String
  maxModelLen : Option Nat
deriving DecidableEq, Repr

/-- `RoutingEntry`: what the routing map holds for one model. -/
structure RoutingEntry where
  modelName : String
  state : ModelState
  protocol : Protocol
  endpoints : List RunnerEndpoint
  updatedAt : Nat
  metadata : Option RoutingEntryMetadata := none
deriving DecidableEq, Repr

/-- The `routing-map` hash: one field for each model. -/
abbrev RoutingMap := AList (fun _ : String => RoutingEntry)

/-- `InstanceState`: the lifecycle record of one instance. -/
structure InstanceState where
  instanceId : String
  modelName : String
  state : ModelLifecycleState
  protocol : Option Protocol
  workerId : Option String
  runnerHost : Option String
  runnerPort : Option Nat
  runnerEnginePort : Option Nat
  runnerId : Option String
  deviceIndices : Option (List Nat)
  lastInferenceAt : Option Nat
  stateChangedAt : Nat
  errorMessage : Option String
  runnerStartAmbiguous : Bool := false
deriving DecidableEq, Repr

/-- `MoveOperationPhase`: how far a move has come. -/
inductive MoveOperationPhase where
  | replacementStarting
  | replacementReady
  | cuttingOver
  | sourceDraining
  | replacementCleanup
deriving DecidableEq, Repr

/-- `MoveOperation`: the durable transaction record of one move. -/
structure MoveOperation where
  operationId : String
  modelName : String
  sourceInstanceId : String
  replacementInstanceId : String
  targetWorkerId : String
  targetDeviceIndices : List Nat
  phase : MoveOperationPhase
  createdAt : Nat
  updatedAt : Nat
  errorMessage : Option String := none
deriving DecidableEq, Repr

/-- The placement a worker reports for a runner it started (`StartRunnerResponse`
with `enginePort ?? port` already applied).  A runner binds real ports and
its host is never empty. -/
structure RunnerInfo where
  runnerId : String
  host : String
  port : Nat
  enginePort : Nat
  host_ne : host ≠ ""
  port_pos : 0 < port
deriving DecidableEq

/-! ## Errors -/

/-- `ErrorCode`, as far as the modelled operations raise it. -/
inductive ErrorCode where
  | modelNotFound
  | modelAlreadyExists
  | invalidState
  | workerNotFound
  | runnerUnavailable
  | runnerTimeout
  | invalidRequest
  | placementFailed
  | notLeader
  | internalError
deriving DecidableEq, Repr

/-- `ControlPlaneError`.  A detail may be `null`. -/
structure ControlPlaneError where
  statusCode : Nat
  code : ErrorCode
  message : String
  details : List (String × Option String)
deriving DecidableEq, Repr

variable (modelName : String)

def ControlPlaneError.modelNotFound : ControlPlaneError :=
  ⟨404, .modelNotFound, s!"Model not found: {modelName}", [("modelName", modelName)]⟩

def ControlPlaneError.modelAlreadyExists : ControlPlaneError :=
  ⟨409, .modelAlreadyExists, s!"Model already exists: {modelName}", [("modelName", modelName)]⟩

def ControlPlaneError.invalidState (currentState action : String) : ControlPlaneError :=
  ⟨409, .invalidState, s!"Cannot {action} model {modelName}: current state is {currentState}",
    [("modelName", modelName), ("currentState", currentState), ("action", action)]⟩

def ControlPlaneError.operationInProgress (action reason detail : String) :
    ControlPlaneError :=
  ⟨409, .invalidState, s!"Cannot {action} model {modelName}: {detail}",
    [("modelName", modelName), ("action", action), ("reason", reason)]⟩

def ControlPlaneError.workerNotFound (workerId : String) : ControlPlaneError :=
  ⟨404, .workerNotFound, s!"Worker not found: {workerId}", [("workerId", workerId)]⟩

def ControlPlaneError.placementFailed (reason : String) : ControlPlaneError :=
  ⟨503, .placementFailed, s!"Placement failed for {modelName}: {reason}",
    [("modelName", modelName), ("reason", reason)]⟩

def ControlPlaneError.notLeader : ControlPlaneError :=
  ⟨503, .notLeader, "This instance is not the active leader", []⟩

def ControlPlaneError.invalidRequest (message : String) : ControlPlaneError :=
  ⟨400, .invalidRequest, message, []⟩

end Sardeenz
