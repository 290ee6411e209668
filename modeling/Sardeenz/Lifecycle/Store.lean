/-
# `Sardeenz.Lifecycle.Store` — the operations on instance and move records

`ModelLifecycleService` keeps one Redis key for each instance.  Every
operation here acts on the value of that key, an `Option InstanceState`, and
either produces the record it persists (which is also the record it returns)
or fails with the error the service throws, in which case nothing is written.

    createInstance      SET … NX             one Redis command
    transition          a Lua script         GET, check the edge, SET, atomically
    setRunnerEndpoint   GET, then SET        two commands, and nothing between them is checked
    removeInstance      DEL                  one Redis command

The durable record of a move (`MoveOperation`) is one key for each model: it is
created with `SET … NX`, and the two calls that change or remove it are Lua
scripts that look at its `operationId` first.
-/
import Sardeenz.Lifecycle.States

namespace Sardeenz

/-! ## createInstance -/

/-- The record `createInstance` writes. -/
def newInstance (modelName instanceId : String) (workerId : Option String)
    (protocol : Option Protocol) (now : Nat) : InstanceState where
  instanceId := instanceId
  modelName := modelName
  state := .pending
  protocol := some (protocol.getD .openai)
  workerId := workerId
  runnerHost := none
  runnerPort := none
  runnerEnginePort := none
  runnerId := none
  deviceIndices := none
  lastInferenceAt := none
  stateChangedAt := now
  errorMessage := none

variable (record : Option InstanceState)

def createInstance (modelName instanceId : String)
    (workerId : Option String) (protocol : Option Protocol) (now : Nat) :
    Except ControlPlaneError InstanceState :=
  match record with
  | none => .ok (newInstance modelName instanceId workerId protocol now)
  | some _ => .error (.modelAlreadyExists s!"{modelName}/{instanceId}")

/-! ## transition -/

/-- The `updates` argument of `transition`: a field that is present is
written, also when its new value is `null`. -/
structure InstanceUpdates where
  workerId : Option (Option String) := none
  runnerHost : Option (Option String) := none
  runnerPort : Option (Option Nat) := none
  runnerEnginePort : Option (Option Nat) := none
  runnerId : Option (Option String) := none
  deviceIndices : Option (Option (List Nat)) := none
  errorMessage : Option (Option String) := none
  runnerStartAmbiguous : Option Bool := none
deriving DecidableEq, Repr

/-- The loop `for k, v in pairs(upd) do state[k] = v end`. -/
def InstanceUpdates.apply (updates : InstanceUpdates) (r : InstanceState) : InstanceState :=
  { r with
    workerId := updates.workerId.getD r.workerId
    runnerHost := updates.runnerHost.getD r.runnerHost
    runnerPort := updates.runnerPort.getD r.runnerPort
    runnerEnginePort := updates.runnerEnginePort.getD r.runnerEnginePort
    runnerId := updates.runnerId.getD r.runnerId
    deviceIndices := updates.deviceIndices.getD r.deviceIndices
    errorMessage := updates.errorMessage.getD r.errorMessage
    runnerStartAmbiguous := updates.runnerStartAmbiguous.getD r.runnerStartAmbiguous }

/-- The record the transition script writes: the new state and its time, then
the updates, then no error message unless the target is `ERROR`. -/
def transitioned (r : InstanceState) (target : ModelLifecycleState) (updates : InstanceUpdates)
    (now : Nat) : InstanceState :=
  let r' := updates.apply { r with state := target, stateChangedAt := now }
  if target ≠ .error then { r' with errorMessage := none } else r'

section
variable (r : InstanceState) (target : ModelLifecycleState) (updates : InstanceUpdates) (now : Nat)
include r target updates now

@[simp] theorem transitioned_state : (transitioned r target updates now).state = target := by
  grind [transitioned, InstanceUpdates.apply]

@[simp] theorem transitioned_instanceId :
    (transitioned r target updates now).instanceId = r.instanceId := by
  grind [transitioned, InstanceUpdates.apply]

end

def transition (modelName instanceId : String)
    (target : ModelLifecycleState) (updates : InstanceUpdates) (now : Nat) :
    Except ControlPlaneError InstanceState :=
  match record with
  | none => .error (.modelNotFound s!"{modelName}/{instanceId}")
  | some r =>
    if isValidTransition r.state target then .ok (transitioned r target updates now)
    else
      .error (.invalidState s!"{modelName}/{instanceId}" r.state.text
        s!"transition to {target.text}")

theorem transition_eq_ok {record modelName instanceId target updates now r'} :
    transition record modelName instanceId target updates now = .ok r' ↔
      ∃ r, record = some r ∧ isValidTransition r.state target = true ∧
        r' = transitioned r target updates now := by
  cases record with
  | none => simp [transition]
  | some r =>
    grind [transition]

/-! ## setRunnerEndpoint -/

/-- The `endpoint` argument of `setRunnerEndpoint`. -/
structure RunnerPlacement where
  runnerId : String
  host : String
  port : Nat
  enginePort : Option Nat := none
deriving DecidableEq, Repr

/-- The record `setRunnerEndpoint` writes back after it read `r`. -/
def InstanceState.withEndpoint (r : InstanceState) (endpoint : RunnerPlacement) : InstanceState :=
  { r with
    runnerId := some endpoint.runnerId
    runnerHost := some endpoint.host
    runnerPort := some endpoint.port
    runnerEnginePort := some (endpoint.enginePort.getD endpoint.port) }

@[simp] theorem withEndpoint_state (r : InstanceState) (endpoint : RunnerPlacement) :
    (r.withEndpoint endpoint).state = r.state := rfl

/-- The first half of `setRunnerEndpoint`: the `GET`, which fails when there
is no record.  The record read is what the second half will write back. -/
def readForEndpoint (modelName instanceId : String) :
    Except ControlPlaneError InstanceState :=
  match record with
  | none => .error (.modelNotFound s!"{modelName}/{instanceId}")
  | some r => .ok r

/-! ## The move operation -/

variable (stored : Option MoveOperation)

/-- `createMoveOperation`: what is stored afterwards, and whether the record
was created. -/
def createMoveOperation (operation : MoveOperation) :
    Option MoveOperation × Bool :=
  match stored with
  | none => (some operation, true)
  | some current => (some current, false)

/-- The `updates` argument of `updateMoveOperation`. -/
structure MoveOperationUpdates where
  phase : Option MoveOperationPhase := none
  errorMessage : Option String := none
deriving DecidableEq, Repr

/-- The script's table `allowed`. -/
def allowedPhases : MoveOperationPhase → List MoveOperationPhase
  | .replacementStarting => [.replacementReady, .replacementCleanup]
  | .replacementReady => [.cuttingOver, .replacementCleanup]
  | .cuttingOver => [.sourceDraining, .replacementCleanup]
  | .sourceDraining | .replacementCleanup => []

/-- The script lets the operation go to the phase of the updates: it is the
phase it is in, or the table has it. -/
def phaseAllowed (current : MoveOperationPhase) : Option MoveOperationPhase → Bool
  | none => true
  | some phase => phase = current || (allowedPhases current).contains phase

/-- `updateMoveOperation`: the record written and returned, or `null` and
nothing is written. -/
def updateMoveOperation (operationId : String)
    (updates : MoveOperationUpdates) (now : Nat) : Option MoveOperation :=
  match stored with
  | none => none
  | some operation =>
    if operation.operationId = operationId && phaseAllowed operation.phase updates.phase then
      some { operation with
        phase := updates.phase.getD operation.phase
        errorMessage := updates.errorMessage <|> operation.errorMessage
        updatedAt := now }
    else none

/-- `removeMoveOperation`: what is stored afterwards, and whether the record
was removed. -/
def removeMoveOperation (operationId : String) :
    Option MoveOperation × Bool :=
  match stored with
  | none => (none, false)
  | some operation =>
    if operation.operationId = operationId then (none, true) else (some operation, false)

theorem updateMoveOperation_eq_some {stored operationId updates now operation'}
    (h : updateMoveOperation stored operationId updates now = some operation') :
    ∃ operation, stored = some operation ∧ operation.operationId = operationId ∧
      phaseAllowed operation.phase updates.phase = true ∧
      operation'.operationId = operation.operationId ∧
      operation'.phase = updates.phase.getD operation.phase ∧
      operation'.sourceInstanceId = operation.sourceInstanceId ∧
      operation'.replacementInstanceId = operation.replacementInstanceId := by
  cases stored with
  | none => cases h
  | some operation =>
    obtain ⟨_, h⟩ := Option.ite_none_right_eq_some.mp h
    grind

end Sardeenz
