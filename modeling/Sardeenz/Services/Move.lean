/-
# `Sardeenz.Services.Move` — the move of an instance to another worker

`MoveOrchestrationService` of `move-orchestration.ts`, and `runMove`, the task
that `POST …/move` leaves behind.  The operation is a record in Redis; its
phase says how far the move has come.

    REPLACEMENT_STARTING   the replacement is being deployed
    REPLACEMENT_READY      it is ACTIVE
    CUTTING_OVER           traffic is being taken from the source
    SOURCE_DRAINING        the source is being torn down
    REPLACEMENT_CLEANUP    the move has failed; the replacement is being torn down

`runMove` deploys the replacement, writes what came of it into the phase and
calls `resume`; so does the reconciliation loop of whichever process is the
leader.  `resume` reads the phase and goes on from there.  The source file has
one function with a `return` in most of its branches; here each phase is a
program of its own, and going on to the next phase is a call.

A record is passed on together with the id it was read under, where the source
takes the id from the record.
-/
import Sardeenz.Services.Deploy
import Sardeenz.Routes.Teardown

namespace Sardeenz

namespace Move

/-! ## Teardown -/

/-- What is known of the instance before it is torn down. -/
inductive Resolved where
  | deferred
  | ready (instanceState : InstanceState)
  | vanished

variable (timeouts : Timeouts)

/-- The beginning of `teardown`: an ambiguous start is looked up first. -/
def resolveAmbiguousStart (modelName instanceId : String)
    (initial : InstanceState) : Service Resolved := do
  if initial.runnerStartAmbiguous ∧ initial.runnerId = none then
    match initial.workerId with
    | none => pure .deferred
    | some workerId =>
      if ← await (.getWorker workerId) then
        match ← await (.getRunnerByInstance instanceId) with
        | .starting _ => pure .deferred
        | .absent =>
          let now ← await .now
          if now < initial.stateChangedAt + timeouts.ambiguousStartGraceMs then pure .deferred
          else pure (.ready initial)
        | .ready info =>
          setRunnerEndpoint modelName instanceId info.placement
          match ← await (.getInstance instanceId) with
          | some current => pure (.ready current)
          | none => pure .vanished
      else pure .deferred
  else pure (.ready initial)

def reapRunner (instanceState : InstanceState) : Service Unit :=
  match instanceState.workerId, instanceState.runnerId with
  | some workerId, some runnerId => do
    if ← await (.getWorker workerId) then Teardown.stopTolerant runnerId
    else throw (.other s!"worker {workerId} is unknown")
  | _, _ => pure ()

/-- The rest of the `try` of `teardown`. -/
def removeResolved (modelName instanceId : String)
    (instanceState : InstanceState) : Service Unit := do
  stopModel timeouts modelName instanceId instanceState.endpointAddress.isSome
  reapRunner instanceState
  await (.removeInstance instanceId)
  Service.ignoringErrors (await .bookkeeping)

def teardown (modelName instanceId : String) (initial : InstanceState)
    (isReplacementCleanup : Bool) : Service Bool := do
  let outcome ← tryCatch
    (do
      match ← resolveAmbiguousStart timeouts modelName instanceId initial with
      | .deferred => pure (some false)
      | .vanished => pure none
      | .ready instanceState =>
        removeResolved timeouts modelName instanceId instanceState
        pure (some true))
    fun _ => do
      Teardown.retain instanceId (context ++ " could not be confirmed")
      pure (some false)
  match outcome with
  | some result => pure result
  | none => throw (.other "Cannot read properties of null (reading 'runnerHost')")
where
  context : String :=
    if isReplacementCleanup then "Move replacement cleanup" else "Move source teardown"

/-! ## The start of the replacement -/

/-- A worker has the replacement's runner: activate it as `deployModel` would
have. -/
def recoverReady (modelName workerId : String) (operation : MoveOperation)
    (initial : InstanceState) (info : RunnerInfo) : Service (Option InstanceState) := do
  let replacement ← markStarting
  setRunnerEndpoint modelName operation.replacementInstanceId info.placement
  await (.addEndpoint (DeployModelParams.routedEndpoint info) (replacement.protocol.getD .openai))
  let replacement ← tryCatch
    (await (.transition operation.replacementInstanceId .active
      (DeployModelParams.activeUpdates info)))
    fun err => do
      match ← await (.getInstance operation.replacementInstanceId) with
      | some current => if current.state = .active then pure current else throw err
      | none => throw err
  refreshModelRoutingState
  Service.ignoringErrors (await .bookkeeping)
  pure (some replacement)
where
  markStarting : Service InstanceState :=
    if initial.state = .pending then
      await (.transition operation.replacementInstanceId .starting
        { workerId := some (some workerId)
          deviceIndices := some (some operation.targetDeviceIndices) })
    else pure initial

variable (operation : MoveOperation)

def recoverAbsent : Service (Option InstanceState) :=
  tryCatch
    (do
      let replacement ← await (.transition operation.replacementInstanceId .error
        { errorMessage := some (some "replacement runner was not started before leader handoff") })
      pure (some replacement))
    fun err => do
      let current ← await (.getInstance operation.replacementInstanceId)
      if current.map (·.state) = some .active then pure current else throw err

/-- `recoverReplacementStart`: the replacement as it is then, or `none` when it
has to be awaited. -/
def recoverReplacementStart (modelName : String)
    (operation : MoveOperation) (initial : InstanceState) : Service (Option InstanceState) := do
  let workerId := initial.workerId.getD operation.targetWorkerId
  if ← await (.getWorker workerId) then
    match ← await (.getRunnerByInstance operation.replacementInstanceId) with
    | .starting _ => pure none
    | .absent =>
      let now ← await .now
      if now < operation.createdAt + timeouts.ambiguousStartGraceMs then pure none
      else recoverAbsent operation
    | .ready info => recoverReady modelName workerId operation initial info
  else pure none

/-! ## The phases -/

def finish (success : Bool) : Service Unit := do
  let _ ← await (.removeMoveOperation operation.operationId success)

def toCleanup (errorMessage : String) :
    Service (Option MoveOperation) :=
  await (.updateMoveOperation operation.operationId
    { phase := some .replacementCleanup, errorMessage := some errorMessage })

def restoreSourceWeight (source : InstanceState) : Service Unit :=
  match source.endpointAddress with
  | none => throw (.other "source has no recoverable routing endpoint for rollback")
  | some address => do
    if ← await (.updateEndpointWeight address.1 address.2 1) then pure ()
    else throw (.other "source routing endpoint was not found during rollback")

/-- `REPLACEMENT_CLEANUP`. -/
def resumeCleanup (modelName : String) (operation : MoveOperation) :
    Service Unit := do
  match ← await (.getInstance operation.replacementInstanceId) with
  | none => finish operation false
  | some replacement =>
    if ← teardown timeouts modelName operation.replacementInstanceId replacement true then
      finish operation false
    else pure ()

/-- `SOURCE_DRAINING`. -/
def resumeDraining (modelName : String) (operation : MoveOperation) :
    Service Unit := do
  if ← await .isLeader then
    match ← await (.getInstance operation.sourceInstanceId) with
    | none => finish operation true
    | some source =>
      if ← teardown timeouts modelName operation.sourceInstanceId source false then
        finish operation true
      else pure ()
  else pure ()

def sourceGone (replacement : Option InstanceState) :
    Service Unit := do
  match replacement with
  | none => finish operation false
  | some record =>
    if record.state = .active then finish operation true
    else if record.state = .error then
      let _ ← toCleanup operation (record.errorMessage.getD "replacement became unavailable")
    else pure ()

/-- The replacement is not `ACTIVE`: if it has failed, the source takes its
traffic back. -/
def replacementUnavailable (source : InstanceState)
    (replacement : Option InstanceState) : Service Unit := do
  match replacement with
  | none =>
    rollBack
    finish operation false
  | some record =>
    if record.state = .error then
      rollBack
      let _ ← toCleanup operation (record.errorMessage.getD "replacement became unavailable")
    else pure ()
where
  rollBack : Service Unit :=
    if source.state ≠ .active then
      throw (.other s!"replacement became unavailable after source entered {source.state.text}")
    else if operation.phase = .cuttingOver then restoreSourceWeight source
    else pure ()

/-- Take the traffic from the source; `false` when another process has become
the leader meanwhile. -/
def shiftTraffic (source : InstanceState) : Service Bool := do
  if source.state = .active then
    match source.endpointAddress with
    | none => throw (.other "source has no recoverable routing endpoint")
    | some address =>
      if ← await (.cutoverEndpointAndWait address.1 address.2) then
        if ← await .isLeader then
          let _ ← await (.transition operation.sourceInstanceId .draining {})
          refreshModelRoutingState
          pure true
        else pure false
      else throw (.other "source routing endpoint was not found before cutover")
  else if source.state = .draining then pure true
  else throw (.other s!"source entered {source.state.text} during move")

/-- From a source and an `ACTIVE` replacement to `SOURCE_DRAINING`. -/
def cutOver (modelName : String) (operation : MoveOperation)
    (source : InstanceState) : Service Unit := do
  match ← await (.updateMoveOperation operation.operationId { phase := some .cuttingOver }) with
  | none => pure ()
  | some cuttingOver =>
    if ← await .isLeader then
      if ← shiftTraffic cuttingOver source then
        match ← await (.updateMoveOperation cuttingOver.operationId
            { phase := some .sourceDraining }) with
        | none => pure ()
        | some sourceDraining => resumeDraining timeouts modelName sourceDraining
      else pure ()
    else pure ()

/-- `REPLACEMENT_READY` and `CUTTING_OVER`. -/
def resumeCutover (modelName : String) (operation : MoveOperation) :
    Service Unit := do
  let source ← await (.getInstance operation.sourceInstanceId)
  let replacement ← await (.getInstance operation.replacementInstanceId)
  match source with
  | none => sourceGone operation replacement
  | some record =>
    if replacement.map (·.state) = some .active then cutOver timeouts modelName operation record
    else replacementUnavailable operation record replacement

/-- Every phase after `REPLACEMENT_STARTING`. -/
def resumeFrom (modelName : String) (operation : MoveOperation) :
    Service Unit :=
  match operation.phase with
  | .replacementStarting => pure ()
  | .replacementCleanup => resumeCleanup timeouts modelName operation
  | .replacementReady | .cuttingOver => resumeCutover timeouts modelName operation
  | .sourceDraining => resumeDraining timeouts modelName operation

def settleReplacement (timeouts : Timeouts) (modelName : String) (operation : MoveOperation)
    (replacement : InstanceState) : Service Unit := do
  if replacement.state = .active then
    Service.ignoringErrors (await .bookkeeping)
    goOn (← await (.updateMoveOperation operation.operationId { phase := some .replacementReady }))
  else if replacement.state = .error then
    Service.ignoringErrors (await .bookkeeping)
    goOn (← toCleanup operation (replacement.errorMessage.getD "replacement deployment failed"))
  else pure ()
where
  goOn : Option MoveOperation → Service Unit
    | none => pure ()
    | some updated => resumeFrom timeouts modelName updated

/-- `REPLACEMENT_STARTING`. -/
def resumeStarting (modelName : String) (operation : MoveOperation) :
    Service Unit := do
  match ← await (.getInstance operation.replacementInstanceId) with
  | none => finish operation false
  | some replacement =>
    if replacement.state = .pending ∨ replacement.state = .starting then
      match ← recoverReplacementStart timeouts modelName operation replacement with
      | none => pure ()
      | some recovered => settleReplacement timeouts modelName operation recovered
    else settleReplacement timeouts modelName operation replacement

/-! ## The tasks -/

/-- The `try` of `resume`. -/
def resumeOperation (modelName : String) : Service Unit := do
  match ← await .getMoveOperation with
  | none => pure ()
  | some operation =>
    if ← await .isLeader then
      if operation.phase = .replacementStarting then
        resumeStarting timeouts modelName operation
      else resumeFrom timeouts modelName operation
    else pure ()

/-- The `catch` of `resume`: the failure is noted, the operation stays. -/
def noteFailure (err : Failure) : Service Unit := do
  match ← tryCatch (await .getMoveOperation) fun _ => pure none with
  | none => pure ()
  | some operation =>
    Service.ignoringErrors do
      let _ ← await (.updateMoveOperation operation.operationId
        { errorMessage := some err.message })

def resume (modelName : String) (process : Nat) : Service Unit := do
  if ← await (.enterResume process) then
    (tryCatch (resumeOperation timeouts modelName) noteFailure).andFinally
      (await (.leaveResume process))
  else pure ()

/-- The `try` and `catch` of `runMove`. -/
def deployReplacement (operationId : String) (params : DeployModelParams) :
    Service Unit :=
  tryCatch
    (do
      deployModel timeouts params
      if ← await .isLeader then
        let _ ← await (.updateMoveOperation operationId { phase := some .replacementReady })
      else pure ())
    fun err => do
      if ← await .isLeader then
        let _ ← await (.updateMoveOperation operationId
          { phase := some .replacementCleanup, errorMessage := some err.message })
      else pure ()

def runMove (operationId : String) (params : DeployModelParams)
    (process : Nat) : Service Unit :=
  (deployReplacement timeouts operationId params).andFinally
    (resume timeouts params.modelName process)

/-! ## What the helpers keep -/

open Interleave

section
variable {L : Type} {P : Contract Call Reply Failure L} {I : L → Prop} {modelName : String}
  {instanceId : String}

/-- The calls of a teardown of one instance stay within `I`: the placement that
a lookup answers may be written, and the endpoint that the record names may be
removed. -/
structure Reaping (P : Contract Call Reply Failure L) (I : L → Prop)
    (modelName instanceId : String) : Prop where
  upkeep : Upkeep P I instanceId
  worker : ∀ workerId, KeepsCall P I (.getWorker workerId)
  now : KeepsCall P I .now
  stopRunner : ∀ runnerId, KeepsCall P I (.stopRunner runnerId)
  bookkeeping : KeepsCall P I .bookkeeping
  removeInstance : KeepsCall P I (.removeInstance instanceId)
  lookup : ∀ l, I l → Obeys P
    (fun l r => I l ∧ ∀ info, r = .ok (.ready info) →
      Keeps P I (setRunnerEndpoint modelName instanceId info.placement))
    (await (.getRunnerByInstance instanceId)) l
  removeEndpoint : ∀ l record address, I l →
    P.expected l (.getInstance instanceId) (.ok (some record)) →
    record.endpointAddress = some address → KeepsCall P I (.removeEndpoint address.1 address.2)

namespace Reaping

section
variable (h : Reaping P I modelName instanceId)
include h

theorem resolveAmbiguousStart (timeouts : Timeouts) (initial : InstanceState) :
    Keeps P I (resolveAmbiguousStart timeouts modelName instanceId initial) := by
  refine .ite ?_ (.pure _)
  split
  · exact .pure _
  · refine (h.worker _).bind fun _ => .ite ?_ (.pure _)
    intro l hl
    refine obeys_bind.mpr ((h.lookup l hl).mono fun l r hlr => ?_)
    match r, hlr with
    | .error e, hlr | .ok (.starting _), hlr => exact hlr.1
    | .ok .absent, hlr =>
      have hwait : Keeps P I (do
          let now ← await .now
          if now < initial.stateChangedAt + timeouts.ambiguousStartGraceMs then
            pure Resolved.deferred
          else pure (Resolved.ready initial)) :=
        h.now.bind fun _ => .ite (.pure _) (.pure _)
      exact hwait l hlr.1
    | .ok (.ready info), hlr =>
      refine ((hlr.2 info rfl).bind fun _ => h.upkeep.getInstance.bind fun current => ?_) l hlr.1
      cases current with
      | some current | none => exact .pure _

theorem reapRunner (instanceState : InstanceState) : Keeps P I (reapRunner instanceState) := by
  unfold Move.reapRunner
  split
  · refine (h.worker _).bind fun _ => .ite ?_ (.throw _)
    refine (h.stopRunner _).perform.tryCatch fun _ => ?_
    split
    · exact .pure _
    · exact .throw _
  · exact .pure _

theorem teardown (timeouts : Timeouts) (initial : InstanceState) (isReplacementCleanup : Bool) :
    Keeps P I (teardown timeouts modelName instanceId initial isReplacementCleanup) := by
  refine .bind (.tryCatch ?_ fun _ => ?_) fun outcome => ?_
  · refine (h.resolveAmbiguousStart timeouts initial).bind fun resolved => ?_
    cases resolved with
    | deferred | vanished => exact .pure _
    | ready instanceState =>
      refine .bind ?_ fun _ => .pure _
      refine (h.upkeep.stopModel h.removeEndpoint timeouts modelName _).bind fun _ => ?_
      refine (h.reapRunner instanceState).bind fun _ => h.removeInstance.bind fun _ => ?_
      exact keeps_ignoringErrors h.bookkeeping.perform
  · exact (Teardown.keeps_retain h.upkeep _).bind fun _ => .pure _
  · cases outcome with
    | some => exact .pure _
    | none => exact .throw _

end

end Reaping

end

end Move

end Sardeenz
