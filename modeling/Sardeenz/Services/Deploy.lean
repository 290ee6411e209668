/-
# `Sardeenz.Services.Deploy` — starting the runner of one instance

`DeployOrchestrationService.deployModel`, as a program.  The source keeps two
flags, `startDispatched` and `startReplyReceived`, for its one `catch`; here
the three stretches they separate are three programs, each with that `catch`
around it.  The `catch` always rethrows, so nothing follows a stretch that
failed.

    prepareStart     refresh, find the worker, set up the logs, send POST /runners
    awaitStart       wait for the answer: an error here may be ambiguous
    activate         persist the placement, wait until ready, add the endpoint,
                     STARTING → ACTIVE, refresh

A deployment of a move is fenced: after each await it asks whether this
process is still the leader.
-/
import Sardeenz.Services.SleepWake

namespace Sardeenz

/-- `DeployModelParams`, as far as the control plane reads it; the rest is
passed on to the worker. -/
structure DeployModelParams where
  modelName : String
  instanceId : String
  workerId : String
  protocol : Protocol
  fenced : Bool
deriving DecidableEq

namespace DeployModelParams

variable (params : DeployModelParams)

def assertStillOwner : Service Unit := do
  if params.fenced then
    if ← await .isLeader then pure () else throw .ownershipLost
  else pure ()

/-- From the start of `deployModel` to the dispatch of `POST /runners`. -/
def prepareStart : Service Unit := do
  params.assertStillOwner
  refreshModelRoutingState
  params.assertStillOwner
  if ← await (.getWorker params.workerId) then
    await .bookkeeping
    params.assertStillOwner
    if ← await .sendStart then pure ()
    else
      Service.throwControlPlane (.operationInProgress params.modelName "start runner"
        "deployment-cancelled" "the deployment was cancelled before worker dispatch")
  else Service.throwControlPlane (.workerNotFound params.workerId)

/-- `DeployOrchestrationService.pollRunnerHealth`. -/
def pollHealth : Service RunnerHealth :=
  tryCatch
    (do
      let health ← await .getHealth
      pure { health with activeRequests := some (health.activeRequests.getD 0) })
    fun err => pure { state := .error, activeRequests := some 0, message := some err.message }

variable (timeouts : Timeouts)

def waitForReady (params : DeployModelParams) : Service Unit :=
  waitUntilReady pollHealth
    (fun result => ⟨502, .runnerUnavailable,
      s!"Runner entered ERROR state while deploying instance {params.instanceId} " ++
        s!"({params.modelName}): " ++ result.message.getD "unknown",
      [("modelName", params.modelName), ("instanceId", params.instanceId),
        ("runnerMessage", result.message)]⟩)
    ⟨504, .runnerTimeout,
      s!"Deploy timed out after {timeouts.deployTimeoutMs}ms for instance {params.instanceId} " ++
        s!"({params.modelName})",
      [("modelName", params.modelName), ("instanceId", params.instanceId)]⟩
    timeouts.rounds

/-- The updates of the transition to `ACTIVE`. -/
def activeUpdates (info : RunnerInfo) : InstanceUpdates where
  runnerHost := some (some info.host)
  runnerPort := some (some info.port)
  runnerEnginePort := some (some info.enginePort)
  runnerId := some (some info.runnerId)

def routedEndpoint (info : RunnerInfo) : RunnerEndpoint where
  host := info.host
  port := info.enginePort
  weight := 1
  healthy := true
  runnerId := some info.runnerId

/-- The transition to `ACTIVE`.  A move's recovery may have made it first, and
then the deployment goes on. -/
def toActive (instanceId : String) (info : RunnerInfo) : Service Unit :=
  tryCatch
    (do let _ ← await (.transition instanceId .active (activeUpdates info)))
    fun err => do
      let current ← await (.getInstance instanceId)
      if current.map (·.state) = some .active then pure () else throw err

/-- From the answer of the worker to the end of `deployModel`. -/
def activate (params : DeployModelParams) (info : RunnerInfo) :
    Service Unit := do
  params.assertStillOwner
  setRunnerEndpoint params.modelName params.instanceId info.placement
  params.assertStillOwner
  params.waitForReady timeouts
  params.assertStillOwner
  await (.addEndpoint (routedEndpoint info) params.protocol)
  params.assertStillOwner
  toActive params.instanceId info
  params.assertStillOwner
  refreshModelRoutingState
  Service.ignoringErrors (await .bookkeeping)

/-- The `catch` of `deployModel`. -/
def deployFailed {α : Type} (startReplyAmbiguous : Bool)
    (err : Failure) : Service α := do
  if err = .ownershipLost then throw err
  else if params.fenced then
    if ← await .isLeader then report else throw .ownershipLost
  else report
where
  report : Service α := do
    transitionToError params.instanceId err.message startReplyAmbiguous
    Service.ignoringErrors (await .bookkeeping)
    throw err

end DeployModelParams

/-- The worker's answer leaves open whether the runner was started: it is not a
definite rejection. -/
def Failure.leavesStartOpen : Failure → Bool
  | workerHttp status _ => status = 409 || 500 ≤ status
  | controlPlane _ | ownershipLost | other _ => true

def deployModel (timeouts : Timeouts) (params : DeployModelParams) : Service Unit := do
  tryCatch params.prepareStart (params.deployFailed false)
  let info ← tryCatch (await .awaitStart) fun err =>
    params.deployFailed err.leavesStartOpen err
  tryCatch (params.activate timeouts info) (params.deployFailed false)

/-! ## The endpoint that the record names -/

variable (record : InstanceState)

theorem endpointAddress_withEndpoint (info : RunnerInfo) :
    (record.withEndpoint info.placement).endpointAddress = some info.address := by
  have hhost := info.host_ne
  have hport := info.port_pos
  simp [InstanceState.endpointAddress, InstanceState.withEndpoint, RunnerInfo.placement,
    RunnerInfo.address, hhost, Nat.pos_iff_ne_zero.mp hport]

theorem endpointAddress_activeUpdates (target : ModelLifecycleState)
    (info : RunnerInfo) (now : Nat) :
    (transitioned record target (DeployModelParams.activeUpdates info) now).endpointAddress =
      some info.address := by
  have hhost := info.host_ne
  have hport := Nat.pos_iff_ne_zero.mp info.port_pos
  by_cases ht : target = .error <;>
    simp [transitioned, InstanceUpdates.apply, InstanceState.endpointAddress,
      DeployModelParams.activeUpdates, RunnerInfo.address, ht, hhost, hport]

/-! ## What a deployment keeps -/

open Interleave

section
variable {L : Type} {P : Contract Call Reply Failure L} {I J K E : L → Prop}
  {params : DeployModelParams}

/-- The calls that a deployment makes all along stay within `I`. -/
structure Deploying (P : Contract Call Reply Failure L) (I : L → Prop)
    (params : DeployModelParams) : Prop where
  leader : KeepsCall P I .isLeader
  bookkeeping : KeepsCall P I .bookkeeping
  upkeep : Upkeep P I params.instanceId

theorem keeps_setRunnerEndpoint {instanceId endpoint}
    (hget : KeepsCall P I (.getInstance instanceId))
    (hwrite : ∀ l record, I l → P.expected l (.getInstance instanceId) (.ok (some record)) →
      KeepsCall P I (.writeInstance instanceId (record.withEndpoint endpoint)))
    (modelName : String) : Keeps P I (setRunnerEndpoint modelName instanceId endpoint) := by
  intro l hl
  refine obeys_bind.mpr ⟨(hget l hl).1, fun r hr => ?_⟩
  have hnext := (hget l hl).2 r hr
  match r, hr, hnext with
  | .error e, _, hnext | .ok none, _, hnext => exact hnext
  | .ok (some record), hr, hnext => exact hwrite l record hl hr _ hnext

namespace Deploying

theorem assertStillOwner (h : Deploying P I params) : Keeps P I params.assertStillOwner :=
  .ite (h.leader.bind fun _ => .ite (.pure _) (.throw _)) (.pure _)

theorem deployFailed {α} (h : Deploying P I params) (ambiguous : Bool) (err : Failure)
    {l} (hl : I l) :
    Obeys P (fun l r => I l ∧ ∃ e, r = .error e)
      (params.deployFailed ambiguous err : Service α) l := by
  have hreport : ∀ l, I l → Obeys P (fun l r => I l ∧ ∃ e, r = .error e)
      (DeployModelParams.deployFailed.report params ambiguous err : Service α) l := by
    intro l hl
    refine (h.upkeep.transitionToError _ _).obeys_bind hl ?_ fun l e hl => ⟨hl, e, rfl⟩
    intro l _ hl
    refine (keeps_ignoringErrors h.bookkeeping.perform).obeys_bind hl ?_ fun l e hl => ⟨hl, e, rfl⟩
    exact fun l _ hl => ⟨hl, err, rfl⟩
  unfold DeployModelParams.deployFailed
  split
  · exact ⟨hl, err, rfl⟩
  · split
    · refine h.leader.obeys_bind hl ?_ fun l e hl => ⟨hl, e, rfl⟩
      simp_all
    · exact hreport l hl

section
variable (h : Deploying P I params)
include h

theorem waitForReady (timeouts : Timeouts) : Keeps P I (params.waitForReady timeouts) := by
  refine keeps_waitUntilReady ?_ h.upkeep.aborted timeouts.rounds
  exact (h.upkeep.getHealth.bind fun _ => .pure _).tryCatch fun _ => .pure _

theorem prepareStart (hworker : KeepsCall P I (.getWorker params.workerId))
    (hsend : ∀ l, I l → Obeys P (fun l r => match r with
      | .ok true => J l
      | _ => I l) (await .sendStart) l) {l} (hl : I l) :
    Obeys P (fun l r => match r with
      | .ok _ => J l
      | .error _ => I l) params.prepareStart l := by
  have herr : ∀ (l : L) (e : Failure), I l → I l := fun _ _ hl => hl
  refine h.assertStillOwner.obeys_bind hl (fun l _ hl => ?_) herr
  refine h.upkeep.refresh.obeys_bind hl (fun l _ hl => ?_) herr
  refine h.assertStillOwner.obeys_bind hl (fun l _ hl => ?_) herr
  refine hworker.obeys_bind hl (fun l known hl => ?_) herr
  cases known with
  | false => exact hl
  | true =>
    refine h.bookkeeping.obeys_bind hl (fun l _ hl => ?_) herr
    refine h.assertStillOwner.obeys_bind hl (fun l _ hl => ?_) herr
    refine obeys_bind.mpr ((hsend l hl).mono fun l r hlr => ?_)
    match r, hlr with
    | .error _, hlr | .ok false, hlr | .ok true, hlr => exact hlr

theorem toActive {info} (hactive : KeepsCall P I
      (.transition params.instanceId .active (DeployModelParams.activeUpdates info))) :
    Keeps P I (DeployModelParams.toActive params.instanceId info) := by
  refine (hactive.bind fun _ => .pure _).tryCatch fun _ => ?_
  exact h.upkeep.getInstance.bind fun _ => .ite (.pure _) (.throw _)

theorem activate {info}
    (hset : Keeps P I (setRunnerEndpoint params.modelName params.instanceId info.placement))
    (hadd : KeepsCall P I (.addEndpoint (DeployModelParams.routedEndpoint info) params.protocol))
    (hactive : KeepsCall P I
      (.transition params.instanceId .active (DeployModelParams.activeUpdates info)))
    (timeouts : Timeouts) : Keeps P I (params.activate timeouts info) := by
  have howner := h.assertStillOwner
  refine howner.bind fun _ => hset.bind fun _ => howner.bind fun _ => ?_
  refine (h.waitForReady timeouts).bind fun _ => howner.bind fun _ => hadd.bind fun _ => ?_
  refine howner.bind fun _ => (h.toActive hactive).bind fun _ => howner.bind fun _ => ?_
  exact h.upkeep.refresh.bind fun _ => keeps_ignoringErrors h.bookkeeping.perform

end

/-- **`deployModel` by its stretches.**  `I` up to the dispatch, `J` until the
worker has answered, then `K`, or `E` when it has not. -/
theorem deployModel (hI : Deploying P I params) (hK : Deploying P K params)
    (hE : Deploying P E params) {timeouts}
    (hprepare : ∀ l, I l → Obeys P (fun l r => match r with
      | .ok _ => J l
      | .error _ => I l) params.prepareStart l)
    (hawait : ∀ l, J l → Obeys P (fun l r => match r with
      | .ok info => K l ∧ Keeps P K (params.activate timeouts info)
      | .error _ => E l) (await .awaitStart) l) {l} (hl : I l) :
    Obeys P (fun l _ => I l ∨ K l ∨ E l) (deployModel timeouts params) l := by
  refine obeys_bind.mpr (obeys_tryCatch.mpr ((hprepare l hl).mono ?_))
  rintro l (e | u) hl
  · refine (hI.deployFailed false e hl).mono ?_
    grind
  refine obeys_bind.mpr (obeys_tryCatch.mpr ((hawait l hl).mono ?_))
  rintro l (e | info) hl
  · refine (hE.deployFailed e.leavesStartOpen e hl).mono ?_
    grind
  refine obeys_tryCatch.mpr ((hl.2 l hl.1).mono ?_)
  rintro l (e | u) hl
  · exact (hK.deployFailed false e hl).mono fun l _ h => .inr (.inl h.1)
  · exact .inr (.inl hl)

end Deploying

/-- The calls of a deployment stay within `I`, wherever it is. -/
structure DeployCalls (P : Contract Call Reply Failure L) (I : L → Prop)
    (params : DeployModelParams) : Prop where
  leader : KeepsCall P I .isLeader
  bookkeeping : KeepsCall P I .bookkeeping
  refresh : Keeps P I refreshModelRoutingState
  getWorker : KeepsCall P I (.getWorker params.workerId)
  sendStart : KeepsCall P I .sendStart
  awaitStart : KeepsCall P I .awaitStart
  getInstance : KeepsCall P I (.getInstance params.instanceId)
  writeInstance : ∀ record, KeepsCall P I (.writeInstance params.instanceId record)
  getHealth : KeepsCall P I .getHealth
  aborted : KeepsCall P I .aborted
  addEndpoint : ∀ endpoint protocol, KeepsCall P I (.addEndpoint endpoint protocol)
  active : ∀ updates, KeepsCall P I (.transition params.instanceId .active updates)
  error : ∀ updates : InstanceUpdates, updates.keepsEndpoint →
    KeepsCall P I (.transition params.instanceId .error updates)

namespace DeployCalls

section
variable (h : DeployCalls P I params)
include h

theorem assertStillOwner : Keeps P I params.assertStillOwner :=
  .ite (h.leader.bind fun _ => .ite (.pure _) (.throw _)) (.pure _)

theorem deployFailed {α} (ambiguous : Bool) (err : Failure) :
    Keeps P I (params.deployFailed ambiguous err : Service α) := by
  have hreport : Keeps P I
      (DeployModelParams.deployFailed.report params ambiguous err : Service α) := by
    refine (keeps_transitionToError h.refresh h.error _ _).bind fun _ => ?_
    exact (keeps_ignoringErrors h.bookkeeping.perform).bind fun _ => .throw _
  refine .ite (.throw _) (.ite ?_ hreport)
  exact h.leader.bind fun _ => .ite hreport (.throw _)

theorem prepareStart : Keeps P I params.prepareStart := by
  have howner := h.assertStillOwner
  refine howner.bind fun _ => h.refresh.bind fun _ => howner.bind fun _ => ?_
  refine h.getWorker.bind fun _ => .ite ?_ (.throw _)
  refine h.bookkeeping.bind fun _ => howner.bind fun _ => ?_
  exact h.sendStart.bind fun _ => .ite (.pure _) (.throw _)

theorem activate (timeouts : Timeouts) (info : RunnerInfo) :
    Keeps P I (params.activate timeouts info) := by
  have howner := h.assertStillOwner
  have hset : Keeps P I
      (setRunnerEndpoint params.modelName params.instanceId info.placement) :=
    keeps_setRunnerEndpoint h.getInstance (fun _ _ _ _ => h.writeInstance _) params.modelName
  have hready : Keeps P I (params.waitForReady timeouts) :=
    keeps_waitUntilReady ((h.getHealth.bind fun _ => .pure _).tryCatch
      fun _ => .pure _) h.aborted timeouts.rounds
  have hactive : Keeps P I (DeployModelParams.toActive params.instanceId info) := by
    refine ((h.active _).bind fun _ => .pure _).tryCatch fun _ => ?_
    exact h.getInstance.bind fun _ => .ite (.pure _) (.throw _)
  refine howner.bind fun _ => hset.bind fun _ => howner.bind fun _ => hready.bind fun _ => ?_
  refine howner.bind fun _ => (h.addEndpoint _ _).bind fun _ => howner.bind fun _ => ?_
  grind [hactive.bind, howner.bind, h.refresh.bind, keeps_ignoringErrors, h.bookkeeping.perform]

theorem deployModel (timeouts : Timeouts) : Keeps P I (deployModel timeouts params) := by
  refine (h.prepareStart.tryCatch fun _ => h.deployFailed _ _).bind fun _ => ?_
  refine (h.awaitStart.perform.tryCatch fun _ => h.deployFailed _ _).bind fun info => ?_
  exact (h.activate timeouts info).tryCatch fun _ => h.deployFailed _ _

end

end DeployCalls

end

end Sardeenz
