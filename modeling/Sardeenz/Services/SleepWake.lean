/-
# `Sardeenz.Services.SleepWake` — stopping and waking one instance

`SleepWakeService` and `refreshModelRoutingState`, as programs over the calls
of `Services.Calls`.

    refreshModelRoutingState   read all instances, write or remove the routing state
    transitionToError          to ERROR, refresh; every error swallowed
    pollRunnerHealth           one health check; a failed one reads as ERROR
    waitForDrain               poll until no request is active, three failures in a row
                               or the timeout
    waitForReady               poll until READY or BUSY, ERROR or the timeout
    sleepModel                 drain, put the runner to sleep, remove the endpoint, → SLEEPING
    wakeModel                  SLEEPING → STARTING, wake, wait, add the endpoint, → ACTIVE
    stopModel                  drain, remove the endpoint, → STOPPED

A polling loop ends at the latest when its abort signal fires, so it makes
finitely many rounds; the bound on them is a parameter (`rounds`) that the
results leave arbitrary.

`Upkeep` collects the calls that the helpers make.  Whoever shows that a
contract lets these calls through gets the helpers for free.
-/
import Sardeenz.Services.Calls
import Sardeenz.Routing.Refresh

namespace Sardeenz

/-- The timeouts of the services, in milliseconds, and the bound on the rounds
of their polling loops. -/
structure Timeouts where
  sleepTimeoutMs : Nat
  wakeTimeoutMs : Nat
  deployTimeoutMs : Nat
  ambiguousStartGraceMs : Nat
  rounds : Nat

def refreshModelRoutingState : Service Unit := do
  let instances ← getInstancesForModel
  match refreshDecision instances with
  | some (state, protocol) => await (.setModelState state protocol)
  | none => await .removeModel

/-- `transitionToError` of either service; only a deployment marks its start
as ambiguous. -/
def transitionToError (instanceId errorMessage : String) (runnerStartAmbiguous : Bool) :
    Service Unit :=
  Service.ignoringErrors do
    let _ ← await (.transition instanceId .error
      { errorMessage := some (some errorMessage)
        runnerStartAmbiguous := if runnerStartAmbiguous then some true else none })
    refreshModelRoutingState

def pollRunnerHealth (instanceId : String) : Service RunnerHealth :=
  tryCatch
    (do
      let health ← await .getHealth
      let instanceState ← await (.getInstance instanceId)
      Service.when (instanceState.isSome ∧ health.state = .error)
        (transitionToError instanceId
          (health.message.getD "Runner reported ERROR state during health check") false)
      pure health)
    fun err => pure { state := .error, activeRequests := none, message := some err.message }

def maxConsecutiveHealthFailures : Nat := 3

def waitForDrain (timeouts : Timeouts) (modelName instanceId : String) :
    (rounds consecutiveFailures : Nat) → Service Unit
  | 0, _ => timedOut
  | rounds + 1, consecutiveFailures => do
    if ← await .aborted then
      timedOut
    else
      let result ← pollRunnerHealth instanceId
      let failures := if result.state = .error then consecutiveFailures + 1 else 0
      if maxConsecutiveHealthFailures ≤ failures then
        unreachable result
      else if result.activeRequests = some 0 then
        pure ()
      else
        waitForDrain timeouts modelName instanceId rounds failures
where
  timedOut : Service Unit := Service.throwControlPlane
    ⟨504, .runnerTimeout,
      s!"Drain timed out after {timeouts.sleepTimeoutMs}ms for instance {instanceId} ({modelName})",
      [("modelName", modelName), ("instanceId", instanceId)]⟩
  unreachable (result : RunnerHealth) : Service Unit := Service.throwControlPlane
    ⟨502, .runnerUnavailable,
      s!"Runner for instance {instanceId} ({modelName}) became unreachable during drain: " ++
        result.message.getD "health check failed",
      [("modelName", modelName), ("instanceId", instanceId), ("runnerMessage", result.message)]⟩

/-- The loop that `waitForReady` of the two services share; they poll
differently and differ in the texts of their errors. -/
def waitUntilReady (poll : Service RunnerHealth) (unavailable : RunnerHealth → ControlPlaneError)
    (timedOut : ControlPlaneError) : (rounds : Nat) → Service Unit
  | 0 => Service.throwControlPlane timedOut
  | rounds + 1 => do
    if ← await .aborted then
      Service.throwControlPlane timedOut
    else
      let result ← poll
      if result.state = .ready ∨ result.state = .busy then
        pure ()
      else if result.state = .error then
        Service.throwControlPlane (unavailable result)
      else
        waitUntilReady poll unavailable timedOut rounds

variable (timeouts : Timeouts)

def waitForReady (modelName instanceId : String) : Service Unit :=
  waitUntilReady (pollRunnerHealth instanceId)
    (fun result => ⟨502, .runnerUnavailable,
      s!"Runner entered ERROR state while waking instance {instanceId} ({modelName}): " ++
        result.message.getD "unknown",
      [("modelName", modelName), ("instanceId", instanceId), ("runnerMessage", result.message)]⟩)
    ⟨504, .runnerTimeout,
      s!"Wake timed out after {timeouts.wakeTimeoutMs}ms for instance {instanceId} ({modelName})",
      [("modelName", modelName), ("instanceId", instanceId)]⟩
    timeouts.rounds

variable (r : InstanceState)

/-- The removal of the endpoint in `sleepModel` and `stopModel`. -/
def removeRouted : Service Unit :=
  match r.endpointAddress with
  | some address => await (.removeEndpoint address.1 address.2)
  | none => pure ()

/-- The body of `sleepModel`'s `try`, on the record it read. -/
def sleepInstance (modelName instanceId : String)
    (instanceState : InstanceState) : Service Unit := do
  Service.when (instanceState.state = .active) do
    let _ ← await (.transition instanceId .draining {})
  refreshModelRoutingState
  waitForDrain timeouts modelName instanceId timeouts.rounds 0
  await .sleepRunner
  removeRouted instanceState
  let _ ← await (.transition instanceId .sleeping {})
  refreshModelRoutingState

def sleepModel (modelName instanceId : String) : Service Unit := do
  match ← await (.getInstance instanceId) with
  | none => Service.throwControlPlane (.modelNotFound s!"{modelName}/{instanceId}")
  | some instanceState =>
    tryCatch (sleepInstance timeouts modelName instanceId instanceState) fun err => do
      transitionToError instanceId err.message false
      throw err

/-- The endpoint that `wakeModel` registers again. -/
def InstanceState.wakeEndpoint (address : String × Nat) : RunnerEndpoint where
  host := address.1
  port := address.2
  weight := 1
  healthy := true
  runnerId := r.runnerId.filter (· ≠ "")

/-- The registration of the endpoint in `wakeModel`. -/
def addRouted : Service Unit :=
  match r.endpointAddress with
  | some address =>
    await (.addEndpoint (r.wakeEndpoint address) (r.protocol.getD .openai))
  | none => pure ()

/-- The body of `wakeModel`'s `try`, on the record it read. -/
def wakeInstance (modelName instanceId : String)
    (instanceState : InstanceState) : Service Unit := do
  Service.when (instanceState.state = .sleeping) do
    let _ ← await (.transition instanceId .starting {})
  refreshModelRoutingState
  await .wakeRunner
  waitForReady timeouts modelName instanceId
  addRouted instanceState
  let _ ← await (.transition instanceId .active {})
  refreshModelRoutingState

def wakeModel (modelName instanceId : String) : Service Unit := do
  match ← await (.getInstance instanceId) with
  | none => Service.throwControlPlane (.modelNotFound s!"{modelName}/{instanceId}")
  | some instanceState =>
    tryCatch (wakeInstance timeouts modelName instanceId instanceState) fun err => do
      transitionToError instanceId err.message false
      throw err

/-- The last transitions of `stopModel`, by the state they start from. -/
def settleStopped (instanceId : String) : Option ModelLifecycleState → Service Unit
  | some .pending | some .starting => do
    let _ ← await (.transition instanceId .error
      { errorMessage := some (some "Instance stopped during startup") })
    let _ ← await (.transition instanceId .stopped {})
  | some .draining | some .sleeping => do
    let _ ← await (.transition instanceId .stopping {})
    let _ ← await (.transition instanceId .stopped {})
  | some .stopping | some .error => do
    let _ ← await (.transition instanceId .stopped {})
  | some .active | some .stopped | none => pure ()

/-- The body of `stopModel`'s `try`, on the record it read. -/
def stopInstance (modelName instanceId : String) (hasRunner : Bool)
    (instanceState : InstanceState) : Service Unit := do
  Service.when (instanceState.state = .active) do
    let _ ← await (.transition instanceId .draining {})
    refreshModelRoutingState
  Service.when (hasRunner ∧ (instanceState.state = .active ∨ instanceState.state = .draining))
    (waitForDrain timeouts modelName instanceId timeouts.rounds 0)
  removeRouted instanceState
  let before ← await (.getInstance instanceId)
  settleStopped instanceId (before.map (·.state))
  refreshModelRoutingState

/-- `stopModel`; `hasRunner` tells whether the caller passed a runner client. -/
def stopModel (modelName instanceId : String) (hasRunner : Bool) :
    Service Unit := do
  match ← await (.getInstance instanceId) with
  | none => Service.throwControlPlane (.modelNotFound s!"{modelName}/{instanceId}")
  | some instanceState =>
    tryCatch (stopInstance timeouts modelName instanceId hasRunner instanceState) fun err => do
      transitionToError instanceId err.message false
      throw err

/-! ## What the helpers keep -/

open Interleave

section
variable {L : Type} {P : Contract Call Reply Failure L} {I : L → Prop}

def InstanceUpdates.keepsEndpoint (updates : InstanceUpdates) : Prop :=
  updates.runnerHost = none ∧ updates.runnerPort = none ∧ updates.runnerEnginePort = none ∧
    updates.runnerId = none ∧ updates.workerId = none

/-- The calls the helpers make on one instance stay within `I`. -/
structure Upkeep (P : Contract Call Reply Failure L) (I : L → Prop) (instanceId : String) :
    Prop where
  refresh : Keeps P I refreshModelRoutingState
  getInstance : KeepsCall P I (.getInstance instanceId)
  transition : ∀ target updates, updates.keepsEndpoint →
    KeepsCall P I (.transition instanceId target updates)
  getHealth : KeepsCall P I .getHealth
  aborted : KeepsCall P I .aborted

theorem keeps_readInstances (hget : ∀ id, KeepsCall P I (.getInstance id)) :
    ∀ ids, Keeps P I (readInstances ids)
  | [] => .pure _
  | id :: ids => by
    refine (hget id).bind fun _ => ?_
    exact (keeps_readInstances hget ids).bind fun _ => .pure _

theorem keeps_refresh (hget : ∀ id, KeepsCall P I (.getInstance id)) (hscan : KeepsCall P I .scan)
    (hscanned : ∀ ids, KeepsCall P I (.scanned ids))
    (hset : ∀ state protocol, KeepsCall P I (.setModelState state protocol))
    (hremove : KeepsCall P I .removeModel) : Keeps P I refreshModelRoutingState := by
  refine .bind ?_ fun instances => ?_
  · refine hscan.bind fun startIds => ?_
    exact (hscanned startIds).bind fun keys => keeps_readInstances hget keys
  · cases refreshDecision instances with
    | some d => exact (hset d.1 d.2).perform
    | none => exact hremove.perform

theorem keeps_when {c} [Decidable c] {p : Service Unit} (h : Keeps P I p) :
    Keeps P I (Service.when c p) :=
  .ite h (.pure _)

theorem keeps_ignoringErrors {p : Service Unit} (h : Keeps P I p) :
    Keeps P I (Service.ignoringErrors p) :=
  h.tryCatch fun _ => .pure _

section
variable {instanceId : String}

theorem keeps_transitionToError (hrefresh : Keeps P I refreshModelRoutingState)
    (herror : ∀ updates : InstanceUpdates, updates.keepsEndpoint →
      KeepsCall P I (.transition instanceId .error updates))
    (errorMessage : String) (ambiguous : Bool) :
    Keeps P I (transitionToError instanceId errorMessage ambiguous) :=
  keeps_ignoringErrors ((herror _ ⟨rfl, rfl, rfl, rfl, rfl⟩).bind fun _ => hrefresh)

theorem keeps_pollRunnerHealth (hhealth : KeepsCall P I .getHealth)
    (hget : KeepsCall P I (.getInstance instanceId))
    (herror : ∀ errorMessage, Keeps P I (transitionToError instanceId errorMessage false)) :
    Keeps P I (pollRunnerHealth instanceId) := by
  refine .tryCatch ?_ fun _ => .pure _
  refine hhealth.bind fun _ => ?_
  refine hget.bind fun _ => ?_
  exact (keeps_when (herror _)).bind fun _ => .pure _

theorem keeps_waitForDrain (haborted : KeepsCall P I .aborted)
    (hpoll : Keeps P I (pollRunnerHealth instanceId)) (timeouts : Timeouts) (modelName : String) :
    ∀ rounds failures, Keeps P I (waitForDrain timeouts modelName instanceId rounds failures)
  | 0, _ => .throw _
  | rounds + 1, failures => by
    refine haborted.bind fun aborted => .ite (.throw _) ?_
    refine hpoll.bind fun _ => .ite (.throw _) ?_
    exact .ite (.pure _) (keeps_waitForDrain haborted hpoll timeouts modelName rounds _)

end

namespace Upkeep

variable {instanceId : String}

theorem transitionToError (h : Upkeep P I instanceId) (errorMessage : String) (ambiguous : Bool) :
    Keeps P I (transitionToError instanceId errorMessage ambiguous) :=
  keeps_transitionToError h.refresh (h.transition .error) errorMessage ambiguous

theorem pollRunnerHealth (h : Upkeep P I instanceId) : Keeps P I (pollRunnerHealth instanceId) :=
  keeps_pollRunnerHealth h.getHealth h.getInstance fun errorMessage =>
    h.transitionToError errorMessage false

theorem waitForDrain (h : Upkeep P I instanceId) (timeouts : Timeouts) (modelName : String)
    (rounds failures : Nat) :
    Keeps P I (waitForDrain timeouts modelName instanceId rounds failures) :=
  keeps_waitForDrain h.aborted h.pollRunnerHealth timeouts modelName rounds failures

end Upkeep

theorem keeps_waitUntilReady {poll : Service RunnerHealth} (hpoll : Keeps P I poll)
    (haborted : KeepsCall P I .aborted) {unavailable timedOut} :
    ∀ rounds, Keeps P I (waitUntilReady poll unavailable timedOut rounds)
  | 0 => .throw _
  | rounds + 1 => by
    refine haborted.bind fun aborted => .ite (.throw _) ?_
    refine hpoll.bind fun _ => .ite (.pure _) ?_
    exact .ite (.throw _) (keeps_waitUntilReady hpoll haborted rounds)

variable {instanceId : String}

/-- The calls that a wake makes all along stay within `I`. -/
structure WakeCalls (P : Contract Call Reply Failure L) (I : L → Prop) (instanceId : String) :
    Prop where
  refresh : Keeps P I refreshModelRoutingState
  getInstance : KeepsCall P I (.getInstance instanceId)
  getHealth : KeepsCall P I .getHealth
  aborted : KeepsCall P I .aborted
  wakeRunner : KeepsCall P I .wakeRunner
  addEndpoint : ∀ endpoint protocol, KeepsCall P I (.addEndpoint endpoint protocol)
  active : KeepsCall P I (.transition instanceId .active {})
  error : ∀ updates : InstanceUpdates, updates.keepsEndpoint →
    KeepsCall P I (.transition instanceId .error updates)

theorem WakeCalls.wakeModel (h : WakeCalls P I instanceId)
    (hstart : ∀ l record, I l → P.expected l (.getInstance instanceId) (.ok (some record)) →
      record.state = .sleeping → Obeys P (fun l _ => I l) (await (.transition instanceId .starting {}))
        (P.next l (.getInstance instanceId) (.ok (some record))))
    (timeouts : Timeouts) (modelName : String) :
    Keeps P I (wakeModel timeouts modelName instanceId) := by
  have herror : ∀ errorMessage ambiguous,
      Keeps P I (transitionToError instanceId errorMessage ambiguous) :=
    keeps_transitionToError h.refresh h.error
  have hready : Keeps P I (waitForReady timeouts modelName instanceId) :=
    keeps_waitUntilReady (keeps_pollRunnerHealth h.getHealth h.getInstance fun e => herror e false)
      h.aborted timeouts.rounds
  have hadd : ∀ record : InstanceState, Keeps P I (addRouted record) := by
    intro record
    unfold addRouted
    split
    · exact (h.addEndpoint _ _).perform
    · exact .pure _
  have hrest : ∀ record : InstanceState, Keeps P I (do
      refreshModelRoutingState
      await .wakeRunner
      Sardeenz.waitForReady timeouts modelName instanceId
      addRouted record
      let _ ← await (.transition instanceId .active {})
      refreshModelRoutingState) := by
    intro record
    refine h.refresh.bind fun _ => h.wakeRunner.bind fun _ => hready.bind fun _ => ?_
    exact (hadd record).bind fun _ => h.active.bind fun _ => h.refresh
  have hcatch : ∀ err : Failure, Keeps P I (do
      transitionToError instanceId err.message false
      throw err : Service Unit) := fun err => (herror _ _).bind fun _ => .throw _
  intro l hl
  refine obeys_bind.mpr ⟨(h.getInstance l hl).1, fun r hr => ?_⟩
  have hnext := (h.getInstance l hl).2 r hr
  match r, hr, hnext with
  | .error e, _, hnext | .ok none, _, hnext => exact hnext
  | .ok (some record), hr, hnext =>
    refine Obeys.tryCatch (S := fun l _ => I l) ?_ (fun l _ hl => hl) fun l e hl => hcatch e l hl
    refine Obeys.bind_keeps ?_ fun _ => hrest record
    unfold Service.when
    split
    · rename_i hsleeping
      exact Obeys.bind_keeps (hstart l record hl hr hsleeping) fun _ => .pure _
    · exact hnext

theorem keeps_settleStopped
    (h : ∀ target ∈ [ModelLifecycleState.error, .stopping, .stopped], ∀ updates : InstanceUpdates,
      updates.keepsEndpoint → KeepsCall P I (.transition instanceId target updates))
    (state : Option ModelLifecycleState) : Keeps P I (settleStopped instanceId state) := by
  have hkeep : InstanceUpdates.keepsEndpoint {} := ⟨rfl, rfl, rfl, rfl, rfl⟩
  have herror : ∀ message, Keeps P I
      (await (.transition instanceId .error { errorMessage := some (some message) })) :=
    fun message => (h .error (by simp) _ ⟨rfl, rfl, rfl, rfl, rfl⟩).perform
  have hstopping : Keeps P I (await (.transition instanceId .stopping {})) :=
    (h .stopping (by simp) _ hkeep).perform
  have hstopped : Keeps P I (do let _ ← await (.transition instanceId .stopped {})) :=
    (h .stopped (by simp) _ hkeep).bind fun _ => .pure _
  unfold settleStopped
  split
  · exact (herror _).bind fun _ => hstopped
  · exact (herror _).bind fun _ => hstopped
  · exact hstopping.bind fun _ => hstopped
  · exact hstopping.bind fun _ => hstopped
  · exact hstopped
  · exact hstopped
  all_goals exact .pure _

theorem Upkeep.settleStopped (h : Upkeep P I instanceId)
    (state : Option ModelLifecycleState) : Keeps P I (settleStopped instanceId state) :=
  keeps_settleStopped (fun target _ => h.transition target) state

theorem Upkeep.stopModel (h : Upkeep P I instanceId)
    (hremove : ∀ l record address, I l → P.expected l (.getInstance instanceId) (.ok (some record)) →
      record.endpointAddress = some address → KeepsCall P I (.removeEndpoint address.1 address.2))
    (timeouts : Timeouts) (modelName : String) (hasRunner : Bool) :
    Keeps P I (stopModel timeouts modelName instanceId hasRunner) := by
  have hstop : ∀ record, Keeps P I (removeRouted record) →
      Keeps P I (stopInstance timeouts modelName instanceId hasRunner record) := by
    intro record hrouted
    refine (keeps_when ((h.transition _ _ ⟨rfl, rfl, rfl, rfl, rfl⟩).bind
      fun _ => h.refresh)).bind fun _ => ?_
    refine (keeps_when (h.waitForDrain timeouts modelName _ _)).bind fun _ => ?_
    refine hrouted.bind fun _ => h.getInstance.bind fun _ => ?_
    exact (h.settleStopped _).bind fun _ => h.refresh
  intro l hl
  refine obeys_bind.mpr ⟨(h.getInstance l hl).1, fun r hr => ?_⟩
  have hnext := (h.getInstance l hl).2 r hr
  match r, hr, hnext with
  | .error e, _, hnext | .ok none, _, hnext => exact hnext
  | .ok (some record), hr, hnext =>
    have hrouted : Keeps P I (removeRouted record) := by
      unfold removeRouted
      split
      · rename_i address haddr
        exact (hremove l record address hl hr haddr).perform
      · exact .pure _
    refine ((hstop record hrouted).tryCatch fun _ => ?_) _ hnext
    exact (h.transitionToError _ _).bind fun _ => .throw _

end

end Sardeenz
