/-
# `Sardeenz.Routes.Teardown` — tearing down one instance

`teardownInstance` of `routes/models.ts`, and the background tasks of the
routes that run it under a claim: Stop, Delete and the delete of one instance.

    teardownInstance   find the runner, stopModel, stop the runner, remove the record;
                       any error is caught and the record stays
-/
import Sardeenz.Services.SleepWake

namespace Sardeenz

namespace Teardown

/-- The id of the runner to stop: from the record, or, while a start is
pending, from the worker.  `none` when there is none to stop. -/
def findRunner (instanceId : String) (state : Option InstanceState) : Service (Option String) :=
  match state with
  | none => pure none
  | some record =>
    match record.runnerId, record.workerId with
    | some runnerId, _ => pure (some runnerId)
    | none, none => pure none
    | none, some workerId => do
      if ← await (.getWorker workerId) then
        match ← await (.getRunnerByInstance instanceId) with
        | .absent => pure none
        | .starting runnerId => pure (some runnerId)
        | .ready info => pure (some info.runnerId)
      else throw (.other s!"worker {workerId} is unknown")

def stopTolerant (runnerId : String) : Service Unit :=
  tryCatch (await (.stopRunner runnerId)) fun
    | .workerHttp 404 _ => pure ()
    | err => throw err

/-- Stop the runner that was found.  The client of the worker is made here
unless `findRunner` made it. -/
def reapRunner (state : Option InstanceState) (runnerId : Option String) : Service Unit :=
  match state.bind (·.workerId), runnerId with
  | some workerId, some runnerId => do
    if (state.bind (·.runnerId)).isSome then
      if ← await (.getWorker workerId) then stopTolerant runnerId
      else throw (.other s!"worker {workerId} is unknown")
    else stopTolerant runnerId
  | _, _ => pure ()

/-- The `catch` of a teardown: a record that `stopModel` has settled goes back
to `ERROR`. -/
def retain (instanceId errorMessage : String) : Service Unit :=
  Service.ignoringErrors do
    let retained ← await (.getInstance instanceId)
    if retained.map (·.state) = some .stopped then
      let _ ← await (.transition instanceId .error { errorMessage := some (some errorMessage) })
      refreshModelRoutingState
    else pure ()

end Teardown

variable (timeouts : Timeouts)

/-- The `try` of `teardownInstance`. -/
def teardownRunner (modelName instanceId : String) (hasRunner : Bool) :
    Service Unit := do
  let state ← await (.getInstance instanceId)
  let runnerId ← Teardown.findRunner instanceId state
  stopModel timeouts modelName instanceId hasRunner
  Teardown.reapRunner state runnerId
  await (.removeInstance instanceId)
  Service.ignoringErrors (await .bookkeeping)

/-- `teardownInstance`; `hasRunner` tells whether the caller's snapshot of the
record names a runner. -/
def teardownInstance (modelName instanceId : String) (hasRunner : Bool)
    (context : String) : Service Bool :=
  tryCatch
    (do
      teardownRunner timeouts modelName instanceId hasRunner
      pure true)
    fun _ => do
      Teardown.retain instanceId s!"{context}: runner teardown could not be confirmed"
      pure false

/-! ## The tasks of the routes -/

/-- Claim, work, and release whatever the outcome; refused when the claim is
held. -/
def underClaim (c : CancelClaim) (refusal : ControlPlaneError) (work : Service Unit) :
    Service Unit := do
  if ← await (.claim c) then
    work.andFinally (await (.release c))
  else Service.throwControlPlane refusal

def stopTask (modelName instanceId : String) (hasRunner : Bool)
    (refusal : ControlPlaneError) : Service Unit :=
  underClaim .stopping refusal do
    let _ ← teardownInstance timeouts modelName instanceId hasRunner "Stop"

def deleteTask (modelName instanceId : String) (hasRunner : Bool)
    (refusal : ControlPlaneError) : Service Unit :=
  underClaim .deleting refusal do
    let _ ← teardownInstance timeouts modelName instanceId hasRunner "Delete"
    let instanceState ← await (.getInstance instanceId)
    if (instanceState.map (·.runnerStartAmbiguous)).getD false then pure ()
    else
      Service.ignoringErrors do
        await .bookkeeping
        await .removeModel

def deleteInstanceTask (modelName instanceId : String) (hasRunner : Bool)
    (refusal : ControlPlaneError) : Service Unit :=
  underClaim .instanceOp refusal do
    let _ ← teardownInstance timeouts modelName instanceId hasRunner "Instance delete"

/-! ## What the helpers keep -/

open Interleave

section
variable {L : Type} {P : Contract Call Reply Failure L} {I : L → Prop} {instanceId : String}

theorem Teardown.keeps_retain (h : Upkeep P I instanceId) (errorMessage : String) :
    Keeps P I (Teardown.retain instanceId errorMessage) := by
  refine keeps_ignoringErrors (h.getInstance.bind fun _ => ?_)
  refine .ite ?_ (.pure _)
  exact (h.transition _ _ ⟨rfl, rfl, rfl, rfl, rfl⟩).bind fun _ => h.refresh

theorem obeys_teardownInstance {l} (hup : Upkeep P I instanceId) {timeouts modelName hasRunner}
    (h : Obeys P (fun l _ => I l) (teardownRunner timeouts modelName instanceId hasRunner) l)
    (context : String) :
    Obeys P (fun l _ => I l) (teardownInstance timeouts modelName instanceId hasRunner context)
      l := by
  refine obeys_tryCatch.mpr ((h.bind_keeps fun _ => .pure _).mono ?_)
  rintro l (e | u) hl
  · exact ((Teardown.keeps_retain hup _).bind fun _ => .pure _) l hl
  · exact hl

theorem obeys_underClaim {S : L → Prop} {c refusal}
    {work : Service Unit} {l} (hclaim : P.allowed l (.claim c))
    (hrefused : ∀ r, r ≠ .ok true → S (P.next l (.claim c) r))
    (hwork : Obeys P (fun l _ => I l) work (P.next l (.claim c) (.ok true)))
    (hrelease : ∀ l, I l → P.allowed l (.release c) ∧ ∀ r, S (P.next l (.release c) r)) :
    Obeys P (fun l _ => S l) (underClaim c refusal work) l := by
  refine obeys_bind.mpr ⟨hclaim, fun r _ => ?_⟩
  match r with
  | .error e | .ok false => exact hrefused _ nofun
  | .ok true =>
    refine obeys_andFinally.mpr (hwork.mono fun l r hl => ?_)
    refine ⟨(hrelease l hl).1, fun r' _ => ?_⟩
    cases r' with
    | ok _ | error _ => exact (hrelease l hl).2 _

theorem keeps_afterDelete (hget : KeepsCall P I (.getInstance instanceId))
    (hbook : KeepsCall P I .bookkeeping) (hremove : KeepsCall P I .removeModel) :
    Keeps P I (do
      let instanceState ← await (.getInstance instanceId)
      if (instanceState.map (·.runnerStartAmbiguous)).getD false then pure ()
      else
        Service.ignoringErrors do
          await .bookkeeping
          await .removeModel) := by
  refine hget.bind fun instanceState => .ite (.pure _) ?_
  exact keeps_ignoringErrors (hbook.bind fun _ => hremove.perform)

end

end Sardeenz
