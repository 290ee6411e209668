/-
# `Sardeenz.Services.EndpointLeak` — endpoints and the records they belong to

A deployment and a wake register the endpoint of their instance; a stop
removes it and a teardown then removes the record.  They run side by side, and
each registers or removes in a call of its own.

What the teardown side does about the endpoint is decided in two places:
`stopModel` reads the record, and removes the endpoint the record names, if it
names one.  From then on it never looks at the routing map again.  `Stage`
follows a program through this:

    adding                   a deployment or a wake
    reading → armed          a teardown: its own read, then the read of `stopModel`
    armed → holding → past   the record names the endpoint; it has been removed
    armed → past             the record names none
    failed                   an error before the decision: the record will stay

**Proved here.**  When no routing entry has the endpoint of an instance without a record
(`no_endpoint_leak`), and a leak (`endpoint_registered_after_teardown`).
-/
import Sardeenz.Services.World
import Sardeenz.Services.Deploy
import Sardeenz.Routes.Teardown

namespace Sardeenz.EndpointLeak

open Interleave World Teardown

/-! ## The contract -/

/-- How far a program is with the endpoint. -/
inductive Stage where
  | adding
  | reading
  | armed
  | holding
  | past
  | failed
deriving DecidableEq

def contract (σ : Setting) : Contract Call Reply Failure Stage where
  allowed l
    | .getInstance id => l = .armed → id = σ.instanceId
    | .removeInstance id => id = σ.instanceId ∧ l = .past
    | .addEndpoint endpoint _ => endpoint.address = σ.info.address
    | .removeEndpoint host port => l = .holding → (host, port) = σ.info.address
    | .writeInstance id record =>
      id = σ.instanceId ∧ record.endpointAddress = some σ.info.address
    | .transition id _ updates =>
      id = σ.instanceId ∧ (updates.keepsEndpoint ∨ updates = DeployModelParams.activeUpdates σ.info)
    | _ => True
  expected _ c r :=
    match c, r with
    | .getInstance id, .ok (some record) =>
      id = σ.instanceId →
        record.endpointAddress = none ∨ record.endpointAddress = some σ.info.address
    | .awaitStart, .ok info => info = σ.info
    | _, _ => True
  next l c r :=
    match l, c, r with
    | .reading, .getInstance _, .ok _ => .armed
    | .reading, .getInstance _, .error _ => .failed
    | .armed, .getInstance _, .ok (some record) =>
      if record.endpointAddress = none then .past else .holding
    | .armed, .getInstance _, _ => .failed
    | .armed, .getWorker _, .ok false => .failed
    | .armed, .getWorker _, .error _ => .failed
    | .armed, .getRunnerByInstance _, .error _ => .failed
    | .holding, .removeEndpoint _ _, .ok _ => .past
    | l, _, _ => l

variable {σ : Setting}

def Stage.Decided (l : Stage) : Prop := l ≠ .reading ∧ l ≠ .armed

variable {l : Stage} {c : Call}

theorem next_decided (hl : l.Decided) (hc : ∀ host port, c ≠ .removeEndpoint host port)
    (r : Except Failure (Reply c)) :
    (contract σ).next l c r = l := by
  cases l with
  | reading => exact absurd rfl hl.1
  | armed => exact absurd rfl hl.2
  | adding | past | failed => rfl
  | holding =>
    cases c with
    | removeEndpoint host port => exact absurd rfl (hc host port)
    | _ => rfl

def plain : Call → Bool
  | .getInstance _ | .removeInstance _ | .addEndpoint _ _ | .removeEndpoint _ _
  | .writeInstance _ _ | .transition _ _ _ => false
  | _ => true

section
variable {I : Stage → Prop} (hI : ∀ l, I l → l.Decided)
include hI

theorem keepsCall_decided (hc : ∀ host port, c ≠ .removeEndpoint host port)
    (ha : ∀ l, I l → (contract σ).allowed l c) : KeepsCall (contract σ) I c := by
  intro l _
  grind [next_decided]

theorem keepsCall_plain (c : Call) (hc : plain c = true) : KeepsCall (contract σ) I c := by
  refine keepsCall_decided hI ?_ ?_
  · rintro _ _ rfl
    cases hc
  · intro l _
    cases c <;> trivial

theorem keepsCall_getInstance (id : String) : KeepsCall (contract σ) I (.getInstance id) :=
  keepsCall_decided hI nofun fun l hl h => absurd h (hI l hl).2

theorem keeps_refresh_decided : Keeps (contract σ) I refreshModelRoutingState :=
  keeps_refresh (keepsCall_getInstance hI) (keepsCall_plain hI _ rfl)
    (fun _ => keepsCall_plain hI _ rfl) (fun _ _ => keepsCall_plain hI _ rfl)
    (keepsCall_plain hI _ rfl)

theorem upkeep_decided : Upkeep (contract σ) I σ.instanceId where
  refresh := keeps_refresh_decided hI
  getInstance := keepsCall_getInstance hI _
  transition := fun _ _ hu => keepsCall_decided hI nofun fun _ _ => ⟨rfl, .inl hu⟩
  getHealth := keepsCall_plain hI _ rfl
  aborted := keepsCall_plain hI _ rfl

end

/-! ## The programs obey it -/

theorem decided_adding (l : Stage) (h : l = .adding) : l.Decided := h ▸ ⟨nofun, nofun⟩

theorem decided_past (l : Stage) (h : l = .past) : l.Decided := h ▸ ⟨nofun, nofun⟩

theorem deploying_adding (params : DeployModelParams) (hid : params.instanceId = σ.instanceId) :
    Deploying (contract σ) (· = .adding) params where
  leader := keepsCall_plain decided_adding _ rfl
  bookkeeping := keepsCall_plain decided_adding _ rfl
  upkeep := hid ▸ upkeep_decided decided_adding

section
variable {params : DeployModelParams} (timeouts : Timeouts) (hid : params.instanceId = σ.instanceId)
include timeouts hid

theorem keeps_activate : Keeps (contract σ) (· = .adding) (params.activate timeouts σ.info) := by
  refine (deploying_adding params hid).activate ?_ ?_ ?_ timeouts
  · refine keeps_setRunnerEndpoint (keepsCall_getInstance decided_adding _) ?_ _
    intro _ record _ _
    refine keepsCall_decided decided_adding nofun fun _ _ => ?_
    exact ⟨hid, endpointAddress_withEndpoint record σ.info⟩
  · exact keepsCall_decided decided_adding nofun fun _ _ => rfl
  · exact keepsCall_decided decided_adding nofun fun _ _ => ⟨hid, .inr rfl⟩

theorem obeys_deployModel :
    Obeys (contract σ) (fun l _ => l = .adding) (deployModel timeouts params) .adding := by
  have hdep := deploying_adding params hid
  refine (hdep.deployModel hdep hdep (J := (· = .adding)) ?_ ?_ rfl).mono fun l _ h => ?_
  · intro l hl
    refine hdep.prepareStart (keepsCall_plain decided_adding _ rfl) (fun l hl => ?_) hl
    refine (keepsCall_plain decided_adding .sendStart rfl l hl).imp_right fun h r hr => ?_
    match r, h r hr with
    | .error _, h | .ok false, h | .ok true, h => exact h
  · -- The answer of the worker is the placement: the rest depends on it.
    intro l hl
    refine (keepsCall_plain decided_adding .awaitStart rfl l hl).imp_right fun h r hr => ?_
    match r, hr, h r hr with
    | .error _, _, h => exact h
    | .ok info, hr, h =>
      obtain rfl : info = σ.info := hr
      exact ⟨h, keeps_activate timeouts hid⟩
  · grind

end

variable {record : InstanceState}

section
variable (timeouts : Timeouts) (modelName : String)
include timeouts modelName

theorem keeps_wakeInstance
    (haddr : record.endpointAddress = none ∨ record.endpointAddress = some σ.info.address) :
    Keeps (contract σ) (· = .adding) (wakeInstance timeouts modelName σ.instanceId record) := by
  have hup := upkeep_decided (σ := σ) decided_adding
  have htrans : ∀ target, KeepsCall (contract σ) (· = .adding)
      (.transition σ.instanceId target {}) :=
    fun target => hup.transition target {} ⟨rfl, rfl, rfl, rfl, rfl⟩
  have hadd : Keeps (contract σ) (· = .adding) (addRouted record) := by
    rcases haddr with h | h
    · simp only [addRouted, h]
      exact .pure _
    · simp only [addRouted, h]
      exact KeepsCall.perform (keepsCall_decided decided_adding nofun fun _ _ => rfl)
  refine (keeps_when ((htrans _).bind fun _ => .pure _)).bind fun _ => ?_
  refine hup.refresh.bind fun _ => (keepsCall_plain decided_adding _ rfl).bind fun _ => ?_
  refine (keeps_waitUntilReady hup.pollRunnerHealth hup.aborted timeouts.rounds).bind fun _ => hadd.bind fun _ => ?_
  exact (htrans _).bind fun _ => hup.refresh

theorem keeps_wakeModel :
    Keeps (contract σ) (· = .adding) (wakeModel timeouts modelName σ.instanceId) := by
  intro l hl
  refine obeys_bind.mpr ⟨fun h => absurd h (decided_adding l hl).2, fun r hr => ?_⟩
  have hl' : (contract σ).next l (.getInstance σ.instanceId) r = .adding :=
    (next_decided (c := .getInstance σ.instanceId) (decided_adding l hl) nofun r).trans hl
  match r, hr with
  | .error e, _ | .ok none, _ => exact hl'
  | .ok (some record), hr =>
    refine ((keeps_wakeInstance timeouts modelName (hr rfl)).tryCatch fun _ => ?_) _ hl'
    refine ((upkeep_decided decided_adding).transitionToError _ _).bind fun _ => ?_
    exact .throw _

theorem obeys_stopInstance (hasRunner : Bool)
    (hl : (record.endpointAddress = none ∧ l = .past) ∨ (record.endpointAddress = some σ.info.address ∧ l = .holding)) :
    Obeys (contract σ) (fun l r => l.Decided ∧ ∀ a, r = .ok a → l = .past)
      (stopInstance timeouts modelName σ.instanceId hasRunner record) l := by
  have hdec : ∀ l', l' = l → l'.Decided := by
    rintro _ rfl
    rcases hl with ⟨-, rfl⟩ | ⟨-, rfl⟩
    all_goals exact ⟨nofun, nofun⟩
  have herr : ∀ (l' : Stage) (e : Failure), l' = l →
      l'.Decided ∧ ∀ a : Unit, (Except.error e : Except Failure Unit) = .ok a → l' = .past :=
    fun l' e h => ⟨hdec l' h, nofun⟩
  have hup := upkeep_decided (σ := σ) hdec
  have hdrain : Keeps (contract σ) (· = l) (Service.when (record.state = .active) do
      let _ ← await (.transition σ.instanceId .draining {})
      refreshModelRoutingState) :=
    keeps_when ((hup.transition _ _ ⟨rfl, rfl, rfl, rfl, rfl⟩).bind fun _ => hup.refresh)
  have hwait := keeps_when (c := hasRunner ∧ (record.state = .active ∨ record.state = .draining))
    (hup.waitForDrain timeouts modelName timeouts.rounds 0)
  -- What follows the removal of the endpoint stays past it.
  have hrest : ∀ l, l = .past → Obeys (contract σ)
      (fun l r => l.Decided ∧ ∀ a, r = .ok a → l = .past) (do
        let before ← await (.getInstance σ.instanceId)
        settleStopped σ.instanceId (before.map (·.state))
        refreshModelRoutingState) l := by
    have hup := upkeep_decided (σ := σ) decided_past
    have hkeep : Keeps (contract σ) (· = .past) (do
        let before ← await (.getInstance σ.instanceId)
        settleStopped σ.instanceId (before.map (·.state))
        refreshModelRoutingState) :=
      hup.getInstance.bind fun before => (hup.settleStopped _).bind fun _ => hup.refresh
    exact fun l hl => (hkeep l hl).mono fun l _ h => ⟨decided_past l h, fun _ _ => h⟩
  refine hdrain.obeys_bind rfl (fun _ _ h₁ => ?_) herr
  refine hwait.obeys_bind h₁ (fun _ _ h₂ => ?_) herr
  subst h₂
  rcases hl with ⟨haddr, rfl⟩ | ⟨haddr, rfl⟩
  · grind [removeRouted]
  · simp only [removeRouted, haddr]
    refine obeys_bind.mpr ⟨fun _ => rfl, fun r _ => ?_⟩
    cases r with
    | ok => exact hrest _ rfl
    | error e => exact ⟨⟨nofun, nofun⟩, nofun⟩

/-- **`stopModel` ends past the decision**, or throws with the decision made. -/
theorem obeys_stopModel (hasRunner : Bool) :
    Obeys (contract σ) (fun l r => l.Decided ∧ ∀ a, r = .ok a → l = .past)
      (stopModel timeouts modelName σ.instanceId hasRunner) .armed := by
  refine obeys_bind.mpr ⟨fun _ => rfl, fun r hr => ?_⟩
  match r, hr with
  | .error e, _ | .ok none, _ => exact ⟨⟨nofun, nofun⟩, nofun⟩
  | .ok (some record), hr =>
    have hstage : (record.endpointAddress = none ∧
          (contract σ).next .armed (.getInstance σ.instanceId) (.ok (some record)) = .past) ∨
        (record.endpointAddress = some σ.info.address ∧
          (contract σ).next .armed (.getInstance σ.instanceId) (.ok (some record)) = .holding) := by
      rcases hr rfl with h | h
      · exact .inl ⟨h, by simp [contract, h]⟩
      · exact .inr ⟨h, by simp [contract, h]⟩
    refine obeys_tryCatch.mpr ((obeys_stopInstance timeouts modelName hasRunner hstage).mono ?_)
    rintro l (e | a) ⟨hdec, hpast⟩
    · have hkeep := (upkeep_decided (σ := σ) fun _ h => h).transitionToError
        e.message false
      refine hkeep.obeys_bind hdec (fun l _ hl => ?_) fun l e hl => ⟨hl, nofun⟩
      exact ⟨hl, nofun⟩
    · exact ⟨hdec, hpast⟩

end

theorem obeys_findRunner (state : Option InstanceState) : Obeys (contract σ)
      (fun l r => (∀ a, r = .ok a → l = .armed) ∧ ∀ e, r = .error e → l.Decided)
      (findRunner σ.instanceId state) .armed := by
  unfold findRunner
  split
  · exact ⟨fun _ _ => rfl, nofun⟩
  · split
    · exact ⟨fun _ _ => rfl, nofun⟩
    · exact ⟨fun _ _ => rfl, nofun⟩
    · refine obeys_bind.mpr ⟨trivial, fun r _ => ?_⟩
      match r with
      | .error e | .ok false => exact ⟨nofun, fun _ _ => ⟨nofun, nofun⟩⟩
      | .ok true =>
        refine obeys_bind.mpr ⟨trivial, fun r _ => ?_⟩
        match r with
        | .error e => exact ⟨nofun, fun _ _ => ⟨nofun, nofun⟩⟩
        | .ok .absent | .ok (.starting _) | .ok (.ready _) => exact ⟨fun _ _ => rfl, nofun⟩

theorem keeps_reapRunner {I} (hI : ∀ l, I l → l.Decided)
    (state : Option InstanceState) (runnerId : Option String) :
    Keeps (contract σ) I (reapRunner state runnerId) := by
  have hstop : ∀ runnerId, Keeps (contract σ) I (stopTolerant runnerId) := by
    refine fun runnerId => (keepsCall_plain hI _ rfl).perform.tryCatch fun _ => ?_
    split
    · exact .pure _
    · exact .throw _
  unfold reapRunner
  split
  · refine .ite ((keepsCall_plain hI _ rfl).bind fun _ => ?_) (hstop _)
    exact .ite (hstop _) (.throw _)
  · exact .pure _

section
variable (timeouts : Timeouts) (modelName : String) (hasRunner : Bool)
include timeouts modelName hasRunner

theorem obeys_teardownRunner : Obeys (contract σ) (fun l _ => l.Decided)
      (teardownRunner timeouts modelName σ.instanceId hasRunner) .reading := by
  refine obeys_bind.mpr ⟨nofun, fun r _ => ?_⟩
  cases r with
  | error e => exact ⟨nofun, nofun⟩
  | ok state =>
    refine obeys_bind.mpr ((obeys_findRunner state).mono ?_)
    rintro l (e | runnerId) ⟨hok, herr⟩
    · exact herr e rfl
    · obtain rfl := hok runnerId rfl
      refine obeys_bind.mpr ((obeys_stopModel timeouts modelName hasRunner).mono ?_)
      rintro l (e | u) ⟨hdec, hpast⟩
      · exact hdec
      · have hremove : KeepsCall (contract σ) (· = .past) (.removeInstance σ.instanceId) :=
          keepsCall_decided decided_past nofun fun _ h => ⟨rfl, h⟩
        have hrest : Keeps (contract σ) (· = .past) (do
            reapRunner state runnerId
            await (.removeInstance σ.instanceId)
            Service.ignoringErrors (await .bookkeeping)) :=
          (keeps_reapRunner decided_past state runnerId).bind fun _ =>
            hremove.bind fun _ =>
              keeps_ignoringErrors (keepsCall_plain decided_past _ rfl).perform
        exact (hrest l (hpast u rfl)).mono fun l _ h => decided_past l h

theorem obeys_teardown (context : String) : Obeys (contract σ) (fun l _ => l.Decided)
      (teardownInstance timeouts modelName σ.instanceId hasRunner context) .reading :=
  obeys_teardownInstance (upkeep_decided fun _ h => h)
    (obeys_teardownRunner timeouts modelName hasRunner) context

theorem obeys_task (context : String) (c : CancelClaim) (refusal : ControlPlaneError)
    {rest} (hrest : ∀ ok, Keeps (contract σ) Stage.Decided (rest ok)) :
    Obeys (contract σ) (fun _ _ => True) (underClaim c refusal
        (teardownInstance timeouts modelName σ.instanceId hasRunner context >>= rest)) .reading :=
  obeys_underClaim trivial (fun _ _ => trivial)
    ((obeys_teardown timeouts modelName hasRunner context).bind_keeps hrest)
    fun _ _ => ⟨trivial, fun _ => trivial⟩

end

/-! ## The system -/

/-- The tasks on the instance. -/
inductive Job where
  | deploy (workerId : String) (protocol : Protocol) (fenced : Bool)
  | wake
  | stop (hasRunner : Bool)
  | stopTask (hasRunner : Bool) (refusal : ControlPlaneError)
  | deleteTask (hasRunner : Bool) (refusal : ControlPlaneError)
  | deleteInstanceTask (hasRunner : Bool) (refusal : ControlPlaneError)

def Job.program (σ : Setting) (timeouts : Timeouts) : Job → Service Unit
  | deploy workerId protocol fenced =>
    deployModel timeouts ⟨σ.modelName, σ.instanceId, workerId, protocol, fenced⟩
  | wake => wakeModel timeouts σ.modelName σ.instanceId
  | stop hasRunner => stopModel timeouts σ.modelName σ.instanceId hasRunner
  | stopTask hasRunner refusal =>
    Sardeenz.stopTask timeouts σ.modelName σ.instanceId hasRunner refusal
  | deleteTask hasRunner refusal =>
    Sardeenz.deleteTask timeouts σ.modelName σ.instanceId hasRunner refusal
  | deleteInstanceTask hasRunner refusal =>
    Sardeenz.deleteInstanceTask timeouts σ.modelName σ.instanceId hasRunner refusal

def Job.stage : Job → Stage
  | deploy _ _ _ | wake => .adding
  | stop _ => .armed
  | stopTask _ _ | deleteTask _ _ | deleteInstanceTask _ _ => .reading

theorem Job.obeys (timeouts : Timeouts) (job : Job) :
    Obeys (contract σ) (fun _ _ => True) (job.program σ timeouts) job.stage := by
  cases job with
  | deploy =>
    exact (obeys_deployModel timeouts rfl).mono fun _ _ _ => trivial
  | wake => exact (keeps_wakeModel timeouts _ _ rfl).mono fun _ _ _ => trivial
  | stop hasRunner => exact (obeys_stopModel timeouts _ hasRunner).mono fun _ _ _ => trivial
  | stopTask hasRunner refusal | deleteInstanceTask hasRunner refusal =>
    exact obeys_task timeouts _ hasRunner _ _ refusal fun _ => .pure _
  | deleteTask hasRunner refusal =>
    refine obeys_task timeouts _ hasRunner _ _ refusal fun _ => ?_
    exact keeps_afterDelete (keepsCall_getInstance (fun _ h => h) _)
      (keepsCall_plain (fun _ h => h) _ rfl) (keepsCall_plain (fun _ h => h) _ rfl)

abbrev State (n : Nat) := Threads Call Reply Failure Stage World (Fin n)

variable {n : Nat}

/-- A task makes its next call, the worker acts, or something else of the
control plane changes another instance or the routing map. -/
inductive Action (n : Nat) where
  | run (t : Fin n) (i : Input)
  | worker (a : WorkerAction)
  | otherInstance (id : String) (record : Option InstanceState)
  | mutate (mutation : Mutation) (now : Nat)

def registers (address : String × Nat) : Mutation → Bool
  | .addEndpoint _ endpoint _ => endpoint.address = address
  | _ => false

def step (σ : Setting) (s : State n) : Action n → Option (State n)
  | .run t i => s.step (contract σ) (fun _ i w c => w.perform σ i c) t i
  | .worker a =>
    (s.world.worker.step a).map fun worker => { s with world := { s.world with worker } }
  | .otherInstance id record =>
    if id = σ.instanceId then none
    else some { s with world := s.world.setInstance id record }
  | .mutate mutation now =>
    if registers σ.info.address mutation then none
    else some { s with world := { s.world with routing := mutation.apply s.world.routing now } }

def start (σ : Setting) (timeouts : Timeouts) (jobs : Fin n → Job) (w : World) : State n where
  world := w
  prog := fun t => (jobs t).program σ timeouts
  loc := fun t => (jobs t).stage

def Named (σ : Setting) (w : World) : Prop :=
  (w.instances.lookup σ.instanceId).bind (·.endpointAddress) = some σ.info.address
deriving Decidable

/-- The endpoint may be registered: the record names it, and no running stop
or teardown is past its decision. -/
def Registrable (σ : Setting) (s : State n) : Prop :=
  Named σ s.world ∧ ∀ t, s.loc t = .past → (s.prog t).Settled
deriving Decidable

def registering (p : Service Unit) : Bool :=
  match p.awaited with
  | some (.addEndpoint _ _) => true
  | _ => false

def RegisteredInTime (σ : Setting) (s : State n) : Action n → Prop
  | .run t _ => registering (s.prog t) = true → Registrable σ s
  | _ => True

instance (σ : Setting) (s : State n) (a : Action n) : Decidable (RegisteredInTime σ s a) := by
  unfold RegisteredInTime
  split <;> infer_instance

/-! ## The invariant -/

/-- The record names no endpoint or this one, no other model is routed to it,
and the model is routed to it only while it may be registered. -/
structure Inv (σ : Setting) (s : State n) : Prop where
  address : ∀ record, s.world.instances.lookup σ.instanceId = some record →
    record.endpointAddress = none ∨ record.endpointAddress = some σ.info.address
  elsewhere : ∀ name ≠ σ.modelName, ¬ RoutedAt s.world.routing name σ.info.address
  routed : RoutedAt s.world.routing σ.modelName σ.info.address → Registrable σ s

variable {s : State n}

theorem inv_put {t w} {p : Service Unit}
    (haddress : ∀ record, w.instances.lookup σ.instanceId = some record →
      record.endpointAddress = none ∨ record.endpointAddress = some σ.info.address)
    (hrouted : ∀ name, RoutedAt w.routing name σ.info.address →
      name = σ.modelName ∧ Registrable σ s ∧ Named σ w ∧ l ≠ .past) :
    Inv σ (s.put w t p l) where
  address := haddress
  elsewhere := fun name hname h => hname (hrouted name h).1
  routed := by
    intro h
    obtain ⟨-, hreg, hnamed, hl⟩ := hrouted _ h
    refine ⟨hnamed, fun t' ht' => ?_⟩
    by_cases htt : t' = t
    · subst htt
      exact absurd (by simpa [Threads.put] using ht') hl
    · simp only [Threads.put, Function.update_of_ne htt] at ht' ⊢
      exact hreg.2 t' ht'

theorem next_ne_past (c : Call) (hl : l ≠ .past) (hget : ∀ id, c ≠ .getInstance id)
    (hremove : ∀ host port, c ≠ .removeEndpoint host port) (r : Except Failure (Reply c)) :
    (contract σ).next l c r ≠ .past := by
  cases l with
  | past => exact absurd rfl hl
  | adding | failed => exact nofun
  | reading =>
    cases c with
    | getInstance id => exact absurd rfl (hget id)
    | _ => exact nofun
  | holding =>
    cases c with
    | removeEndpoint host port => exact absurd rfl (hremove host port)
    | _ => exact nofun
  | armed =>
    cases c with
    | getInstance id => exact absurd rfl (hget id)
    | getWorker id =>
      match r with
      | .error _ | .ok false | .ok true => exact nofun
    | getRunnerByInstance id =>
      match r with
      | .error _ | .ok _ => exact nofun
    | _ => exact nofun

/-- A call that changes no record keeps the invariant if it routes no model to
the endpoint that was not, and does not go past the decision. -/
theorem Inv.call_keep (hi : Inv σ s) {t} (ht : ¬ (s.prog t).Settled)
    {w} (hinst : w.instances = s.world.instances)
    (hrouting : ∀ name, RoutedAt w.routing name σ.info.address →
      RoutedAt s.world.routing name σ.info.address)
    (hl : RoutedAt w.routing σ.modelName σ.info.address → s.loc t ≠ .past → l ≠ .past)
    (p : Service Unit) : Inv σ (s.put w t p l) := by
  refine inv_put (by rw [hinst]; exact hi.address) fun name hname => ?_
  have hold := hrouting name hname
  have hmodel : name = σ.modelName := by
    by_contra hne
    exact hi.elsewhere name hne hold
  subst hmodel
  have hreg := hi.routed hold
  refine ⟨rfl, hreg, ?_, hl hname fun hpast => ht (hreg.2 t hpast)⟩
  simpa [Named, hinst] using hreg.1

theorem Inv.call_record (hi : Inv σ s) {t} (ht : ¬ (s.prog t).Settled)
    (hl : s.loc t ≠ .past → l ≠ .past)
    (haddress : record.endpointAddress = none ∨ record.endpointAddress = some σ.info.address)
    (hnamed : Named σ s.world → record.endpointAddress = some σ.info.address) (p : Service Unit) :
    Inv σ (s.put { s.world with instances := s.world.instances.insert σ.instanceId record } t p
      l) := by
  refine inv_put ?_ fun name hname => ?_
  · grind [AList.lookup_insert]
  · have hmodel : name = σ.modelName := by
      by_contra hne
      exact hi.elsewhere name hne hname
    subst hmodel
    have hreg := hi.routed hname
    refine ⟨rfl, hreg, ?_, hl fun hpast => ht (hreg.2 t hpast)⟩
    simpa [Named] using hnamed hreg.1

/-- A call that the task may make keeps the invariant. -/
abbrev Kept (σ : Setting) (s : State n) (t : Fin n) (i : Input) (c : Call) : Prop :=
  ∀ {r : Except Failure (Reply c)} {w : World}, (contract σ).allowed (s.loc t) c →
    s.world.perform σ i c = some (w, r) →
      ∀ p, Inv σ (s.put w t p ((contract σ).next (s.loc t) c r))

section calls
variable {s : State n} (hi : Inv σ s) {t : Fin n} (ht : ¬ (s.prog t).Settled) {i : Input}
  {w : World}
include hi ht

theorem Inv.call_plain (hc : plain c = true) (hpart : c.part ≠ some .routing) : Kept σ s t i c := by
  intro r w _ h p
  have hsame := perform_sameBut h
  have hinst : c.part ≠ some .instances := by
    cases c <;> simp_all [plain, Call.part]
  refine hi.call_keep ht (hsame.instances hinst) ?_ ?_ p
  · grind [hsame.routing]
  · intro _ hl
    refine next_ne_past c hl ?_ ?_ r
    · rintro _ rfl
      cases hc
    · rintro _ _ rfl
      cases hc

theorem Inv.call_mutation {r mutation}
    (hm : c.mutation σ = some mutation) (hreg : registers σ.info.address mutation = false)
    (hnext : RoutedAt w.routing σ.modelName σ.info.address → s.loc t ≠ .past →
      (contract σ).next (s.loc t) c r ≠ .past)
    (h : s.world.perform σ i c = some (w, r)) (p : Service Unit) :
    Inv σ (s.put w t p ((contract σ).next (s.loc t) c r)) := by
  have hpart : c.part ≠ some .instances := by
    cases c <;> simp_all [Call.mutation, Call.part]
  refine hi.call_keep ht ((perform_sameBut h).instances hpart) ?_ hnext p
  intro _ hname
  rcases perform_routing hm h with hw | ⟨hw, -⟩
  · rw [hw] at hname
    rcases RoutedAt.of_apply hname with hname | ⟨_, _, rfl, haddr⟩
    · exact hname
    · simp [registers, haddr] at hreg
  · rwa [hw] at hname

variable {id : String}

theorem Inv.call_getInstance {r : Except Failure (Option InstanceState)}
    (ha : s.loc t = .armed → id = σ.instanceId)
    (h : s.world.perform σ i (.getInstance id) = some (w, r)) :
    (contract σ).expected (s.loc t) (.getInstance id) r ∧
      ∀ p, Inv σ (s.put w t p ((contract σ).next (s.loc t) (.getInstance id) r)) := by
  obtain ⟨rfl, hr⟩ := perform_getInstance h
  constructor
  · rcases hr with rfl | ⟨e, rfl⟩
    · cases hrec : s.world.instances.lookup id with
      | none => exact trivial
      | some record => exact fun hid => hi.address record (hid ▸ hrec)
    · exact trivial
  · intro p
    refine hi.call_keep ht rfl (fun _ hname => hname) ?_ p
    -- In `armed` the read decides: the record names the endpoint.
    intro hrouted hne
    have hnamed := (hi.routed hrouted).1
    generalize s.loc t = l at ha hne
    cases l with
    | past => exact absurd rfl hne
    | adding | failed | holding => exact nofun
    | reading =>
      cases r with
      | ok _ | error _ => exact nofun
    | armed =>
      obtain rfl := ha rfl
      rcases hr with rfl | ⟨e, rfl⟩
      · cases hrec : s.world.instances.lookup σ.instanceId with
        | none => exact nofun
        | some record =>
          simp_all [Named, contract]
      · exact nofun

theorem Inv.call_transition {target updates} :
    Kept σ s t i (.transition id target updates) := by
  rintro r w ⟨rfl, hupd⟩ h p
  have hnext : s.loc t ≠ .past →
      (contract σ).next (s.loc t) (.transition σ.instanceId target updates) r ≠ .past :=
    fun hl => next_ne_past (.transition σ.instanceId target updates) hl nofun nofun r
  rcases perform_transition h with ⟨rfl, -⟩ | ⟨record, hrec, -, rfl, -⟩
  · exact hi.call_keep ht rfl (fun _ hname => hname) (fun _ => hnext) p
  · refine hi.call_record ht hnext ?_ ?_ p
    · rcases hupd with ⟨hhost, hport, hengine, -⟩ | rfl
      · rw [endpointAddress_transitioned hhost hport hengine]
        exact hi.address record hrec
      · exact .inr (endpointAddress_activeUpdates record target σ.info i.now)
    · intro _
      rcases hupd with ⟨hhost, hport, hengine, -⟩ | rfl
      · grind [endpointAddress_transitioned, Named]
      · exact endpointAddress_activeUpdates record target σ.info i.now

theorem Inv.call_writeInstance : Kept σ s t i (.writeInstance id record) := by
  rintro r w ⟨rfl, haddr⟩ h p
  have hnext : s.loc t ≠ .past →
      (contract σ).next (s.loc t) (.writeInstance σ.instanceId record) r ≠ .past :=
    fun hl => next_ne_past (.writeInstance σ.instanceId record) hl nofun nofun r
  rcases Input.reply_eq_some h with ⟨rfl, -⟩ | ⟨rfl | rfl, -⟩
  · exact hi.call_record ht hnext (.inr haddr) (fun _ => haddr) p
  · exact hi.call_record ht hnext (.inr haddr) (fun _ => haddr) p
  · exact hi.call_keep ht rfl (fun _ hname => hname) (fun _ => hnext) p

theorem Inv.call_removeInstance : Kept σ s t i (.removeInstance id) := by
  rintro r w ⟨rfl, hpast⟩ h p
  have hnot := fun h => ht ((hi.routed h).2 t hpast)
  have hrouting : w.routing = s.world.routing := (perform_sameBut h).routing nofun
  refine inv_put ?_ fun _ _ => ?_
  · intro record hrec
    rcases Input.reply_eq_some h with ⟨rfl, -⟩ | ⟨rfl | rfl, -⟩
    · simp_all
    · simp_all
    · exact hi.address record hrec
  · grind [hi.elsewhere]

theorem Inv.call_addEndpoint {endpoint protocol}
    (hok : Registrable σ s) : Kept σ s t i (.addEndpoint endpoint protocol) := by
  intro r w _ h p
  have hinst : w.instances = s.world.instances := (perform_sameBut h).instances nofun
  refine inv_put (by rw [hinst]; exact hi.address) fun name hname => ?_
  refine ⟨?_, hok, by simpa [Named, hinst] using hok.1, ?_⟩
  · by_contra hne
    rcases perform_routing rfl h with hw | ⟨hw, -⟩
    · rw [hw] at hname
      rcases RoutedAt.of_apply hname with hname | ⟨_, _, _, -⟩
      · exact hi.elsewhere name hne hname
      · grind
    · grind [hi.elsewhere]
  · exact next_ne_past (.addEndpoint endpoint protocol) (fun hl => ht (hok.2 t hl)) nofun nofun r

theorem Inv.call_removeEndpoint {host port} :
    Kept σ s t i (.removeEndpoint host port) := by
  intro r w (ha : s.loc t = .holding → (host, port) = σ.info.address) h p
  refine hi.call_mutation ht rfl rfl ?_ h p
  intro hrouted hne
  generalize s.loc t = l at ha hne
  cases l with
  | past => exact absurd rfl hne
  | adding | failed | reading | armed => exact nofun
  | holding =>
    cases r with
    | error e => exact nofun
    | ok =>
      exfalso
      rcases perform_routing rfl h with hw | ⟨-, e, he⟩
      · obtain ⟨rfl, rfl⟩ := Prod.mk.inj (ha rfl)
        rw [hw] at hrouted
        exact not_routedAt_removeEndpoint _ _ σ.info.address _ hrouted
      · cases he

end calls

theorem Inv.call {s} (hi : Inv σ s) {t : Fin n} (ht : ¬ (s.prog t).Settled) {i w r} (ha : (contract σ).allowed (s.loc t) c)
    (hok : ∀ endpoint protocol, c = .addEndpoint endpoint protocol → Registrable σ s)
    (h : s.world.perform σ i c = some (w, r)) :
    (contract σ).expected (s.loc t) c r ∧
      ∀ p, Inv σ (s.put w t p ((contract σ).next (s.loc t) c r)) := by
  cases c with
  | getInstance id => exact hi.call_getInstance ht ha h
  | transition id => exact ⟨trivial, hi.call_transition ht ha h⟩
  | writeInstance id => exact ⟨trivial, hi.call_writeInstance ht ha h⟩
  | removeInstance id => exact ⟨trivial, hi.call_removeInstance ht ha h⟩
  | addEndpoint endpoint protocol =>
    exact ⟨trivial, hi.call_addEndpoint ht (hok endpoint protocol rfl) ha h⟩
  | removeEndpoint => exact ⟨trivial, hi.call_removeEndpoint ht ha h⟩
  | setModelState | removeModel | updateEndpointWeight | cutoverEndpointAndWait =>
    refine ⟨trivial, hi.call_mutation ht rfl rfl (fun _ hl => ?_) h⟩
    refine next_ne_past _ hl ?_ ?_ r
    · exact nofun
    · exact nofun
  | awaitStart =>
    refine ⟨?_, hi.call_plain ht rfl (by nofun) ha h⟩
    cases r with
    | error => exact trivial
    | ok => exact info_of_awaitStart h
  | _ => exact ⟨trivial, hi.call_plain ht rfl (by nofun) ha h⟩

theorem step_inv {s s'} {a : Action n}
    (hs : s.Obey (contract σ) (fun _ _ _ => True) ∧ Inv σ s) (hok : RegisteredInTime σ s a)
    (h : step σ s a = some s') : s'.Obey (contract σ) (fun _ _ _ => True) ∧ Inv σ s' := by
  obtain ⟨hobey, hi⟩ := hs
  cases a with
  | run t i =>
    have hrun : s.step (contract σ) (fun _ i w c => w.perform σ i c) t i = some s' := h
    refine Threads.step_obey hobey ?_ hrun
    intro c w r ht ha hc hsem
    refine hi.call ht ha ?_ hsem
    rintro endpoint protocol rfl
    obtain ⟨k, hk⟩ := hc
    exact hok (by rw [hk]; rfl)
  | worker a =>
    obtain ⟨worker, -, rfl⟩ := Option.map_eq_some_iff.mp h
    exact ⟨hobey, hi.address, hi.elsewhere, hi.routed⟩
  | otherInstance _ record =>
    obtain ⟨hid, h⟩ := Option.ite_none_left_eq_some.mp h
    cases h
    have hlookup := s.world.lookup_setInstance_ne hid record
    refine ⟨hobey, ?_, hi.elsewhere, fun hr => ⟨?_, (hi.routed hr).2⟩⟩
    · grind [hi.address]
    · simpa only [Named, hlookup] using (hi.routed hr).1
  | mutate mutation now =>
    obtain ⟨hreg, h⟩ := Option.ite_none_left_eq_some.mp h
    cases h
    have hold : ∀ name, RoutedAt (mutation.apply s.world.routing now) name σ.info.address →
        RoutedAt s.world.routing name σ.info.address := by
      intro name hname
      rcases RoutedAt.of_apply hname with hname | ⟨endpoint, protocol, rfl, haddr⟩
      · exact hname
      · simp [registers, haddr] at hreg
    exact ⟨hobey, hi.address, fun name hne hr => hi.elsewhere name hne (hold name hr),
      fun hr => hi.routed (hold _ hr)⟩

/-! ## No leak -/

/-- A world in which the tasks may begin: if a model is routed to the endpoint
of the instance, it is the instance's model and the record names it. -/
structure Consistent (σ : Setting) (w : World) : Prop where
  address : ∀ record, w.instances.lookup σ.instanceId = some record →
    record.endpointAddress = none ∨ record.endpointAddress = some σ.info.address
  routed : ∀ name, RoutedAt w.routing name σ.info.address → name = σ.modelName ∧ Named σ w

variable {jobs : Fin n → Job}

theorem inv_start {timeouts w} (hw : Consistent σ w) :
    Inv σ (start σ timeouts jobs w) where
  address := hw.address
  elsewhere := fun name hne h => hne (hw.routed name h).1
  routed := by
    intro h
    refine ⟨(hw.routed _ h).2, fun t ht => ?_⟩
    -- No task begins past its decision.
    change (jobs t).stage = .past at ht
    cases hjob : jobs t <;> simp [hjob, Job.stage] at ht

/-- **No endpoint leak.**  For any number of deployments, wakes, stops and
teardowns of one instance, in every run in which the endpoint is registered
only while the record names it and no running stop or teardown is past its
decision: where the record has been removed, no routing entry has an endpoint
at the instance's address. -/
theorem no_endpoint_leak {timeouts : Timeouts} {w : World} (hw : Consistent σ w) {s : State n}
    (hr : Reach (step σ) (RegisteredInTime σ) (start σ timeouts jobs w) s)
    (hgone : s.world.instances.lookup σ.instanceId = none) (name : String) :
    ¬ RoutedAt s.world.routing name σ.info.address := by
  have hinv : s.Obey (contract σ) (fun _ _ _ => True) ∧ Inv σ s :=
    hr.inductive_inv ⟨fun t => (jobs t).obeys timeouts, inv_start hw⟩
      fun hi hok h => step_inv hi hok h
  intro hrouted
  by_cases hname : name = σ.modelName
  · subst hname
    have hnamed := (hinv.2.routed hrouted).1
    simp [Named, hgone] at hnamed
  · exact hinv.2.elsewhere name hname hrouted

/-! ### Two runs -/

def deployAndStop : Fin 2 → Job
  | 0 => .deploy "w" .openai false
  | 1 => .stopTask false (.invalidState "m" "STARTING" "stop")

def calls (t : Fin 2) (k : Nat) : List (Action 2) := List.replicate k (.run t {})

/-- One `refreshModelRoutingState` of a task. -/
def refreshing (t : Fin 2) : List (Action 2) :=
  [.run t {}, .run t { keys := ["i"] }, .run t {}, .run t {}]

def deployUntilReady : List (Action 2) :=
  refreshing left ++ calls left 3 ++ [.worker .deliver, .worker .reserve, .worker .launched] ++
    calls left 5

def deployThenStop : List (Action 2) :=
  deployUntilReady ++ calls left 2 ++ refreshing left ++ calls left 1 ++
    calls right 4 ++ refreshing right ++ calls right 4 ++ refreshing right ++ calls right 5

theorem consistent_startingWorld : Consistent exampleSetting startingWorld where
  address := by
    intro _ h
    cases h
    exact .inl rfl
  routed := by
    rintro _ ⟨e, he, -⟩
    cases he

theorem deployThenStop_no_leak :
    let s := (exec (guarded (step exampleSetting) (RegisteredInTime exampleSetting))
      (start exampleSetting exampleTimeouts deployAndStop startingWorld) deployThenStop).get
        (by decide +kernel)
    (∀ t, (s.prog t).Settled) ∧ ¬ RoutedAt s.world.routing "m" exampleSetting.info.address :=
  ⟨by decide +kernel,
    no_endpoint_leak consistent_startingWorld (reach_get (by decide +kernel)) (by decide +kernel)
      "m"⟩

def stopBeforeRegistration : List (Action 2) :=
  deployUntilReady ++ calls right 7 ++ refreshing right ++ calls right 5 ++ calls left 5

/-- **The leak.**  Every call is answered and both tasks settle; the record is
gone, and the model is routed to the stopped runner. -/
theorem endpoint_registered_after_teardown : ∃ s, exec (step exampleSetting)
        (start exampleSetting exampleTimeouts deployAndStop startingWorld)
        stopBeforeRegistration = some s ∧
      (∀ t, (s.prog t).Settled) ∧ s.world.instances.lookup "i" = none ∧
      RoutedAt s.world.routing "m" exampleSetting.info.address :=
  ⟨(exec (step exampleSetting)
      (start exampleSetting exampleTimeouts deployAndStop startingWorld)
      stopBeforeRegistration).get (by decide +kernel),
    (Option.some_get _).symm, by decide +kernel, by decide +kernel, by decide +kernel⟩

end Sardeenz.EndpointLeak
