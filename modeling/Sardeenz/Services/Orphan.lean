/-
# `Sardeenz.Services.Orphan` — runners and the records they belong to

A deployment sends one `POST /runners`; the worker starts a runner some time
later.  A teardown makes sure that there is no runner before it removes the
record: it stops the runner that the record names, or, where the record names
none yet, the one the worker knows; if the worker knows none there is nothing
to stop.  `Stage` follows both sides:

    before → awaiting → started | ended     a deployment: POST sent, answer or none
    idle → searching                        a teardown: its claim is held
    searching → found → cleared             the runner is known; it has been stopped
    searching → cleared                     no record, or the worker says `absent`
    failed                                  an error: the record will stay
    released                                the claim is given back

`absent` is not the same as "there will be none": the request may be on its
way, or the worker may be allocating ports for it.

**Proved here.**  When a live or pending runner has its record once all tasks have
settled (`no_orphan_runner`), and one without (`lookup_before_delivery`).
-/
import Sardeenz.Services.World
import Sardeenz.Services.Deploy
import Sardeenz.Routes.Teardown
import Mathlib.Data.Fintype.Option

namespace Sardeenz.Orphan

open Interleave Option World Teardown

/-! ## The contract -/

/-- How far a program is with the runner. -/
inductive Stage where
  | before
  | awaiting
  | started
  | ended
  | idle
  | searching (c : CancelClaim)
  | found (c : CancelClaim)
  | cleared (c : CancelClaim)
  | failed (c : CancelClaim)
  | released
deriving DecidableEq

/-- Whose stage it is: a deployment's (`none`), or a teardown's with the claim
it holds. -/
def Stage.role : Stage → Option (Option CancelClaim)
  | before | awaiting | started | ended => none
  | idle | released => some none
  | searching c | found c | cleared c | failed c => some (some c)

def Stage.Steady : Stage → Prop
  | searching _ => False
  | _ => True

def contract (σ : Setting) : Contract Call Reply Failure Stage where
  allowed l
    | .getInstance id => ¬ l.Steady → id = σ.instanceId
    | .getRunnerByInstance id => id = σ.instanceId
    | .sendStart => l = .before
    | .awaitStart => l = .awaiting
    | .stopRunner runnerId =>
      runnerId = σ.info.runnerId ∧ ∃ c, l = .found c
    | .removeInstance id => id = σ.instanceId ∧ ∃ c, l = .cleared c
    | .writeInstance id record =>
      id = σ.instanceId ∧ l = .started ∧ record.workerId.isSome = true ∧
        record.runnerId = some σ.info.runnerId
    | .transition id _ updates =>
      id = σ.instanceId ∧
        (updates.keepsEndpoint ∨ (l = .started ∧ updates = DeployModelParams.activeUpdates σ.info))
    | .claim _ => l = .idle
    | .release c => l.role = some (some c)
    | _ => True
  expected _ c r :=
    match c, r with
    | .getInstance id, .ok (some record) =>
      id = σ.instanceId → record.workerId.isSome = true ∧
        (record.runnerId = none ∨ record.runnerId = some σ.info.runnerId)
    | .getRunnerByInstance _, .ok lookup =>
      lookup = .absent ∨ lookup = .starting σ.info.runnerId ∨ lookup = .ready σ.info
    | .awaitStart, .ok info => info = σ.info
    | _, _ => True
  next l c r :=
    match l, c, r with
    | .before, .sendStart, .ok true => .awaiting
    | .awaiting, .awaitStart, .ok _ => .started
    | .awaiting, .awaitStart, .error _ => .ended
    | .idle, .claim c, .ok true => .searching c
    | .searching c, .getInstance _, .ok none => .cleared c
    | .searching c, .getInstance _, .ok (some record) =>
      if record.runnerId = none then .searching c else .found c
    | .searching c, .getInstance _, .error _ => .failed c
    | .searching c, .getWorker _, .ok false => .failed c
    | .searching c, .getWorker _, .error _ => .failed c
    | .searching c, .getRunnerByInstance _, .ok .absent => .cleared c
    | .searching c, .getRunnerByInstance _, .ok _ => .found c
    | .searching c, .getRunnerByInstance _, .error _ => .failed c
    | .found c, .stopRunner _, .ok _ => .cleared c
    | .found c, .stopRunner _, .error (.workerHttp 404 _) => .cleared c
    | .searching _, .release _, _ | .found _, .release _, _ | .cleared _, .release _, _
    | .failed _, .release _, _ => .released
    | l, _, _ => l

variable {σ : Setting}

def plain : Call → Bool
  | .getInstance _ | .removeInstance _ | .writeInstance _ _ | .transition _ _ _ | .sendStart
  | .awaitStart | .stopRunner _ | .getRunnerByInstance _ | .claim _ | .release _ => false
  | _ => true

variable {l : Stage} {c : Call}

theorem next_plain (hl : l.Steady) (hc : plain c = true) (r : Except Failure (Reply c)) :
    (contract σ).next l c r = l := by
  cases l with
  | searching c => exact hl.elim
  | started | ended | released => rfl
  | before | awaiting | idle | found _ | cleared _ | failed _ =>
    cases c <;> first | rfl | exact absurd hc Bool.false_ne_true

variable {updates : InstanceUpdates}

theorem keepsCall_transition {I} (target : ModelLifecycleState)
    (hu : updates.keepsEndpoint) :
    KeepsCall (contract σ) I (.transition σ.instanceId target updates) := by
  intro l hl
  refine ⟨⟨rfl, .inl hu⟩, fun r _ => ?_⟩
  have hsame : (contract σ).next l (.transition σ.instanceId target updates) r = l := by
    cases l <;> rfl
  rw [hsame]
  exact hl

section
variable {I : Stage → Prop} (hI : ∀ l, I l → l.Steady)
include hI

theorem keepsCall_plain (c : Call) (hc : plain c = true) : KeepsCall (contract σ) I c := by
  intro l hl
  refine ⟨?_, fun r _ => ?_⟩
  · cases c <;> trivial
  · rw [next_plain (hI l hl) hc]
    exact hl

theorem keepsCall_getInstance (id : String) : KeepsCall (contract σ) I (.getInstance id) := by
  intro l hl
  refine ⟨fun h => absurd (hI l hl) h, fun r _ => ?_⟩
  have hsame : (contract σ).next l (.getInstance id) r = l := by
    cases l <;> first | rfl | exact (hI _ hl).elim
  rw [hsame]
  exact hl

theorem upkeep_steady : Upkeep (contract σ) I σ.instanceId where
  refresh := keeps_refresh (keepsCall_getInstance hI) (keepsCall_plain hI _ rfl)
    (fun _ => keepsCall_plain hI _ rfl) (fun _ _ => keepsCall_plain hI _ rfl)
    (keepsCall_plain hI _ rfl)
  getInstance := keepsCall_getInstance hI _
  transition := fun target _ hu => keepsCall_transition target hu
  getHealth := keepsCall_plain hI _ rfl
  aborted := keepsCall_plain hI _ rfl

end

/-! ## The programs obey it -/

theorem steady_before (l : Stage) (h : l = .before) : l.Steady := h ▸ trivial

theorem steady_started (l : Stage) (h : l = .started) : l.Steady := h ▸ trivial

variable {params : DeployModelParams}

theorem deploying_steady {I} (hI : ∀ l, I l → l.Steady)
    (hid : params.instanceId = σ.instanceId) :
    Deploying (contract σ) I params where
  leader := keepsCall_plain hI _ rfl
  bookkeeping := keepsCall_plain hI _ rfl
  upkeep := hid ▸ upkeep_steady hI

variable (timeouts : Timeouts)

theorem keeps_activate (hid : params.instanceId = σ.instanceId) :
    Keeps (contract σ) (· = .started) (params.activate timeouts σ.info) := by
  refine (deploying_steady steady_started hid).activate ?_ ?_ ?_ timeouts
  · refine keeps_setRunnerEndpoint (keepsCall_getInstance steady_started _) ?_ _
    rintro l _ - hexp _ rfl
    exact ⟨⟨hid, rfl, (hexp hid).1, rfl⟩, fun _ _ => rfl⟩
  · exact keepsCall_plain steady_started _ rfl
  · rintro l rfl
    exact ⟨⟨hid, .inr ⟨rfl, rfl⟩⟩, fun _ _ => rfl⟩

/-- **A deployment obeys the contract**, and does not settle while it awaits
the answer of the worker. -/
theorem obeys_deployModel (hid : params.instanceId = σ.instanceId) :
    Obeys (contract σ) (fun l _ => l ≠ .awaiting) (deployModel timeouts params) .before := by
  have hI := deploying_steady steady_before hid
  refine (hI.deployModel (deploying_steady steady_started hid) (deploying_steady (I := (· = .ended))
    (fun _ h => h ▸ trivial) hid)
    (J := (· = .awaiting)) ?_ ?_ rfl).mono fun l _ h => ?_
  · intro l hl
    refine hI.prepareStart (keepsCall_plain steady_before _ rfl) ?_ hl
    rintro l rfl
    refine ⟨rfl, fun r _ => ?_⟩
    match r with
    | .error _ | .ok false | .ok true => exact rfl
  · rintro l rfl
    refine ⟨rfl, fun r hr => ?_⟩
    match r, hr with
    | .error _, _ => exact rfl
    | .ok info, hr =>
      obtain rfl : info = σ.info := hr
      exact ⟨rfl, keeps_activate timeouts hid⟩
  · grind

def Searched (c : CancelClaim) (l : Stage) : Prop := l.role = some (some c) ∧ l.Steady

theorem searched_steady {c} (l : Stage) (h : Searched c l) : l.Steady := h.2

/-- The search of a teardown, from its read of the record on: it ends with the
runner found, with none to be found, or failed. -/
theorem obeys_findRunner {c} {state : Option InstanceState}
    (hexp : (contract σ).expected (.searching c) (.getInstance σ.instanceId) (.ok state)) :
    Obeys (contract σ) (fun l r => match r with
        | .ok none => l = .cleared c
        | .ok (some runnerId) => l = .found c ∧ runnerId = σ.info.runnerId ∧
            (state.bind (·.workerId)).isSome = true
        | .error _ => Searched c l)
      (findRunner σ.instanceId state)
      ((contract σ).next (.searching c) (.getInstance σ.instanceId) (.ok state)) := by
  cases state with
  | none => exact rfl
  | some record =>
    obtain ⟨hworker, hrunner⟩ := hexp rfl
    obtain ⟨workerId, hworkerId⟩ := isSome_iff_exists.mp hworker
    unfold findRunner
    rcases hrunner with hnone | hown
    · -- The record names no runner yet: the worker is asked.
      have hstage : (contract σ).next (.searching c) (.getInstance σ.instanceId)
          (.ok (some record)) = .searching c := by
        simp [contract, hnone]
      rw [hstage]
      simp only [hnone, hworkerId]
      refine obeys_bind.mpr ⟨trivial, fun r _ => ?_⟩
      match r with
      | .error e | .ok false => exact ⟨rfl, trivial⟩
      | .ok true =>
        refine obeys_bind.mpr ⟨rfl, fun r hr => ?_⟩
        match r, hr with
        | .error e, _ => exact ⟨rfl, trivial⟩
        | .ok .absent, _ => exact rfl
        | .ok (.starting runnerId), hr =>
          have hid : runnerId = σ.info.runnerId := by
            simpa [contract] using hr
          exact ⟨rfl, hid, by simp [hworkerId]⟩
        | .ok (.ready info), hr =>
          have hinfo : info = σ.info := by
            simpa [contract] using hr
          exact ⟨rfl, by rw [hinfo], by simp [hworkerId]⟩
    · have hstage : (contract σ).next (.searching c) (.getInstance σ.instanceId)
          (.ok (some record)) = .found c := by
        simp [contract, hown]
      simp_all

theorem obeys_stopTolerant (c : CancelClaim) : Obeys (contract σ) (fun l r => match r with
        | .ok _ => l = .cleared c
        | .error _ => Searched c l)
      (stopTolerant σ.info.runnerId) (.found c) := by
  refine Obeys.tryCatch
    (S := fun l r => l = (contract σ).next (.found c) (.stopRunner σ.info.runnerId) r)
    ⟨⟨rfl, c, rfl⟩, fun r _ => rfl⟩ (fun _ _ h => h) ?_
  rintro l err rfl
  split
  · exact rfl
  · rename_i h404
    have hstage : (contract σ).next (.found c) (.stopRunner σ.info.runnerId) (.error err) =
        .found c := by
      simp only [contract]
      split <;> simp_all
    rw [hstage]
    exact ⟨rfl, trivial⟩

theorem obeys_reapRunner (state : Option InstanceState) {c runnerId}
    (h : match runnerId with
      | none => l = .cleared c
      | some runnerId => l = .found c ∧ runnerId = σ.info.runnerId ∧
          (state.bind (·.workerId)).isSome = true) :
    Obeys (contract σ) (fun l r => match r with
        | .ok _ => l = .cleared c
        | .error _ => Searched c l)
      (reapRunner state runnerId) l := by
  cases runnerId with
  | none =>
    unfold reapRunner
    simp_all
  | some runnerId =>
    obtain ⟨rfl, rfl, hworker⟩ := h
    obtain ⟨workerId, hworkerId⟩ := isSome_iff_exists.mp hworker
    simp only [reapRunner, hworkerId]
    split
    · refine obeys_bind.mpr ⟨trivial, fun r _ => ?_⟩
      match r with
      | .error e | .ok false => exact ⟨rfl, trivial⟩
      | .ok true => exact obeys_stopTolerant c
    · exact obeys_stopTolerant c

theorem obeys_teardownRunner (modelName : String) (hasRunner : Bool) (c : CancelClaim) :
    Obeys (contract σ) (fun l _ => Searched c l)
      (teardownRunner timeouts modelName σ.instanceId hasRunner) (.searching c) := by
  refine obeys_bind.mpr ⟨fun _ => rfl, fun r hr => ?_⟩
  match r, hr with
  | .error e, _ => exact ⟨rfl, trivial⟩
  | .ok state, hr =>
    refine obeys_bind.mpr ((obeys_findRunner hr).mono fun l r hlr => ?_)
    cases r with
    | error e => exact hlr
    | ok runnerId =>
      have hsearched : Searched c l := by
        cases runnerId with
        | none => exact hlr ▸ ⟨rfl, trivial⟩
        | some runnerId => exact hlr.1 ▸ ⟨rfl, trivial⟩
      have hsteady : ∀ l', l' = l → l'.Steady := fun l' h => h ▸ hsearched.2
      have hstop := (upkeep_steady (σ := σ) hsteady).stopModel
        (fun _ _ _ _ _ _ => keepsCall_plain hsteady _ rfl) timeouts modelName hasRunner
      refine hstop.obeys_bind rfl ?_ fun l' _ h => h ▸ hsearched
      rintro l' - rfl
      refine obeys_bind.mpr ((obeys_reapRunner state (c := c) ?_).mono ?_)
      · grind
      · rintro l (e | u) hl
        · exact hl
        obtain rfl : l = .cleared c := hl
        have hcleared : ∀ l : Stage, l = .cleared c → l.Steady := fun l h => h ▸ trivial
        have hrest : Keeps (contract σ) (· = .cleared c) (do
            await (.removeInstance σ.instanceId)
            Service.ignoringErrors (await .bookkeeping)) := by
          refine .bind (KeepsCall.perform ?_) fun _ =>
            keeps_ignoringErrors (keepsCall_plain hcleared _ rfl).perform
          rintro l rfl
          exact ⟨⟨rfl, c, rfl⟩, fun _ _ => rfl⟩
        exact (hrest _ rfl).mono fun l _ h => h ▸ ⟨rfl, trivial⟩

/-- A task under a claim obeys the contract: it tears the instance down, and
what follows neither stops a runner nor removes a record. -/
theorem obeys_task (modelName : String) (hasRunner : Bool)
    (context : String) (c : CancelClaim) (refusal : ControlPlaneError) {rest}
    (hrest : ∀ ok, Keeps (contract σ) (Searched c) (rest ok)) :
    Obeys (contract σ) (fun l _ => l ≠ .awaiting) (underClaim c refusal
        (teardownInstance timeouts modelName σ.instanceId hasRunner context >>= rest)) .idle := by
  have htear : Obeys (contract σ) (fun l _ => Searched c l)
      (teardownInstance timeouts modelName σ.instanceId hasRunner context) (.searching c) :=
    obeys_teardownInstance (upkeep_steady searched_steady)
      (obeys_teardownRunner timeouts modelName hasRunner c) context
  refine obeys_underClaim (P := contract σ) rfl ?_
    (htear.bind_keeps hrest) ?_
  · intro r _
    match r with
    | .error _ | .ok false | .ok true => exact nofun
  · rintro l ⟨hrole, -⟩
    refine ⟨hrole, fun r => ?_⟩
    cases l with
    | awaiting => simp [Stage.role] at hrole
    | _ => exact nofun

/-! ## The worker -/

def Started (k : Worker) : Prop := (∃ cancelled, k.slot = .pending cancelled) ∨ k.request = .finished

/-- No runner will come of the request as it is: there is none and nothing is
under way, or the start is being cancelled. -/
def Barren (k : Worker) : Prop :=
  (k.slot = .empty ∧ (k.request = .notSent ∨ k.request = .finished)) ∨ k.slot = .pending true

def Coherent (k : Worker) : Prop :=
  match k.request with
  | .notSent | .inTransit => k.slot = .empty ∧ k.failedLog = false ∧ k.reply = none
  | .handling =>
    (k.slot = .allocating ∨ ∃ cancelled, k.slot = .pending cancelled) ∧
      k.failedLog = false ∧ k.reply = none
  | .finished => k.slot = .empty ∨ k.slot = .live

/-- What the tasks rely on when the worker moves from `k` to `k'`. -/
structure Onward (k k' : Worker) : Prop where
  coherent : Coherent k'
  started : Started k → Started k'
  barren : Barren k → Barren k'
  sent : k'.request = .notSent ↔ k.request = .notSent
  finished : k.request = .finished → k'.request = .finished
  waiting : k'.waiting = k.waiting
  cancelled : k'.slot = .pending true → k.slot = .pending true ∨ k'.waiting = true

variable {k : Worker}

/-- **Every action of the worker.** -/
theorem onward_step {k' a} (hk : Coherent k) (h : k.step a = some k') :
    Onward k k' := by
  revert h
  fun_cases Worker.step k a
  all_goals
    intro h
    cases h
  all_goals
    cases hrequest : k.request
    all_goals constructor <;> simp_all [Coherent, Started, Barren, Worker.finish]

theorem onward_stop {k'} (hk : Coherent k)
    (hwait : k.slot = .pending false → k.waiting = true) (h : k.stop = some k') :
    Onward k k' ∧ Barren k' := by
  revert h
  fun_cases Worker.stop k
  all_goals
    intro h
  all_goals
    constructor
    case right => grind -ring -linarith [Coherent, Barren]
    constructor <;> grind -ring -linarith [Coherent, Started, Barren, cases Bool]

theorem Coherent.barren_of_stop (hk : Coherent k) (hs : Started k) (h : k.stop = none) :
    Barren k := by
  grind [Coherent, Started, Barren, Worker.stop]

theorem Coherent.of_lookup (hk : Coherent k) (info : RunnerInfo) (htransit : k.request ≠ .inTransit)
    (halloc : k.slot ≠ .allocating) :
    (k.lookup info = .absent ∧ Barren k) ∨
      ((k.lookup info = .starting info.runnerId ∨ k.lookup info = .ready info) ∧ Started k) := by
  grind [Worker.lookup, Coherent, Started, Barren]

/-! ## The system -/

/-- The requests that tear the instance down. -/
inductive Job where
  | stopTask (hasRunner : Bool) (refusal : ControlPlaneError)
  | deleteTask (hasRunner : Bool) (refusal : ControlPlaneError)
  | deleteInstanceTask (hasRunner : Bool) (refusal : ControlPlaneError)

def Job.program (σ : Setting) (timeouts : Timeouts) : Job → Service Unit
  | stopTask hasRunner refusal =>
    Sardeenz.stopTask timeouts σ.modelName σ.instanceId hasRunner refusal
  | deleteTask hasRunner refusal =>
    Sardeenz.deleteTask timeouts σ.modelName σ.instanceId hasRunner refusal
  | deleteInstanceTask hasRunner refusal =>
    Sardeenz.deleteInstanceTask timeouts σ.modelName σ.instanceId hasRunner refusal

theorem Job.obeys (job : Job) :
    Obeys (contract σ) (fun l _ => l ≠ .awaiting) (job.program σ timeouts) .idle := by
  cases job with
  | stopTask hasRunner refusal | deleteInstanceTask hasRunner refusal =>
    exact obeys_task timeouts _ hasRunner _ _ refusal fun _ => .pure _
  | deleteTask hasRunner refusal =>
    refine obeys_task timeouts _ hasRunner _ _ refusal fun _ => ?_
    exact keeps_afterDelete (keepsCall_getInstance searched_steady _)
      (keepsCall_plain searched_steady _ rfl) (keepsCall_plain searched_steady _ rfl)

/-- The deployment (`none`) and the teardowns on one world. -/
abbrev State (n : Nat) := Threads Call Reply Failure Stage World (Option (Fin n))

variable {n : Nat}

/-- A task makes its next call, the worker acts, or something else of the
control plane changes another instance or the routing map. -/
inductive Action (n : Nat) where
  | run (t : Option (Fin n)) (i : Input)
  | worker (a : WorkerAction)
  | otherInstance (id : String) (record : Option InstanceState)
  | mutate (mutation : Mutation) (now : Nat)

def step (σ : Setting) (s : State n) : Action n → Option (State n)
  | .run t i => s.step (contract σ) (fun _ i w c => w.perform σ i c) t i
  | .worker a =>
    (s.world.worker.step a).map fun worker => { s with world := { s.world with worker } }
  | .otherInstance id record =>
    if id = σ.instanceId then none
    else some { s with world := s.world.setInstance id record }
  | .mutate mutation now =>
    some { s with world := { s.world with routing := mutation.apply s.world.routing now } }

def start (σ : Setting) (timeouts : Timeouts) (params : DeployModelParams) (jobs : Fin n → Job)
    (w : World) : State n where
  world := w
  prog
    | none => deployModel timeouts params
    | some j => (jobs j).program σ timeouts
  loc
    | none => .before
    | some _ => .idle

/-- The calls about the runner. -/
inductive RunnerCall where
  | lookup
  | send
  | await
  | stop
  | other

def runnerCall : Option Call → RunnerCall
  | some (.getRunnerByInstance _) => .lookup
  | some .sendStart => .send
  | some .awaitStart => .await
  | some (.stopRunner _) => .stop
  | _ => .other

def TimelyCall (σ : Setting) (w : World) (i : Input) : RunnerCall → Prop
  -- The request is not on its way, and the worker is not allocating its ports.
  | .lookup => w.worker.request ≠ .inTransit ∧ w.worker.slot ≠ .allocating
  | .send => (w.instances.lookup σ.instanceId).isSome = true
  -- The client does not give up a start that is being cancelled …
  | .await => i.outcome ≠ .answered → w.worker.slot ≠ .pending true
  -- … and none is cancelled that was given up.
  | .stop => w.worker.slot = .pending false → w.worker.waiting = true
  | .other => True

instance (σ : Setting) (w : World) (i : Input) (c) : Decidable (TimelyCall σ w i c) := by
  unfold TimelyCall
  split <;> infer_instance

def Timely (σ : Setting) (s : State n) : Action n → Prop
  | .run t i => TimelyCall σ s.world i (runnerCall (s.prog t).awaited)
  | _ => True

instance (σ : Setting) (s : State n) (a : Action n) : Decidable (Timely σ s a) := by
  unfold Timely
  split <;> infer_instance

/-! ## The invariant -/

def Fits (w : World) : Stage → Prop
  | .before => w.worker.request = .notSent
  | .awaiting | .ended => w.worker.request ≠ .notSent
  | .started => w.worker.request = .finished
  | .idle | .released => True
  | .searching c | .failed c => c ∈ w.claims
  | .found c => c ∈ w.claims ∧ Started w.worker
  | .cleared c => c ∈ w.claims ∧ Barren w.worker

/-- The record names a worker, and no runner or the one that was started; and
without a record no runner will come. -/
structure Recorded (σ : Setting) (w : World) : Prop where
  record : ∀ record, w.instances.lookup σ.instanceId = some record →
    record.workerId.isSome = true ∧ (record.runnerId = none ∨
      (record.runnerId = some σ.info.runnerId ∧ Started w.worker))
  gone : w.instances.lookup σ.instanceId = none → Barren w.worker

structure Inv (σ : Setting) (s : State n) : Prop where
  coherent : Coherent s.world.worker
  recorded : Recorded σ s.world
  cancelled : s.world.worker.slot = .pending true → s.world.worker.waiting = true
  waiting : s.world.worker.waiting = true → s.loc none = .awaiting
  fits : ∀ t, Fits s.world (s.loc t)
  deploys : ∀ t, (s.loc t).role = none ↔ t = none
  exclusive : ∀ t t' c, (s.loc t).role = some (some c) → (s.loc t').role = some (some c) → t = t'

variable {w : World}

theorem Fits.onward {worker} (ho : Onward w.worker worker) (h : Fits w l) :
    Fits { w with worker } l := by
  cases l with
  | before => exact ho.sent.mpr h
  | awaiting | ended => exact fun hs => h (ho.sent.mp hs)
  | started => exact ho.finished h
  | idle | released => exact trivial
  | searching c | failed c => exact h
  | found c => exact ⟨h.1, ho.started h.2⟩
  | cleared c => exact ⟨h.1, ho.barren h.2⟩

theorem Recorded.onward {worker} (ho : Onward w.worker worker)
    (h : Recorded σ w) : Recorded σ { w with worker } where
  record := fun record hrec =>
    ⟨(h.record record hrec).1, (h.record record hrec).2.imp_right fun h => ⟨h.1, ho.started h.2⟩⟩
  gone := fun hnone => ho.barren (h.gone hnone)

theorem Fits.mem_claims {c} (h : Fits w l)
    (hl : l.role = some (some c)) : c ∈ w.claims := by
  cases l <;> simp_all [Fits, Stage.role]

theorem Inv.put {s} (hi : Inv σ s) {t : Option (Fin n)} {p : Service Unit}
    (hcoherent : Coherent w.worker) (hrecorded : Recorded σ w)
    (hcancelled : w.worker.slot = .pending true → w.worker.waiting = true)
    (hwaiting : w.worker.waiting = true → Function.update s.loc t l none = .awaiting)
    (hfits : Fits w l) (hothers : ∀ t' ≠ t, Fits s.world (s.loc t') → Fits w (s.loc t'))
    (hdeploys : l.role = none ↔ (s.loc t).role = none)
    (hrole : ∀ c, l.role = some (some c) → (s.loc t).role = some (some c) ∨ c ∉ s.world.claims) :
    Inv σ (s.put w t p l) where
  coherent := hcoherent
  recorded := hrecorded
  cancelled := hcancelled
  waiting := hwaiting
  fits := (Function.forall_update_iff _ fun _ l => Fits w l).mpr
    ⟨hfits, fun t' ht => hothers t' ht (hi.fits t')⟩
  deploys := (Function.forall_update_iff _ fun t (l : Stage) => l.role = none ↔ t = none).mpr
    ⟨hdeploys.trans (hi.deploys t), fun t' _ => hi.deploys t'⟩
  exclusive := by
    -- A claim that the task has newly taken was held by no other.
    have hfresh : ∀ t' ≠ t, ∀ c, (s.loc t').role = some (some c) → l.role ≠ some (some c) := by
      intro t' ht c hc hl
      rcases hrole c hl with h | h
      · exact ht (hi.exclusive t' t c hc h)
      · exact h ((hi.fits t').mem_claims hc)
    intro t₁ t₂ c h₁ h₂
    have hold := hi.exclusive t₁ t₂ c
    simp only [Threads.put] at h₁ h₂
    grind

/-! ### What the calls do to the stages -/

theorem role_next (c : Call) (hc : c.part ≠ some .claims) (r : Except Failure (Reply c)) :
    ((contract σ).next l c r).role = l.role := by
  simp only [contract]
  split
  all_goals first
    | rfl
    | (split <;> rfl)
    | exact absurd rfl hc

theorem next_awaiting (c : Call) (hc : c ≠ .awaitStart) (r : Except Failure (Reply c)) :
    (contract σ).next .awaiting c r = .awaiting := by
  cases c <;> first | rfl | exact absurd rfl hc

theorem next_instances (hc : c.part = some .instances) {r} :
    (contract σ).next l c r = l := by
  cases c with
  | transition | writeInstance | removeInstance => cases l <;> rfl
  | _ => cases hc

theorem fits_next_plain (hl : Fits w l) (hc : plain c = true)
    (r : Except Failure (Reply c)) : Fits w ((contract σ).next l c r) := by
  by_cases hs : l.Steady
  · rw [next_plain hs hc]
    exact hl
  · cases l with
    | searching =>
      cases c with
      | getWorker =>
        match r with
        | .error _ | .ok false | .ok true => exact hl
      | _ => first | exact hl | exact nomatch hc
    | _ => exact absurd trivial hs

theorem fits_congr {w'} (hworker : w'.worker = w.worker) (hclaims : w'.claims = w.claims)
    (l : Stage) : Fits w' l ↔ Fits w l := by
  cases l <;> simp [Fits, hworker, hclaims]

theorem Recorded.congr {w'} (h : Recorded σ w) (hworker : w'.worker = w.worker)
    (hinst : w'.instances.lookup σ.instanceId = w.instances.lookup σ.instanceId) :
    Recorded σ w' := by
  constructor
  · rw [hinst, hworker]
    exact h.record
  · rw [hinst, hworker]
    exact h.gone

variable {record : InstanceState} {target : ModelLifecycleState}

theorem transitioned_runnerId {now} (h : updates.runnerId = none) :
    (transitioned record target updates now).runnerId = record.runnerId := by
  by_cases ht : target = .error <;> simp [transitioned, InstanceUpdates.apply, ht, h]

theorem transitioned_workerId {now} (h : updates.workerId = none) :
    (transitioned record target updates now).workerId = record.workerId := by
  by_cases ht : target = .error <;> simp [transitioned, InstanceUpdates.apply, ht, h]

/-! ### The calls -/

/-- A call that the task may make keeps the invariant. -/
abbrev Kept (σ : Setting) (s : State n) (t : Option (Fin n)) (i : Input) (c : Call) : Prop :=
  ∀ {r : Except Failure (Reply c)} {w : World}, (contract σ).allowed (s.loc t) c →
    s.world.perform σ i c = some (w, r) →
      ∀ p, Inv σ (s.put w t p ((contract σ).next (s.loc t) c r))

section calls
variable {s : State n} (hi : Inv σ s) {t : Option (Fin n)} {i : Input} {w : World}
include hi

theorem Inv.fits_of (hl : s.loc t = l) : Fits s.world l := hl ▸ hi.fits t

theorem Inv.awaiting (hw : s.world.worker.waiting = true)
    (hl : s.loc t = .awaiting → l = .awaiting) : Function.update s.loc t l none = .awaiting := by
  grind [hi.waiting]

theorem Inv.call_still (hworker : w.worker = s.world.worker) (hclaims : w.claims = s.world.claims)
    (hrecorded : Recorded σ w) (hfits : Fits s.world l) (hrole : l.role = (s.loc t).role)
    (hawait : s.loc t = .awaiting → l = .awaiting) (p : Service Unit) : Inv σ (s.put w t p l) := by
  refine hi.put ?_ hrecorded ?_ ?_ ((fits_congr hworker hclaims l).mpr hfits) ?_ (by rw [hrole]) ?_
  · rw [hworker]
    exact hi.coherent
  · rw [hworker]
    exact hi.cancelled
  · grind [hi.awaiting]
  · exact fun _ _ h => (fits_congr hworker hclaims _).mpr h
  · exact fun c h => .inl (hrole ▸ h)

theorem Inv.call_plain {c} (hc : plain c = true) : Kept σ s t i c := by
  intro r w _ h p
  have hsame := perform_sameBut h
  have hparts : c.part ≠ some .instances ∧ c.part ≠ some .worker ∧ c.part ≠ some .claims := by
    cases c <;> simp_all [plain, Call.part]
  have hworker := hsame.worker hparts.2.1
  refine hi.call_still hworker (hsame.claims hparts.2.2) ?_ (fits_next_plain (hi.fits t) hc r)
    (role_next c hparts.2.2 r) ?_ p
  · exact hi.recorded.congr hworker (by rw [hsame.instances hparts.1])
  · intro ht
    rw [ht]
    refine next_awaiting c ?_ r
    rintro rfl
    cases hc

variable {id : String}

/-- The read that begins a search: without a record there is no runner, and a
runner that the record names was started. -/
theorem Inv.call_getInstance {r : Except Failure (Option InstanceState)}
    (ha : ¬ (s.loc t).Steady → id = σ.instanceId)
    (h : s.world.perform σ i (.getInstance id) = some (w, r)) :
    (contract σ).expected (s.loc t) (.getInstance id) r ∧
      ∀ p, Inv σ (s.put w t p ((contract σ).next (s.loc t) (.getInstance id) r)) := by
  obtain ⟨rfl, hr⟩ := perform_getInstance h
  refine ⟨?_, fun p => ?_⟩
  · rcases hr with rfl | ⟨e, rfl⟩
    · cases hrec : s.world.instances.lookup id with
      | none => exact trivial
      | some record =>
        intro hid
        have hrecord := hi.recorded.record record (hid ▸ hrec)
        exact ⟨hrecord.1, hrecord.2.imp_right And.left⟩
    · exact trivial
  · have hfits : Fits s.world ((contract σ).next (s.loc t) (.getInstance id) r) := by
      have hold := hi.fits t
      generalize s.loc t = l at ha hold
      cases l with
      | searching c =>
        obtain rfl := ha fun hs => hs
        rcases hr with rfl | ⟨e, rfl⟩
        · cases hrec : s.world.instances.lookup σ.instanceId with
          | none => exact ⟨hold, hi.recorded.gone hrec⟩
          | some record =>
            rcases (hi.recorded.record record hrec).2 with hnone | ⟨hown, hstarted⟩
            · simpa [contract, hnone] using hold
            · have hstage : (contract σ).next (.searching c) (.getInstance σ.instanceId)
                  (.ok (some record)) = .found c := by
                simp [contract, hown]
              rw [hstage]
              exact ⟨hold, hstarted⟩
        · exact hold
      | _ => exact hold
    refine hi.call_still rfl rfl hi.recorded hfits (role_next (.getInstance id) nofun r) ?_ p
    grind [next_awaiting]

theorem Inv.call_getRunnerByInstance {r : Except Failure RunnerLookup} (ha : id = σ.instanceId)
    (hok : s.world.worker.request ≠ .inTransit ∧ s.world.worker.slot ≠ .allocating)
    (h : s.world.perform σ i (.getRunnerByInstance id) = some (w, r)) :
    (contract σ).expected (s.loc t) (.getRunnerByInstance id) r ∧
      ∀ p, Inv σ (s.put w t p ((contract σ).next (s.loc t) (.getRunnerByInstance id) r)) := by
  subst ha
  have hlookup := hi.coherent.of_lookup σ.info hok.1 hok.2
  obtain ⟨rfl, hr⟩ := perform_getRunnerByInstance h
  refine ⟨?_, fun p => ?_⟩
  · rcases hr with rfl | ⟨e, rfl⟩
    · rcases hlookup with ⟨habsent, -⟩ | ⟨hknown, -⟩
      · exact .inl habsent
      · exact .inr hknown
    · exact trivial
  · have hfits : Fits s.world
        ((contract σ).next (s.loc t) (.getRunnerByInstance σ.instanceId) r) := by
      have hold := hi.fits t
      generalize s.loc t = l at hold
      cases l with
      | searching =>
        rcases hr with rfl | ⟨e, rfl⟩
        · rcases hlookup with ⟨habsent, hbarren⟩ | ⟨hknown | hknown, hstarted⟩
          · rw [habsent]
            exact ⟨hold, hbarren⟩
          all_goals
            rw [hknown]
            exact ⟨hold, hstarted⟩
        · exact hold
      | _ => exact hold
    refine hi.call_still rfl rfl hi.recorded hfits (role_next (.getRunnerByInstance _) nofun r) ?_ p
    grind [next_awaiting]

theorem Inv.call_unchanged (c : Call) {r}
    (hpart : c.part = some .instances) (p : Service Unit) :
    Inv σ (s.put s.world t p ((contract σ).next (s.loc t) c r)) := by
  rw [next_instances hpart]
  exact hi.call_still rfl rfl hi.recorded (hi.fits t) rfl id p

theorem Inv.call_record {c r} (hpart : c.part = some .instances)
    (hw : w = { s.world with instances := s.world.instances.insert σ.instanceId record })
    (hrecord : record.workerId.isSome = true ∧ (record.runnerId = none ∨
      (record.runnerId = some σ.info.runnerId ∧ Started s.world.worker)))
    (p : Service Unit) : Inv σ (s.put w t p ((contract σ).next (s.loc t) c r)) := by
  rw [next_instances hpart]
  refine hi.call_still (by rw [hw]) (by rw [hw]) ?_ (hi.fits t) rfl id p
  constructor
  · grind [AList.lookup_insert]
  · simp_all

theorem Inv.call_transition : Kept σ s t i (.transition id target updates) := by
  rintro r w ⟨rfl, hupd⟩ h p
  rcases perform_transition h with ⟨rfl, -⟩ | ⟨record, hrec, -, rfl, -⟩
  · exact hi.call_unchanged (.transition σ.instanceId target updates) rfl p
  · have hold := hi.recorded.record record hrec
    refine hi.call_record rfl rfl ?_ p
    rcases hupd with ⟨-, -, -, hrunner, hworker⟩ | ⟨hstarted, rfl⟩
    · simpa [transitioned_runnerId hrunner, transitioned_workerId hworker] using hold
    · -- The deployment has its answer, so the request is done with.
      have hfinished : Started s.world.worker := .inr (hi.fits_of hstarted)
      grind [transitioned, InstanceUpdates.apply, DeployModelParams.activeUpdates]

theorem Inv.call_writeInstance : Kept σ s t i (.writeInstance id record) := by
  rintro r w ⟨rfl, hstarted, hworker, hrunner⟩ h p
  have hrecord : record.workerId.isSome = true ∧ (record.runnerId = none ∨
      (record.runnerId = some σ.info.runnerId ∧ Started s.world.worker)) :=
    ⟨hworker, .inr ⟨hrunner, .inr (hi.fits_of hstarted)⟩⟩
  have hwrite := fun hw =>
    hi.call_record (w := w) (t := t) (r := r) rfl hw
      hrecord p
  rcases Input.reply_eq_some h with ⟨hw, -⟩ | ⟨hw | rfl, -⟩
  · exact hwrite hw
  · exact hwrite hw
  · exact hi.call_unchanged (.writeInstance σ.instanceId record) rfl p

theorem Inv.call_removeInstance : Kept σ s t i (.removeInstance id) := by
  rintro r w ⟨rfl, c, hc⟩ h p
  have hbarren : Barren s.world.worker := (hi.fits_of hc).2
  have hremove : ∀ w, w = { s.world with instances := s.world.instances.erase σ.instanceId } →
      Inv σ (s.put w t p ((contract σ).next (s.loc t) (.removeInstance σ.instanceId) r)) := by
    intro w hw
    rw [next_instances rfl]
    refine hi.call_still (by rw [hw]) (by rw [hw]) ?_ (hi.fits t) rfl id p
    subst hw
    constructor
    · intro _ hrec
      rw [AList.lookup_erase] at hrec
      cases hrec
    · exact fun _ => hbarren
  rcases Input.reply_eq_some h with ⟨hw, -⟩ | ⟨hw | rfl, -⟩
  · exact hremove w hw
  · exact hremove w hw
  · exact hi.call_unchanged (.removeInstance σ.instanceId) rfl p

theorem Inv.call_sendStart (hok : (s.world.instances.lookup σ.instanceId).isSome = true) :
    Kept σ s t i .sendStart := by
  intro r w (ha : s.loc t = .before) h p
  have ht : t = none := (hi.deploys t).mp (by rw [ha]; rfl)
  have hsent : s.world.worker.request = .notSent := hi.fits_of ha
  have hnot : ¬ Started s.world.worker := by
    grind [hi.coherent, Coherent, Started]
  rcases perform_sendStart h with ⟨rfl, rfl⟩ | ⟨_, rfl, rfl⟩
  · rw [ha]
    show Inv σ (s.put s.world t p .before)
    grind [hi.call_still, hi.recorded, hi.fits]
  · subst ht
    rw [ha]
    refine hi.put ?_ ?_ (fun _ => rfl) ?_ ?_ ?_ ?_ nofun
    · have hk := hi.coherent
      simp only [Coherent, hsent] at hk
      exact hk
    · refine ⟨fun record hrec => ?_, fun hnone => ?_⟩
      · refine ⟨(hi.recorded.record record hrec).1, .inl ?_⟩
        exact (hi.recorded.record record hrec).2.resolve_right fun h => hnot h.2
      · simp [hnone] at hok
    · intro _
      rfl
    · exact nofun
    · intro t' _ hf
      have hdep := hi.deploys t'
      generalize s.loc t' = l at hf hdep
      cases l <;> simp_all [Fits, Stage.role]
    · rw [ha]
      exact Iff.rfl

theorem Inv.call_awaitStart {r : Except Failure RunnerInfo}
    (ha : (contract σ).allowed (s.loc t) .awaitStart)
    (hok : i.outcome ≠ .answered → s.world.worker.slot ≠ .pending true)
    (h : s.world.perform σ i .awaitStart = some (w, r)) :
    (contract σ).expected (s.loc t) .awaitStart r ∧
      ∀ p, Inv σ (s.put w t p ((contract σ).next (s.loc t) .awaitStart r)) := by
  have hsent : s.world.worker.request ≠ .notSent := hi.fits_of ha
  -- Either way the client waits no longer.
  have hdone : ∀ l, l.role = none → l ≠ .before →
      (l = .started → s.world.worker.request = .finished) →
      s.world.worker.slot ≠ .pending true → ∀ p, Inv σ (s.put
        { s.world with worker := { s.world.worker with waiting := false, reply := none } } t p
        l) := by
    intro l hrole hbefore hstarted hslot p
    refine hi.put ?_ ⟨hi.recorded.record, hi.recorded.gone⟩ (fun h => absurd h hslot) nofun ?_ ?_
      (by rw [hrole, ha]; rfl) (by rw [hrole]; exact nofun)
    · have hk := hi.coherent
      unfold Coherent at hk ⊢
      split at hk <;> simp_all
    · cases l with
      | before => exact absurd rfl hbefore
      | awaiting | ended => exact hsent
      | started => exact hstarted rfl
      | _ => cases hrole
    · intro t' _ hf
      generalize s.loc t' = l' at hf
      cases l' <;> exact hf
  rw [ha]
  obtain ⟨rfl, ⟨answer, _, rfl⟩ | ⟨hlost, e, rfl⟩⟩ := perform_awaitStart h
  · have hfinished : s.world.worker.request = .finished := by grind [hi.coherent, Coherent]
    have hslot : s.world.worker.slot ≠ .pending true := by grind [hi.coherent, Coherent]
    cases answer with
    | error e => exact ⟨trivial, hdone .ended rfl nofun nofun hslot⟩
    | ok => exact ⟨rfl, hdone .started rfl nofun (fun _ => hfinished) hslot⟩
  · exact ⟨trivial, hdone .ended rfl nofun nofun (hok hlost)⟩

theorem Inv.call_stopRunner {runnerId}
    (hok : s.world.worker.slot = .pending false → s.world.worker.waiting = true) :
    Kept σ s t i (.stopRunner runnerId) := by
  rintro r w ⟨rfl, c, hc⟩ h p
  have hfound : Fits s.world (.found c) := hi.fits_of hc
  rw [hc]
  rcases perform_stopRunner h with ⟨worker, hstop, h⟩ | ⟨hstop, h⟩
  · obtain ⟨ho, hbarren⟩ := onward_stop hi.coherent hok hstop
    have hmoved : ∀ l, l = .found c ∨ l = .cleared c →
        Inv σ (s.put { s.world with worker } t p l) := by
      intro l hl
      refine hi.put ho.coherent (hi.recorded.onward ho) ?_ ?_ ?_ (fun _ _ hf => hf.onward ho) ?_ ?_
      · intro hslot
        rcases ho.cancelled hslot with h | h
        · exact ho.waiting.trans (hi.cancelled h)
        · exact h
      · exact fun hw => hi.awaiting (ho.waiting ▸ hw) (by simp [hc])
      · rcases hl with rfl | rfl
        · exact hfound.onward ho
        · exact ⟨hfound.1, hbarren⟩
      · rcases hl with rfl | rfl
        · rw [hc]
        · rw [hc]
          exact Iff.rfl
      · rw [hc]
        rcases hl with rfl | rfl
        all_goals exact fun _ h => .inl h
    rcases Input.reply_eq_some h with ⟨rfl, rfl⟩ | ⟨rfl | rfl, rfl⟩
    · exact hmoved _ (.inr rfl)
    · exact hmoved _ (.inl rfl)
    · exact hi.call_still rfl rfl hi.recorded hfound (by rw [hc])
        (fun haw => nomatch hc.symm.trans haw) p
  · have hbarren := hi.coherent.barren_of_stop hfound.2 hstop
    have hsame : ∀ l, Fits s.world l → l.role = some (some c) → Inv σ (s.put s.world t p l) :=
      fun l hl hrole => hi.call_still rfl rfl hi.recorded hl (by rw [hrole, hc]; rfl)
        (fun haw => nomatch hc.symm.trans haw) p
    rcases Input.reply_eq_some h with ⟨rfl, rfl⟩ | ⟨rfl | rfl, rfl⟩
    · exact hsame (.cleared c) ⟨hfound.1, hbarren⟩ rfl
    all_goals exact hsame (.found c) hfound rfl

theorem Inv.call_claim {c} : Kept σ s t i (.claim c) := by
  intro r w (ha : s.loc t = .idle) h p
  rw [ha]
  rcases perform_claim h with ⟨rfl, rfl⟩ | ⟨_, rfl, rfl⟩
  · show Inv σ (s.put s.world t p .idle)
    grind [hi.call_still, hi.recorded, hi.fits]
  · have hmore : ∀ l, Fits s.world l → Fits { s.world with claims := insert c s.world.claims } l := by
      intro l _
      cases l <;> simp_all [Fits]
    refine hi.put hi.coherent ⟨hi.recorded.record, hi.recorded.gone⟩ hi.cancelled ?_
      (Finset.mem_insert_self c _) (fun _ _ => hmore _) (by rw [ha]; exact ⟨nofun, nofun⟩) ?_
    · exact fun hw => hi.awaiting hw (by simp [ha])
    · grind [contract, Stage.role]

theorem Inv.call_release {c} : Kept σ s t i (.release c) := by
  intro r w (ha : (s.loc t).role = some (some c)) h p
  have hnext : (contract σ).next (s.loc t) (.release c) r = .released := by
    generalize s.loc t = l at ha
    cases l <;> first | rfl | simp [Stage.role] at ha
  rw [hnext]
  cases h
  refine hi.put hi.coherent ⟨hi.recorded.record, hi.recorded.gone⟩ hi.cancelled ?_ trivial ?_
    (by rw [ha]; exact ⟨nofun, nofun⟩) nofun
  · refine fun hw => hi.awaiting hw fun hl => ?_
    rw [hl] at ha
    cases ha
  · -- Another task's claim is another claim.
    intro t' ht' hf
    have hother : (s.loc t').role ≠ some (some c) := fun h => ht' (hi.exclusive t' t c h ha)
    generalize s.loc t' = l at hf hother
    cases l <;> simp_all [Fits, Stage.role]

end calls

theorem Inv.call {s} (hi : Inv σ s) {t : Option (Fin n)} {i w r} (ha : (contract σ).allowed (s.loc t) c)
    (hok : TimelyCall σ s.world i (runnerCall (some c))) (h : s.world.perform σ i c = some (w, r)) :
    (contract σ).expected (s.loc t) c r ∧
      ∀ p, Inv σ (s.put w t p ((contract σ).next (s.loc t) c r)) := by
  cases c with
  | getInstance id => exact hi.call_getInstance ha h
  | getRunnerByInstance id => exact hi.call_getRunnerByInstance ha hok h
  | awaitStart => exact hi.call_awaitStart ha hok h
  | transition id => exact ⟨trivial, hi.call_transition ha h⟩
  | writeInstance id => exact ⟨trivial, hi.call_writeInstance ha h⟩
  | removeInstance id => exact ⟨trivial, hi.call_removeInstance ha h⟩
  | sendStart => exact ⟨trivial, hi.call_sendStart hok ha h⟩
  | stopRunner => exact ⟨trivial, hi.call_stopRunner hok ha h⟩
  | claim c => exact ⟨trivial, hi.call_claim ha h⟩
  | release c => exact ⟨trivial, hi.call_release ha h⟩
  | _ => exact ⟨trivial, hi.call_plain rfl ha h⟩

def Ends (_ : Option (Fin n)) (l : Stage) (_ : Except Failure Unit) : Prop := l ≠ .awaiting

theorem step_inv {s s'} {a : Action n} (hs : s.Obey (contract σ) Ends ∧ Inv σ s)
    (hok : Timely σ s a) (h : step σ s a = some s') :
    s'.Obey (contract σ) Ends ∧ Inv σ s' := by
  obtain ⟨hobey, hi⟩ := hs
  cases a with
  | run t i =>
    have hrun : s.step (contract σ) (fun _ i w c => w.perform σ i c) t i = some s' := h
    refine Threads.step_obey hobey ?_ hrun
    rintro c w r - ha ⟨k, hk⟩ hsem
    refine hi.call ha ?_ hsem
    have hcall : (s.prog t).awaited = some c := by
      rw [hk]
      rfl
    rw [← hcall]
    exact hok
  | worker a =>
    obtain ⟨worker, hstep, rfl⟩ := map_eq_some_iff.mp h
    have ho := onward_step hi.coherent hstep
    refine ⟨hobey, ho.coherent, hi.recorded.onward ho, ?_, ?_, fun t => (hi.fits t).onward ho,
      hi.deploys, hi.exclusive⟩
    · intro hslot
      rcases ho.cancelled hslot with h | h
      · exact ho.waiting.trans (hi.cancelled h)
      · exact h
    · exact fun hw => hi.waiting (ho.waiting ▸ hw)
  | otherInstance id record =>
    obtain ⟨hid, h⟩ := ite_none_left_eq_some.mp h
    cases h
    have hrecorded : Recorded σ (s.world.setInstance id record) :=
      hi.recorded.congr rfl (s.world.lookup_setInstance_ne hid record)
    exact ⟨hobey, hi.coherent, hrecorded, hi.cancelled, hi.waiting,
      fun t => (fits_congr rfl rfl _).mpr (hi.fits t), hi.deploys, hi.exclusive⟩
  | mutate =>
    cases h
    exact ⟨hobey, hi.coherent, hi.recorded.congr rfl rfl, hi.cancelled, hi.waiting,
      fun t => (fits_congr rfl rfl _).mpr (hi.fits t), hi.deploys, hi.exclusive⟩

/-! ## No orphan -/

/-- A world in which the deployment may begin: the request has not been sent,
no claim is held, and the record names its worker and no runner. -/
structure Fresh (σ : Setting) (w : World) : Prop where
  worker : w.worker = {}
  claims : w.claims = ∅
  record : ∀ record, w.instances.lookup σ.instanceId = some record →
    record.workerId.isSome = true ∧ record.runnerId = none

variable {jobs : Fin n → Job}

theorem inv_start {timeouts w} (hw : Fresh σ w) :
    Inv σ (start σ timeouts params jobs w) := by
  have hworker := hw.worker
  constructor
  case recorded =>
    refine ⟨fun record hrec => ?_, fun _ => ?_⟩
    · exact ⟨(hw.record record hrec).1, .inl (hw.record record hrec).2⟩
    · simp [start, Barren, hworker]
  case fits | deploys | exclusive =>
    grind [start, Fits, Stage.role]
  all_goals simp [start, Coherent, hworker]

/-- **No orphan runner.**  For a deployment of an instance and any number of
teardowns of it, in every run in which the calls about the runner are made in
time: once all these tasks have settled, a live or pending runner has its
record. -/
theorem no_orphan_runner {timeouts : Timeouts} {params : DeployModelParams}
    {w : World} (hid : params.instanceId = σ.instanceId) (hw : Fresh σ w) {s : State n}
    (hr : Reach (step σ) (Timely σ) (start σ timeouts params jobs w) s)
    (hsettled : ∀ t, (s.prog t).Settled)
    (hrunner : s.world.worker.slot = .live ∨ ∃ cancelled, s.world.worker.slot = .pending cancelled) :
    (s.world.instances.lookup σ.instanceId).isSome = true := by
  have hstart : (start σ timeouts params jobs w).Obey (contract σ) Ends := by
    intro t
    cases t with
    | none => exact obeys_deployModel timeouts hid
    | some j => exact (jobs j).obeys timeouts
  obtain ⟨hobey, hi⟩ := hr.inductive_inv ⟨hstart, inv_start hw⟩ fun hi hok h => step_inv hi hok h
  by_contra hnone
  -- Without a record the runner is being cancelled, and its client waits.
  have hslot : s.world.worker.slot = .pending true := by
    rcases hi.recorded.gone (not_isSome_iff_eq_none.mp hnone) with ⟨hempty, -⟩ | hslot
    · rcases hrunner with h | ⟨cancelled, h⟩
      all_goals exact nomatch hempty.symm.trans h
    · exact hslot
  have hawaiting := hi.waiting (hi.cancelled hslot)
  have hdeploy := hobey none
  have hdone := hsettled none
  cases hp : s.prog none with
  | done =>
    rw [hp, hawaiting] at hdeploy
    exact hdeploy rfl
  | call =>
    rw [hp] at hdone
    exact hdone

/-! ### Two runs -/

def exampleParams : DeployModelParams := ⟨"m", "i", "w", .openai, false⟩

def oneStop : Fin 1 → Job := fun _ => .stopTask false (.invalidState "m" "STARTING" "stop")

def calls (t : Option (Fin 1)) (k : Nat) : List (Action 1) := List.replicate k (.run t {})

/-- One `refreshModelRoutingState` of a task. -/
def refreshing (t : Option (Fin 1)) : List (Action 1) :=
  [.run t {}, .run t { keys := ["i"] }, .run t {}, .run t {}]

def dispatch : List (Action 1) := refreshing none ++ calls none 3

def launch : List (Action 1) := [.worker .deliver, .worker .reserve, .worker .launched]

/-- The deployment to its end, then a stop whose `DELETE` fails: the record
stays. -/
def stopNotConfirmed : List (Action 1) :=
  dispatch ++ launch ++ calls none 7 ++ refreshing none ++ calls none 1 ++
    calls (some lone) 4 ++ refreshing (some lone) ++ calls (some lone) 4 ++
    refreshing (some lone) ++ calls (some lone) 1 ++ [.run (some lone) { outcome := .failed }] ++
    calls (some lone) 2 ++ refreshing (some lone) ++ calls (some lone) 1

theorem fresh_startingWorld : Fresh exampleSetting startingWorld where
  worker := rfl
  claims := rfl
  record := by
    intro record h
    cases h
    exact ⟨rfl, rfl⟩

theorem stopNotConfirmed_recorded :
    let s := (exec (guarded (step exampleSetting) (Timely exampleSetting))
      (start exampleSetting exampleTimeouts exampleParams oneStop startingWorld)
      stopNotConfirmed).get (by decide +kernel)
    s.world.worker.slot = .live ∧ (s.world.instances.lookup "i").isSome = true :=
  ⟨by decide +kernel,
    no_orphan_runner rfl fresh_startingWorld (reach_get (by decide +kernel)) (by decide +kernel)
      (.inl (by decide +kernel))⟩

def stopBeforeDelivery : List (Action 1) :=
  dispatch ++ calls (some lone) 8 ++ refreshing (some lone) ++ calls (some lone) 3 ++ launch ++
    calls none 4

/-- **The orphan.**  Every call is answered and both tasks settle; the record is
gone, and the worker hosts a live runner. -/
theorem lookup_before_delivery : ∃ s, exec (step exampleSetting)
        (start exampleSetting exampleTimeouts exampleParams oneStop startingWorld)
        stopBeforeDelivery = some s ∧
      (∀ t, (s.prog t).Settled) ∧ s.world.worker.request = .finished ∧
      s.world.worker.slot = .live ∧ s.world.instances.lookup "i" = none :=
  ⟨(exec (step exampleSetting)
      (start exampleSetting exampleTimeouts exampleParams oneStop startingWorld)
      stopBeforeDelivery).get (by decide +kernel),
    (some_get _).symm, by decide +kernel, by decide +kernel, by decide +kernel,
    by decide +kernel⟩

end Sardeenz.Orphan
