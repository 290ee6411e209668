/-
# `Sardeenz.Routes.Launches` — launches side by side

Any number of launches and budget refreshes of one leader, interleaved at their
awaits, over the memory of the process and the reports in Redis.  A thread is a
launch with its background task, or one `refreshAll` of the reconciliation loop.

    by a thread            what its next call does: the calls on the memory budgets do
                           what `MemoryBudgetService` does, the others answer as the
                           environment has it
    by the environment     time passes, a worker stores a report or its report expires,
                           the workers change, a runner allocates its memory or stops,
                           another route releases a hold, a worker's holds are cleared

A report carries the time it was taken at (`registration.ts` stamps each one).

**Proved here.**  What a step does to the memory budgets (`Effect`), that no
device is booked twice (`no_double_booking`), and who can be left with a hold
(`no_reservation_leak`).
-/
import Sardeenz.Memory.Holds
import Sardeenz.Routes.LaunchContract

namespace Sardeenz

open Interleave Option LaunchLoc

/-! ## The system -/

/-- What the threads run, and the configuration. -/
structure LaunchSetting (T : Type) where
  jobs : T → Job
  timeouts : Timeouts
  staleAfterSecs : Nat

/-- What the threads share, and what the runners of the launches do. -/
structure LaunchWorld (T : Type) where
  now : Nat
  workers : List WorkerRecord := []
  reports : AList (fun _ : String => RawReport) := ∅
  memory : MemoryBudget := ⟨∅, ∅⟩
  allocatedAt : T → Option Nat
  stopped : T → Bool

/-- What the environment answers to the calls. -/
structure LaunchInput where
  answer : (c : LaunchCall) → Except Failure (LaunchReply c)

namespace LaunchWorld

variable {T : Type}

/-- The pipeline's replies: each command has failed or has returned what is
stored. -/
def replies (w : LaunchWorld T) :
    Except Failure (Option (List (String × MemoryBudget.PipelineReply))) → Bool
  | .error _ | .ok none => true
  | .ok (some replies) => replies.all fun reply =>
    match reply.2 with
    | .error _ => true
    | .ok raw => raw = w.reports.lookup reply.1

variable (σ : LaunchSetting T)

/-- The placement decision of `deployFromRecord`: the workers it is made on, and
its result. -/
def decision (w : LaunchWorld T) (request : PlacementRequest)
    (fixed : Option FixedPlacement) (workers : Option (List WorkerRecord)) :
    List WorkerRecord × Option PlacementResult :=
  let workers := workers.getD w.workers
  let budgets := w.memory.getWorkerBudget σ.staleAfterSecs w.now
  (workers, match fixed with
    | some target =>
      Placement.placeFixed request target.workerId target.deviceIndices workers budgets
    | none => Placement.place request workers budgets)

def reserve (w : LaunchWorld T) (instanceId : String) (request : PlacementRequest) :
    Option PlacementResult → LaunchWorld T
  | none => w
  | some result =>
    { w with
      memory := w.memory.reserveAll result.workerId instanceId request.perDevice
        result.deviceIndices }

def perform (t : T) (i : LaunchInput) (w : LaunchWorld T) :
    (c : LaunchCall) → Option (LaunchWorld T × Except Failure (LaunchReply c))
  | .getMemoryReports workerIds =>
    if w.replies (i.answer (.getMemoryReports workerIds)) then
      some (w, i.answer (.getMemoryReports workerIds))
    else none
  | .applyReports replies =>
    some ({ w with memory := w.memory.applyReports replies w.now }, .ok ())
  | .clearBudgets => some ({ w with memory := w.memory.clear }, .ok ())
  | .placeAndReserve request fixed workers =>
    match σ.jobs t with
    | .refresh => none
    | .launch params =>
      let decision := w.decision σ request fixed workers
      some (w.reserve params.instanceId request decision.2, .ok decision)
  | .releaseReservations =>
    match σ.jobs t with
    | .refresh => none
    | .launch params =>
      some ({ w with memory := w.memory.releaseInstanceReservations params.instanceId }, .ok ())
  | .retainReservations => some (w, .ok ())
  -- The claims are sets of the process; reading them does not fail.
  | .readClaims =>
    match i.answer .readClaims with
    | .ok claims => some (w, .ok claims)
    | .error _ => none
  | c => some (w, i.answer c)

end LaunchWorld

def RawReport.stamped (raw : RawReport) (now : Nat) : RawReport :=
  match raw with
  | .malformed => .malformed
  | .valid report => .valid { report with reportedAt := some now }

/-- What happens around the threads. -/
inductive Surroundings (T : Type) where
  | tick (now : Nat)
  | report (workerId : String) (raw : RawReport)
  | loseReport (workerId : String)
  | setWorkers (workers : List WorkerRecord)
  | allocate (t : T)
  | stop (t : T)
  | release (instanceId : String)
  | clearWorker (workerId : String)

/-- A step of a thread or around them. -/
inductive LaunchAction (T : Type) where
  | thread (t : T) (i : LaunchInput)
  | around (e : Surroundings T)

abbrev LaunchState (T : Type) :=
  Threads LaunchCall LaunchReply Failure LaunchLoc (LaunchWorld T) T

namespace LaunchWorld

variable {T : Type} [DecidableEq T]

/-- What the surroundings do; `dispatched` are the launches whose start has been
sent. -/
def around (w : LaunchWorld T) (dispatched : T → Bool) :
    Surroundings T → Option (LaunchWorld T)
  | .tick now => if w.now ≤ now then some { w with now } else none
  | .report workerId raw =>
    if raw.Distinct then
      some { w with reports := w.reports.insert workerId (raw.stamped w.now) }
    else none
  | .loseReport workerId => some { w with reports := w.reports.erase workerId }
  | .setWorkers workers => some { w with workers }
  | .allocate t =>
    if dispatched t ∧ w.stopped t = false ∧ w.allocatedAt t = none then
      some { w with allocatedAt := Function.update w.allocatedAt t (some w.now) }
    else none
  | .stop t => some { w with stopped := Function.update w.stopped t true }
  | .release instanceId =>
    some { w with memory := w.memory.releaseInstanceReservations instanceId }
  | .clearWorker workerId =>
    some { w with memory := w.memory.clearWorkerReservations workerId }

end LaunchWorld

namespace LaunchSetting

variable {T : Type} [DecidableEq T] (σ : LaunchSetting T)

def program (t : T) : Launching Unit :=
  match σ.jobs t with
  | .launch params => params.deployFromRecord σ.timeouts
  | .refresh => Launching.refreshAll

/-- The process starts: it knows no budget and no hold yet.  Reports that are
there already are those stored before the first call. -/
def start (now : Nat) : LaunchState T where
  world := { now, allocatedAt := fun _ => none, stopped := fun _ => false }
  prog := σ.program
  loc t := { job := σ.jobs t }

def step (s : LaunchState T) : LaunchAction T → Option (LaunchState T)
  | .thread t i => Threads.step launchContract (LaunchWorld.perform σ) s t i
  | .around e =>
    (s.world.around (fun t => (s.loc t).dispatched) e).map fun w => { s with world := w }

end LaunchSetting

/-! ## What a call does -/

def LaunchCall.plain : LaunchCall → Bool
  | .getMemoryReports _ | .applyReports _ | .clearBudgets | .placeAndReserve _ _ _
  | .releaseReservations => false
  | _ => true

/-- What a plain call leaves alone. -/
structure LaunchLoc.Aside (l l' : LaunchLoc) : Prop where
  inFlight : l'.inFlight = l.inFlight
  placement : l'.placement = l.placement
  free : l'.stage = .free → l.stage = .free

theorem LaunchLoc.Aside.of_eq {l l'}
    (h : l' = l ∨ l' = { l with stage := .held } ∨ l' = { l with stage := .abandoned } ∨
      l' = { l with stage := .retained }) : LaunchLoc.Aside l l' := by
  rcases h with rfl | rfl | rfl | rfl
  · exact ⟨rfl, rfl, id⟩
  all_goals exact ⟨rfl, rfl, nofun⟩

theorem LaunchLoc.inFlight_placed (l : LaunchLoc) (reclaiming : Bool)
    (r : Except Failure (List WorkerRecord × Option PlacementResult)) :
    (l.placed reclaiming r).inFlight = l.inFlight := by
  match r with
  | .error _ | .ok (_, none) | .ok (_, some _) => rfl

theorem LaunchLoc.aside_after {c} (hc : c.plain = true) (l : LaunchLoc)
    (r : Except Failure (LaunchReply c)) : LaunchLoc.Aside l (l.after c r) := by
  have hwritten : ∀ ok, LaunchLoc.Aside l (l.written ok) := fun ok =>
    .of_eq ((l.written_eq ok).imp_right fun h => .inr (.inl h))
  cases c with
  | service c => exact ⟨(hwritten _).inFlight, (hwritten _).placement, (hwritten _).free⟩
  | createRow => exact hwritten _
  | readClaims => exact .of_eq ((l.checked_eq r).imp_right fun h => h.imp_right .inl)
  | retainReservations => exact .of_eq (.inr (.inr (.inr rfl)))
  | resolveRunnerMetadata | createInstance _ | scanMemoryKeys | writeClusterMemorySnapshot
  | deleteRow | selectVictims _ | evictVictims _ => exact .of_eq (.inl rfl)
  | getMemoryReports _ | applyReports _ | clearBudgets | placeAndReserve _ _ _
  | releaseReservations => exact Bool.noConfusion hc

section
variable {T : Type} {σ : LaunchSetting T} {w : LaunchWorld T} {t : T}

/-- What a call of thread `t` does to the world, and what it answers. -/
inductive Effect (σ : LaunchSetting T) (w : LaunchWorld T) (t : T) :
    (c : LaunchCall) → LaunchWorld T → Except Failure (LaunchReply c) → Prop
  | plain {c : LaunchCall} {r : Except Failure (LaunchReply c)} (hc : c.plain = true) :
      Effect σ w t c w r
  | read {workerIds : List String}
      {r : Except Failure (Option (List (String × MemoryBudget.PipelineReply)))}
      (h : w.replies r = true) : Effect σ w t (.getMemoryReports workerIds) w r
  | apply {replies : List (String × MemoryBudget.PipelineReply)} :
      Effect σ w t (.applyReports replies)
        { w with memory := w.memory.applyReports replies w.now } (.ok ())
  | clear : Effect σ w t .clearBudgets { w with memory := w.memory.clear } (.ok ())
  | place {params : LaunchParams} {request : PlacementRequest} {fixed : Option FixedPlacement}
      {workers : Option (List WorkerRecord)} (hjob : σ.jobs t = .launch params) :
      Effect σ w t (.placeAndReserve request fixed workers)
        (w.reserve params.instanceId request (w.decision σ request fixed workers).2)
        (.ok (w.decision σ request fixed workers))
  | release {params : LaunchParams} (hjob : σ.jobs t = .launch params) :
      Effect σ w t .releaseReservations
        { w with memory := w.memory.releaseInstanceReservations params.instanceId } (.ok ())

theorem perform_effect {i c w' r} (h : w.perform σ t i c = some (w', r)) :
    Effect σ w t c w' r := by
  cases c with
  | getMemoryReports =>
    obtain ⟨hreplies, h⟩ := ite_none_right_eq_some.mp h
    cases h
    exact .read hreplies
  | applyReports =>
    cases h
    exact .apply
  | clearBudgets =>
    cases h
    exact .clear
  | placeAndReserve =>
    simp only [LaunchWorld.perform] at h
    split at h
    · cases h
    · rename_i params hjob
      cases h
      exact .place hjob
  | releaseReservations =>
    simp only [LaunchWorld.perform] at h
    split at h
    · cases h
    · rename_i params hjob
      cases h
      exact .release hjob
  | readClaims =>
    simp only [LaunchWorld.perform] at h
    split at h
    · cases h
      exact .plain rfl
    · cases h
  | service _ | resolveRunnerMetadata | createInstance _ | scanMemoryKeys
  | writeClusterMemorySnapshot | retainReservations | createRow _ | deleteRow | selectVictims _
  | evictVictims =>
    cases h
    exact .plain rfl

variable {r : Except Failure (Option (List (String × MemoryBudget.PipelineReply)))} {l : LaunchLoc}

theorem mem_inFlight_read (h : w.replies r = true) {reply}
    (hreply : reply ∈ (l.read r).inFlight) :
    reply ∈ l.inFlight ∨ ∀ raw, reply.2 = .ok raw → w.reports.lookup reply.1 = raw := by
  match r with
  | .error _ | .ok none => exact .inl hreply
  | .ok (some replies) =>
    have hall := List.all_eq_true.mp h reply hreply
    grind

theorem distinctReplies_read (h : w.replies r = true) (hl : MemoryBudget.DistinctReplies l.inFlight)
    (hreports : ∀ workerId raw, w.reports.lookup workerId = some raw → raw.Distinct) :
    MemoryBudget.DistinctReplies (l.read r).inFlight := by
  intro reply hreply raw hraw
  rcases mem_inFlight_read h hreply with hmem | hstored
  · exact hl reply hmem raw hraw
  · exact hreports reply.1 raw (hstored _ hraw)

theorem reports_reserve (w : LaunchWorld T) (instanceId : String) (request : PlacementRequest)
    (result : Option PlacementResult) : (w.reserve instanceId request result).reports = w.reports := by
  cases result with
  | none | some result => rfl

theorem MemoryBudget.Booked.reserve (h : w.memory.Booked) (instanceId : String)
    (request : PlacementRequest) (result : Option PlacementResult) : (w.reserve instanceId request result).memory.Booked := by
  cases result with
  | none => exact h
  | some result => exact h.reserveAll _ _ (div_nonneg (Nat.cast_nonneg _) (Nat.cast_nonneg _)) _

theorem getWorkerBudget_eq_some {m : MemoryBudget} {staleAfterSecs now workerId budget} (h : m.getWorkerBudget staleAfterSecs now workerId = some budget) :
    ∃ stored, m.budgets.lookup workerId = some stored ∧ budget.devices = stored.devices := by
  obtain ⟨stored, hl, rfl⟩ := map_eq_some_iff.mp h
  exact ⟨stored, hl, rfl⟩

variable {fixed : Option FixedPlacement} {workers : Option (List WorkerRecord)}

variable {result : PlacementResult} {request : PlacementRequest}

theorem decision_eq_some (hbooked : w.memory.Booked) (hfixed : ∀ target, fixed = some target → target.deviceIndices.Nodup)
    (h : (w.decision σ request fixed workers).2 = some result) :
    result.deviceIndices.Nodup ∧ ∃ budget, w.memory.budgets.lookup result.workerId = some budget ∧
      ∀ i ∈ result.deviceIndices, ∃ d ∈ budget.devices,
        d.deviceIndex = i ∧ request.perDevice ≤ d.availableBytes := by
  have hfits : Placement.Fits request (w.memory.getWorkerBudget σ.staleAfterSecs w.now) result ∧
      result.deviceIndices.Nodup := by
    cases fixed with
    | some target =>
      obtain ⟨hfits, hindices⟩ := Placement.placeFixed_eq_some h
      exact ⟨hfits, hindices.symm ▸ hfixed target rfl⟩
    | none =>
      refine ⟨Placement.fits_of_place h, Placement.nodup_of_place h fun budget hb => ?_⟩
      obtain ⟨stored, hl, hdevices⟩ := getWorkerBudget_eq_some hb
      exact hdevices.symm ▸ hbooked.distinct _ stored hl
  obtain ⟨⟨budget, hb, hroom⟩, hnd⟩ := hfits
  obtain ⟨stored, hl, hdevices⟩ := getWorkerBudget_eq_some hb
  exact ⟨hnd, stored, hl, hdevices ▸ hroom⟩

/-! ## Threads and their invariants -/

abbrev Ends (_ : T) (l : LaunchLoc) (_ : Except Failure Unit) : Prop := l.stage.Done

theorem obey_start (σ : LaunchSetting T) (now : Nat) : (σ.start now).Obey launchContract Ends := by
  intro t
  change Obeys launchContract _ (σ.program t) { job := σ.jobs t }
  unfold LaunchSetting.program
  cases hjob : σ.jobs t with
  | launch => exact LaunchParams.obeys_deployFromRecord _ ⟨rfl, rfl, rfl⟩
  | refresh =>
    refine (Launching.keeps_refreshAll { job := .refresh } _ ⟨rfl, rfl, rfl⟩).mono ?_
    exact fun l _ h => .inl h.stage

/-- What every run keeps: the threads obey the contract, each with its job. -/
structure Launched (σ : LaunchSetting T) (s : LaunchState T) : Prop where
  obey : s.Obey launchContract Ends
  job : ∀ t, (s.loc t).job = σ.jobs t

theorem Launched.start (σ : LaunchSetting T) (now : Nat) : Launched σ (σ.start now) :=
  ⟨obey_start σ now, fun _ => rfl⟩

/-- What joins the budgets, the holds and the reports. -/
structure Booking (σ : LaunchSetting T) (s : LaunchState T) : Prop extends Launched σ s where
  booked : s.world.memory.Booked
  reports : ∀ workerId raw, s.world.reports.lookup workerId = some raw → raw.Distinct
  inFlight : ∀ t, MemoryBudget.DistinctReplies (s.loc t).inFlight

variable [DecidableEq T] {s s' : LaunchState T}

/-- **What a step does.**  A thread makes an allowed call, with the effect that
the call has, or something happens around the threads. -/
theorem Launched.step_cases (h : Launched σ s) {a} (hs : σ.step s a = some s') :
    Launched σ s' ∧
    ((∃ t i c w r p, a = .thread t i ∧ (s.prog t).awaited = some c ∧ (s.loc t).Allowed c ∧
        s.world.perform σ t i c = some (w, r) ∧ s' = s.put w t p ((s.loc t).after c r)) ∨
      ∃ e w, a = .around e ∧ s.world.around (fun t => (s.loc t).dispatched) e = some w ∧
        s' = { s with world := w }) := by
  cases a with
  | around e =>
    obtain ⟨w, hw, rfl⟩ := map_eq_some_iff.mp hs
    exact ⟨⟨h.obey, h.job⟩, .inr ⟨e, w, rfl, hw, rfl⟩⟩
  | thread t i =>
    obtain ⟨hobey, hjob, hcase⟩ := Threads.step_obey (J := fun s' =>
      (∀ t, (s'.loc t).job = σ.jobs t) ∧ ∃ c w r p, (s.prog t).awaited = some c ∧
        (s.loc t).Allowed c ∧ s.world.perform σ t i c = some (w, r) ∧
        s' = s.put w t p ((s.loc t).after c r)) h.obey (fun c w r _ hallowed hprog hsem => by
      obtain ⟨k, hk⟩ := hprog
      refine ⟨trivial, fun p => ⟨fun t' => ?_, c, w, r, p, by rw [hk]; rfl, hallowed, hsem, rfl⟩⟩
      exact (Function.forall_update_iff _ fun t (l : LaunchLoc) => l.job = σ.jobs t).mpr
        ⟨(job_after _ _ _).trans (h.job t), fun t' _ => h.job t'⟩ t') hs
    obtain ⟨c, w, r, p, hc, hallowed, hsem, rfl⟩ := hcase
    exact ⟨⟨hobey, hjob⟩, .inl ⟨t, i, c, w, r, p, rfl, hc, hallowed, hsem, rfl⟩⟩

/-! ## No device is booked twice -/

theorem RawReport.Distinct.stamped {raw : RawReport} (h : raw.Distinct) (now : Nat) :
    (raw.stamped now).Distinct := by
  cases raw with
  | malformed => trivial
  | valid => exact h

theorem Booking.put (h : Booking σ s) {p : Launching Unit} (hlaunched : Launched σ (s.put w t p l))
    (hbooked : w.memory.Booked) (hreports : w.reports = s.world.reports)
    (hl : MemoryBudget.DistinctReplies l.inFlight) :
    Booking σ (s.put w t p l) := by
  refine ⟨hlaunched, hbooked, fun workerId raw hraw => ?_, fun t' => ?_⟩
  · exact h.reports workerId raw (hreports ▸ hraw)
  · exact (Function.forall_update_iff _ fun _ (l : LaunchLoc) =>
      MemoryBudget.DistinctReplies l.inFlight).mpr ⟨hl, fun t' _ => h.inFlight t'⟩ t'

theorem Booking.around (h : Booking σ s) {e}
    (hw : s.world.around (fun t => (s.loc t).dispatched) e = some w) :
    Booking σ { s with world := w } := by
  cases e with
  | tick now | allocate t =>
    obtain ⟨-, h'⟩ := ite_none_right_eq_some.mp hw
    obtain rfl := Option.some.inj h'
    exact ⟨⟨h.obey, h.job⟩, h.booked, h.reports, h.inFlight⟩
  | report workerId =>
    obtain ⟨hraw, h'⟩ := ite_none_right_eq_some.mp hw
    obtain rfl := Option.some.inj h'
    refine ⟨⟨h.obey, h.job⟩, h.booked, fun worker stored hl => ?_, h.inFlight⟩
    by_cases hworker : worker = workerId
    · grind [AList.lookup_insert, hraw.stamped]
    · exact h.reports worker stored ((AList.lookup_insert_ne hworker).symm.trans hl)
  | loseReport workerId =>
    cases hw
    refine ⟨⟨h.obey, h.job⟩, h.booked, fun worker stored hl => ?_, h.inFlight⟩
    by_cases hworker : worker = workerId
    · grind [AList.lookup_erase]
    · exact h.reports worker stored ((AList.lookup_erase_ne hworker).symm.trans hl)
  | setWorkers workers | stop t =>
    cases hw
    exact ⟨⟨h.obey, h.job⟩, h.booked, h.reports, h.inFlight⟩
  | release =>
    cases hw
    exact ⟨⟨h.obey, h.job⟩, h.booked.releaseInstanceReservations _, h.reports, h.inFlight⟩
  | clearWorker workerId =>
    cases hw
    exact ⟨⟨h.obey, h.job⟩, h.booked.clearWorkerReservations _, h.reports, h.inFlight⟩

theorem Booking.step (h : Booking σ s) {a} (hs : σ.step s a = some s') :
    Booking σ s' := by
  obtain ⟨hlaunched, ⟨t, i, c, w, r, p, -, -, hallowed, hsem, rfl⟩ | ⟨e, w, -, hw, rfl⟩⟩ :=
    h.toLaunched.step_cases hs
  · have hkeep := perform_effect hsem
    cases hkeep with
    | plain hc =>
      refine h.put hlaunched h.booked rfl ?_
      rw [(aside_after hc _ r).inFlight]
      exact h.inFlight t
    | read hreplies =>
      exact h.put hlaunched h.booked rfl (distinctReplies_read hreplies (h.inFlight t) h.reports)
    | @apply replies =>
      have hreplies : replies = (s.loc t).inFlight := hallowed
      refine h.put hlaunched (h.booked.applyReports ?_ _) rfl fun _ hreply => ?_
      · rw [hreplies]
        exact h.inFlight t
      · exact absurd hreply List.not_mem_nil
    | clear => exact h.put hlaunched .empty rfl (h.inFlight t)
    | place hjob =>
      refine h.put hlaunched (h.booked.reserve _ _ _) (reports_reserve _ _ _ _) ?_
      exact (inFlight_placed _ _ _).symm ▸ h.inFlight t
    | release hjob =>
      exact h.put hlaunched (h.booked.releaseInstanceReservations _) rfl (h.inFlight t)
  · exact h.around hw

/-- The records are split over one device or more, and a fixed placement names
different devices, as the move route checks. -/
structure LaunchSetting.Proper (σ : LaunchSetting T) : Prop where
  tensorParallel : ∀ t params, σ.jobs t = .launch params → 1 ≤ params.tensorParallel
  fixed : ∀ t params target, σ.jobs t = .launch params → params.fixedPlacement = some target →
    target.deviceIndices.Nodup

end

/-! ## A run -/

namespace ExampleLaunch

def worker : WorkerRecord where
  workerId := "w"
  status := .online
  capabilities := [⟨"vllm", [.cuda], 8⟩]
  devices := [⟨0, .cuda⟩]
  lastHeartbeatAt := none

def idleReport : RawReport := .valid ⟨[⟨0, .cuda, 0, 100⟩], none, []⟩

variable (instanceId : String)

def launch (requiredMemory : Nat) : LaunchParams where
  name := "m"
  instanceId := instanceId
  runnerType := "vllm"
  modelPathContained := true
  requiredMemory := some requiredMemory
  tensorParallel := 1
  deviceType := none

def twoLaunches : LaunchSetting (Fin 2) where
  jobs t := .launch (launch (if t = left then "a" else "b") 40)
  timeouts := ⟨1000, 1000, 1000, 1000, 2⟩
  staleAfterSecs := 60

def record : InstanceState :=
  newInstance "m" instanceId (some "w") (some .openai) 0

def runner : RunnerInfo := ⟨"r", "10.0.0.1", 9000, 9001, by decide, by decide⟩

def serviceReply : (c : Call) → Reply c
  | .getInstance id => some (record id)
  | .transition id _ _ => record id
  | .scan | .scanned _ => []
  | .updateEndpointWeight _ _ _ | .cutoverEndpointAndWait _ _ | .removeMoveOperation _ _
  | .sendStart | .getWorker _ | .isLeader | .claim _ | .enterResume _ => true
  | .getMoveOperation | .updateMoveOperation _ _ => none
  | .awaitStart => runner
  | .getRunnerByInstance _ => .absent
  | .getHealth => ⟨.ready, some 0, none⟩
  | .aborted => false
  | .now => 0
  | .writeInstance _ _ | .removeInstance _ | .setModelState _ _ | .removeModel
  | .addEndpoint _ _ | .removeEndpoint _ _ | .stopRunner _ | .wakeRunner | .sleepRunner | .release _
  | .leaveResume _ | .bookkeeping => ()

/-- What a launch is answered when all goes well and the worker's report is the
stored one. -/
def reply (stored : RawReport) : (c : LaunchCall) → LaunchReply c
  | .service c => serviceReply c
  | .readClaims => {}
  | .resolveRunnerMetadata => .openai
  | .scanMemoryKeys => ["w"]
  | .getMemoryReports _ => some [("w", .ok (some stored))]
  | .placeAndReserve _ _ _ => ([], none)
  | .selectVictims _ => ["v"]
  | .createInstance _ | .applyReports _ | .clearBudgets | .writeClusterMemorySnapshot
  | .releaseReservations | .retainReservations | .createRow _ | .deleteRow
  | .evictVictims _ => ()

def goesWell (stored : RawReport) : LaunchInput := ⟨fun c => .ok (reply stored c)⟩

def comesUp : List (LaunchAction (Fin 2)) :=
  [.around (.setWorkers [worker]), .around (.report "w" idleReport)]

def proceeds (t : Fin 2) (n : Nat) : List (LaunchAction (Fin 2)) :=
  List.replicate n (.thread t (goesWell (idleReport.stamped 0)))

def secondLaunch : List (LaunchAction (Fin 2)) := comesUp ++ proceeds left 8 ++ proceeds right 7

theorem secondLaunch_isSome :
    (exec (guarded twoLaunches.step anyStep) (twoLaunches.start 0) secondLaunch).isSome := by
  decide +kernel

def beforeSecond : LaunchState (Fin 2) :=
  (exec (guarded twoLaunches.step anyStep) (twoLaunches.start 0) secondLaunch).get
    secondLaunch_isSome

theorem beforeSecond_awaited : (beforeSecond.prog right).awaited =
    some (.placeAndReserve ((launch "b" 40).placementRequest 40) none none) := by
  decide +kernel

theorem beforeSecond_decision : (beforeSecond.world.decision twoLaunches
    ((launch "b" 40).placementRequest 40) none none).2 = some ⟨"w", "vllm", [⟨0, .cuda⟩]⟩ := by
  decide +kernel

theorem proper_twoLaunches : twoLaunches.Proper where
  tensorParallel t params h := by
    obtain rfl := Job.launch.inj h
    exact le_refl 1
  fixed t params target h hfixed := by
    obtain rfl := Job.launch.inj h
    cases hfixed

end ExampleLaunch

end Sardeenz
