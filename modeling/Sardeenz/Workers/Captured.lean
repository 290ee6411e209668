/-
# `Sardeenz.Workers.Captured` — worker records that outlive their registration

`WorkerRecord`s are mutable objects.  The registry changes them in two ways:

    discoverWorkers     `this.workers.set(workerId, record)`: a new object, which
                        starts with the status of the old one
    heartbeats          `record.status = …`: the object in the map is changed

A launch that has to reclaim capacity (`deployFromRecord`) takes `getAllWorkers()`
when it begins, and hands these objects to `place` when the evictions are over.
In between the objects it holds follow the heartbeats only as long as they are
the ones in the map.

Here the objects are cells of a list and the map holds their positions.  Seen
through the map it is the registry of `Workers/Pool.lean` (`updates_refine`).

**Proved here.**  When the worker of a placement after eviction is registered and
`ONLINE` (`reclaimed_worker_is_current`), and one that is gone
(`replaced_record_is_placed_on`).
-/
import Mathlib.Data.Fintype.Basic
import Sardeenz.Run
import Sardeenz.Memory.Placement
import Sardeenz.Memory.Holds

namespace Sardeenz

open Interleave List Option AList

/-! ## The registry, with its objects -/

/-- The records made so far, and which of them is registered for a worker. -/
structure SharedPool where
  records : List WorkerRecord := []
  workers : AList (fun _ : String => Nat) := ∅

namespace SharedPool

variable (p : SharedPool)

def read (ref : Nat) : Option WorkerRecord := p.records[ref]?

def getWorker (workerId : String) : Option WorkerRecord :=
  (p.workers.lookup workerId).bind p.read

def getAllWorkers : List Nat := p.workers.entries.map (·.2)

/-- The body of the first loop of `discoverWorkers`. -/
def register (workerId : String) (payload : WorkerInfo) : SharedPool :=
  let existing := p.getWorker workerId
  { records := p.records ++ [{
      workerId := workerId
      status := (existing.map (·.status)).getD .offline
      capabilities := payload.capabilities
      devices := payload.devices
      lastHeartbeatAt := existing.bind (·.lastHeartbeatAt) }]
    workers := p.workers.insert workerId p.records.length }

/-- The first loop of `discoverWorkers`, which collects `discoveredWorkerIds`. -/
def registerAll : SharedPool → List (String × WorkerPool.InfoReply) → SharedPool × List String
  | p, [] => (p, [])
  | p, (workerId, .ok (some (some payload))) :: rest =>
    let registered := registerAll (p.register workerId payload) rest
    (registered.1, workerId :: registered.2)
  | p, _ :: rest => registerAll p rest

def recordHeartbeat (heartbeatTimeoutSecs now : Nat) (p : SharedPool) (workerId : String)
    (reply : HeartbeatReply) : SharedPool :=
  match p.workers.lookup workerId with
  | none => p
  | some ref =>
    { p with records := p.records.modify ref fun record => { record with
        lastHeartbeatAt := reply.text
        status := resolveHeartbeatStatus reply.text heartbeatTimeoutSecs now } }

def recordHeartbeats (heartbeatTimeoutSecs : Nat) (pipeline : HeartbeatPipeline) (p : SharedPool)
    (workerIds : List (String × Nat)) : SharedPool :=
  workerIds.foldl (fun p (workerId, i) =>
    recordHeartbeat heartbeatTimeoutSecs pipeline.processedAt p workerId (pipeline.reply i)) p

def getDeadWorkers : List String :=
  p.workers.keys.filter fun workerId => (p.getWorker workerId).any fun r => r.status = .offline

def removeWorker (workerId : String) : SharedPool :=
  { p with workers := p.workers.erase workerId }

end SharedPool

/-! ## The system -/

/-- How far the reconciliation tick is that is under way. -/
inductive TickPhase where
  | idle
  | discovering (workerIds : List String)
  | checking (workerIds : List String)
  | sweeping (deadWorkers : List String)
deriving DecidableEq

/-- How far a launch is that has to reclaim capacity. -/
inductive CapturePhase where
  | idle
  | reclaiming (instanceId : String) (request : PlacementRequest) (workers : List Nat)
  | ended
deriving DecidableEq

def CapturePhase.held : CapturePhase → List Nat
  | .reclaiming _ _ workers => workers
  | .idle | .ended => []

/-- The process: registry, budgets, the reconciliation loop and the launches. -/
structure CaptureState (T : Type) where
  heartbeatTimeoutSecs : Nat
  staleAfterSecs : Nat
  now : Nat := 0
  pool : SharedPool := {}
  memory : MemoryBudget := ⟨∅, ∅⟩
  tick : TickPhase := .idle
  phase : T → CapturePhase := fun _ => .idle

/-- A step of the loop, of a launch, or of the world around. -/
inductive CaptureAction (T : Type) where
  | advance (now : Nat)
  | discover (infos : Option (List (String × WorkerPool.InfoReply)))
  | heartbeats (replies : Option (Nat → HeartbeatReply))
  | remove
  | finish
  | refresh (replies : List (String × MemoryBudget.PipelineReply))
  | release (instanceId : String)
  | reclaim (t : T) (instanceId : String) (request : PlacementRequest)
  | place (t : T)

namespace CaptureState

variable {T : Type}

def budgets (s : CaptureState T) : Budgets := s.memory.getWorkerBudget s.staleAfterSecs s.now

/-- `place`, with the records that are given. -/
def placeOn (s : CaptureState T) (request : PlacementRequest) (workers : List Nat) :
    Option PlacementResult :=
  Placement.place request (workers.filterMap s.pool.read) s.budgets

def beat (s : CaptureState T) (workerIds : List String) (replies : Option (Nat → HeartbeatReply)) :
    SharedPool :=
  match replies with
  | none => s.pool
  | some reply =>
    s.pool.recordHeartbeats s.heartbeatTimeoutSecs ⟨s.now, s.now, reply⟩ workerIds.zipIdx

variable [DecidableEq T] (s : CaptureState T)

/-- One step.  Between the end of `checkHeartbeats` and `getDeadWorkers`, as
between the end of a discovery and the keys `checkHeartbeats` asks for, nothing
changes the registry: there is one loop. -/
def step : CaptureAction T → Option (CaptureState T)
  | .advance now => if s.now ≤ now then some { s with now } else none
  | .discover infos =>
    match s.tick with
    | .idle =>
      let discovered := s.pool.registerAll (infos.getD [])
      some { s with
        pool := discovered.1
        tick := if discovered.2.isEmpty then .checking discovered.1.workers.keys
          else .discovering discovered.2 }
    | _ => none
  | .heartbeats replies =>
    match s.tick with
    | .discovering workerIds =>
      let pool := s.beat workerIds replies
      some { s with pool, tick := .checking pool.workers.keys }
    | .checking workerIds =>
      let pool := s.beat workerIds replies
      some { s with pool, tick := .sweeping pool.getDeadWorkers }
    | _ => none
  | .remove =>
    match s.tick with
    | .sweeping (workerId :: rest) =>
      some { s with
        pool := s.pool.removeWorker workerId
        memory := s.memory.clearWorkerReservations workerId
        tick := .sweeping rest }
    | _ => none
  | .finish =>
    match s.tick with
    | .sweeping _ => some { s with tick := .idle }
    | _ => none
  | .refresh replies => some { s with memory := s.memory.applyReports replies s.now }
  | .release instanceId =>
    some { s with memory := s.memory.releaseInstanceReservations instanceId }
  | .reclaim t instanceId request =>
    match s.phase t, s.placeOn request s.pool.getAllWorkers with
    | .idle, none =>
      some { s with
        phase := Function.update s.phase t (.reclaiming instanceId request s.pool.getAllWorkers) }
    | _, _ => none
  | .place t =>
    match s.phase t with
    | .reclaiming instanceId request workers =>
      some { s with
        phase := Function.update s.phase t .ended
        memory := match s.placeOn request workers with
          | none => s.memory
          | some result => s.memory.reserveAll result.workerId instanceId request.perDevice
              result.deviceIndices }
    | _ => none

def start (heartbeatTimeoutSecs staleAfterSecs : Nat) : CaptureState T :=
  { heartbeatTimeoutSecs, staleAfterSecs }

/-- Where a launch would place its instance now, the worker is registered and
`ONLINE`. -/
def PlacesOnCurrent : Prop :=
  ∀ t instanceId request workers, s.phase t = .reclaiming instanceId request workers →
    ∀ result, s.placeOn request workers = some result →
      ∃ record, s.pool.getWorker result.workerId = some record ∧ record.status = .online

/-- The record registered for the worker is `ONLINE` and in the hands of a
reclamation under way. -/
def HeldOnline (workerId : String) : Prop :=
  ∃ t, ∃ ref ∈ (s.phase t).held, s.pool.workers.lookup workerId = some ref ∧
    (s.pool.read ref).any (·.status = .online) = true

/-- A discovery registers no worker anew whose `ONLINE` record is held. -/
def SparesHeld : CaptureAction T → Prop
  | .discover infos => ∀ workerId ∈ (s.pool.registerAll (infos.getD [])).2, ¬ s.HeldOnline workerId
  | _ => True

instance [Fintype T] (s : CaptureState T) (workerId : String) :
    Decidable (s.HeldOnline workerId) :=
  inferInstanceAs (Decidable (∃ t, ∃ ref ∈ (s.phase t).held,
    s.pool.workers.lookup workerId = some ref ∧ (s.pool.read ref).any (·.status = .online) = true))

instance [Fintype T] (s : CaptureState T) (a) : Decidable (s.SparesHeld a) := by
  unfold CaptureState.SparesHeld
  split <;> infer_instance

end CaptureState

/-! ## What the operations do to a record -/

namespace SharedPool

variable {p : SharedPool} {w : String} {ref : Nat} {record : WorkerRecord}

def Named (p : SharedPool) : Prop :=
  ∀ w ref, p.workers.lookup w = some ref → ∃ record, p.read ref = some record ∧ record.workerId = w

/-- The record is the one in the map, or it is not `ONLINE`. -/
def Current (p : SharedPool) (ref : Nat) : Prop :=
  ∃ record, p.read ref = some record ∧
    (p.workers.lookup record.workerId = some ref ∨ record.status ≠ .online)

theorem getWorker_of_lookup (h : p.workers.lookup w = some ref) : p.getWorker w = p.read ref := by
  rw [getWorker, h]
  rfl

/-! ### Discovery -/

theorem read_register (h : p.read ref = some record) (v : String) (payload : WorkerInfo) :
    (p.register v payload).read ref = some record := by
  have hlt : ref < p.records.length := (List.getElem?_eq_some_iff.mp h).1
  rw [← h]
  exact getElem?_append_left hlt

theorem Named.register (h : p.Named) (v : String) (payload : WorkerInfo) :
    (p.register v payload).Named := by
  intro w ref hl
  by_cases hw : w = v
  · subst hw
    rw [SharedPool.register, lookup_insert] at hl
    cases hl
    exact ⟨_, getElem?_concat_length, rfl⟩
  · rw [SharedPool.register, lookup_insert_ne hw] at hl
    obtain ⟨record, hread, hid⟩ := h w ref hl
    exact ⟨record, read_register hread v payload, hid⟩

/-- The worker's record may be replaced, if it is in nobody's hands as `ONLINE`. -/
def Spares (p : SharedPool) (ref : Nat) (v : String) : Prop :=
  p.workers.lookup v = some ref → (p.read ref).any (·.status = .online) = false

theorem Current.register (h : p.Current ref) {v} (hspare : p.Spares ref v)
    (payload : WorkerInfo) : (p.register v payload).Current ref := by
  obtain ⟨record, hread, hcase⟩ := h
  refine ⟨record, read_register hread v payload, ?_⟩
  rcases hcase with hl | hstatus
  · by_cases hv : record.workerId = v
    · right
      have hnot := hspare (hv ▸ hl)
      grind
    · left
      exact (lookup_insert_ne hv).trans hl
  · exact .inr hstatus

theorem Spares.register (h : p.Spares ref w) (hc : p.Current ref) (v : String)
    (payload : WorkerInfo) : (p.register v payload).Spares ref w := by
  intro hl
  obtain ⟨_, hread, -⟩ := hc
  rw [read_register hread v payload, ← hread]
  refine h ?_
  by_cases hw : w = v
  · -- The new record is nobody's yet.
    subst hw
    rw [SharedPool.register, lookup_insert] at hl
    cases hl
    exact absurd (List.getElem?_eq_some_iff.mp hread).1 (lt_irrefl _)
  · rwa [SharedPool.register, lookup_insert_ne hw] at hl

variable {P : SharedPool → Prop}

theorem registerAll_rec : ∀ (infos : List (String × WorkerPool.InfoReply)) (p : SharedPool), P p →
      (∀ v ∈ (p.registerAll infos).2, ∀ q payload, P q → P (q.register v payload)) →
      P (p.registerAll infos).1
  | [], _, h, _ => h
  | (v, .ok (some (some payload))) :: rest, p, h, hkeep =>
    registerAll_rec rest (p.register v payload) (hkeep v mem_cons_self p payload h)
      fun v' hv' => hkeep v' (mem_cons_of_mem _ hv')
  | (_, .ok (some none)) :: rest, p, h, hkeep => registerAll_rec rest p h hkeep
  | (_, .ok none) :: rest, p, h, hkeep => registerAll_rec rest p h hkeep
  | (_, .error _) :: rest, p, h, hkeep => registerAll_rec rest p h hkeep

theorem Current.registerAll (h : p.Current ref) (infos : List (String × WorkerPool.InfoReply))
    (hspares : ∀ v ∈ (p.registerAll infos).2, p.Spares ref v) :
    (p.registerAll infos).1.Current ref := by
  refine (registerAll_rec (P := fun q => q.Current ref ∧
    ∀ v ∈ (p.registerAll infos).2, q.Spares ref v) infos p ⟨h, hspares⟩ ?_).1
  intro v hv q payload hq
  exact ⟨hq.1.register (hq.2 v hv) payload, fun v' hv' => (hq.2 v' hv').register hq.1 v payload⟩

/-! ### Heartbeats -/

variable {heartbeatTimeoutSecs : Nat}

theorem read_recordHeartbeat (p : SharedPool) (now : Nat) (v : String) (reply : HeartbeatReply)
    (ref : Nat) :
    (recordHeartbeat heartbeatTimeoutSecs now p v reply).read ref =
      if p.workers.lookup v = some ref then (p.read ref).map fun record => { record with
        lastHeartbeatAt := reply.text
        status := resolveHeartbeatStatus reply.text heartbeatTimeoutSecs now }
      else p.read ref := by
  unfold recordHeartbeat
  cases hl : p.workers.lookup v with
  | none => rw [if_neg (some_ne_none ref).symm]
  | some =>
    grind [read]

theorem workers_recordHeartbeat (p : SharedPool) (now : Nat) (v : String) (reply : HeartbeatReply) :
    (recordHeartbeat heartbeatTimeoutSecs now p v reply).workers = p.workers := by
  unfold recordHeartbeat
  split
  · rfl
  · rfl

theorem Named.recordHeartbeat (h : p.Named) (now : Nat) (v : String) (reply : HeartbeatReply) :
    (recordHeartbeat heartbeatTimeoutSecs now p v reply).Named := by
  intro w ref hl
  rw [workers_recordHeartbeat] at hl
  obtain ⟨_, _, _⟩ := h w ref hl
  rw [read_recordHeartbeat]
  grind

theorem Current.recordHeartbeat (hn : p.Named) (h : p.Current ref) (now : Nat) (v : String)
    (reply : HeartbeatReply) :
    (recordHeartbeat heartbeatTimeoutSecs now p v reply).Current ref := by
  obtain ⟨record, hread, hcase⟩ := h
  rw [Current, read_recordHeartbeat, workers_recordHeartbeat, hread]
  split
  · -- The record in the map is changed and stays in the map.
    rename_i hl
    obtain ⟨_, _, _⟩ := hn v ref hl
    grind
  · exact ⟨record, rfl, hcase⟩

theorem recordHeartbeats_rec {pipeline} (hkeep : ∀ q v reply, P q →
      P (recordHeartbeat heartbeatTimeoutSecs pipeline.processedAt q v reply)) :
    ∀ (workerIds : List (String × Nat)) (p : SharedPool), P p →
      P (recordHeartbeats heartbeatTimeoutSecs pipeline p workerIds)
  | [], _, h => h
  | (v, i) :: rest, p, h => recordHeartbeats_rec hkeep rest _ (hkeep p v (pipeline.reply i) h)

/-! ### Removal -/

theorem Named.removeWorker (h : p.Named) (v : String) : (p.removeWorker v).Named := by
  intro w ref hl
  by_cases hw : w = v
  · subst hw
    rw [SharedPool.removeWorker, lookup_erase] at hl
    cases hl
  · rw [SharedPool.removeWorker, lookup_erase_ne hw] at hl
    exact h w ref hl

theorem Current.removeWorker (h : p.Current ref) {v}
    (hdead : ∀ record, p.getWorker v = some record → record.status = .offline) :
    (p.removeWorker v).Current ref := by
  obtain ⟨record, hread, hcase⟩ := h
  refine ⟨record, hread, ?_⟩
  rcases hcase with hl | hstatus
  · by_cases hv : record.workerId = v
    · right
      rw [hdead record ((getWorker_of_lookup (hv ▸ hl)).trans hread)]
      exact WorkerStatus.noConfusion
    · left
      exact (lookup_erase_ne hv).trans hl
  · exact .inr hstatus

theorem mem_getAllWorkers (h : ref ∈ p.getAllWorkers) : ∃ w, p.workers.lookup w = some ref := by
  obtain ⟨⟨w, _⟩, hmem, rfl⟩ := mem_map.mp h
  exact ⟨w, mem_lookup_iff.mpr hmem⟩

/-! ### Through the map -/

def Views (p : SharedPool) (pool : WorkerPool) : Prop :=
  ∀ w, p.getWorker w = pool.lookup w

variable {pool : WorkerPool}

theorem Views.register (h : p.Views pool) (hn : p.Named) (v : String) (payload : WorkerInfo) :
    (p.register v payload).Views (pool.register v payload) := by
  intro w
  by_cases hw : w = v
  · subst hw
    rw [WorkerPool.register, lookup_insert, ← h w, getWorker, SharedPool.register,
      lookup_insert]
    exact getElem?_concat_length
  · rw [WorkerPool.register, lookup_insert_ne hw, ← h w, getWorker, getWorker,
      SharedPool.register, lookup_insert_ne hw]
    cases hl : p.workers.lookup w with
    | none => rfl
    | some ref =>
      obtain ⟨_, hread, -⟩ := hn w ref hl
      exact (read_register hread v payload).trans hread.symm

theorem Views.recordHeartbeat (h : p.Views pool) (hn : p.Named) (now : Nat) (v : String)
    (reply : HeartbeatReply) :
    (SharedPool.recordHeartbeat heartbeatTimeoutSecs now p v reply).Views
      (WorkerPool.recordHeartbeat heartbeatTimeoutSecs now pool v reply) := by
  intro w
  rw [getWorker, workers_recordHeartbeat]
  by_cases hw : w = v
  · subst hw
    rw [WorkerPool.recordHeartbeat, ← h w, getWorker]
    cases hl : p.workers.lookup w with
    | none =>
      rw [bind_none, bind_none, ← h w, getWorker, hl]
      rfl
    | some ref =>
      obtain ⟨record, hread, -⟩ := hn w ref hl
      grind [read_recordHeartbeat, lookup_insert]
  · rw [WorkerPool.lookup_recordHeartbeat_ne hw, ← h w, getWorker]
    cases hl : p.workers.lookup w with
    | none => rfl
    | some ref =>
      rw [bind_some, read_recordHeartbeat]
      refine if_neg fun hv => hw ?_
      -- One record is in the map under one id.
      obtain ⟨record, hread, _⟩ := hn w ref hl
      obtain ⟨_, _, _⟩ := hn v ref hv
      grind

theorem Views.removeWorker (h : p.Views pool) (v : String) :
    (p.removeWorker v).Views (pool.erase v) := by
  intro w
  rw [getWorker, SharedPool.removeWorker]
  by_cases hw : w = v
  · grind [lookup_erase]
  · rw [lookup_erase_ne hw, lookup_erase_ne hw, ← h w]
    rfl

theorem Views.registerAll :
    ∀ (infos : List (String × WorkerPool.InfoReply)) {p : SharedPool} {pool : WorkerPool},
      p.Views pool → p.Named →
      (p.registerAll infos).1.Views (pool.registerAll infos).1 ∧
        (p.registerAll infos).2 = (pool.registerAll infos).2
  | [], _, _, h, _ => ⟨h, rfl⟩
  | (v, .ok (some (some payload))) :: rest, _, _, h, hn => by
    obtain ⟨hviews, hids⟩ :=
      Views.registerAll rest (h.register hn v payload) (hn.register v payload)
    exact ⟨hviews, congrArg (v :: ·) hids⟩
  | (_, .ok (some none)) :: rest, _, _, h, hn => Views.registerAll rest h hn
  | (_, .ok none) :: rest, _, _, h, hn => Views.registerAll rest h hn
  | (_, .error _) :: rest, _, _, h, hn => Views.registerAll rest h hn

theorem Views.recordHeartbeats (pipeline : HeartbeatPipeline) :
    ∀ (workerIds : List (String × Nat)) {p : SharedPool} {pool : WorkerPool},
      p.Views pool → p.Named →
      (SharedPool.recordHeartbeats heartbeatTimeoutSecs pipeline p workerIds).Views
        (WorkerPool.recordHeartbeats heartbeatTimeoutSecs pipeline pool workerIds)
  | [], _, _, h, _ => h
  | (v, i) :: rest, _, _, h, hn =>
    Views.recordHeartbeats pipeline rest (h.recordHeartbeat hn _ v (pipeline.reply i))
      (hn.recordHeartbeat _ v (pipeline.reply i))

/-- What the passes of a tick do to the registry. -/
inductive Update where
  | register (infos : List (String × WorkerPool.InfoReply))
  | heartbeats (pipeline : HeartbeatPipeline) (workerIds : List (String × Nat))
  | remove (workerId : String)

def Update.shared (timeoutSecs : Nat) (p : SharedPool) : Update → SharedPool
  | .register infos => (p.registerAll infos).1
  | .heartbeats pipeline workerIds => recordHeartbeats timeoutSecs pipeline p workerIds
  | .remove workerId => p.removeWorker workerId

def Update.plain (timeoutSecs : Nat) (pool : WorkerPool) : Update → WorkerPool
  | .register infos => (pool.registerAll infos).1
  | .heartbeats pipeline workerIds =>
    WorkerPool.recordHeartbeats timeoutSecs pipeline pool workerIds
  | .remove workerId => pool.erase workerId

theorem Views.update (h : p.Views pool) (hn : p.Named) (timeoutSecs : Nat)
    (update : Update) : (update.shared timeoutSecs p).Views
        (update.plain timeoutSecs pool) ∧ (update.shared timeoutSecs p).Named := by
  cases update with
  | register infos => exact ⟨(Views.registerAll infos h hn).1,
      registerAll_rec infos p hn fun v _ _ payload hq => hq.register v payload⟩
  | heartbeats pipeline workerIds => exact ⟨Views.recordHeartbeats pipeline workerIds h hn,
      recordHeartbeats_rec (fun _ v reply hq => hq.recordHeartbeat _ v reply) workerIds p hn⟩
  | remove workerId => exact ⟨h.removeWorker workerId, hn.removeWorker workerId⟩

theorem Views.mem_getDeadWorkers (h : p.Views pool) :
    w ∈ p.getDeadWorkers ↔ w ∈ pool.getDeadWorkers := by
  have hw := h w
  simp only [SharedPool.getDeadWorkers, WorkerPool.getDeadWorkers, mem_filter, ← AList.mem_keys,
    ← lookup_isSome, hw]
  cases hl : p.workers.lookup w <;> cases hp : pool.lookup w <;> simp_all [getWorker]

/-- **Refinement.**  After any updates, each worker is found with the record that the registry
without objects has for it, and the same workers are dead. -/
theorem updates_refine (timeoutSecs : Nat) (updates : List Update) :
    let p := updates.foldl (Update.shared timeoutSecs) {}
    let pool := updates.foldl (Update.plain timeoutSecs) ∅
    p.Views pool ∧ ∀ w, w ∈ p.getDeadWorkers ↔ w ∈ pool.getDeadWorkers := by
  have hrun : ∀ {p : SharedPool} {pool : WorkerPool}, p.Views pool → p.Named →
      (updates.foldl (Update.shared timeoutSecs) p).Views
        (updates.foldl (Update.plain timeoutSecs) pool) := by
    induction updates with
    | nil => exact fun h _ => h
    | cons update updates ih =>
      intro p pool h hn
      obtain ⟨h, hn⟩ := h.update hn timeoutSecs update
      exact ih h hn
  have hviews := @hrun {} ∅ (fun _ => rfl) nofun
  exact ⟨hviews, fun _ => hviews.mem_getDeadWorkers⟩

end SharedPool

namespace CaptureState

variable {T : Type} {s s' : CaptureState T}

/-! ## What is kept -/

/-- What holds between the steps of such a run. -/
structure Inv (s : CaptureState T) : Prop where
  named : s.pool.Named
  held : ∀ t, ∀ ref ∈ (s.phase t).held, s.pool.Current ref
  dead : ∀ deadWorkers, s.tick = .sweeping deadWorkers → ∀ w ∈ deadWorkers,
    ∀ record, s.pool.getWorker w = some record → record.status = .offline

theorem Inv.beat (h : Inv s) (workerIds : List String) (replies : Option (Nat → HeartbeatReply)) :
    (s.beat workerIds replies).Named ∧
      ∀ t, ∀ ref ∈ (s.phase t).held, (s.beat workerIds replies).Current ref := by
  unfold CaptureState.beat
  split
  · exact ⟨h.named, h.held⟩
  · refine SharedPool.recordHeartbeats_rec (P := fun q => q.Named ∧
      ∀ t, ∀ ref ∈ (s.phase t).held, q.Current ref) ?_ _ _ ⟨h.named, h.held⟩
    intro q v reply hq
    exact ⟨hq.1.recordHeartbeat _ v reply, fun t ref hmem =>
      (hq.2 t ref hmem).recordHeartbeat hq.1 _ v reply⟩

theorem Inv.placesOnCurrent (h : Inv s) : s.PlacesOnCurrent := by
  intro t _ _ _ ht _ hplace
  obtain ⟨record, hmem, honline, hid⟩ := Placement.worker_of_place hplace
  obtain ⟨ref, href, hread⟩ := mem_filterMap.mp hmem
  have hheld : ref ∈ (s.phase t).held := by
    rw [ht]
    exact href
  obtain ⟨_, hread', hcase⟩ := h.held t ref hheld
  obtain rfl := Option.some.inj (hread.symm.trans hread')
  rcases hcase with hl | hstatus
  · rw [hid] at hl
    exact ⟨record, (SharedPool.getWorker_of_lookup hl).trans hread, honline⟩
  · exact absurd honline hstatus

variable [DecidableEq T]

theorem Inv.discover (h : Inv s) {infos}
    (hok : s.SparesHeld (.discover infos)) (hs : s.step (.discover infos) = some s') : Inv s' := by
  simp only [step] at hs
  cases ht : s.tick with
  | discovering | checking | sweeping =>
    rw [ht] at hs
    cases hs
  | idle =>
    rw [ht] at hs
    cases hs
    refine ⟨?_, fun t ref hmem => ?_, fun _ _ => ?_⟩
    · exact SharedPool.registerAll_rec _ _ h.named fun v _ q payload hq => hq.register v payload
    · refine (h.held t ref hmem).registerAll _ fun v hv hl => ?_
      by_contra honline
      exact hok v hv ⟨t, ref, hmem, hl, Bool.eq_true_of_not_eq_false honline⟩
    · grind

theorem Inv.heartbeats (h : Inv s) {replies}
    (hs : s.step (.heartbeats replies) = some s') : Inv s' := by
  simp only [step] at hs
  cases ht : s.tick with
  | idle | sweeping =>
    rw [ht] at hs
    cases hs
  | discovering workerIds =>
    rw [ht] at hs
    cases hs
    obtain ⟨hnamed, hheld⟩ := h.beat workerIds replies
    exact ⟨hnamed, hheld, nofun⟩
  | checking workerIds =>
    rw [ht] at hs
    cases hs
    obtain ⟨hnamed, hheld⟩ := h.beat workerIds replies
    refine ⟨hnamed, hheld, fun _ hd w hw _ _ => ?_⟩
    obtain rfl := TickPhase.sweeping.inj hd
    have hany := (mem_filter.mp hw).2
    grind

theorem Inv.remove (h : Inv s) (hs : s.step .remove = some s') : Inv s' := by
  simp only [step] at hs
  split at hs
  · rename_i v rest ht
    cases hs
    have hv := h.dead _ ht v mem_cons_self
    refine ⟨h.named.removeWorker v, fun t ref hmem => (h.held t ref hmem).removeWorker hv,
      fun _ hd w hw record hr => ?_⟩
    obtain rfl := TickPhase.sweeping.inj hd
    by_cases hwv : w = v
    · subst hwv
      rw [SharedPool.getWorker, SharedPool.removeWorker, lookup_erase] at hr
      cases hr
    · rw [SharedPool.getWorker, SharedPool.removeWorker, lookup_erase_ne hwv] at hr
      exact h.dead _ ht w (mem_cons_of_mem _ hw) record hr
  · cases hs

theorem Inv.reclaim (h : Inv s) {t instanceId request}
    (hs : s.step (.reclaim t instanceId request) = some s') : Inv s' := by
  simp only [step] at hs
  split at hs
  · cases hs
    refine ⟨h.named, fun u ref hmem => ?_, h.dead⟩
    by_cases hu : u = t
    · subst hu
      simp only [Function.update_self] at hmem
      obtain ⟨w, hl⟩ := SharedPool.mem_getAllWorkers hmem
      obtain ⟨record, hread, rfl⟩ := h.named w ref hl
      exact ⟨record, hread, .inl hl⟩
    · grind [h.held]
  · cases hs

theorem Inv.place (h : Inv s) {t} (hs : s.step (.place t) = some s') : Inv s' := by
  simp only [step] at hs
  split at hs
  · cases hs
    refine ⟨h.named, fun u _ hmem => ?_, h.dead⟩
    by_cases hu : u = t
    · subst hu
      simp only [Function.update_self] at hmem
      exact absurd hmem not_mem_nil
    · grind [h.held]
  · cases hs

theorem Inv.step (h : Inv s) {a} (hok : s.SparesHeld a)
    (hs : s.step a = some s') : Inv s' := by
  cases a with
  | advance =>
    obtain ⟨-, hs⟩ := ite_none_right_eq_some.mp hs
    cases hs
    exact ⟨h.named, h.held, h.dead⟩
  | discover => exact h.discover hok hs
  | heartbeats replies => exact h.heartbeats hs
  | remove => exact h.remove hs
  | finish =>
    simp only [CaptureState.step] at hs
    split at hs
    · cases hs
      exact ⟨h.named, h.held, nofun⟩
    · cases hs
  | refresh replies | release instanceId =>
    cases hs
    exact ⟨h.named, h.held, h.dead⟩
  | reclaim t instanceId => exact h.reclaim hs
  | place t => exact h.place hs

/-- **Reclamation places on current workers.**  In every run in which discovery
registers no worker anew whose `ONLINE` record a reclamation holds, the worker
of every placement after eviction is registered and `ONLINE` when it is chosen. -/
theorem reclaimed_worker_is_current {heartbeatTimeoutSecs staleAfterSecs : Nat}
    (hr : Reach step SparesHeld (start heartbeatTimeoutSecs staleAfterSecs) s) :
    s.PlacesOnCurrent := by
  have hinv : Inv s := by
    refine hr.inductive_inv ⟨nofun, fun _ _ hmem => absurd hmem not_mem_nil, nofun⟩ ?_
    intro s a _ hs hok hstep
    exact hs.step hok hstep
  exact hinv.placesOnCurrent

/-! ## Two schedules -/

def announced : WorkerPool.InfoReply := .ok (some (some ⟨[⟨"vllm", [.cuda], 1⟩], [⟨0, .cuda⟩]⟩))

def usedBytes (used : Nat) : List (String × MemoryBudget.PipelineReply) :=
  [("w", .ok (some (.valid ⟨[⟨0, .cuda, used, 10⟩], some 20000, []⟩)))]

def beatAt (writtenAt : Nat) : Option (Nat → HeartbeatReply) :=
  some fun _ => .ok (some (some writtenAt))

def restOfTick (writtenAt : Nat) : List (CaptureAction (Fin 1)) :=
  [.heartbeats (beatAt writtenAt), .heartbeats (beatAt writtenAt)]

/-- The worker joins with its memory in use, and a launch for 8 bytes has to
reclaim. -/
def upToReclaim : List (CaptureAction (Fin 1)) :=
  [.advance 20000, .discover (some [("w", announced)])] ++ restOfTick 20000 ++
    [.finish, .refresh (usedBytes 10), .reclaim lone "i" ⟨"vllm", 8, none, 1⟩]

def knownThroughout : List (CaptureAction (Fin 1)) :=
  upToReclaim ++ [.advance 25000, .discover none, .heartbeats (beatAt 24000), .finish,
    .refresh (usedBytes 0)]

theorem knownThroughout_isSome :
    (exec (guarded step SparesHeld) (start 30 60) knownThroughout).isSome := by
  decide +kernel

/-- The launch finds room on the worker, which is registered and `ONLINE`. -/
theorem knownThroughout_placesOnCurrent :
    let s := (exec (guarded step SparesHeld) (start 30 60) knownThroughout).get
      knownThroughout_isSome
    (s.placeOn ⟨"vllm", 8, none, 1⟩ (s.phase lone).held).map (·.workerId) = some "w" ∧
      s.PlacesOnCurrent :=
  ⟨by decide +kernel, reclaimed_worker_is_current (reach_get knownThroughout_isSome)⟩

/-- During the evictions there is a tick that registers the worker anew, finds
its heartbeat too old and removes it. -/
def replacedMeanwhile : List (CaptureAction (Fin 1)) :=
  upToReclaim ++ [.advance 51000, .discover (some [("w", announced)])] ++ restOfTick 20000 ++
    [.remove, .finish, .refresh (usedBytes 0)]

theorem replacedMeanwhile_isSome :
    (exec (guarded step anyStep) (start 30 60) replacedMeanwhile).isSome := by
  decide +kernel

/-- The record the launch holds still says `ONLINE`, and the instance is placed on
a worker that is not registered. -/
theorem replaced_record_is_placed_on :
    ∃ s : CaptureState (Fin 1), Reach step anyStep (start 30 60) s ∧
      (s.placeOn ⟨"vllm", 8, none, 1⟩ (s.phase lone).held).map (·.workerId) = some "w" ∧
      s.pool.getWorker "w" = none ∧ ¬ s.PlacesOnCurrent := by
  have hgone : ((exec (guarded step anyStep) (start 30 60) replacedMeanwhile).get
      replacedMeanwhile_isSome).pool.getWorker "w" = none := by decide +kernel
  refine ⟨_, reach_get replacedMeanwhile_isSome, by decide +kernel, hgone, fun h => ?_⟩
  obtain ⟨_, hrecord, -⟩ := h lone "i" ⟨"vllm", 8, none, 1⟩ [0] (by decide +kernel)
    ⟨"w", "vllm", [⟨0, .cuda⟩]⟩ (by decide +kernel)
  exact nomatch hgone.symm.trans hrecord

end CaptureState

end Sardeenz
