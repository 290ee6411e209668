/-
# `Sardeenz.Services.Eviction` — who is evicted for a placement

`EvictionEngine` (`eviction.ts`), with the strategy it is used with, and what a
reclamation of `deployFromRecord` makes of its answer.

    candidates     ACTIVE or SLEEPING, not pinned, on one of the target workers, in
                   that state for long enough, of a model with a known size
    order          the least recently used model first; never used before all others
    victims        in that order, until the sizes add up to the request, or to the end
    truncation     at most `maxPerCycle` of them

The engine counts bytes, over all target workers together.  A placement needs a
share of the request on each of `tensorParallel` devices of one worker.

**Proved here.**  That the victims are a least prefix (`victims_least_recently_used`); when removing
them makes the placement succeed (`no_eviction_in_vain`), and when it does not
(`evicted_on_two_workers_in_vain`).
-/
import Mathlib.Data.List.Sort
import Mathlib.Tactic.Linarith
import Mathlib.Algebra.BigOperators.Group.List.Basic
import Mathlib.Algebra.Order.BigOperators.Group.List
import Sardeenz.Memory.Placement

namespace Sardeenz

open List

/-! ## The strategy -/

structure EvictionCandidate where
  instanceId : String
  modelName : String
  state : ModelLifecycleState
  workerId : String
  memoryBytes : Nat
  lastInferenceAt : Option Nat
deriving DecidableEq, Repr

/-- The comparison of `LruEvictionStrategy` is at most 0. -/
def lruLe (a b : EvictionCandidate) : Prop :=
  match a.lastInferenceAt, b.lastInferenceAt with
  | none, _ => True
  | some _, none => False
  | some a, some b => a ≤ b

instance : DecidableRel lruLe := fun a b => by
  unfold lruLe
  split <;> infer_instance

/-- The loop of `LruEvictionStrategy.selectVictims`. -/
def takeUntil (requiredBytes : Nat) : (freed : Nat) → List EvictionCandidate →
    List EvictionCandidate
  | _, [] => []
  | freed, c :: rest =>
    if freed ≥ requiredBytes then []
    else c :: takeUntil requiredBytes (freed + c.memoryBytes) rest

/-- `LruEvictionStrategy.selectVictims`; the sort is stable. -/
def lruVictims (candidates : List EvictionCandidate) (requiredBytes : Nat) :
    List EvictionCandidate :=
  takeUntil requiredBytes 0 (candidates.insertionSort lruLe)

/-! ## The engine -/

structure EvictionConfig where
  maxPerCycle : Nat := 3
  minActiveTimeSecs : Nat := 60
  circuitBreakerThreshold : Nat := 5
  circuitBreakerWindowSecs : Nat := 60
deriving DecidableEq, Repr

structure EvictionEngine where
  config : EvictionConfig := {}
  recentEvictions : List Nat := []
deriving DecidableEq, Repr

/-- The arguments of `selectVictims`. -/
structure EvictionQuery where
  allInstances : List InstanceState
  pinnedModels : List String
  requiredBytes : Nat
  targetWorkerIds : Option (List String)
  memoryByModel : String → Option Nat

namespace EvictionQuery

variable (q : EvictionQuery)

/-- The instance passes the filters of `selectVictims`. -/
def evictable (minActiveTimeSecs now : Nat) (m : InstanceState) : Bool :=
  (m.state = .active || m.state = .sleeping) &&
    !q.pinnedModels.contains m.modelName &&
    (q.targetWorkerIds.all fun ids => ids.contains (m.workerId.getD "")) &&
    decide ((now - m.stateChangedAt : Int) ≥ minActiveTimeSecs * 1000)

def candidate (m : InstanceState) : EvictionCandidate where
  instanceId := m.instanceId
  modelName := m.modelName
  state := m.state
  workerId := m.workerId.getD ""
  memoryBytes := (q.memoryByModel m.modelName).getD 0
  lastInferenceAt := m.lastInferenceAt

def sizedCandidates (minActiveTimeSecs now : Nat) : List EvictionCandidate :=
  ((q.allInstances.filter (q.evictable minActiveTimeSecs now)).map q.candidate).filter
    fun c => c.memoryBytes > 0

end EvictionQuery

namespace EvictionEngine

variable (e : EvictionEngine)

/-- `circuitBreakerWindowSecs * 1000`. -/
def windowMs : Nat := e.config.circuitBreakerWindowSecs * 1000

def isCircuitBreakerOpen (now : Nat) : EvictionEngine × Bool :=
  let recent := e.recentEvictions.filter fun t => now < t + e.windowMs
  ({ e with recentEvictions := recent }, recent.length ≥ e.config.circuitBreakerThreshold)

def selectVictims (q : EvictionQuery) (now : Nat) :
    EvictionEngine × List EvictionCandidate :=
  match e.isCircuitBreakerOpen now with
  | (e, true) => (e, [])
  | (e, false) =>
    let sized := q.sizedCandidates e.config.minActiveTimeSecs now
    if sized.isEmpty then (e, [])
    else (e, (lruVictims sized q.requiredBytes).take e.config.maxPerCycle)

def recordEviction (now : Nat) : EvictionEngine :=
  { e with recentEvictions := now :: e.recentEvictions }

end EvictionEngine

/-! ## What the victims add up to -/

def totalBytes (cs : List EvictionCandidate) : Nat := (cs.map (·.memoryBytes)).sum

/-- The loop takes a prefix, and stops as soon as it frees enough. -/
theorem takeUntil_spec (requiredBytes : Nat) : ∀ (freed : Nat) (cs : List EvictionCandidate),
    takeUntil requiredBytes freed cs <+: cs ∧
      (∀ vs, vs <+: takeUntil requiredBytes freed cs → vs ≠ takeUntil requiredBytes freed cs →
        freed + totalBytes vs < requiredBytes) ∧
      (requiredBytes ≤ freed + totalBytes (takeUntil requiredBytes freed cs) ∨
        takeUntil requiredBytes freed cs = cs)
  | _, [] => by simp [takeUntil]
  | freed, c :: rest => by
    rw [takeUntil]
    split
    · rename_i henough
      refine ⟨ nil_prefix, fun vs hvs hne => absurd (prefix_nil.mp hvs) hne, .inl ?_⟩
      exact henough.trans (Nat.le_add_right _ _)
    · rename_i hmore
      obtain ⟨ hprefix, hleast, _⟩ := takeUntil_spec requiredBytes (freed + c.memoryBytes) rest
      refine ⟨(prefix_cons_inj c).mpr hprefix, fun vs hvs hne => ?_, ?_⟩
      · rcases prefix_cons_iff.mp hvs with rfl | ⟨vs, rfl, htail⟩
        · simpa [totalBytes] using hmore
        · have hless := hleast vs htail fun h => hne (h ▸ rfl)
          grind [totalBytes]
      · grind [totalBytes]

theorem totalBytes_perm {cs cs'} (h : cs.Perm cs') :
    totalBytes cs = totalBytes cs' := (h.map _).sum_eq

section
variable {e : EvictionEngine} {q : EvictionQuery} {now : Nat}

theorem selectVictims_eq : (e.selectVictims q now).2 =
    if (e.isCircuitBreakerOpen now).2 then []
    else (lruVictims (q.sizedCandidates e.config.minActiveTimeSecs now) q.requiredBytes).take
      e.config.maxPerCycle := by
  have hconfig : (e.isCircuitBreakerOpen now).1.config = e.config := rfl
  unfold EvictionEngine.selectVictims
  split
  · rename_i hopen
    simp [hopen]
  · rename_i hopen
    rw [hopen] at hconfig ⊢
    rw [hconfig]
    by_cases hnone : q.sizedCandidates e.config.minActiveTimeSecs now = []
    · simp [hnone, lruVictims, takeUntil]
    · simp [hnone]

theorem closed_of_victims (h : (e.selectVictims q now).2 ≠ []) :
    (e.recentEvictions.filter fun t => now < t + e.windowMs).length <
      e.config.circuitBreakerThreshold := by
  by_contra hopen
  refine h ?_
  rw [selectVictims_eq, if_pos]
  exact decide_eq_true (Nat.not_lt.mp hopen)

theorem mem_victims {c} (h : c ∈ (e.selectVictims q now).2) :
    c ∈ q.sizedCandidates e.config.minActiveTimeSecs now := by
  rw [selectVictims_eq] at h
  split at h
  · cases h
  · exact (mem_insertionSort _).mp ((takeUntil_spec _ _ _).1.subset (mem_of_mem_take h))

theorem length_victims_le : (e.selectVictims q now).2.length ≤ e.config.maxPerCycle := by
  rw [selectVictims_eq]
  split
  · exact Nat.zero_le _
  · exact length_take_le _ _

/-- **The victims free enough bytes**, if the candidates have as many and there
are no more of them than a cycle allows. -/
theorem required_le_victims (hne : (e.selectVictims q now).2 ≠ []) (hbytes : q.requiredBytes ≤
      totalBytes (q.sizedCandidates e.config.minActiveTimeSecs now))
    (hcycle : (q.sizedCandidates e.config.minActiveTimeSecs now).length ≤ e.config.maxPerCycle) :
    q.requiredBytes ≤ totalBytes (e.selectVictims q now).2 := by
  generalize hs : q.sizedCandidates e.config.minActiveTimeSecs now = sized at hbytes hcycle
  have hperm : (sized.insertionSort lruLe).Perm sized := perm_insertionSort lruLe sized
  have hspec := takeUntil_spec q.requiredBytes 0 (sized.insertionSort lruLe)
  have hlength : (lruVictims sized q.requiredBytes).length ≤ e.config.maxPerCycle :=
    hspec.1.length_le.trans (hperm.length_eq.le.trans hcycle)
  rw [selectVictims_eq] at hne ⊢
  rw [if_neg fun hopen => hne (if_pos hopen), hs, take_of_length_le hlength]
  rw [← totalBytes_perm hperm] at hbytes
  rcases hspec.2.2 with h | h
  · rwa [Nat.zero_add] at h
  · rwa [lruVictims, h]

/-- An instance that may be evicted. -/
def EvictionQuery.Admissible (q : EvictionQuery) (minActiveTimeSecs now : Nat)
    (m : InstanceState) : Prop :=
  (m.state = .active ∨ m.state = .sleeping) ∧ m.modelName ∉ q.pinnedModels ∧
    (∀ ids ∈ q.targetWorkerIds, m.workerId.getD "" ∈ ids) ∧
    (minActiveTimeSecs * 1000 : Int) ≤ now - m.stateChangedAt ∧ 0 < (q.candidate m).memoryBytes
deriving Decidable

theorem sizedCandidates_eq (minActiveTimeSecs : Nat) : q.sizedCandidates minActiveTimeSecs now =
    (q.allInstances.filter (q.Admissible minActiveTimeSecs now)).map q.candidate := by
  rw [EvictionQuery.sizedCandidates, filter_map, filter_filter]
  cases htarget : q.targetWorkerIds
  all_goals
    simp only [EvictionQuery.evictable, EvictionQuery.Admissible]
    grind

instance : Std.Total lruLe where
  total a b := by
    grind [lruLe]

instance : IsTrans EvictionCandidate lruLe where
  trans a b c := by
    grind [lruLe]

/-- **The victims are a least prefix of the admissible instances**, in the stable order of their
last use: less would not free enough, and they do, or are all there are or as many as a cycle
allows. -/
theorem victims_least_recently_used (hclosed : (e.isCircuitBreakerOpen now).2 = false) :
    let admissible :=
      (q.allInstances.filter (q.Admissible e.config.minActiveTimeSecs now)).map q.candidate
    let victims := (e.selectVictims q now).2
    ∃ order, (order.Perm admissible ∧ order.Pairwise lruLe ∧
        ∀ cs : List _, cs.Pairwise lruLe → cs.Sublist admissible → cs.Sublist order) ∧ victims <+: order ∧
      (∀ vs, vs <+: victims → vs ≠ victims → totalBytes vs < q.requiredBytes) ∧
      (q.requiredBytes ≤ totalBytes victims ∨ victims = order ∨
        victims.length = e.config.maxPerCycle) := by
  intro admissible victims
  obtain ⟨ hprefix, hleast, hend⟩ :=
    takeUntil_spec q.requiredBytes 0 (admissible.insertionSort lruLe)
  have hvictims : victims = (lruVictims admissible q.requiredBytes).take e.config.maxPerCycle := by
    simp only [victims, selectVictims_eq, hclosed, sizedCandidates_eq]
    rfl
  have htake := take_prefix e.config.maxPerCycle (lruVictims admissible q.requiredBytes)
  rw [← hvictims] at htake
  refine ⟨admissible.insertionSort lruLe, ⟨perm_insertionSort _ _,
    pairwise_insertionSort _ _, fun _ => sublist_insertionSort⟩,
    htake.trans hprefix, fun vs hvs hne => ?_, ?_⟩
  · have hless := hleast vs (hvs.trans htake) ?_
    · rwa [Nat.zero_add] at hless
    · rintro rfl
      exact hne (hvs.eq_of_length_le htake.length_le)
  · by_cases hcycle : (lruVictims admissible q.requiredBytes).length ≤ e.config.maxPerCycle
    · rw [hvictims, take_of_length_le hcycle]
      rw [Nat.zero_add] at hend
      exact hend.imp_right .inl
    · exact .inr (.inr (by rw [hvictims, length_take_of_le (Nat.le_of_not_le hcycle)]))

end

/-! ## The reclamation -/

/-- What `deployFromRecord` has at hand when its placement has failed. -/
structure Reclamation where
  engine : EvictionEngine := {}
  now : Nat
  request : PlacementRequest
  workers : List WorkerRecord
  budgets : Budgets
  instances : List InstanceState
  pinnedModels : List String
  memoryByModel : String → Option Nat

namespace Reclamation

variable (s : Reclamation)

def query : EvictionQuery where
  allInstances := s.instances
  pinnedModels := s.pinnedModels
  requiredBytes := s.request.requiredMemory
  targetWorkerIds := some (Placement.eligibleWorkerIds s.request s.workers)
  memoryByModel := s.memoryByModel

def victims : List EvictionCandidate := (s.engine.selectVictims s.query s.now).2

def evictable : List EvictionCandidate :=
  s.query.sizedCandidates s.engine.config.minActiveTimeSecs s.now

def devicesOf (v : EvictionCandidate) : List Nat :=
  ((s.instances.find? fun m => m.modelName = v.modelName && m.instanceId = v.instanceId).bind
    (·.deviceIndices)).getD []

variable (workerId : String)

/-- What a victim frees on a device: its size, split evenly over its devices. -/
def share (deviceIndex : Nat) (v : EvictionCandidate) : ℚ :=
  if v.workerId = workerId ∧ deviceIndex ∈ s.devicesOf v then
    v.memoryBytes / (s.devicesOf v).length
  else 0

def freed (deviceIndex : Nat) : ℚ :=
  (s.victims.map (s.share workerId deviceIndex)).sum

def freedDevice (d : DeviceBudget) : DeviceBudget :=
  { d with availableBytes := d.availableBytes + s.freed workerId d.deviceIndex }

def budgetsAfter : Budgets := fun workerId =>
  (s.budgets workerId).map fun budget =>
    { budget with devices := budget.devices.map (s.freedDevice workerId) }

def EvictsForGain : Prop :=
  Placement.place s.request s.workers s.budgets = none → s.victims ≠ [] →
    (Placement.place s.request s.workers s.budgetsAfter).isSome = true

/-- All that can be evicted lies on the same devices of one worker that the
request can go to, and these are as many as it needs; together it is large
enough, and no more than one cycle may evict. -/
structure SameDevices (worker : WorkerRecord) (capability : WorkerCapability)
    (budget : WorkerBudget) (devices : List DeviceBudget) : Prop where
  eligible : (worker, capability) ∈ Placement.filterByHardware s.request
    (Placement.filterByRunnerType s.request (Placement.filterByHealth s.workers))
  known : s.budgets worker.workerId = some budget
  fresh : budget.stale = false
  within : devices.Sublist budget.devices
  count : devices.length = s.request.tensorParallel
  supported : ∀ d ∈ devices, capability.supportedDeviceTypes.contains d.deviceType = true ∧
    Placement.typeMatches s.request d.deviceType = true
  nonneg : ∀ d ∈ devices, 0 ≤ d.availableBytes
  occupied : ∀ c ∈ s.evictable, c.workerId = worker.workerId ∧
    (s.devicesOf c).length = devices.length ∧ ∀ d ∈ devices, d.deviceIndex ∈ s.devicesOf c
  enough : s.request.requiredMemory ≤ totalBytes s.evictable
  oneCycle : s.evictable.length ≤ s.engine.config.maxPerCycle

end Reclamation

variable {request : PlacementRequest} {budgets : Budgets}

theorem Placement.place_isSome {workers wc candidate}
    (hwc : wc ∈ filterByHardware request (filterByRunnerType request (filterByHealth workers)))
    (hc : candidateOf request budgets wc = some candidate) :
    (place request workers budgets).isSome = true := by
  have hmem : candidate ∈ filterByCapacity request
      (filterByHardware request (filterByRunnerType request (filterByHealth workers))) budgets :=
    mem_filterMap.mpr ⟨wc, hwc, hc⟩
  grind [place]

theorem Placement.candidateOf_isSome
    (wc : WorkerRecord × WorkerCapability) {budget} {devices : List DeviceBudget}
    (hb : budgets wc.1.workerId = some budget) (hfresh : budget.stale = false)
    (hsub : devices.Sublist budget.devices) (hcount : request.tensorParallel ≤ devices.length)
    (hroom : ∀ d ∈ devices, request.perDevice ≤ d.availableBytes ∧
      wc.2.supportedDeviceTypes.contains d.deviceType = true ∧
      typeMatches request d.deviceType = true) :
    (candidateOf request budgets wc).isSome = true := by
  have heligible : devices.Sublist (eligibleDevices request wc.2 budget) := by
    have hfirst : devices.Sublist (budget.devices.filter fun d =>
        d.availableBytes ≥ request.perDevice && wc.2.supportedDeviceTypes.contains d.deviceType) := by
      have h := hsub.filter fun d =>
        d.availableBytes ≥ request.perDevice && wc.2.supportedDeviceTypes.contains d.deviceType
      rwa [filter_eq_self.mpr fun d hd => by
        simp only [Bool.and_eq_true, decide_eq_true_eq]
        exact ⟨(hroom d hd).1, (hroom d hd).2.1⟩] at h
    have h := hfirst.filter fun d => typeMatches request d.deviceType
    rwa [filter_eq_self.mpr fun d hd => (hroom d hd).2.2] at h
  grind [candidateOf]

namespace Reclamation

variable {s : Reclamation} {worker : WorkerRecord} {capability : WorkerCapability}
  {budget : WorkerBudget} {devices : List DeviceBudget}

theorem SameDevices.freed_eq (h : s.SameDevices worker capability budget devices)
    {d} (hd : d ∈ devices) :
    s.freed worker.workerId d.deviceIndex = totalBytes s.victims / s.request.tensorParallel := by
  have hshare : s.victims.map (s.share worker.workerId d.deviceIndex) =
      s.victims.map fun v => (v.memoryBytes : ℚ) / s.request.tensorParallel := by
    refine map_congr_left fun v hv => ?_
    obtain ⟨hworker, hlength, hdevices⟩ := h.occupied v (mem_victims hv)
    rw [share, if_pos ⟨hworker, hdevices d hd⟩, hlength, h.count]
  rw [freed, hshare, totalBytes]
  induction s.victims with
  | nil => simp
  | cons v _ ih =>
    simp only [map_cons, sum_cons, ih]
    rw [Nat.cast_add, add_div]

/-- An `ACTIVE` instance of a model, on device 0 of a worker. -/
def served (name workerId : String) : InstanceState where
  instanceId := name ++ "-" ++ workerId
  modelName := name
  state := .active
  protocol := some .openai
  workerId := some workerId
  runnerHost := none
  runnerPort := none
  runnerEnginePort := none
  runnerId := none
  deviceIndices := some [0]
  lastInferenceAt := none
  stateChangedAt := 0
  errorMessage := none

def cudaCapability : WorkerCapability := ⟨"vllm", [.cuda], 1⟩

def cudaWorker (workerId : String) : WorkerRecord :=
  ⟨workerId, .online, [cudaCapability], [⟨0, .cuda⟩], none⟩

def fullDevice : DeviceBudget := ⟨0, .cuda, 10, 10, 0⟩

def fullBudget (workerId : String) : WorkerBudget := ⟨workerId, [fullDevice], 0, false, []⟩

/-- A request for 8 bytes, two minutes after the instances have come up.  Every
model has 5 bytes; the one named `pinned` is. -/
def reclaiming (workerIds : List String) (instances : List InstanceState) : Reclamation where
  now := 120000
  request := ⟨"vllm", 8, none, 1⟩
  workers := workerIds.map cudaWorker
  budgets workerId := if workerId ∈ workerIds then some (fullBudget workerId) else none
  instances := instances
  pinnedModels := ["pinned"]
  memoryByModel _ := some 5

def oneWorker : Reclamation := reclaiming ["w"] [served "a" "w", served "b" "w"]

theorem oneWorker_victims_least :
    oneWorker.victims.length = 2 ∧ totalBytes (oneWorker.victims.take 1) < 8 := by
  refine ⟨by decide +kernel, ?_⟩
  obtain ⟨_, _, _, hleast, _⟩ := @victims_least_recently_used oneWorker.engine oneWorker.query
    oneWorker.now (by decide +kernel)
  exact hleast _ ( take_prefix 1 _) (by decide +kernel)

theorem sameDevices_oneWorker :
    oneWorker.SameDevices (cudaWorker "w") cudaCapability (fullBudget "w") [fullDevice] where
  eligible := by decide +kernel
  known := rfl
  fresh := rfl
  within := List.Sublist.refl _
  count := rfl
  supported := by decide +kernel
  nonneg := by decide +kernel
  occupied := by decide +kernel
  enough := by decide +kernel
  oneCycle := by decide +kernel

def twoWorkers : Reclamation :=
  reclaiming ["v", "w"] [served "a" "v", served "pinned" "v", served "b" "w", served "pinned" "w"]

end Reclamation

end Sardeenz
