/-
# `Sardeenz.Memory.Placement` — where an instance may go

`PlacementPipeline` (`placement.ts`).  `place` narrows the workers down by
health, runner type, hardware and capacity and takes the candidate with the most
free memory; `placeFixed` applies the checks to the devices the caller names.

    place        an empty `deviceType` is no constraint (it is falsy)
    placeFixed   only a missing `deviceType` is no constraint

**Proved here.**  Whichever way a placement is found, its devices are devices of
the worker's budget, each with room for its share (`Fits`).
-/
import Sardeenz.Workers.Pool

namespace Sardeenz

open List Option

/-- `PlacementRequest`; the model's name is only carried along. -/
structure PlacementRequest where
  runnerType : String
  requiredMemory : Nat
  deviceType : Option String
  tensorParallel : Nat
deriving DecidableEq, Repr

/-- `requiredMemory / tensorParallel`. -/
def PlacementRequest.perDevice (request : PlacementRequest) : ℚ :=
  request.requiredMemory / request.tensorParallel

/-- A device of a `PlacementResult`. -/
structure PlacedDevice where
  deviceIndex : Nat
  deviceType : DeviceType
deriving DecidableEq, Repr

structure PlacementResult where
  workerId : String
  runnerType : String
  devices : List PlacedDevice
deriving DecidableEq, Repr

def PlacementResult.deviceIndices (result : PlacementResult) : List Nat :=
  result.devices.map (·.deviceIndex)

structure PlacementCandidate where
  workerId : String
  capability : WorkerCapability
  devices : List DeviceBudget
  availableMemory : ℚ
deriving DecidableEq

/-- The budgets by worker, with their staleness, as the caller has collected
them. -/
abbrev Budgets := String → Option WorkerBudget

namespace Placement

def placed (d : DeviceBudget) : PlacedDevice := ⟨d.deviceIndex, d.deviceType⟩

def filterByHealth (workers : List WorkerRecord) : List WorkerRecord :=
  workers.filter fun w => w.status = .online

def filterByRunnerType (request : PlacementRequest) (workers : List WorkerRecord) :
    List (WorkerRecord × WorkerCapability) :=
  workers.filterMap fun worker =>
    (worker.capabilities.find? fun cap => cap.runnerType = request.runnerType).map (worker, ·)

/-- `!request.deviceType || deviceType === request.deviceType`. -/
def typeMatches (request : PlacementRequest) (deviceType : DeviceType) : Bool :=
  match request.deviceType with
  | none => true
  | some text => text = "" || deviceType.text = text

def filterByHardware (request : PlacementRequest)
    (candidates : List (WorkerRecord × WorkerCapability)) :
    List (WorkerRecord × WorkerCapability) :=
  candidates.filter fun (worker, capability) =>
    !(request.tensorParallel > capability.maxTensorParallelism) &&
      worker.devices.any fun d =>
        typeMatches request d.deviceType && capability.supportedDeviceTypes.contains d.deviceType

def eligibleDevices (request : PlacementRequest) (capability : WorkerCapability)
    (budget : WorkerBudget) : List DeviceBudget :=
  (budget.devices.filter fun d =>
    d.availableBytes ≥ request.perDevice &&
      capability.supportedDeviceTypes.contains d.deviceType).filter fun d =>
        typeMatches request d.deviceType

def candidateOf (request : PlacementRequest) (budgets : Budgets)
    (wc : WorkerRecord × WorkerCapability) : Option PlacementCandidate :=
  match budgets wc.1.workerId with
  | none => none
  | some budget =>
    if budget.stale then none
    else
      let devices := eligibleDevices request wc.2 budget
      if devices.length ≥ request.tensorParallel then
        some ⟨wc.1.workerId, wc.2, devices, (devices.map (·.availableBytes)).sum⟩
      else none

def filterByCapacity (request : PlacementRequest)
    (candidates : List (WorkerRecord × WorkerCapability)) (budgets : Budgets) :
    List PlacementCandidate :=
  candidates.filterMap (candidateOf request budgets)

variable (first : PlacementCandidate)

def select (rest : List PlacementCandidate) : PlacementCandidate :=
  rest.foldl (fun best c => if c.availableMemory > best.availableMemory then c else best) first

def place (request : PlacementRequest) (workers : List WorkerRecord) (budgets : Budgets) :
    Option PlacementResult :=
  let candidates := filterByCapacity request
    (filterByHardware request (filterByRunnerType request (filterByHealth workers))) budgets
  match candidates with
  | [] => none
  | first :: rest =>
    let selected := select first rest
    some {
      workerId := selected.workerId
      runnerType := request.runnerType
      devices := ((selected.devices.filter fun d => d.availableBytes ≥ request.perDevice).take
        request.tensorParallel).map placed }

/-- The check `placeFixed` makes of one device. -/
def fixedDeviceFits (request : PlacementRequest) (capability : WorkerCapability)
    (d : DeviceBudget) : Bool :=
  !(d.availableBytes < request.perDevice) &&
    !(request.deviceType.any fun text => d.deviceType.text ≠ text) &&
    capability.supportedDeviceTypes.contains d.deviceType

/-- The devices `placeFixed` finds: all that are named, each fitting. -/
def fixedDevices (request : PlacementRequest) (capability : WorkerCapability)
    (budget : WorkerBudget) (deviceIndices : List Nat) : Option (List DeviceBudget) :=
  deviceIndices.mapM fun deviceIndex =>
    (budget.devices.find? fun d => d.deviceIndex = deviceIndex).filter
      (fixedDeviceFits request capability)

def placeFixed (request : PlacementRequest) (workerId : String) (deviceIndices : List Nat)
    (workers : List WorkerRecord) (budgets : Budgets) : Option PlacementResult :=
  if deviceIndices.length ≠ request.tensorParallel then none
  else
    match workers.find? fun candidate => candidate.workerId = workerId with
    | none => none
    | some worker =>
      match filterByRunnerType request (filterByHealth [worker]) with
      | [] => none
      | (_, capability) :: rest =>
        if request.tensorParallel > capability.maxTensorParallelism then none
        else if (filterByHardware request ((worker, capability) :: rest)).isEmpty then none
        else
          match budgets workerId with
          | none => none
          | some budget =>
            if budget.stale then none
            else
              (fixedDevices request capability budget deviceIndices).map fun devices =>
                ⟨workerId, request.runnerType, devices.map placed⟩

def eligibleWorkerIds (request : PlacementRequest) (workers : List WorkerRecord) : List String :=
  (filterByHardware request (filterByRunnerType request (filterByHealth workers))).map
    (·.1.workerId)

/-! ## What a placement is made of -/

/-- The placement lies within a budget: its devices are devices of the budget of
its worker, each with room for its share. -/
def Fits (request : PlacementRequest) (budgets : Budgets) (result : PlacementResult) : Prop :=
  ∃ budget, budgets result.workerId = some budget ∧
    ∀ i ∈ result.deviceIndices, ∃ d ∈ budget.devices,
      d.deviceIndex = i ∧ request.perDevice ≤ d.availableBytes

theorem select_mem (rest : List PlacementCandidate) : select first rest ∈ first :: rest := by
  unfold select
  induction rest generalizing first with
  | nil => exact mem_singleton_self _
  | cons c rest =>
    grind [mem_cons.mpr]

variable {request : PlacementRequest} {budgets : Budgets}

section
variable {wc : WorkerRecord × WorkerCapability} {candidate : PlacementCandidate}
  (h : candidateOf request budgets wc = some candidate)
include h

theorem candidateOf_eq_some : ∃ budget, budgets candidate.workerId = some budget ∧
      candidate.devices.Sublist budget.devices := by
  unfold candidateOf at h
  cases hb : budgets wc.1.workerId with
  | none =>
    rw [hb] at h
    cases h
  | some budget =>
    rw [hb] at h
    obtain ⟨-, h⟩ := ite_none_left_eq_some.mp h
    obtain ⟨-, h⟩ := ite_none_right_eq_some.mp h
    cases h
    exact ⟨budget, hb, filter_sublist.trans filter_sublist⟩

theorem workerId_candidateOf : candidate.workerId = wc.1.workerId := by
  unfold candidateOf at h
  grind

end

variable {workers : List WorkerRecord} {result : PlacementResult}

section
variable (h : place request workers budgets = some result)
include h

theorem place_eq_some : ∃ (budget : WorkerBudget) (devices : List DeviceBudget),
      budgets result.workerId = some budget ∧ devices.Sublist budget.devices ∧
      (∀ d ∈ devices, request.perDevice ≤ d.availableBytes) ∧
      result.devices = devices.map placed := by
  simp only [place] at h
  split at h
  · cases h
  · rename_i first rest hc
    cases h
    have hmem : select first rest ∈ first :: rest := select_mem first rest
    rw [← hc] at hmem
    obtain ⟨_, -, hwc⟩ := mem_filterMap.mp hmem
    obtain ⟨budget, hb, hsub⟩ := candidateOf_eq_some hwc
    refine ⟨budget, _, hb, ?_, fun d hd => ?_, rfl⟩
    · exact (take_sublist _ _).trans (filter_sublist.trans hsub)
    · exact of_decide_eq_true (mem_filter.mp (mem_of_mem_take hd)).2

theorem worker_of_place :
    ∃ worker ∈ workers, worker.status = .online ∧ worker.workerId = result.workerId := by
  simp only [place] at h
  split at h
  · cases h
  · rename_i first rest hc
    cases h
    have hmem : select first rest ∈ first :: rest := select_mem first rest
    rw [← hc] at hmem
    obtain ⟨⟨worker, _⟩, hwc, hcandidate⟩ := mem_filterMap.mp hmem
    obtain ⟨_, hhealthy, hfound⟩ := mem_filterMap.mp (mem_filter.mp hwc).1
    obtain ⟨_, _, hpair⟩ := map_eq_some_iff.mp hfound
    obtain rfl := (Prod.mk.inj hpair).1
    obtain ⟨hworker, honline⟩ := mem_filter.mp hhealthy
    exact ⟨_, hworker, of_decide_eq_true honline, (workerId_candidateOf hcandidate).symm⟩

theorem fits_of_place : Fits request budgets result := by
  obtain ⟨budget, _, hb, hsub, hroom, hdevices⟩ := place_eq_some h
  refine ⟨budget, hb, fun i hi => ?_⟩
  rw [PlacementResult.deviceIndices, hdevices, List.map_map] at hi
  obtain ⟨d, hd, rfl⟩ := mem_map.mp hi
  exact ⟨d, hsub.mem hd, rfl, hroom d hd⟩

theorem nodup_of_place (hnd : ∀ budget, budgets result.workerId = some budget →
      (budget.devices.map (·.deviceIndex)).Nodup) : result.deviceIndices.Nodup := by
  obtain ⟨budget, devices, hb, hsub, -, hdevices⟩ := place_eq_some h
  rw [PlacementResult.deviceIndices, hdevices, List.map_map]
  exact (hnd budget hb).sublist (hsub.map _)

end

theorem fixedDevices_eq_some {capability budget} :
    ∀ {deviceIndices : List Nat} {devices : List DeviceBudget},
      fixedDevices request capability budget deviceIndices = some devices →
      devices.map (·.deviceIndex) = deviceIndices ∧
        ∀ d ∈ devices, d ∈ budget.devices ∧ request.perDevice ≤ d.availableBytes
  | [], devices, h => by
    grind [fixedDevices]
  | i :: is, devices, h => by
    simp only [fixedDevices, mapM_cons, Option.pure_def, bind_eq_bind,
      bind_eq_some_iff, Option.some.injEq, filter_eq_some_iff] at h
    obtain ⟨d, ⟨_, _⟩, _, hds, rfl⟩ := h
    obtain ⟨_, _⟩ := fixedDevices_eq_some hds
    grind [fixedDeviceFits]

theorem placeFixed_eq_some {workerId deviceIndices}
    (h : placeFixed request workerId deviceIndices workers budgets = some result) :
    Fits request budgets result ∧ result.deviceIndices = deviceIndices := by
  obtain ⟨-, h⟩ := ite_none_left_eq_some.mp h
  split at h
  · cases h
  split at h
  · cases h
  obtain ⟨-, h⟩ := ite_none_left_eq_some.mp h
  obtain ⟨-, h⟩ := ite_none_left_eq_some.mp h
  split at h
  · cases h
  rename_i budget hb
  obtain ⟨-, h⟩ := ite_none_left_eq_some.mp h
  obtain ⟨devices, hdevices, rfl⟩ := map_eq_some_iff.mp h
  obtain ⟨hmap, _⟩ := fixedDevices_eq_some hdevices
  have hindices : (devices.map placed).map (·.deviceIndex) = devices.map (·.deviceIndex) := by
    rw [List.map_map]
    rfl
  refine ⟨⟨budget, hb, fun i _ => ?_⟩, hindices.trans hmap⟩
  grind [PlacementResult.deviceIndices]

end Placement

end Sardeenz
