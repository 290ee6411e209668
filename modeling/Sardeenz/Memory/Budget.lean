/-
# `Sardeenz.Memory.Budget` — the memory budgets and the placement holds

`MemoryBudgetService` (`memory-budget.ts`).  The leader keeps two maps in its
memory:

    budgets        worker id ↦ the devices of its last report, with what is free on each
    reservations   `workerId:deviceIndex` ↦ (instance id ↦ bytes held for it)

and each operation below is one stretch of code without an `await`, so it acts
on both maps at once.  `refreshAll` and `refreshWorkerBudget` wait for Redis
first; what is modelled here is what they do with the answers.

A report is text that either fails the validation or has the fields below
(`RawReport`).  Byte counts are whole numbers in the reports; the share of a
device in a placement is a quotient, so holds and free bytes are rational
numbers.

The key of a device is its worker's id and its index, joined by a colon.  A
worker's id may contain colons itself; still the key determines both
(`reservationKey_inj`).
-/
import Mathlib.Data.List.AList
import Mathlib.Algebra.Order.Field.Rat

namespace Sardeenz

/-! ## Reports -/

inductive DeviceType where
  | cuda
  | rocm
  | cpu
  | other
deriving DecidableEq, Repr

def DeviceType.text : DeviceType → String
  | .cuda => "CUDA"
  | .rocm => "ROCM"
  | .cpu => "CPU"
  | .other => "OTHER"

/-- `WorkerDeviceMemory`, without the telemetry that feeds no decision. -/
structure WorkerDeviceMemory where
  deviceIndex : Nat
  deviceType : DeviceType
  memoryUsedBytes : Nat
  memoryTotalBytes : Nat
deriving DecidableEq, Repr

/-- `InstanceMeasurement`: what one instance uses on one device. -/
structure InstanceMeasurement where
  instanceId : String
  deviceIndex : Nat
  measuredUsedBytes : Nat
deriving DecidableEq, Repr

structure WorkerMemoryReport where
  devices : List WorkerDeviceMemory
  reportedAt : Option Nat
  instances : List InstanceMeasurement
deriving DecidableEq, Repr

/-- The text under a worker's memory key. -/
inductive RawReport where
  | malformed
  | valid (report : WorkerMemoryReport)
deriving DecidableEq, Repr

def RawReport.Distinct : RawReport → Prop
  | .malformed => True
  | .valid report => (report.devices.map (·.deviceIndex)).Nodup

instance (raw : RawReport) : Decidable raw.Distinct := by
  unfold RawReport.Distinct
  split <;> infer_instance

/-! ## Budgets and holds -/

structure DeviceBudget where
  deviceIndex : Nat
  deviceType : DeviceType
  totalBytes : Nat
  usedBytes : Nat
  availableBytes : ℚ
deriving DecidableEq

structure WorkerBudget where
  workerId : String
  devices : List DeviceBudget
  lastReportAt : Nat
  stale : Bool
  instanceMeasurements : List InstanceMeasurement
deriving DecidableEq

abbrev DeviceHolds := AList (fun _ : String => ℚ)

def DeviceHolds.total (holds : DeviceHolds) : ℚ := (holds.entries.map (·.2)).sum

/-- The two maps of `MemoryBudgetService`. -/
structure MemoryBudget where
  budgets : AList (fun _ : String => WorkerBudget)
  reservations : AList (fun _ : String => DeviceHolds)

namespace MemoryBudget

def reservationKey (workerId : String) (deviceIndex : Nat) : String :=
  workerId ++ ":" ++ deviceIndex.repr

variable (m : MemoryBudget)

def holdsOn (workerId : String) (deviceIndex : Nat) : DeviceHolds :=
  (m.reservations.lookup (reservationKey workerId deviceIndex)).getD ∅

def getReservation (workerId : String) (deviceIndex : Nat) : ℚ :=
  (m.holdsOn workerId deviceIndex).total

/-- `max(0, totalBytes - usedBytes - heldBytes)`. -/
def freeBytes (totalBytes usedBytes : Nat) (heldBytes : ℚ) : ℚ :=
  max 0 (totalBytes - usedBytes - heldBytes)

def deviceBudget (workerId : String) (d : WorkerDeviceMemory) :
    DeviceBudget where
  deviceIndex := d.deviceIndex
  deviceType := d.deviceType
  totalBytes := d.memoryTotalBytes
  usedBytes := d.memoryUsedBytes
  availableBytes :=
    freeBytes d.memoryTotalBytes d.memoryUsedBytes (m.getReservation workerId d.deviceIndex)

def parseReport (raw : RawReport) (workerId : String) (now : Nat) :
    Option WorkerBudget :=
  match raw with
  | .malformed => none
  | .valid report =>
    some {
      workerId := workerId
      devices := report.devices.map (m.deviceBudget workerId)
      lastReportAt := report.reportedAt.getD now
      stale := false
      instanceMeasurements := report.instances }

def recomputeFirst (deviceIndex : Nat) (heldBytes : ℚ) : List DeviceBudget → List DeviceBudget
  | [] => []
  | d :: ds =>
    if d.deviceIndex = deviceIndex then
      { d with availableBytes := freeBytes d.totalBytes d.usedBytes heldBytes } :: ds
    else d :: recomputeFirst deviceIndex heldBytes ds

def recomputeDeviceBudget (workerId : String) (deviceIndex : Nat) :
    MemoryBudget :=
  match m.budgets.lookup workerId with
  | none => m
  | some budget =>
    { m with
      budgets := m.budgets.insert workerId
        { budget with
          devices := recomputeFirst deviceIndex (m.getReservation workerId deviceIndex)
            budget.devices } }

def reserveCapacity (workerId : String) (deviceIndex : Nat)
    (instanceId : String) (bytes : ℚ) : MemoryBudget :=
  let holds := (m.holdsOn workerId deviceIndex).insert instanceId bytes
  let m := { m with
    reservations := m.reservations.insert (reservationKey workerId deviceIndex) holds }
  m.recomputeDeviceBudget workerId deviceIndex

/-- `Number(…)` of the end of a key: digits, or a text with a colon, which is
`NaN`. -/
def indexOf (digits : List Char) : Option Nat :=
  if digits.all Char.isDigit then some (Nat.ofDigitChars 10 digits 0) else none

def splitKey (key : String) : String × Option Nat :=
  let chars := key.toList.reverse
  let index := (chars.takeWhile (· ≠ ':')).reverse
  let worker := ((chars.dropWhile (· ≠ ':')).drop 1).reverse
  (String.ofList worker, indexOf index)

/-- The body of the loop of `releaseInstanceReservations`, for one key. -/
def releaseKey (instanceId : String) (m : MemoryBudget) (key : String) : MemoryBudget :=
  match m.reservations.lookup key with
  | none => m
  | some holds =>
    if instanceId ∈ holds then
      let holds := holds.erase instanceId
      let m := { m with
        reservations :=
          if holds.keys.isEmpty then m.reservations.erase key
          else m.reservations.insert key holds }
      match splitKey key with
      | (workerId, some deviceIndex) => m.recomputeDeviceBudget workerId deviceIndex
      | (_, none) => m
    else m

def releaseInstanceReservations (instanceId : String) : MemoryBudget :=
  m.reservations.keys.foldl (releaseKey instanceId) m

/-- The body of the loop of `clearWorkerReservations`, for one key. -/
def clearKey (workerId : String) (m : MemoryBudget) (key : String) : MemoryBudget :=
  let start := workerId ++ ":"
  if start.toList.isPrefixOf key.toList then
    let m := { m with reservations := m.reservations.erase key }
    match indexOf (key.toList.drop start.length) with
    | some deviceIndex => m.recomputeDeviceBudget workerId deviceIndex
    | none => m
  else m

def clearWorkerReservations (workerId : String) : MemoryBudget :=
  m.reservations.keys.foldl (clearKey workerId) m

/-! ## Refreshing -/

def setBudget (budget : WorkerBudget) : MemoryBudget :=
  { m with budgets := m.budgets.insert budget.workerId budget }

def dropWorker (workerId : String) : MemoryBudget :=
  { m with budgets := m.budgets.erase workerId }.clearWorkerReservations workerId

/-- `refreshWorkerBudget`, on the answer of its `GET`. -/
def applyWorkerReport (workerId : String) (raw : Option RawReport)
    (now : Nat) : MemoryBudget :=
  match raw with
  | none => m.dropWorker workerId
  | some raw =>
    match m.parseReport raw workerId now with
    | none => { m with budgets := m.budgets.erase workerId }
    | some budget => m.setBudget budget

abbrev PipelineReply := Except Unit (Option RawReport)

/-- The first loop of `refreshAll`, which also collects `seenWorkers`. -/
def takeReports (now : Nat) :
    MemoryBudget → List (String × PipelineReply) → MemoryBudget × List String
  | m, [] => (m, [])
  | m, (workerId, .ok (some raw)) :: rest =>
    match m.parseReport raw workerId now with
    | some budget =>
      let taken := takeReports now (m.setBudget budget) rest
      (taken.1, workerId :: taken.2)
    | none => takeReports now m rest
  | m, (_, .ok none) :: rest => takeReports now m rest
  | m, (_, .error _) :: rest => takeReports now m rest

/-- `refreshAll`, on the replies of its pipeline: the reports are taken over,
then the workers that none was taken over for are dropped. -/
def applyReports (replies : List (String × PipelineReply)) (now : Nat) :
    MemoryBudget :=
  let taken := takeReports now m replies
  (taken.1.budgets.keys.filter (· ∉ taken.2)).foldl dropWorker taken.1

/-- `refreshAll` when no worker has a memory key. -/
def clear (_ : MemoryBudget) : MemoryBudget := ⟨∅, ∅⟩

def isStale (staleAfterSecs lastReportAt now : Nat) : Bool :=
  now - lastReportAt > staleAfterSecs * 1000

/-- `getWorkerBudget`; also what the map made of `getAllBudgets` has for the
worker. -/
def getWorkerBudget (staleAfterSecs now : Nat) (workerId : String) :
    Option WorkerBudget :=
  (m.budgets.lookup workerId).map fun budget =>
    { budget with stale := isStale staleAfterSecs budget.lastReportAt now }

/-! ## Keys -/

theorem toList_reservationKey (workerId : String) (deviceIndex : Nat) :
    (reservationKey workerId deviceIndex).toList =
      workerId.toList ++ ':' :: Nat.toDigits 10 deviceIndex := by
  simp [reservationKey]

theorem colon_not_mem_toDigits (n : Nat) : ':' ∉ Nat.toDigits 10 n := fun h =>
  absurd (Nat.isDigit_of_mem_toDigits (by decide) (by decide) h) (by decide)

theorem toDigits_ten_inj {m n} (h : Nat.toDigits 10 m = Nat.toDigits 10 n) : m = n :=
  calc m = Nat.ofDigitChars 10 (Nat.toDigits 10 m) 0 := Nat.ofDigitChars_ten_toDigits.symm
    _ = Nat.ofDigitChars 10 (Nat.toDigits 10 n) 0 := by rw [h]
    _ = n := Nat.ofDigitChars_ten_toDigits

theorem reservationKey_inj {w w' d d'} :
    reservationKey w d = reservationKey w' d' ↔ w = w' ∧ d = d' := by
  refine ⟨fun h => ?_, fun ⟨hw, hd⟩ => hw ▸ hd ▸ rfl⟩
  have h := congrArg String.toList h
  rw [toList_reservationKey, toList_reservationKey] at h
  have hsplit := List.append_eq_append_iff.mp h
  have hcolon := colon_not_mem_toDigits d
  have hcolon' := colon_not_mem_toDigits d'
  rcases hsplit with ⟨t, _, ht⟩ | ⟨t, hw, ht⟩
  · cases t with
    | nil =>
      grind [String.toList_inj.mp, toDigits_ten_inj]
    | cons c t =>
      grind [List.mem_cons_self]
  · cases t with
    | nil =>
      grind [String.toList_inj.mp, toDigits_ten_inj]
    | cons c t =>
      grind [List.mem_cons_self]

end MemoryBudget

end Sardeenz
