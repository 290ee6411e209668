/-
# `Sardeenz.Runners.Memory` — the worker's memory ledger, and its reports

Without NVML a worker reports, for each of its devices, what `WorkerRegistration`
(`registration.ts`) has booked on it.  The bookings are an array as long as the fleet that
is indexed by `deviceIndex`; an index past its end is ignored by a booking and read as 0 by
a report.

    fleet [0, 1]     every booking counts
    fleet [1]        nothing is ever booked on device 1

A report is pushed after each booking and with each heartbeat: its figures are computed,
the runners are asked for their own reports, and only then it is stored.

**Proved here.**  When the figures are the shares of the live runners
(`reported_eq_shares`), and when the stored figures are those of the ledger
(`stored_eq_report`).
-/
import Mathlib.Algebra.BigOperators.Group.List.Basic
import Mathlib.Algebra.Ring.Nat
import Sardeenz.Run

namespace Sardeenz.Runners.Memory

open Interleave List

/-- A booking at an index of the array. -/
def book (f : Nat → Nat) (used : List Nat) (deviceIndex : Nat) : List Nat :=
  if deviceIndex ≥ used.length then used else used.modify deviceIndex f

def allocateMemory (bytes : Nat) : List Nat → Nat → List Nat := book (· + bytes)

/-- `freeMemory`; the difference is cut off at 0. -/
def freeMemory (bytes : Nat) : List Nat → Nat → List Nat := book (· - bytes)

def getDeviceMemoryUsed (used : List Nat) (deviceIndex : Nat) : Nat := used[deviceIndex]?.getD 0

/-- What a `RunnerRecord` says about memory. -/
structure Runner where
  requiredMemory : Nat
  devices : List Nat
deriving DecidableEq, Repr

def Runner.perDeviceMemory (r : Runner) : Nat := r.requiredMemory / r.devices.length

/-- The loop of `startRunner` over the devices. -/
def Runner.allocate (r : Runner) (used : List Nat) : List Nat :=
  r.devices.foldl (allocateMemory r.perDeviceMemory) used

/-- The loop of `stopRunner` and of `handleUnexpectedExit`. -/
def Runner.free (r : Runner) (used : List Nat) : List Nat :=
  r.devices.foldl (freeMemory r.perDeviceMemory) used

/-- What a runner should count for on a device. -/
def Runner.share (r : Runner) (deviceIndex : Nat) : Nat :=
  if deviceIndex ∈ r.devices then r.perDeviceMemory else 0

/-- The bookings, and the records of the live runners. -/
structure Worker where
  deviceMemoryUsed : List Nat
  runners : List Runner := []
deriving DecidableEq, Repr

inductive Event where
  | start (r : Runner)
  | stop (n : Nat)
  | crash (n : Nat)

/-- Both ways to lose a runner take its record away and free its memory. -/
def Worker.lose (s : Worker) (n : Nat) : Option Worker :=
  s.runners[n]?.map fun r => ⟨r.free s.deviceMemoryUsed, s.runners.eraseIdx n⟩

def step (s : Worker) : Event → Option Worker
  | .start r => some ⟨r.allocate s.deviceMemoryUsed, s.runners ++ [r]⟩
  | .stop n | .crash n => s.lose n

/-- A worker with a fleet of so many devices. -/
def idle (devices : Nat) : Worker := { deviceMemoryUsed := List.replicate devices 0 }

def Worker.shares (s : Worker) (deviceIndex : Nat) : Nat :=
  (s.runners.map (·.share deviceIndex)).sum

/-- A runner is started on distinct devices. -/
def distinct (_ : Worker) : Event → Prop
  | .start r => r.devices.Nodup
  | _ => True

instance (s : Worker) (e : Event) : Decidable (distinct s e) := by
  unfold distinct
  split <;> infer_instance

variable {r : Runner} {used : List Nat} {d : Nat}

/-- What a loop over distinct devices does at one index. -/
theorem foldl_book (f : Nat → Nat) {is : List Nat} (his : is.Nodup) (hd : d < used.length) :
    (is.foldl (book f) used).length = used.length ∧ getDeviceMemoryUsed (is.foldl (book f) used) d =
        if d ∈ is then f (getDeviceMemoryUsed used d) else getDeviceMemoryUsed used d := by
  induction is generalizing used with
  | nil => simp
  | cons i is ih =>
    obtain ⟨_, his⟩ := nodup_cons.mp his
    have hlen : (book f used i).length = used.length := by
      grind [book]
    obtain ⟨hl, _⟩ := ih his (hlen ▸ hd)
    exact ⟨hl.trans hlen, by grind [book, getDeviceMemoryUsed]⟩

/-! ## The ledger -/

/-- The bookings below the end of the array are the shares of the live runners. -/
structure Balanced (d : Nat) (s : Worker) : Prop where
  inside : d < s.deviceMemoryUsed.length
  distinct : ∀ r ∈ s.runners, r.devices.Nodup
  used : getDeviceMemoryUsed s.deviceMemoryUsed d = s.shares d

theorem Balanced.lose {s s' n} (hs : Balanced d s) (h : s.lose n = some s') :
    Balanced d s' := by
  obtain ⟨r, hn, rfl⟩ := Option.map_eq_some_iff.mp h
  obtain ⟨hlt, rfl⟩ := List.getElem?_eq_some_iff.mp hn
  have hr := hs.distinct _ (getElem_mem hlt)
  obtain ⟨hlen, hfree⟩ := foldl_book (· - s.runners[n].perDeviceMemory) hr hs.inside
  have hsum := ((getElem_cons_eraseIdx_perm hlt).map (·.share d)).sum_eq
  refine ⟨hlen ▸ hs.inside, fun r hr => hs.distinct r (mem_of_mem_eraseIdx hr), ?_⟩
  -- The share that is freed is part of the sum, so the difference is never cut off.
  have hused := hs.used
  rw [Worker.shares, ← hsum, map_cons, Runner.share] at hused
  refine hfree.trans ?_
  grind [Worker.shares]

theorem Balanced.step {s s' e} (hs : Balanced d s) (hok : Memory.distinct s e)
    (h : step s e = some s') : Balanced d s' := by
  cases e with
  | start r =>
    cases h
    obtain ⟨hlen, halloc⟩ := foldl_book (· + r.perDeviceMemory) hok hs.inside
    refine ⟨hlen ▸ hs.inside, fun r' hr' => ?_, ?_⟩
    · rcases mem_append.mp hr' with hr' | hr'
      · exact hs.distinct r' hr'
      · exact mem_singleton.mp hr' ▸ hok
    · refine halloc.trans ?_
      grind [hs.used, Worker.shares, Runner.share]
  | stop n | crash n => exact hs.lose h

/-- **The figure of a device is the sum of the shares** of the live runners on it, provided
its index is below the number of devices and runners are started on distinct devices. -/
theorem reported_eq_shares {devices : Nat} {s : Worker} (hd : d < devices)
    (hr : Reach step distinct (idle devices) s) :
    getDeviceMemoryUsed s.deviceMemoryUsed d = s.shares d := by
  have hinit : Balanced d (idle devices) := by
    refine ⟨by simpa [idle] using hd, by simp [idle], ?_⟩
    simp [idle, getDeviceMemoryUsed, Worker.shares, hd]
  exact (hr.inductive_inv hinit Balanced.step).used

/-- Two runners on two devices, one of them stopped. -/
def sharedFleet : List Event := [.start ⟨101, [0, 1]⟩, .start ⟨7, [1]⟩, .crash 0]

theorem reported_sharedFleet :
    getDeviceMemoryUsed ((exec (guarded step distinct) (idle 2) sharedFleet).get
      (by decide)).deviceMemoryUsed 1 = 7 :=
  (reported_eq_shares (by decide) (reach_get (by decide))).trans (by decide)

/-- A fleet of one device with index 1: a runner on it is reported as using nothing. -/
theorem device_past_fleet_unbooked : (exec step (idle 1) [.start ⟨100, [1]⟩]).map
      (fun s => (getDeviceMemoryUsed s.deviceMemoryUsed 1, s.shares 1)) = some (0, 100) := by
  decide

/-! ## The reports -/

/-- A push: its figures are still to be computed; they have been computed, of the ledger
after so many bookings, and the runners are being asked; it is stored. -/
inductive Push where
  | building
  | asking (version : Nat) (figures : List Nat)
  | done
deriving DecidableEq, Repr

def Push.version? : Push → Option Nat
  | .asking version _ => some version
  | _ => none

structure Reporting where
  used : List Nat
  /-- How many bookings there have been. -/
  version : Nat := 0
  stored : List Nat
  storedVersion : Nat := 0
  pushes : List Push := []
deriving DecidableEq, Repr

/-- The figures of `buildMemoryReport`. -/
def report (devices used : List Nat) : List Nat := devices.map (getDeviceMemoryUsed used)

inductive Action where
  | allocate (deviceIndex bytes : Nat)
  | free (deviceIndex bytes : Nat)
  | heartbeat
  | compute (n : Nat)
  | write (n : Nat)

/-- A booking pushes a report, unless the index is ignored. -/
def Reporting.book (s : Reporting) (deviceIndex : Nat) (used : List Nat) : Reporting :=
  if deviceIndex ≥ s.used.length then s
  else { s with used, version := s.version + 1, pushes := s.pushes ++ [.building] }

variable (devices : List Nat) (s : Reporting)

def act : Action → Option Reporting
  | .allocate d bytes => some (s.book d (allocateMemory bytes s.used d))
  | .free d bytes => some (s.book d (freeMemory bytes s.used d))
  | .heartbeat => some { s with pushes := s.pushes ++ [.building] }
  | .compute n =>
    match s.pushes[n]? with
    | some .building =>
      some { s with pushes := s.pushes.set n (.asking s.version (report devices s.used)) }
    | _ => none
  | .write n =>
    match s.pushes[n]? with
    | some (.asking version figures) =>
      some { s with stored := figures, storedVersion := version, pushes := s.pushes.set n .done }
    | _ => none

/-- The worker has registered, with nothing booked. -/
def registered : Reporting :=
  let used := List.replicate devices.length 0
  { used, stored := report devices used }

/-- No push stores older figures than those that are stored. -/
def inOrder : Action → Prop
  | .write n => ∀ version ∈ s.pushes[n]?.bind Push.version?, s.storedVersion ≤ version
  | _ => True

instance (s : Reporting) (a : Action) : Decidable (inOrder s a) := by
  unfold inOrder
  split <;> infer_instance

/-- The figures of the last booking. -/
def Push.current (p : Push) : Prop :=
  p = .building ∨ ∃ figures, p = .asking s.version figures

structure Fresh (s : Reporting) : Prop where
  asking : ∀ version figures, .asking version figures ∈ s.pushes →
    version ≤ s.version ∧ (version = s.version → figures = report devices s.used)
  stored : s.storedVersion ≤ s.version ∧
    (s.storedVersion = s.version → s.stored = report devices s.used)
  current : s.storedVersion = s.version ∨ ∃ p ∈ s.pushes, p.current s

variable {devices}

theorem Fresh.book {s} (hs : Fresh devices s) (d : Nat) (used : List Nat) :
    Fresh devices (s.book d used) := by
  unfold Reporting.book
  split
  · exact hs
  · refine ⟨fun version figures h => ?_, ⟨?_, ?_⟩, .inr ⟨.building, by simp, .inl rfl⟩⟩
    · have := hs.asking version figures (by simpa using h)
      grind
    · grind [hs.stored.1]
    · grind [hs.stored.1]

theorem Fresh.act {s s' a} (hs : Fresh devices s) (hok : inOrder s a)
    (h : act devices s a = some s') : Fresh devices s' := by
  obtain ⟨hasking, hstored, hcurrent⟩ := hs
  cases a with
  | allocate d bytes =>
    cases h
    exact Fresh.book ⟨hasking, hstored, hcurrent⟩ _ _
  | free d bytes =>
    cases h
    exact Fresh.book ⟨hasking, hstored, hcurrent⟩ _ _
  | heartbeat =>
    cases h
    exact ⟨by simpa using hasking, hstored, .inr ⟨.building, by simp, .inl rfl⟩⟩
  | compute n =>
    simp only [Memory.act] at h
    split at h <;> cases h
    rename_i hn
    obtain ⟨hlt, -⟩ := List.getElem?_eq_some_iff.mp hn
    refine ⟨fun version figures hmem => ?_, hstored, .inr ⟨_, mem_set hlt _, .inr ⟨_, rfl⟩⟩⟩
    rcases mem_or_eq_of_mem_set hmem with hmem | heq
    · exact hasking version figures hmem
    · cases heq
      exact ⟨Nat.le_refl _, fun _ => rfl⟩
  | write n =>
    simp only [Memory.act] at h
    split at h <;> cases h
    rename_i version figures hn
    have hle : s.storedVersion ≤ version := hok _ (by rw [hn]; rfl)
    have hwritten := hasking version figures (mem_of_getElem? hn)
    refine ⟨fun v f hmem => ?_, hwritten, ?_⟩
    · rcases mem_or_eq_of_mem_set hmem with hmem | heq
      · exact hasking v f hmem
      · cases heq
    · -- Older figures leave the push of the last booking where it was.
      by_cases hv : version = s.version
      · exact .inl hv
      · obtain ⟨p, hp, hcur⟩ := hcurrent.resolve_left (by grind)
        obtain ⟨m, hm⟩ := mem_iff_getElem?.mp hp
        have hne : n ≠ m := by
          rcases hcur with rfl | ⟨f, rfl⟩ <;> grind
        refine .inr ⟨p, mem_of_getElem? (i := m) ?_, hcur⟩
        rw [getElem?_set_ne hne, hm]

/-- **Once every push has been stored, the report is that of the ledger**, if no push
stored older figures over newer ones. -/
theorem stored_eq_report {s : Reporting}
    (hr : Reach (act devices) inOrder (registered devices) s) (hdone : ∀ p ∈ s.pushes, p = .done) :
    s.stored = report devices s.used := by
  have hs : Fresh devices s :=
    hr.inductive_inv ⟨by simp [registered], ⟨Nat.le_refl _, fun _ => rfl⟩, .inl rfl⟩ Fresh.act
  refine hs.stored.2 (hs.current.resolve_right ?_)
  rintro ⟨p, hp, hcur⟩
  have := hdone p hp
  rcases hcur with rfl | ⟨f, rfl⟩ <;> cases this

/-- Memory is booked and freed; each report is stored before the next is computed. -/
def oneByOne : List Action :=
  [.allocate 0 10, .compute 0, .write 0, .free 0 4, .compute 1, .write 1]

theorem stored_oneByOne :
    ((exec (guarded (act [0]) inOrder) (registered [0]) oneByOne).get (by decide)).stored = [6] :=
  (stored_eq_report (reach_get (by decide)) (by decide)).trans (by decide)

/-- The report of the booking is stored after that of the release: 10 bytes stay reported. -/
theorem stale_report_stored : (exec (act [0]) (registered [0])
      [.allocate 0 10, .compute 0, .free 0 10, .compute 1, .write 1, .write 0]).map
      (fun s => (s.pushes, s.stored, report [0] s.used)) = some ([.done, .done], [10], [0]) := by
  decide

end Sardeenz.Runners.Memory
