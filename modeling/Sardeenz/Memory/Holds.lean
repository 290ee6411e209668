/-
# `Sardeenz.Memory.Holds` — what the operations keep

Two facts carry everything that is proved about placements.

    Booked m      no device of a budget shows more free bytes than its report and
                  the holds on it leave; no hold is negative
    Fewer m' m    under each key, only instances that had a hold in `m` have one in `m'`

Every operation of the service keeps the first, provided that the reports number
their devices differently.  Every operation but `reserveCapacity` leads to fewer
holds, and `releaseInstanceReservations` leaves its instance with none
(`not_hasHold_releaseInstanceReservations`).
-/
import Mathlib.Algebra.Order.BigOperators.Group.List
import Mathlib.Tactic.Linarith
import Sardeenz.Memory.Budget

namespace Sardeenz

open AList

namespace MemoryBudget

/-! ## Sums of holds -/

def HoldsNonneg (holds : DeviceHolds) : Prop := ∀ e ∈ holds.entries, (0 : ℚ) ≤ e.2

variable {holds : DeviceHolds}

section
variable (h : HoldsNonneg holds) (instanceId : String)
include h instanceId

theorem total_kerase_le : ((holds.entries.kerase instanceId).map (·.2)).sum ≤ holds.total := by
  refine List.Sublist.sum_le_sum ((List.kerase_sublist _ _).map _) fun b hb => ?_
  obtain ⟨e, he, rfl⟩ := List.mem_map.mp hb
  exact h e he

theorem total_insert_le (bytes : ℚ) :
    DeviceHolds.total (holds.insert instanceId bytes) ≤ holds.total + bytes := by
  grind [DeviceHolds.total, entries_insert, total_kerase_le]

end

theorem total_nonneg (h : HoldsNonneg holds) : 0 ≤ holds.total := by
  refine List.sum_nonneg fun b hb => ?_
  obtain ⟨e, he, rfl⟩ := List.mem_map.mp hb
  exact h e he

theorem HoldsNonneg.erase (h : HoldsNonneg holds) (instanceId : String) :
    HoldsNonneg (holds.erase instanceId) :=
  fun e he => h e ((List.kerase_sublist _ _).mem he)

theorem HoldsNonneg.insert (h : HoldsNonneg holds) (instanceId : String) {bytes}
    (hb : 0 ≤ bytes) : HoldsNonneg (holds.insert instanceId bytes) := by
  intro e he
  rcases List.mem_cons.mp he with rfl | he
  · exact hb
  · exact h.erase instanceId e he

/-! ## The inequality between budgets and holds -/

/-- What joins the two maps.  The report of each worker numbers its devices
differently, no hold is negative, and no device shows more free bytes than its
report and the holds on it leave. -/
structure Booked (m : MemoryBudget) : Prop where
  nonneg : ∀ key holds, m.reservations.lookup key = some holds → HoldsNonneg holds
  distinct : ∀ w budget, m.budgets.lookup w = some budget →
    (budget.devices.map (·.deviceIndex)).Nodup
  free : ∀ w budget, m.budgets.lookup w = some budget → ∀ d ∈ budget.devices,
    d.availableBytes ≤ freeBytes d.totalBytes d.usedBytes (m.getReservation w d.deviceIndex)

theorem Booked.empty : Booked ⟨∅, ∅⟩ := ⟨nofun, nofun, nofun⟩

section
variable {m m' : MemoryBudget} {w : String} {i : Nat}

theorem Booked.holdsOn_nonneg (h : Booked m) (w : String) (i : Nat) :
    HoldsNonneg (m.holdsOn w i) := by
  unfold holdsOn
  cases hl : m.reservations.lookup (reservationKey w i) with
  | none => exact nofun
  | some holds => exact h.nonneg _ holds hl

theorem Booked.shrink (h : Booked m)
    (hnonneg : ∀ key holds, m'.reservations.lookup key = some holds → HoldsNonneg holds)
    (hbudgets : ∀ w budget, m'.budgets.lookup w = some budget → m.budgets.lookup w = some budget)
    (hholds : ∀ w i, m'.getReservation w i ≤ m.getReservation w i) : Booked m' where
  nonneg := hnonneg
  distinct w budget hb := h.distinct w budget (hbudgets w budget hb)
  free w budget hb d hd :=
    (h.free w budget (hbudgets w budget hb) d hd).trans
      (max_le_max_left 0 (by linarith [hholds w d.deviceIndex]))

/-! ### recomputeDeviceBudget -/

theorem map_deviceIndex_recomputeFirst (i : Nat) (held : ℚ) (ds : List DeviceBudget) :
    (recomputeFirst i held ds).map (·.deviceIndex) = ds.map (·.deviceIndex) := by
  induction ds with
  | nil => rfl
  | cons d ds =>
    grind [recomputeFirst]

theorem mem_recomputeFirst {held x} :
    ∀ {ds : List DeviceBudget}, (ds.map (·.deviceIndex)).Nodup → x ∈ recomputeFirst i held ds →
      (x.deviceIndex = i ∧ x.availableBytes = freeBytes x.totalBytes x.usedBytes held) ∨
        (x.deviceIndex ≠ i ∧ x ∈ ds)
  | d :: ds, hnd, hx => by
    obtain ⟨_, hnd⟩ := List.nodup_cons.mp hnd
    by_cases hd : d.deviceIndex = i
    · grind [recomputeFirst]
    · rw [recomputeFirst, if_neg hd] at hx
      rcases List.mem_cons.mp hx with rfl | hx
      · exact .inr ⟨hd, List.mem_cons_self⟩
      · exact (mem_recomputeFirst hnd hx).imp_right fun h => ⟨h.1, List.mem_cons_of_mem _ h.2⟩

@[simp] theorem reservations_recomputeDeviceBudget (m : MemoryBudget) (w : String) (i : Nat) :
    (m.recomputeDeviceBudget w i).reservations = m.reservations := by
  unfold recomputeDeviceBudget
  split
  · rfl
  · rfl

theorem getReservation_congr (h : m'.reservations = m.reservations) (w : String) (i : Nat) :
    m'.getReservation w i = m.getReservation w i := by
  rw [getReservation, holdsOn, h]
  rfl

variable {budget : WorkerBudget} {id w' workerId instanceId : String}

theorem lookup_recomputeDeviceBudget
    (h : (m.recomputeDeviceBudget w i).budgets.lookup w' = some budget) :
    ∃ old, m.budgets.lookup w' = some old ∧ (budget = old ∧ w' ≠ w ∨ w' = w ∧ budget = { old with
          devices := recomputeFirst i (m.getReservation w i) old.devices }) := by
  unfold recomputeDeviceBudget at h
  cases hl : m.budgets.lookup w with
  | none =>
    grind
  | some old =>
    by_cases hw : w' = w
    · grind [lookup_insert]
    · grind [lookup_insert_ne]

section
variable
  (hdistinct : ∀ w budget, m.budgets.lookup w = some budget → (budget.devices.map (·.deviceIndex)).Nodup)
include hdistinct

theorem distinct_recomputeDeviceBudget
    (hb : (m.recomputeDeviceBudget w i).budgets.lookup w' = some budget) :
    (budget.devices.map (·.deviceIndex)).Nodup := by
  grind [lookup_recomputeDeviceBudget, map_deviceIndex_recomputeFirst]

/-- After recomputing a device, what is said of the cached devices holds again
if it held of the others and holds of one with its free bytes computed anew. -/
theorem forall_device_recomputeDeviceBudget {P : String → DeviceBudget → Prop}
    (hself : ∀ d, d.deviceIndex = i → d.availableBytes = freeBytes d.totalBytes d.usedBytes (m.getReservation w i) → P w d)
    (hothers : ∀ w' budget, m.budgets.lookup w' = some budget → ∀ d ∈ budget.devices, ¬ (w' = w ∧ d.deviceIndex = i) → P w' d)
    (hb : (m.recomputeDeviceBudget w i).budgets.lookup w' = some budget) :
    ∀ d ∈ budget.devices, P w' d := by
  grind [lookup_recomputeDeviceBudget, mem_recomputeFirst]

end

theorem Booked.recompute
    (hnonneg : ∀ key holds, m.reservations.lookup key = some holds → HoldsNonneg holds)
    (hdistinct : ∀ w budget, m.budgets.lookup w = some budget →
      (budget.devices.map (·.deviceIndex)).Nodup)
    (hfree : ∀ w' budget, m.budgets.lookup w' = some budget → ∀ d ∈ budget.devices,
      ¬ (w' = w ∧ d.deviceIndex = i) →
      d.availableBytes ≤ freeBytes d.totalBytes d.usedBytes (m.getReservation w' d.deviceIndex)) :
    Booked (m.recomputeDeviceBudget w i) where
  nonneg := by
    rw [reservations_recomputeDeviceBudget]
    exact hnonneg
  distinct _ _ hb := distinct_recomputeDeviceBudget hdistinct hb
  free w' budget hb d hd := by
    rw [getReservation_congr (reservations_recomputeDeviceBudget m w i)]
    refine forall_device_recomputeDeviceBudget
      hdistinct ?_ hfree hb d hd
    rintro d rfl havail
    exact le_of_eq havail

theorem Booked.recomputeDeviceBudget (h : Booked m) (w : String) (i : Nat) :
    Booked (m.recomputeDeviceBudget w i) :=
  .recompute h.nonneg h.distinct fun w' budget hb d hd _ => h.free w' budget hb d hd

/-! ### reserveCapacity -/

theorem holdsOn_insert_self (m : MemoryBudget) (w : String) (i : Nat) (holds : DeviceHolds) :
    ({ m with reservations := m.reservations.insert (reservationKey w i) holds } :
      MemoryBudget).holdsOn w i = holds := by
  rw [holdsOn, lookup_insert]
  rfl

theorem holdsOn_insert_ne (m : MemoryBudget) {key} (hne : reservationKey w i ≠ key)
    (holds : DeviceHolds) :
    ({ m with reservations := m.reservations.insert key holds } : MemoryBudget).holdsOn w i =
      m.holdsOn w i := by
  rw [holdsOn, lookup_insert_ne hne]
  rfl

theorem holdsOn_reserveCapacity (m : MemoryBudget) (w : String) (i : Nat) (instanceId : String)
    (bytes : ℚ) (w' : String) (i' : Nat) :
    (m.reserveCapacity w i instanceId bytes).holdsOn w' i' =
      if w' = w ∧ i' = i then (m.holdsOn w i).insert instanceId bytes else m.holdsOn w' i' := by
  rw [reserveCapacity, holdsOn, reservations_recomputeDeviceBudget]
  by_cases h : w' = w ∧ i' = i
  · grind [lookup_insert]
  · rw [lookup_insert_ne fun hkey => h (reservationKey_inj.mp hkey), if_neg h]
    rfl

variable {bytes : ℚ}

theorem Booked.reserveCapacity (h : Booked m) (w : String) (i : Nat) (instanceId : String)
    (hb : 0 ≤ bytes) : Booked (m.reserveCapacity w i instanceId bytes) := by
  refine .recompute ?_ h.distinct fun w' budget hbudget d hd hne => ?_
  · intro key holds hl
    by_cases hkey : key = reservationKey w i
    · subst hkey
      rw [lookup_insert] at hl
      cases hl
      exact (h.holdsOn_nonneg w i).insert instanceId hb
    · rw [lookup_insert_ne hkey] at hl
      exact h.nonneg key holds hl
  · rw [getReservation, holdsOn_insert_ne m fun hkey => hne (reservationKey_inj.mp hkey)]
    exact h.free w' budget hbudget d hd

/-! ### Releasing -/

theorem Booked.replaceHolds (h : Booked m) {key holds'}
    (hl : m.reservations.lookup key = some holds) (hnonneg : HoldsNonneg holds')
    (hle : holds'.total ≤ holds.total) :
    Booked { m with reservations := m.reservations.insert key holds' } := by
  refine h.shrink ?_ (fun _ _ hb => hb) fun w i => ?_
  · intro key' _ _
    by_cases hkey : key' = key
    · grind [lookup_insert]
    · grind [lookup_insert_ne, h.nonneg]
  · by_cases hkey : reservationKey w i = key
    · subst hkey
      rw [getReservation, getReservation, holdsOn_insert_self, holdsOn, hl]
      exact hle
    · rw [getReservation, getReservation, holdsOn_insert_ne m hkey]

theorem Booked.eraseKey (h : Booked m) (key : String) :
    Booked { m with reservations := m.reservations.erase key } := by
  refine h.shrink ?_ (fun _ _ hb => hb) fun w i => ?_
  · intro key' holds hl
    by_cases hkey : key' = key
    · subst hkey
      simp_all
    · rw [lookup_erase_ne hkey] at hl
      exact h.nonneg key' holds hl
  · by_cases hkey : reservationKey w i = key
    · subst hkey
      rw [getReservation, holdsOn, lookup_erase]
      exact total_nonneg (h.holdsOn_nonneg w i)
    · rw [getReservation, getReservation, holdsOn, holdsOn, lookup_erase_ne hkey]

theorem Booked.foldl {α : Type} {f}
    (hf : ∀ m a, Booked m → Booked (f m a)) :
    ∀ (as : List α) {m : MemoryBudget}, Booked m → Booked (as.foldl f m)
  | [], _, h => h
  | a :: as, _, h => Booked.foldl hf as (hf _ a h)

theorem Booked.releaseKey (instanceId key : String) (h : Booked m) :
    Booked (m.releaseKey instanceId key) := by
  unfold MemoryBudget.releaseKey
  cases hl : m.reservations.lookup key with
  | none => exact h
  | some holds =>
    by_cases hmem : instanceId ∈ holds
    · have hshrunk : Booked { m with
          reservations := if (holds.erase instanceId).keys.isEmpty then m.reservations.erase key
            else m.reservations.insert key (holds.erase instanceId) } := by
        split
        · exact h.eraseKey key
        · exact h.replaceHolds hl ((h.nonneg key holds hl).erase instanceId)
            (total_kerase_le (h.nonneg key holds hl) instanceId)
      grind [hshrunk.recomputeDeviceBudget]
    · simp only [if_neg hmem]
      exact h

theorem Booked.releaseInstanceReservations (h : Booked m) (instanceId : String) :
    Booked (m.releaseInstanceReservations instanceId) :=
  Booked.foldl (fun _ key hm => hm.releaseKey instanceId key) _ h

theorem Booked.clearKey (workerId key : String) (h : Booked m) :
    Booked (m.clearKey workerId key) := by
  simp only [MemoryBudget.clearKey]
  split
  · split
    · exact (h.eraseKey key).recomputeDeviceBudget _ _
    · exact h.eraseKey key
  · exact h

theorem Booked.clearWorkerReservations (h : Booked m) (workerId : String) :
    Booked (m.clearWorkerReservations workerId) :=
  Booked.foldl (fun _ key hm => hm.clearKey workerId key) _ h

/-! ### Refreshing -/

theorem Booked.eraseBudget (h : Booked m) (workerId : String) :
    Booked { m with budgets := m.budgets.erase workerId } := by
  refine h.shrink h.nonneg (fun w _ _ => ?_) fun w i => le_refl _
  grind [lookup_erase, lookup_erase_ne]

theorem lookup_setBudget {raw} (hraw : raw.Distinct) {now}
    (hparse : m.parseReport raw workerId now = some budget) {b}
    (hb : (m.setBudget budget).budgets.lookup w = some b) :
    ((b.devices.map (·.deviceIndex)).Nodup ∧ ∀ d ∈ b.devices, d.availableBytes =
      freeBytes d.totalBytes d.usedBytes (m.getReservation w d.deviceIndex)) ∨
    m.budgets.lookup w = some b := by
  cases raw with
  | malformed => cases hparse
  | valid =>
    cases hparse
    by_cases hw : w = workerId
    · subst hw
      rw [MemoryBudget.setBudget, lookup_insert] at hb
      cases hb
      refine .inl ⟨?_, fun d hd => ?_⟩
      · rw [List.map_map]
        exact hraw
      · obtain ⟨x, -, rfl⟩ := List.mem_map.mp hd
        rfl
    · rw [MemoryBudget.setBudget, lookup_insert_ne hw] at hb
      exact .inr hb

theorem Booked.setBudget (h : Booked m) {raw} (hraw : raw.Distinct) {now}
    (hparse : m.parseReport raw workerId now = some budget) :
    Booked (m.setBudget budget) := by
  refine ⟨h.nonneg, fun w b hb => ?_, fun w b hb d hd => ?_⟩
  · rcases lookup_setBudget hraw hparse hb with ⟨hnd, -⟩ | hb
    · exact hnd
    · exact h.distinct w b hb
  · rcases lookup_setBudget hraw hparse hb with ⟨-, hfree⟩ | hb
    · exact le_of_eq (hfree d hd)
    · exact h.free w b hb d hd

def DistinctReplies (replies : List (String × PipelineReply)) : Prop :=
  ∀ reply ∈ replies, ∀ raw, reply.2 = .ok (some raw) → raw.Distinct

theorem Booked.takeReports (now : Nat) :
    ∀ {replies : List (String × PipelineReply)} {m : MemoryBudget}, Booked m →
      DistinctReplies replies → Booked (takeReports now m replies).1
  | [], _, h, _ => h
  | (workerId, .ok (some raw)) :: rest, m, h, hd => by
    have hrest : DistinctReplies rest := fun r hr => hd r (List.mem_cons_of_mem _ hr)
    simp only [MemoryBudget.takeReports]
    cases hparse : m.parseReport raw workerId now with
    | none => exact Booked.takeReports now h hrest
    | some =>
      exact Booked.takeReports now (h.setBudget (hd _ List.mem_cons_self raw rfl) hparse) hrest
  | (_, .ok none) :: rest, m, h, hd => by
    have hrest : DistinctReplies rest := fun r hr => hd r (List.mem_cons_of_mem _ hr)
    change Booked (MemoryBudget.takeReports now m rest).1
    exact Booked.takeReports now h hrest
  | (_, .error _) :: rest, m, h, hd => by
    have hrest : DistinctReplies rest := fun r hr => hd r (List.mem_cons_of_mem _ hr)
    change Booked (MemoryBudget.takeReports now m rest).1
    exact Booked.takeReports now h hrest

theorem Booked.applyReports (h : Booked m) {replies}
    (hd : DistinctReplies replies) (now : Nat) : Booked (m.applyReports replies now) :=
  Booked.foldl (fun _ workerId hm => (hm.eraseBudget workerId).clearWorkerReservations workerId) _
    (h.takeReports now hd)

/-! ## Who has a hold -/

def HasHold (m : MemoryBudget) (instanceId : String) : Prop :=
  ∃ key holds, m.reservations.lookup key = some holds ∧ instanceId ∈ holds

theorem hasHold_recomputeDeviceBudget : (m.recomputeDeviceBudget w i).HasHold id ↔ m.HasHold id := by
  rw [HasHold, reservations_recomputeDeviceBudget]
  rfl

theorem hasHold_of_reserveCapacity (h : (m.reserveCapacity w i instanceId bytes).HasHold id) :
    m.HasHold id ∨ id = instanceId := by
  obtain ⟨key, holds, hl, hid⟩ := hasHold_recomputeDeviceBudget.mp h
  by_cases hkey : key = reservationKey w i
  · subst hkey
    rw [lookup_insert] at hl
    cases hl
    rcases (mem_insert _).mp hid with hid | hid
    · exact .inr hid
    · refine .inl ?_
      unfold holdsOn at hid
      cases hold : m.reservations.lookup (reservationKey w i) with
      | none =>
        grind [notMem_empty]
      | some holds =>
        rw [hold] at hid
        exact ⟨_, holds, hold, hid⟩
  · rw [lookup_insert_ne hkey] at hl
    exact .inl ⟨key, holds, hl, hid⟩

def Fewer (m' m : MemoryBudget) : Prop :=
  ∀ key holds', m'.reservations.lookup key = some holds' →
    ∃ holds, m.reservations.lookup key = some holds ∧ ∀ id, id ∈ holds' → id ∈ holds

theorem Fewer.refl (m : MemoryBudget) : Fewer m m := fun _ holds h => ⟨holds, h, fun _ h => h⟩

theorem Fewer.trans {m''} (h : Fewer m'' m') (h' : Fewer m' m) : Fewer m'' m := by
  intro key holds'' hl
  obtain ⟨holds', hl', hsub'⟩ := h key holds'' hl
  obtain ⟨holds, hl, hsub⟩ := h' key holds' hl'
  exact ⟨holds, hl, fun id hid => hsub id (hsub' id hid)⟩

theorem Fewer.hasHold (h : Fewer m' m) (hid : m'.HasHold id) : m.HasHold id := by
  obtain ⟨key, holds', hl, hmem⟩ := hid
  obtain ⟨holds, hl, hsub⟩ := h key holds' hl
  exact ⟨key, holds, hl, hsub id hmem⟩

theorem Fewer.of_eq (h : m'.reservations = m.reservations) : Fewer m' m := by
  intro _ _ _
  grind

theorem Fewer.eraseKey (m : MemoryBudget) (key : String) :
    Fewer { m with reservations := m.reservations.erase key } m := by
  intro key' _ _
  by_cases hkey : key' = key
  · subst hkey
    simp_all
  · grind [lookup_erase_ne]

theorem Fewer.foldl {α : Type} {f}
    (hf : ∀ m a, Fewer (f m a) m) : ∀ (as : List α) (m : MemoryBudget), Fewer (as.foldl f m) m
  | [], m => .refl m
  | a :: as, m => (Fewer.foldl hf as (f m a)).trans (hf m a)

theorem Fewer.clearKey (workerId : String) (m : MemoryBudget) (key : String) :
    Fewer (m.clearKey workerId key) m := by
  simp only [MemoryBudget.clearKey]
  split
  · split
    · exact (Fewer.of_eq (reservations_recomputeDeviceBudget _ _ _)).trans (.eraseKey m key)
    · exact .eraseKey m key
  · exact .refl m

theorem Fewer.clearWorkerReservations (m : MemoryBudget) (workerId : String) :
    Fewer (m.clearWorkerReservations workerId) m :=
  .foldl (fun m key => .clearKey workerId m key) _ m

theorem Fewer.dropWorker (m : MemoryBudget) (workerId : String) : Fewer (m.dropWorker workerId) m :=
  (Fewer.clearWorkerReservations _ workerId).trans (.of_eq rfl)

theorem reservations_takeReports (now : Nat) :
    ∀ (replies : List (String × PipelineReply)) (m : MemoryBudget),
      (takeReports now m replies).1.reservations = m.reservations
  | [], _ => rfl
  | (workerId, .ok (some raw)) :: rest, m => by
    simp only [takeReports]
    cases m.parseReport raw workerId now with
    | none => exact reservations_takeReports now rest m
    | some budget => exact reservations_takeReports now rest (m.setBudget budget)
  | (_, .ok none) :: rest, m | (_, .error _) :: rest, m => reservations_takeReports now rest m

theorem Fewer.applyReports (m : MemoryBudget) (replies : List (String × PipelineReply))
    (now : Nat) : Fewer (m.applyReports replies now) m :=
  (Fewer.foldl Fewer.dropWorker _ _).trans (.of_eq (reservations_takeReports now replies m))

/-! ### releaseInstanceReservations -/

theorem releaseKey_spec (instanceId : String) (m : MemoryBudget) (key : String) :
    (∀ holds, (m.releaseKey instanceId key).reservations.lookup key = some holds →
      instanceId ∉ holds) ∧
    (∀ key', key' ≠ key →
      (m.releaseKey instanceId key).reservations.lookup key' = m.reservations.lookup key') ∧
    Fewer (m.releaseKey instanceId key) m := by
  unfold releaseKey
  cases hl : m.reservations.lookup key with
  | none => exact ⟨fun _ h => absurd (hl.symm.trans h) (Option.some_ne_none _).symm,
      fun _ _ => rfl, .refl m⟩
  | some holds =>
    by_cases hmem : instanceId ∈ holds
    · simp only [if_pos hmem]
      generalize hm : ({ m with
        reservations := if (holds.erase instanceId).keys.isEmpty then m.reservations.erase key
          else m.reservations.insert key (holds.erase instanceId) } : MemoryBudget) = m₁
      have hkey : ∀ h, m₁.reservations.lookup key = some h →
          instanceId ∉ h ∧ ∀ id, id ∈ h → id ∈ holds := by
        intro h hh
        subst hm
        split at hh
        · rw [lookup_erase] at hh
          cases hh
        · rw [lookup_insert] at hh
          cases hh
          exact ⟨fun hid => (mem_erase.mp hid).1 rfl,
            fun id hid => (mem_erase.mp hid).2⟩
      have hother : ∀ key', key' ≠ key →
          m₁.reservations.lookup key' = m.reservations.lookup key' := by
        intro key' hne
        subst hm
        split
        · exact lookup_erase_ne hne
        · exact lookup_insert_ne hne
      have hfewer : Fewer m₁ m := by
        intro key' h hh
        by_cases hne : key' = key
        · grind
        · grind
      split
      · simp only [reservations_recomputeDeviceBudget]
        exact ⟨fun h hh => (hkey h hh).1, hother,
          (Fewer.of_eq (reservations_recomputeDeviceBudget _ _ _)).trans hfewer⟩
      · exact ⟨fun h hh => (hkey h hh).1, hother, hfewer⟩
    · simp only [if_neg hmem]
      refine ⟨fun h hh => ?_, fun _ _ => trivial, .refl m⟩
      grind

theorem Fewer.releaseInstanceReservations (m : MemoryBudget) (instanceId : String) :
    Fewer (m.releaseInstanceReservations instanceId) m :=
  .foldl (fun m key => (releaseKey_spec instanceId m key).2.2) _ m

theorem foldl_releaseKey_not_mem (instanceId : String) :
    ∀ (keys : List String) (m : MemoryBudget) (key : String) (holds : DeviceHolds),
      (keys.foldl (releaseKey instanceId) m).reservations.lookup key = some holds →
      (key ∈ keys ∨ ∀ h, m.reservations.lookup key = some h → instanceId ∉ h) →
      instanceId ∉ holds
  | [], m, key, holds, hl, h => h.elim (fun h => nomatch h) fun h => h holds hl
  | k :: keys, m, key, holds, hl, h => by
    refine foldl_releaseKey_not_mem instanceId keys (m.releaseKey instanceId k) key holds hl ?_
    obtain ⟨_, _, -⟩ := releaseKey_spec instanceId m k
    grind

/-- **A release leaves the instance without a hold.** -/
theorem not_hasHold_releaseInstanceReservations (m : MemoryBudget) (instanceId : String) :
    ¬ (m.releaseInstanceReservations instanceId).HasHold instanceId := by
  rintro ⟨key, holds, hl, hmem⟩
  refine foldl_releaseKey_not_mem instanceId _ m key holds hl ?_ hmem
  obtain ⟨h, hh, -⟩ := Fewer.releaseInstanceReservations m instanceId key holds hl
  exact .inl (mem_keys.mp (lookup_isSome.mp (by simp [hh])))

/-! ## Reserving the devices of a placement -/

def reserveAll (m : MemoryBudget) (workerId instanceId : String) (bytes : ℚ)
    (deviceIndices : List Nat) : MemoryBudget :=
  deviceIndices.foldl (fun m deviceIndex => m.reserveCapacity workerId deviceIndex instanceId bytes)
    m

theorem Booked.reserveAll (h : Booked m) (workerId instanceId : String) (hb : 0 ≤ bytes)
    (deviceIndices : List Nat) :
    Booked (m.reserveAll workerId instanceId bytes deviceIndices) :=
  Booked.foldl (fun _ i hm => hm.reserveCapacity workerId i instanceId hb) deviceIndices h

theorem hasHold_of_reserveAll : ∀ {deviceIndices : List Nat} {m : MemoryBudget},
      (m.reserveAll workerId instanceId bytes deviceIndices).HasHold id →
      m.HasHold id ∨ id = instanceId
  | [], _, h => .inl h
  | j :: js, m, h => by
    change (reserveAll (m.reserveCapacity workerId j instanceId bytes) workerId instanceId bytes
      js).HasHold id at h
    rcases hasHold_of_reserveAll h with h | h
    · exact hasHold_of_reserveCapacity h
    · exact .inr h

theorem holdsOn_reserveAll (workerId instanceId : String) (bytes : ℚ) :
    ∀ (deviceIndices : List Nat) (m : MemoryBudget), deviceIndices.Nodup → ∀ (w : String) (i : Nat),
      (m.reserveAll workerId instanceId bytes deviceIndices).holdsOn w i =
        if w = workerId ∧ i ∈ deviceIndices then (m.holdsOn w i).insert instanceId bytes
        else m.holdsOn w i
  | [], m, _, w, i => by simp [reserveAll]
  | j :: js, m, hnd, w, i => by
    obtain ⟨_, hnd⟩ := List.nodup_cons.mp hnd
    have hrest := holdsOn_reserveAll workerId instanceId bytes js
      (m.reserveCapacity workerId j instanceId bytes) hnd w i
    change (reserveAll (m.reserveCapacity workerId j instanceId bytes) workerId instanceId bytes
      js).holdsOn w i = _
    rw [hrest, holdsOn_reserveCapacity]
    grind

/-- The worker's report, as the leader has it, shows the device with these used
and total bytes. -/
def Reports (m : MemoryBudget) (workerId : String) (i usedBytes totalBytes : Nat) : Prop :=
  ∃ budget, m.budgets.lookup workerId = some budget ∧ ∃ d ∈ budget.devices,
    d.deviceIndex = i ∧ d.usedBytes = usedBytes ∧ d.totalBytes = totalBytes

variable {d : DeviceBudget}

theorem exists_mem_recomputeFirst (i : Nat) (held : ℚ) :
    ∀ {ds : List DeviceBudget}, d ∈ ds → ∃ d' ∈ recomputeFirst i held ds,
      d'.deviceIndex = d.deviceIndex ∧ d'.usedBytes = d.usedBytes ∧ d'.totalBytes = d.totalBytes
  | x :: ds, hd => by
    by_cases hx : x.deviceIndex = i
    · grind [recomputeFirst, List.mem_cons_self]
    · rw [recomputeFirst, if_neg hx]
      rcases List.mem_cons.mp hd with rfl | hd
      · exact ⟨d, List.mem_cons_self, rfl, rfl, rfl⟩
      · obtain ⟨d', hd', heq⟩ := exists_mem_recomputeFirst i held hd
        exact ⟨d', List.mem_cons_of_mem _ hd', heq⟩

theorem Reports.recomputeDeviceBudget {j usedBytes totalBytes}
    (h : m.Reports workerId j usedBytes totalBytes) (w : String) (i : Nat) :
    (m.recomputeDeviceBudget w i).Reports workerId j usedBytes totalBytes := by
  obtain ⟨budget, hb, d, hd, rfl, rfl, rfl⟩ := h
  unfold MemoryBudget.recomputeDeviceBudget
  by_cases hw : workerId = w
  · subst hw
    obtain ⟨d', hd', hi, hu, ht⟩ := exists_mem_recomputeFirst i (m.getReservation workerId i) hd
    rw [hb]
    exact ⟨_, lookup_insert _, d', hd', hi, hu, ht⟩
  · cases hl : m.budgets.lookup w with
    | none => exact ⟨budget, hb, d, hd, rfl, rfl, rfl⟩
    | some => exact ⟨budget, (lookup_insert_ne hw).trans hb, d, hd, rfl, rfl, rfl⟩

theorem Reports.reserveAll {j usedBytes totalBytes} (workerId instanceId : String)
    (bytes : ℚ) : ∀ (deviceIndices : List Nat) {m : MemoryBudget},
      m.Reports w j usedBytes totalBytes →
      (m.reserveAll workerId instanceId bytes deviceIndices).Reports w j usedBytes totalBytes
  | [], _, h => h
  | i :: is, m, h =>
    Reports.reserveAll workerId instanceId bytes is
      (Reports.recomputeDeviceBudget (m := { m with
        reservations := m.reservations.insert (reservationKey workerId i)
          ((m.holdsOn workerId i).insert instanceId bytes) }) h workerId i)

/-- **A reservation within the free bytes leaves the device within its total.** -/
theorem Booked.reserveAll_le (h : Booked m) (hb : 0 < bytes) {deviceIndices}
    (hnd : deviceIndices.Nodup) (hbudget : m.budgets.lookup workerId = some budget) (hd : d ∈ budget.devices) (hroom : bytes ≤ d.availableBytes)
    (hmem : d.deviceIndex ∈ deviceIndices) :
    (d.usedBytes : ℚ) + (m.reserveAll workerId instanceId bytes deviceIndices).getReservation
      workerId d.deviceIndex ≤ d.totalBytes := by
  have hfree : bytes ≤ freeBytes d.totalBytes d.usedBytes
      (m.getReservation workerId d.deviceIndex) :=
    hroom.trans (h.free workerId budget hbudget d hd)
  have hleft : bytes ≤ d.totalBytes - d.usedBytes - m.getReservation workerId d.deviceIndex :=
    (le_max_iff.mp hfree).resolve_left (not_le.mpr hb)
  have hheld : (m.reserveAll workerId instanceId bytes deviceIndices).getReservation workerId
      d.deviceIndex ≤ m.getReservation workerId d.deviceIndex + bytes := by
    rw [getReservation, holdsOn_reserveAll _ _ _ _ _ hnd, if_pos ⟨rfl, hmem⟩]
    exact total_insert_le (h.holdsOn_nonneg _ _) instanceId bytes
  linarith

end

end MemoryBudget

end Sardeenz
