/-
# `Sardeenz.Memory.Frame` — whose holds the two loops remove

The holds of all workers lie in one map, under `workerId:deviceIndex`.  Two
operations go over all its keys:

    releaseInstanceReservations i   takes the instance out of every entry, and finds the
                                    worker at the LAST colon of the key
    clearWorkerReservations w       removes every entry whose key STARTS with `w:`

The first way of reading a key is the inverse of writing it
(`splitKey_reservationKey`).  The second is not: `a:b:0` is the key of device 0
of worker `a:b`, and it starts with `a:` too (`start_prefix_reservationKey`).

**Proved here.**  What both loops leave of any table (`holdsOn_clearWorkerReservations`,
`holdsOn_releaseInstanceReservations`), and when that is right (`holdFrame_iff`).
-/
import Sardeenz.Memory.Holds

namespace Sardeenz

open AList

namespace MemoryBudget

/-! ## Reading a key -/

theorem indexOf_toDigits (i : Nat) : indexOf (Nat.toDigits 10 i) = some i := by
  have hdigits : (Nat.toDigits 10 i).all Char.isDigit = true :=
    List.all_eq_true.mpr fun c hc => Nat.isDigit_of_mem_toDigits (by decide) (by decide) hc
  rw [indexOf, if_pos hdigits, Nat.ofDigitChars_ten_toDigits]

/-- **The last colon gives the worker and the device back.** -/
@[simp] theorem splitKey_reservationKey (w : String) (i : Nat) :
    splitKey (reservationKey w i) = (w, some i) := by
  have hcolon : ∀ c ∈ (Nat.toDigits 10 i).reverse, (decide (c ≠ ':')) = true := by
    grind [colon_not_mem_toDigits]
  have hchars : (reservationKey w i).toList.reverse =
      (Nat.toDigits 10 i).reverse ++ ':' :: w.toList.reverse := by
    rw [toList_reservationKey]
    simp
  simp only [splitKey, hchars]
  rw [List.takeWhile_append_of_pos hcolon, List.dropWhile_append_of_pos hcolon]
  simp [indexOf_toDigits]

/-- `workerId:`, as a text that another text starts with. -/
def StartsWith (w : String) (text : List Char) : Prop := (w ++ ":").toList <+: text
deriving Decidable

theorem toList_start (w : String) : (w ++ ":").toList = w.toList ++ [':'] := by simp

/-- **What starts with `w:`**: the keys of the worker, and those of the workers
whose ids start with `w:` themselves. -/
theorem start_prefix_reservationKey {w w' i} :
    StartsWith w (reservationKey w' i).toList ↔ w' = w ∨ StartsWith w w'.toList := by
  unfold StartsWith
  rw [toList_start, toList_reservationKey]
  constructor
  · rintro ⟨rest, h⟩
    rcases List.append_eq_append_iff.mp h with ⟨t, hw', -⟩ | ⟨t, hw, _⟩
    · exact .inr ⟨t, hw'.symm⟩
    · cases t with
      | nil => exact .inr ⟨[], by simpa using hw⟩
      | cons c t =>
        rcases List.eq_nil_or_concat t with rfl | ⟨_, _, rfl⟩
        · grind [List.append_inj', String.toList_inj.mp]
        · -- Then the colon after `w` would be one of the digits.
          grind [List.append_inj', colon_not_mem_toDigits]
  · rintro (rfl | ⟨rest, h⟩)
    · exact ⟨Nat.toDigits 10 i, by simp⟩
    · exact ⟨rest ++ ':' :: Nat.toDigits 10 i, by rw [← h]; simp⟩

theorem indexOf_drop_self (w : String) (i : Nat) :
    indexOf ((reservationKey w i).toList.drop (w ++ ":").length) = some i := by
  have hkey : (reservationKey w i).toList = (w ++ ":").toList ++ Nat.toDigits 10 i := by
    rw [toList_reservationKey]
    simp
  rw [hkey, ← String.length_toList, List.drop_left, indexOf_toDigits]

section
variable {m m' : MemoryBudget} {w w' : String} {i j : Nat}

/-! ## The cached devices -/

/-- The device of a worker's budget that `find` finds under an index. -/
def cachedDevice (m : MemoryBudget) (workerId : String) (deviceIndex : Nat) :
    Option DeviceBudget :=
  (m.budgets.lookup workerId).bind fun budget =>
    budget.devices.find? fun d => d.deviceIndex = deviceIndex

theorem find_recomputeFirst (held : ℚ) (h : j ≠ i) (ds : List DeviceBudget) :
    ((recomputeFirst i held ds).find? fun d => d.deviceIndex = j) =
      ds.find? fun d => d.deviceIndex = j := by
  induction ds with
  | nil => rfl
  | cons d ds =>
    grind [recomputeFirst]

theorem lookup_recomputeDeviceBudget_ne (h : w' ≠ w) :
    (m.recomputeDeviceBudget w i).budgets.lookup w' = m.budgets.lookup w' := by
  unfold recomputeDeviceBudget
  cases m.budgets.lookup w with
  | none => rfl
  | some => exact lookup_insert_ne h

theorem cachedDevice_recomputeDeviceBudget (h : ¬ (w' = w ∧ j = i)) :
    (m.recomputeDeviceBudget w i).cachedDevice w' j = m.cachedDevice w' j := by
  by_cases hw : w' = w
  · subst hw
    unfold cachedDevice recomputeDeviceBudget
    cases hl : m.budgets.lookup w' with
    | none => simp [hl]
    | some =>
      simp only [lookup_insert]
      exact find_recomputeFirst _ (fun hj => h ⟨rfl, hj⟩) _
  · rw [cachedDevice, lookup_recomputeDeviceBudget_ne hw]
    rfl

/-! ## clearWorkerReservations -/

theorem lookup_clearKey (key key' : String) : (m.clearKey w key).reservations.lookup key' =
      if key' = key ∧ StartsWith w key.toList then none else m.reservations.lookup key' := by
  by_cases hstart : StartsWith w key.toList
  · have hbool : (w ++ ":").toList.isPrefixOf key.toList = true :=
      List.isPrefixOf_iff_prefix.mpr hstart
    have hres : (m.clearKey w key).reservations = m.reservations.erase key := by
      grind [clearKey, reservations_recomputeDeviceBudget]
    rw [hres]
    by_cases hkey : key' = key
    · rw [if_pos ⟨hkey, hstart⟩, hkey, lookup_erase]
    · rw [if_neg fun h => hkey h.1, lookup_erase_ne hkey]
  · have hbool : ¬ (w ++ ":").toList.isPrefixOf key.toList = true :=
      fun h => hstart (List.isPrefixOf_iff_prefix.mp h)
    grind [clearKey]

theorem lookup_foldl_clearKey (w key : String) : ∀ (keys : List String) (m : MemoryBudget),
      (keys.foldl (clearKey w) m).reservations.lookup key =
        if key ∈ keys ∧ StartsWith w key.toList then none else m.reservations.lookup key
  | [], m => by simp
  | k :: keys, m => by
    rw [List.foldl_cons, lookup_foldl_clearKey w key keys, lookup_clearKey]
    grind

theorem lookup_clearWorkerReservations (m : MemoryBudget) (w key : String) :
    (m.clearWorkerReservations w).reservations.lookup key =
      if StartsWith w key.toList then none else m.reservations.lookup key := by
  rw [clearWorkerReservations, lookup_foldl_clearKey]
  by_cases hmem : key ∈ m.reservations.keys
  · simp [hmem]
  · have hnone : m.reservations.lookup key = none := lookup_eq_none.mpr hmem
    simp [hnone]

/-- **What a clear leaves of each device.** -/
theorem holdsOn_clearWorkerReservations (m : MemoryBudget) (w w' : String) (i : Nat) :
    (m.clearWorkerReservations w).holdsOn w' i =
      if w' = w ∨ StartsWith w w'.toList then ∅ else m.holdsOn w' i := by
  rw [holdsOn, lookup_clearWorkerReservations]
  by_cases h : StartsWith w (reservationKey w' i).toList
  · rw [if_pos h, if_pos (start_prefix_reservationKey.mp h)]
    rfl
  · rw [if_neg h, if_neg fun h' => h (start_prefix_reservationKey.mpr h')]
    rfl

theorem lookup_budgets_clearWorkerReservations (m : MemoryBudget) (h : w' ≠ w) :
    (m.clearWorkerReservations w).budgets.lookup w' = m.budgets.lookup w' := by
  unfold clearWorkerReservations
  generalize m.reservations.keys = keys
  induction keys generalizing m with
  | nil => rfl
  | cons _ keys =>
    grind [clearKey, lookup_recomputeDeviceBudget_ne]

/-! ## releaseInstanceReservations -/

variable {id : String}

theorem holdsOn_erase_of_not_mem {holds : DeviceHolds} (h : id ∉ holds) : holds.erase id = holds :=
  ext (List.kerase_of_notMem_keys h)

theorem holdsOn_eq (h : m'.reservations = m.reservations) : m'.holdsOn w i = m.holdsOn w i := by
  rw [holdsOn, h]
  rfl

theorem holdsOn_releaseKey (id key : String) : (m.releaseKey id key).holdsOn w i =
      if reservationKey w i = key then (m.holdsOn w i).erase id else m.holdsOn w i := by
  by_cases hkey : reservationKey w i = key
  · subst hkey
    rw [if_pos rfl]
    unfold releaseKey
    cases hl : m.reservations.lookup (reservationKey w i) with
    | none =>
      rw [holdsOn, hl]
      rfl
    | some holds =>
      have hon : m.holdsOn w i = holds := by
        rw [holdsOn, hl]
        rfl
      by_cases hmem : id ∈ holds
      · simp only [if_pos hmem, splitKey_reservationKey]
        rw [holdsOn_eq (reservations_recomputeDeviceBudget _ _ _), hon]
        by_cases hempty : (holds.erase id).keys.isEmpty
        · simp only [if_pos hempty, holdsOn, lookup_erase]
          have hentries : (holds.erase id).entries = [] := by
            simpa [keys, List.keys] using hempty
          exact (ext hentries).symm
        · simp only [if_neg hempty]
          exact holdsOn_insert_self m w i _
      · simp only [if_neg hmem]
        rw [hon, holdsOn_erase_of_not_mem hmem]
  · rw [if_neg hkey, holdsOn, (releaseKey_spec id m key).2.1 _ hkey]
    rfl

theorem holdsOn_foldl_releaseKey (id : String) : ∀ (keys : List String) (m : MemoryBudget),
      (keys.foldl (releaseKey id) m).holdsOn w i =
        if reservationKey w i ∈ keys then (m.holdsOn w i).erase id else m.holdsOn w i
  | [], m => by simp
  | k :: keys, m => by
    rw [List.foldl_cons, holdsOn_foldl_releaseKey id keys, holdsOn_releaseKey]
    by_cases hk : reservationKey w i = k
    · have htwice : ((m.holdsOn w i).erase id).erase id = (m.holdsOn w i).erase id :=
        holdsOn_erase_of_not_mem fun h => (mem_erase.mp h).1 rfl
      simp [hk, htwice]
    · simp [hk]

/-- **What a release leaves of each device.** -/
theorem holdsOn_releaseInstanceReservations (m : MemoryBudget) (id w : String) (i : Nat) :
    (m.releaseInstanceReservations id).holdsOn w i = (m.holdsOn w i).erase id := by
  rw [releaseInstanceReservations, holdsOn_foldl_releaseKey]
  by_cases hmem : reservationKey w i ∈ m.reservations.keys
  · rw [if_pos hmem]
  · have hnone : m.holdsOn w i = ∅ := by
      rw [holdsOn, lookup_eq_none.mpr hmem]
      rfl
    rw [if_neg hmem, hnone]
    rfl

/-! ## Tables that the service builds -/

def Keyed (m : MemoryBudget) : Prop :=
  ∀ key ∈ m.reservations.keys, ∃ w i, key = reservationKey w i

/-- The maps of a process: any budgets, and holds that were made by
`reserveCapacity`, some of which may have been removed since. -/
inductive Built : MemoryBudget → Prop
  | start (budgets : AList fun _ : String => WorkerBudget) : Built ⟨budgets, ∅⟩
  | reserve {m : MemoryBudget} (w : String) (i : Nat) (id : String) (bytes : ℚ) :
      Built m → Built (m.reserveCapacity w i id bytes)
  | release {m : MemoryBudget} (id : String) : Built m → Built (m.releaseInstanceReservations id)
  | clear {m : MemoryBudget} (w : String) : Built m → Built (m.clearWorkerReservations w)

theorem Keyed.reserveCapacity (h : Keyed m) (w : String) (i : Nat) (id : String) (bytes : ℚ) :
    Keyed (m.reserveCapacity w i id bytes) := by
  intro key hkey
  rw [MemoryBudget.reserveCapacity, reservations_recomputeDeviceBudget] at hkey
  rw [keys_insert] at hkey
  rcases List.mem_cons.mp hkey with rfl | hkey
  · exact ⟨w, i, rfl⟩
  · exact h key (List.mem_of_mem_erase hkey)

theorem Keyed.fewer (h : Keyed m) (hf : Fewer m' m) : Keyed m' := by
  intro key hkey
  obtain ⟨holds', hl⟩ := Option.isSome_iff_exists.mp (lookup_isSome.mpr hkey)
  obtain ⟨_, hl, -⟩ := hf key holds' hl
  exact h key (lookup_isSome.mp (by rw [hl]; rfl))

theorem Built.keyed (h : Built m) : Keyed m := by
  induction h with
  | start => exact nofun
  | reserve w i id bytes _ ih => exact ih.reserveCapacity w i id bytes
  | release id _ ih => exact ih.fewer (Fewer.releaseInstanceReservations _ id)
  | clear w _ ih => exact ih.fewer (Fewer.clearWorkerReservations _ w)

theorem cachedDevice_releaseKey (h : id ∉ m.holdsOn w i) (w' : String) (j : Nat) :
    (m.releaseKey id (reservationKey w' j)).cachedDevice w i = m.cachedDevice w i := by
  unfold releaseKey
  cases hl : m.reservations.lookup (reservationKey w' j) with
  | none => rfl
  | some holds =>
    by_cases hmem : id ∈ holds
    · have hne : ¬ (w = w' ∧ i = j) := by
        rintro ⟨rfl, rfl⟩
        rw [holdsOn, hl] at h
        exact h hmem
      simp only [if_pos hmem, splitKey_reservationKey]
      rw [cachedDevice_recomputeDeviceBudget hne]
      rfl
    · simp only [if_neg hmem]

theorem Keyed.cachedDevice_releaseInstanceReservations (hm : Keyed m) (h : id ∉ m.holdsOn w i) :
    (m.releaseInstanceReservations id).cachedDevice w i = m.cachedDevice w i := by
  have hloop : ∀ (keys : List String) (m : MemoryBudget),
      (∀ key ∈ keys, ∃ w i, key = reservationKey w i) → id ∉ m.holdsOn w i →
      (keys.foldl (releaseKey id) m).cachedDevice w i = m.cachedDevice w i := by
    intro keys
    induction keys with
    | nil => exact fun _ _ _ => rfl
    | cons key keys ih =>
      intro m hkeys h
      obtain ⟨w', j, rfl⟩ := hkeys key List.mem_cons_self
      rw [List.foldl_cons, ih _ fun k hk => hkeys k (List.mem_cons_of_mem _ hk)]
      · exact cachedDevice_releaseKey h w' j
      · rw [holdsOn_releaseKey]
        grind [mem_erase.mp]
  exact hloop _ m hm h

/-! ## The frame -/

/-- The two loops touch what they are for, and nothing else: the holds of worker
`w` go and every other worker keeps its holds and its budget; the holds of
instance `id` go, and every device it had none on stays as it is cached. -/
structure HoldFrame (m : MemoryBudget) (w id : String) : Prop where
  cleared : ∀ i, (m.clearWorkerReservations w).holdsOn w i = ∅
  held : ∀ w' i, w' ≠ w → (m.clearWorkerReservations w).holdsOn w' i = m.holdsOn w' i
  cached : ∀ w', w' ≠ w → (m.clearWorkerReservations w).budgets.lookup w' = m.budgets.lookup w'
  released : ∀ w' i, (m.releaseInstanceReservations id).holdsOn w' i = (m.holdsOn w' i).erase id
  kept : ∀ w' i, id ∉ m.holdsOn w' i →
    (m.releaseInstanceReservations id).cachedDevice w' i = m.cachedDevice w' i

/-- **Hold frame.**  A release touches the holds of its instance only.  A clear
of `w` touches the holds of `w` only, exactly if no worker with a hold has an id
that starts with `w:`. -/
theorem holdFrame_iff (h : Built m) (w id : String) :
    HoldFrame m w id ↔ ∀ w' i, m.holdsOn w' i ≠ ∅ → ¬ StartsWith w w'.toList := by
  constructor
  · intro hframe w' i hholds hstart
    have hne : w' ≠ w := by
      rintro rfl
      obtain ⟨_, hrest⟩ := hstart
      have hlength := congrArg List.length hrest
      simp at hlength
    refine hholds ?_
    rw [← hframe.held w' i hne, holdsOn_clearWorkerReservations, if_pos (.inr hstart)]
  · intro hfree
    refine ⟨fun i => ?_, fun w' i hne => ?_, fun w' hne => ?_, fun w' i => ?_, fun w' i hid => ?_⟩
    · rw [holdsOn_clearWorkerReservations, if_pos (.inl rfl)]
    · rw [holdsOn_clearWorkerReservations]
      by_cases hstart : StartsWith w w'.toList
      · rw [if_pos (.inr hstart)]
        exact (not_not.mp fun hholds => hfree w' i hholds hstart).symm
      · rw [if_neg (not_or.mpr ⟨hne, hstart⟩)]
    · exact lookup_budgets_clearWorkerReservations m hne
    · exact holdsOn_releaseInstanceReservations m id w' i
    · exact h.keyed.cachedDevice_releaseInstanceReservations hid

end

def oneHold (w id : String) : MemoryBudget := (⟨∅, ∅⟩ : MemoryBudget).reserveCapacity w 0 id 1

theorem holdsOn_oneHold (w id : String) (w' : String) (i : Nat) :
    (oneHold w id).holdsOn w' i = if w' = w ∧ i = 0 then (∅ : DeviceHolds).insert id 1 else ∅ :=
  holdsOn_reserveCapacity _ _ _ _ _ _ _

/-- A worker without a colon in its id, among others like it. -/
theorem holdFrame_plain : HoldFrame (oneHold "worker-1" "i") "worker-2" "i" := by
  refine (holdFrame_iff (.reserve _ _ _ _ (.start ∅)) "worker-2" "i").mpr fun w' i h => ?_
  have h : (oneHold "worker-1" "i").holdsOn w' i ≠ ∅ := h
  rw [holdsOn_oneHold] at h
  obtain ⟨rfl, -⟩ := (ite_ne_right_iff.mp h).1
  decide

/-- Worker `a` goes, and worker `a:b` loses its hold with it. -/
theorem clear_removes_holds_of_nested_worker :
    Built (oneHold "a:b" "i") ∧ ¬ HoldFrame (oneHold "a:b" "i") "a" "i" := by
  refine ⟨.reserve _ _ _ _ (.start ∅), fun h => ?_⟩
  have hheld := h.held "a:b" 0 (by decide)
  exact absurd (congrArg keys hheld) (by decide)

end MemoryBudget

end Sardeenz
