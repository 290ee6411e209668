/-
# `Sardeenz.Memory.Balance` — free bytes and holds agree at every await

Any number of operations of `MemoryBudgetService`, interleaved at their awaits,
over the maps of the process and the memory keys in Redis.  A thread is one
operation; a refresh waits for Redis in between, the others do not wait.

    by a thread            what its next call does (`MemoryWorld.serve`)
    by the environment     a worker stores a report, a key expires, time passes

The free bytes of a device are cached, and every operation recomputes only what
it has touched.  So the equation between them and the holds is carried from
operation to operation (`Balanced`), together with the fact it rests on: every
key is that of a device whose worker's id has no colon.  Then a clear of `w`
reads back, from every key that starts with `w:`, the index of a device of `w`.

**Proved here.**  The equation at every await point of every interleaving
(`available_eq`).
-/
import Sardeenz.Memory.Refresh

namespace Sardeenz

open Interleave AList

namespace MemoryBudget

/-! ## The equation -/

/-- Every entry of the table is that of a device of a worker whose id has no
colon, each report numbers its devices differently, and each device shows the
free bytes that its report and the holds on it leave. -/
structure Balanced (m : MemoryBudget) : Prop where
  keyed : ∀ key ∈ m.reservations.keys, ∃ w i, ':' ∉ w.toList ∧ key = reservationKey w i
  distinct : ∀ w budget, m.budgets.lookup w = some budget →
    (budget.devices.map (·.deviceIndex)).Nodup
  free : ∀ w budget, m.budgets.lookup w = some budget → ∀ d ∈ budget.devices,
    d.availableBytes = freeBytes d.totalBytes d.usedBytes (m.getReservation w d.deviceIndex)

theorem Balanced.empty : Balanced ⟨∅, ∅⟩ := ⟨nofun, nofun, nofun⟩

section
variable {m : MemoryBudget} {w : String} {i : Nat}

/-- **One device at a time.**  The entry of one device changes, and the device
is recomputed: this is what every operation on the holds does. -/
theorem Balanced.touch (h : Balanced m) (hw : ':' ∉ w.toList) (i : Nat)
    {table}
    (hsame : ∀ key, key ≠ reservationKey w i → table.lookup key = m.reservations.lookup key) :
    Balanced ({ m with reservations := table }.recomputeDeviceBudget w i) where
  keyed key hkey := by
    rw [reservations_recomputeDeviceBudget] at hkey
    by_cases hk : key = reservationKey w i
    · exact ⟨w, i, hw, hk⟩
    · refine h.keyed key (mem_keys.mp (lookup_isSome.mp ?_))
      rw [← hsame key hk]
      exact lookup_isSome.mpr (mem_keys.mpr hkey)
  distinct _ _ hb :=
    distinct_recomputeDeviceBudget (m := { m with reservations := table }) h.distinct hb
  free w' budget hb d hd := by
    rw [getReservation_congr (reservations_recomputeDeviceBudget _ w i)]
    refine forall_device_recomputeDeviceBudget (m := { m with reservations := table })
      (P := fun w' d => d.availableBytes = freeBytes d.totalBytes d.usedBytes
        (({ m with reservations := table } : MemoryBudget).getReservation w' d.deviceIndex))
      h.distinct ?_ ?_ hb d hd
    · rintro d rfl havail
      exact havail
    · intro w' budget hb d hd hne
      have hkey : reservationKey w' d.deviceIndex ≠ reservationKey w i :=
        fun hkey => hne (reservationKey_inj.mp hkey)
      rw [getReservation, holdsOn, hsame _ hkey]
      exact h.free w' budget hb d hd

theorem Balanced.releaseKey (h : Balanced m) (instanceId key : String) :
    Balanced (m.releaseKey instanceId key) := by
  unfold MemoryBudget.releaseKey
  cases hl : m.reservations.lookup key with
  | none => exact h
  | some holds =>
    by_cases hmem : instanceId ∈ holds
    · obtain ⟨w, i, hw, rfl⟩ := h.keyed key
        (mem_keys.mp (lookup_isSome.mp (by rw [hl]; rfl)))
      simp only [if_pos hmem, splitKey_reservationKey]
      refine h.touch hw i fun key hkey => ?_
      split
      · exact lookup_erase_ne hkey
      · exact lookup_insert_ne hkey
    · simp only [if_neg hmem]
      exact h

theorem Balanced.releaseInstanceReservations (h : Balanced m) (instanceId : String) :
    Balanced (m.releaseInstanceReservations instanceId) := by
  unfold MemoryBudget.releaseInstanceReservations
  generalize m.reservations.keys = keys
  induction keys generalizing m with
  | nil => exact h
  | cons key keys ih => exact ih (h.releaseKey instanceId key)

theorem eq_of_start {w'} (hw' : ':' ∉ w'.toList)
    (h : StartsWith w (reservationKey w' i).toList) : w' = w := by
  refine (start_prefix_reservationKey.mp h).resolve_right ?_
  rintro ⟨_, hrest⟩
  refine hw' ?_
  rw [← hrest]
  simp

section
variable (h : Balanced m)
include h

theorem Balanced.clearKey (w : String) {w'} (hw' : ':' ∉ w'.toList) (i : Nat) :
    Balanced (m.clearKey w (reservationKey w' i)) := by
  by_cases hstart : StartsWith w (reservationKey w' i).toList
  · obtain rfl := eq_of_start hw' hstart
    grind [MemoryBudget.clearKey, indexOf_drop_self, h.touch, lookup_erase_ne]
  · have hbool : ¬ (w ++ ":").toList.isPrefixOf (reservationKey w' i).toList = true :=
      fun hb => hstart (List.isPrefixOf_iff_prefix.mp hb)
    simp only [MemoryBudget.clearKey, if_neg hbool]
    exact h

theorem Balanced.clearWorkerReservations (w : String) : Balanced (m.clearWorkerReservations w) := by
  unfold MemoryBudget.clearWorkerReservations
  have hkeys := h.keyed
  generalize m.reservations.keys = keys at hkeys
  -- The loop goes over the keys it has found at its start.
  induction keys generalizing m with
  | nil => exact h
  | cons key keys ih =>
    obtain ⟨_, i, hw', rfl⟩ := hkeys key List.mem_cons_self
    exact ih (h.clearKey w hw' i) fun k hk => hkeys k (List.mem_cons_of_mem _ hk)

theorem Balanced.eraseBudget (w : String) : Balanced { m with budgets := m.budgets.erase w } := by
  have hlookup : ∀ w' budget, (m.budgets.erase w).lookup w' = some budget →
      m.budgets.lookup w' = some budget := by
    intro w' budget hb
    by_cases hw : w' = w
    · rw [hw, lookup_erase] at hb
      cases hb
    · rwa [lookup_erase_ne hw] at hb
  refine ⟨h.keyed, fun w' budget hb => ?_, fun w' budget hb => ?_⟩
  · exact h.distinct w' budget (hlookup w' budget hb)
  · exact h.free w' budget (hlookup w' budget hb)

theorem Balanced.dropWorker (w : String) : Balanced (m.dropWorker w) :=
  (h.eraseBudget w).clearWorkerReservations w

theorem Balanced.setBudget {raw} (hraw : raw.Distinct) {now budget} (hparse : m.parseReport raw w now = some budget) :
    Balanced (m.setBudget budget) := by
  refine ⟨h.keyed, fun w b hb => ?_, fun w b hb d hd => ?_⟩
  · rcases lookup_setBudget hraw hparse hb with ⟨hnd, -⟩ | hb
    · exact hnd
    · exact h.distinct w b hb
  · rcases lookup_setBudget hraw hparse hb with ⟨-, hfree⟩ | hb
    · exact hfree d hd
    · exact h.free w b hb d hd

theorem Balanced.applyWorkerReport (w : String) {raw}
    (hraw : ∀ r ∈ raw, r.Distinct) (now : Nat) : Balanced (m.applyWorkerReport w raw now) := by
  cases raw with
  | none => exact h.dropWorker w
  | some raw =>
    simp only [MemoryBudget.applyWorkerReport]
    cases hparse : m.parseReport raw w now with
    | none => exact h.eraseBudget w
    | some => exact h.setBudget (hraw raw rfl) hparse

theorem Balanced.takeReports {replies}
    (hd : DistinctReplies replies) (now : Nat) : Balanced (takeReports now m replies).1 := by
  induction replies generalizing m with
  | nil => exact h
  | cons reply rest ih =>
    have hrest : DistinctReplies rest := fun r hr => hd r (List.mem_cons_of_mem _ hr)
    match reply, hd reply List.mem_cons_self with
    | (_, .error _), _ | (_, .ok none), _ => exact ih h hrest
    | (w, .ok (some raw)), hdistinct =>
      simp only [MemoryBudget.takeReports]
      cases hparse : m.parseReport raw w now with
      | none => exact ih h hrest
      | some => exact ih (h.setBudget (hdistinct raw rfl) hparse) hrest

theorem Balanced.foldl_dropWorker (workers : List String) :
    Balanced (workers.foldl MemoryBudget.dropWorker m) := by
  induction workers generalizing m with
  | nil => exact h
  | cons w workers ih => exact ih (h.dropWorker w)

end

end

end MemoryBudget

/-! ## The system -/

def MemoryText.Distinct (text : MemoryText) : Prop := text.report.Distinct
deriving Decidable

/-- A step of an operation, or around them. -/
inductive MemoryAction (T : Type) where
  | thread (t : T) (i : RedisInput)
  | store (workerId : String) (text : MemoryText)
  | expire (workerId : String)
  | tick (now : Nat)

open MemoryBudget

/-- What the operations do with what they read: reports that number their devices
differently are taken over, and holds are made for workers without a colon. -/
def MemoryUpdate.Proper : MemoryUpdate → Prop
  | .applyWorkerReport _ raw => ∀ r ∈ raw, r.Distinct
  | .reserveCapacity workerId _ _ _ => ':' ∉ workerId.toList
  | .releaseInstanceReservations _ | .clearWorkerReservations _ => True

def memoryContract : Contract MemoryCall MemoryReply Unit Unit where
  allowed _ c :=
    match c with
    | .refresh (.applyReports replies) => DistinctReplies replies
    | .update u => u.Proper
    | _ => True
  expected _ c r :=
    match c, r with
    | .refresh (.getMemoryReports _), .ok (some replies) => DistinctReplies replies
    | .getReport _, .ok (some text) => text.Distinct
    | _, _ => True
  next _ _ _ := ()

abbrev MemoryState (T : Type) := Threads MemoryCall MemoryReply Unit Unit MemoryWorld T

section
variable {T : Type} [DecidableEq T]

def memoryStart (jobs : T → MemoryJob) (now : Nat) : MemoryState T where
  world := { now }
  prog t := (jobs t).program
  loc _ := ()

def memoryStep (s : MemoryState T) : MemoryAction T → Option (MemoryState T)
  | .thread t i => Threads.step memoryContract (fun _ i w c => some (w.serve i c)) s t i
  | .store workerId text =>
    if text.Distinct then
      some { s with world := { s.world with redis := s.world.redis.insert workerId text } }
    else none
  | .expire workerId =>
    some { s with world := { s.world with redis := s.world.redis.erase workerId } }
  | .tick now => some { s with world := { s.world with now } }

end

/-! ## The programs obey the contract -/

section
variable {T : Type} [DecidableEq T]

def MemoryJob.Plain : MemoryJob → Prop
  | .reserveCapacity workerId _ _ _ => ':' ∉ workerId.toList
  | _ => True

theorem MemoryText.distinct_of_truthy {text}
    (h : ∀ x ∈ text, x.Distinct) : ∀ r ∈ MemoryText.truthy text, r.Distinct := by
  intro r hr
  match text, hr with
  | some (.text raw), hr =>
    cases hr
    exact h _ rfl

theorem obeys_refreshAll :
    Obeys memoryContract (fun _ _ => True) MemoryJob.refreshAll.program () := by
  refine ⟨trivial, fun scanned _ => ?_⟩
  match scanned with
  | .error _ => exact trivial
  | .ok [] =>
    refine ⟨trivial, fun cleared _ => ?_⟩
    match cleared with
    | .error _ | .ok _ => exact trivial
  | .ok (w :: ws) =>
    refine ⟨trivial, fun results hresults => ?_⟩
    match results, hresults with
    | .error _, _ | .ok none, _ => exact trivial
    | .ok (some replies), hdistinct =>
      refine ⟨hdistinct, fun applied _ => ?_⟩
      match applied with
      | .error _ => exact trivial
      | .ok _ =>
        refine ⟨trivial, fun written _ => ?_⟩
        match written with
        | .error _ | .ok _ => exact trivial

theorem obeys_refreshWorkerBudget (workerId : String) :
    Obeys memoryContract (fun _ _ => True) (refreshWorkerBudget workerId) () := by
  refine ⟨trivial, fun raw hraw => ?_⟩
  match raw, hraw with
  | .error _, _ => exact trivial
  | .ok none, _ => exact ⟨nofun, fun _ _ => trivial⟩
  | .ok (some text), hdistinct =>
    refine ⟨MemoryText.distinct_of_truthy fun x hx => ?_, fun _ _ => trivial⟩
    cases hx
    exact hdistinct

theorem MemoryJob.obeys {job : MemoryJob} (h : job.Plain) :
    Obeys memoryContract (fun _ _ => True) job.program () := by
  cases job with
  | refreshAll => exact obeys_refreshAll
  | refreshWorkerBudget workerId => exact obeys_refreshWorkerBudget workerId
  | reserveCapacity workerId _ instanceId => exact ⟨h, fun _ _ => trivial⟩
  | releaseInstanceReservations instanceId | clearWorkerReservations workerId =>
    exact ⟨trivial, fun _ _ => trivial⟩

/-! ## Every run -/

/-- The maps agree, and what is stored numbers its devices differently. -/
structure MemoryWorld.Balanced (w : MemoryWorld) : Prop where
  memory : w.memory.Balanced
  stored : ∀ workerId text, w.redis.lookup workerId = some text → text.Distinct

variable {w : MemoryWorld}

theorem MemoryWorld.Balanced.distinctReplies (h : w.Balanced) (failing : String → Bool)
    (workerIds : List String) :
    DistinctReplies (workerIds.map (w.pipelineReply failing)) := by
  intro _ hreply _ hraw
  obtain ⟨workerId, -, rfl⟩ := List.mem_map.mp hreply
  by_cases hf : failing workerId = true
  · grind [pipelineReply]
  · simp only [pipelineReply, if_neg hf] at hraw
    obtain ⟨text, hl, rfl⟩ := Option.map_eq_some_iff.mp (Except.ok.inj hraw)
    exact h.stored workerId text hl

theorem MemoryWorld.Balanced.apply (h : w.Balanced) {u} (hu : u.Proper) :
    (w.apply u).Balanced := by
  cases u with
  | applyWorkerReport workerId => exact h.memory.applyWorkerReport workerId hu w.now
  | reserveCapacity workerId deviceIndex instanceId =>
    exact h.memory.touch hu deviceIndex fun _ hkey => lookup_insert_ne hkey
  | releaseInstanceReservations instanceId => exact h.memory.releaseInstanceReservations instanceId
  | clearWorkerReservations workerId => exact h.memory.clearWorkerReservations workerId

/-- **One call.**  An allowed call keeps the equation, and is answered as the
contract expects. -/
theorem MemoryWorld.Balanced.serve (h : w.Balanced) (i : RedisInput) (c : MemoryCall)
    (hc : memoryContract.allowed () c) :
    memoryContract.expected () c (w.serve i c).2 ∧ (w.serve i c).1.Balanced := by
  match c, hc with
  | .refresh .scanMemoryKeys, _ | .refresh .writeClusterMemorySnapshot, _ => exact ⟨trivial, h⟩
  | .refresh (.getMemoryReports workerIds), _ =>
    refine ⟨?_, h⟩
    simp only [MemoryWorld.serve, ask]
    cases i.down with
    | true => exact trivial
    | false =>
      cases i.noResults with
      | true => exact trivial
      | false => exact h.distinctReplies i.failing workerIds
  | .refresh (.applyReports replies), hd =>
    exact ⟨trivial, (h.memory.takeReports hd w.now).foldl_dropWorker _, h.stored⟩
  | .refresh .clearBudgets, _ => exact ⟨trivial, .empty, h.stored⟩
  | .getReport workerId, _ =>
    refine ⟨?_, h⟩
    simp only [MemoryWorld.serve, ask]
    cases i.down with
    | true => exact trivial
    | false =>
      cases hl : w.redis.lookup workerId with
      | none => exact trivial
      | some text => exact h.stored workerId text hl
  | .update u, hu => exact ⟨trivial, h.apply hu, h.stored⟩

/-- The invariant of every run. -/
structure MemoryInv (s : MemoryState T) : Prop where
  obey : s.Obey memoryContract fun _ _ _ => True
  balanced : s.world.Balanced

theorem MemoryInv.step {s s'} {a : MemoryAction T} (h : MemoryInv s)
    (hs : memoryStep s a = some s') : MemoryInv s' := by
  cases a with
  | thread t i =>
    have hstep : s.step memoryContract (fun _ i w c => some (w.serve i c)) t i = some s' := hs
    obtain ⟨hobey, hbalanced⟩ := Threads.step_obey (J := fun s => s.world.Balanced) h.obey
      (fun c w r _ hc _ hsem => by
        obtain ⟨rfl, rfl⟩ := Prod.mk.inj (Option.some.inj hsem)
        obtain ⟨hexpected, hbalanced⟩ := h.balanced.serve i c hc
        exact ⟨hexpected, fun _ => hbalanced⟩) hstep
    exact ⟨hobey, hbalanced⟩
  | store workerId =>
    obtain ⟨_, hs⟩ := Option.ite_none_right_eq_some.mp hs
    cases hs
    refine ⟨h.obey, h.balanced.memory, fun w x hx => ?_⟩
    grind [lookup_insert, lookup_insert_ne, h.balanced.stored]
  | expire workerId =>
    cases hs
    refine ⟨h.obey, h.balanced.memory, fun w x hx => ?_⟩
    grind [lookup_erase, lookup_erase_ne, h.balanced.stored]
  | tick =>
    cases hs
    exact ⟨h.obey, h.balanced.memory, h.balanced.stored⟩

/-- **The budget invariant.**  Whatever operations run, and however the refreshes
among them are interleaved, at every await point the free bytes of each device
are its total less what is used and less all holds recorded for it, or zero. -/
theorem available_eq {jobs : T → MemoryJob} {now : Nat} {s : MemoryState T}
    (hplain : ∀ t, (jobs t).Plain) (hr : Reach memoryStep anyStep (memoryStart jobs now) s)
    {w : String} {budget : WorkerBudget} (hb : s.world.memory.budgets.lookup w = some budget)
    {d : DeviceBudget} (hd : d ∈ budget.devices) :
    d.availableBytes =
      max 0 (d.totalBytes - d.usedBytes - (s.world.memory.holdsOn w d.deviceIndex).total) := by
  have hinv : MemoryInv s := by
    refine hr.inductive_inv ⟨fun t => MemoryJob.obeys (hplain t), .empty, nofun⟩ ?_
    intro s a _ hs _ hstep
    exact hs.step hstep
  exact hinv.balanced.memory.free w budget hb d hd

end

def holdAndRefresh (t : Fin 2) : MemoryJob :=
  if t = left then .reserveCapacity "w" 0 "i" 4 else .refreshWorkerBudget "w"

/-- The hold is made after the `GET` has answered, and before its answer is
taken over. -/
def heldMeanwhile : List (MemoryAction (Fin 2)) :=
  [.store "w" validReport, .thread right {}, .thread left {}, .thread right {}]

theorem heldMeanwhile_isSome :
    (exec (guarded memoryStep anyStep) (memoryStart holdAndRefresh 0) heldMeanwhile).isSome := by
  decide +kernel

theorem plain_holdAndRefresh : ∀ t, (holdAndRefresh t).Plain := by
  intro t
  unfold holdAndRefresh
  split
  · exact show ':' ∉ "w".toList by decide
  · trivial

def sixLeft : WorkerBudget := ⟨"w", [⟨0, .cuda, 10, 0, 6⟩], 0, false, []⟩

/-- The hold counts, although the refresh had read the report before. -/
theorem heldMeanwhile_available :
    let s := (exec (guarded memoryStep anyStep) (memoryStart holdAndRefresh 0) heldMeanwhile).get
      heldMeanwhile_isSome
    ∀ d ∈ sixLeft.devices, d.availableBytes =
      max 0 (d.totalBytes - d.usedBytes - (s.world.memory.holdsOn "w" d.deviceIndex).total) :=
  fun _ hd => available_eq plain_holdAndRefresh (reach_get heldMeanwhile_isSome)
    (show _ = some sixLeft by decide +kernel) hd

end Sardeenz
