/-
# `Sardeenz.Proxy.Slots` — the counters of the parking lot

A reservation holds the lock of `per_model` from its first check to its end and changes
the two atomic counters under it; the drop of a guard takes the lock only for its last
counter.  So a counter is at any time the sum of what each request has put into it and
not yet taken out:

    global         from `globalAdded` (or `globalOver`) to the first step of the drop
    parked_bytes   from `bytesAdded` (or `bytesOver`) to the second
    per_model      from the end of the reservation to the third

**Proved here.**  That sum, and with it the equalities between the counters and the
guards, the three limits, and that a failed reservation leaves no trace
(`parking_books`).
-/
import Mathlib.Algebra.BigOperators.Group.Finset.Piecewise
import Sardeenz.Proxy.Parking

namespace Sardeenz.Proxy.Parking

open Interleave

/-! ## What a request counts for -/

def Stage.live : Stage → Bool
  | .asking | .triggering | .answered _ | .subscribing | .reading _ _ | .waiting _ _ | .found _
  | .leaving => true
  | _ => false

def Stage.reserving : Stage → Bool
  | .checked | .bytesOver | .bytesAdded | .globalOver | .globalBack | .globalAdded => true
  | _ => false

def Stage.halfWay : Stage → Bool
  | .leavingBytes | .leavingModel => true
  | stage => stage.reserving

def Stage.inGlobal : Stage → Bool
  | .globalAdded => true
  | stage => stage.live

def Stage.inBytes : Stage → Bool
  | .bytesAdded | .globalOver | .globalBack | .globalAdded | .leavingBytes => true
  | stage => stage.live

def Stage.inModel : Stage → Bool
  | .leavingBytes | .leavingModel => true
  | stage => stage.live

namespace Request

def globalShare (k : Request) : Nat := if k.stage.inGlobal || k.stage = .globalOver then 1 else 0

def bytesShare (k : Request) : Nat :=
  if k.stage.inBytes || k.stage = .bytesOver then k.bodyLen else 0

def modelShare (m : String) (k : Request) : Nat :=
  if k.stage.inModel ∧ k.modelName = m then 1 else 0

end Request

/-- What a step of a request does to the counters. -/
structure BooksMove (config : ParkingConfig) (w : Lot) (k : Request) (w' : Lot) (k' : Request) :
    Prop where
  global : w'.global + k.globalShare = w.global + k'.globalShare
  bytes : w'.parkedBytes + k.bytesShare = w.parkedBytes + k'.bytesShare
  model : ∀ m, w'.perModel m + k.modelShare m = w.perModel m + k'.modelShare m
  lock : w'.locked.toNat + k.stage.reserving.toNat = w.locked.toNat + k'.stage.reserving.toNat
  globalLimit : k'.stage.inGlobal = true → k.stage.inGlobal = true ∨ w.global < config.maxGlobal
  bytesLimit : k'.stage.inBytes = true →
    k.stage.inBytes = true ∨ w.parkedBytes + k.bodyLen ≤ config.maxBytes
  /-- A reservation begins below the limit; while it lasts it holds the lock, and the
  counters of the models change only by who holds it or finds it free. -/
  room : k'.stage.reserving = true →
    w'.perModel = w.perModel ∧ (k.stage.reserving = true ∨
      w.perModel k.modelName < config.maxPerModel)
  held : w'.perModel ≠ w.perModel → k.stage.reserving = true ∨ w.locked = false
  modelLimit : ∀ m, w.perModel m < w'.perModel m → m = k.modelName ∧ k.stage.reserving = true

variable {config : ParkingConfig} {cache : RoutingMap} {s : System} {n : Nat} {i : Input}
  {w w' : Lot} {k k' : Request}

theorem books_move (hglobal : k.globalShare ≤ w.global) (hbytes : k.bytesShare ≤ w.parkedBytes)
    (hmodel : ∀ m, k.modelShare m ≤ w.perModel m)
    (hlock : k.stage.reserving = true → w.locked = true)
    (h : move config n i w k = some (w', k')) :
    BooksMove config w k w' k' ∧ k'.modelName = k.modelName ∧ k'.bodyLen = k.bodyLen := by
  revert h
  fun_cases move config n i w k
  all_goals
    intro h
    cases h
  all_goals
    refine ⟨?_, rfl, rfl⟩
    constructor
  all_goals
    simp_all [Request.goTo, Request.leave, Request.reject, Request.globalShare,
      Request.bytesShare, Request.modelShare, Stage.inGlobal, Stage.inBytes, Stage.inModel,
      Stage.live, Stage.reserving]
  all_goals grind -ring -linarith

/-! ## The books -/

/-- The books are right: every counter is the sum of the shares, one reservation at most
is half-way, and what is within a limit is within it. -/
structure Books (config : ParkingConfig) (s : System) : Prop where
  global : s.world.global = total Request.globalShare s.tasks
  bytes : s.world.parkedBytes = total Request.bytesShare s.tasks
  model : ∀ m, s.world.perModel m = total (Request.modelShare m) s.tasks
  lock : s.world.locked.toNat = total (·.stage.reserving.toNat) s.tasks
  globalLimit : total (·.stage.inGlobal.toNat) s.tasks ≤ config.maxGlobal
  bytesLimit : total (fun k => if k.stage.inBytes then k.bodyLen else 0) s.tasks ≤ config.maxBytes
  modelLimit : ∀ m, s.world.perModel m ≤ config.maxPerModel
  room : ∀ (j : Nat) k, s.tasks[j]? = some k → k.stage.reserving = true →
    s.world.perModel k.modelName < config.maxPerModel

theorem Books.move (hs : Books config s) (hk : s.tasks[n]? = some k)
    (h : Parking.move config n i s.world k = some (w', k')) :
    Books config ⟨w', s.tasks.set n k'⟩ := by
  have hlocked := hs.lock
  have hle := le_total (·.stage.reserving.toNat) hk
  have hlock : k.stage.reserving = true → s.world.locked = true := by
    grind
  obtain ⟨hmove, _, hlen⟩ := books_move (hs.global ▸ le_total _ hk) (hs.bytes ▸ le_total _ hk)
    (fun m => hs.model m ▸ le_total _ hk) hlock h
  constructor
  · exact eq_total_set _ hk hs.global hmove.global
  · exact eq_total_set _ hk hs.bytes hmove.bytes
  · exact fun m => eq_total_set _ hk (hs.model m) (hmove.model m)
  · exact eq_total_set _ hk hs.lock hmove.lock
  · refine total_set_le (g := Request.globalShare) (fun k => ?_) hk hs.globalLimit ?_
    · simp only [Request.globalShare]
      cases k.stage.inGlobal <;> simp
    · rw [← hs.global]
      cases hin : k'.stage.inGlobal with
      | false => exact .inl (Nat.zero_le _)
      | true => exact (hmove.globalLimit hin).imp (fun hold => by simp [hold]) id
  · refine total_set_le (g := Request.bytesShare) (fun k => ?_) hk hs.bytesLimit ?_
    · simp only [Request.bytesShare]
      cases k.stage.inBytes <;> simp
    · rw [← hs.bytes, hlen]
      cases hin : k'.stage.inBytes with
      | false => exact .inl (Nat.zero_le _)
      | true => exact (hmove.bytesLimit hin).imp (fun hold => by simp [hold]) id
  · intro m
    by_cases hm : s.world.perModel m < w'.perModel m
    · obtain ⟨rfl, hreserving⟩ := hmove.modelLimit m hm
      have hroom := hs.room n k hk hreserving
      have hshare := hmove.model k.modelName
      have : k'.modelShare k.modelName ≤ 1 := by
        unfold Request.modelShare
        split <;> omega
      grind
    · exact (Nat.le_of_not_lt hm).trans (hs.modelLimit m)
  · refine (forall_getElem?_set hk).mpr ⟨fun hreserving => ?_, fun j k₂ hj hk₂ hreserving => ?_⟩
    · grind [hmove.room, hs.room]
    · have hadd := add_le_total (·.stage.reserving.toNat) hk hk₂ hj
      have hsame : w'.perModel = s.world.perModel := by
        grind [hmove.held]
      rw [hsame]
      exact hs.room j k₂ hk₂ hreserving

theorem books_of_reach (hr : Reach (step config) anyStep (start cache) s) : Books config s := by
  refine Pool.reach_inv ?_ ?_ ?_ ?_ hr
  · exact ⟨rfl, rfl, fun _ => rfl, rfl, Nat.zero_le _, Nat.zero_le _, fun _ => Nat.zero_le _,
      fun j k hj => by cases hj⟩
  · intro s a ⟨hglobal, hbytes, hmodel, hlock, hg, hb, hm, hroom⟩ _
    constructor
    case room => exact forall_getElem?_append.mpr ⟨nofun, hroom⟩
    all_goals simp_all [rules, Request.globalShare, Request.bytesShare, Request.modelShare,
      Stage.inGlobal, Stage.inBytes, Stage.inModel, Stage.live, Stage.reserving]
  · exact fun s n i k w _ hs _ hk h => hs.move hk h
  · intro s e w ⟨hglobal, hbytes, hmodel, hlock, hg, hb, hm, hroom⟩ _ h
    have hsame := change_eq_some h
    constructor
    case room => simpa only [hsame] using hroom
    all_goals simp_all

/-! ## What follows -/

abbrev Quiet (s : System) : Prop := ∀ k ∈ s.tasks, k.stage.halfWay = false

theorem shares_quiet (h : k.stage.halfWay = false) : k.globalShare = k.stage.live.toNat ∧
    k.bytesShare = (if k.stage.live then k.bodyLen else 0) ∧
    ∀ m, k.modelShare m = if k.stage.live ∧ k.modelName = m then 1 else 0 := by
  cases hstage : k.stage <;>
    simp_all [Stage.halfWay, Stage.reserving, Stage.live, Request.globalShare, Request.bytesShare,
      Request.modelShare, Stage.inGlobal, Stage.inBytes, Stage.inModel]

theorem live_le (stage : Stage) (h : stage.live = true) :
    stage.inGlobal = true ∧ stage.inBytes = true ∧ stage.inModel = true := by
  cases stage <;> simp_all [Stage.inGlobal, Stage.inBytes, Stage.inModel]

theorem total_congr_quiet (hq : Quiet s) {f g}
    (h : ∀ k, k.stage.halfWay = false → f k = g k) : total f s.tasks = total g s.tasks :=
  congrArg List.sum (List.map_congr_left fun k hk => h k (hq k hk))

theorem sum_total_model (ms : Finset String) (tasks : List Request)
    (h : ∀ k ∈ tasks, k.stage.live = true → k.modelName ∈ ms) :
    ∑ m ∈ ms, total (fun k => if k.stage.live ∧ k.modelName = m then 1 else 0) tasks =
      total (·.stage.live.toNat) tasks := by
  induction tasks with
  | nil => simp
  | cons k tasks ih =>
    simp only [total_cons, Finset.sum_add_distrib, ih fun k hk => h k (List.mem_cons_of_mem _ hk)]
    cases hlive : k.stage.live with
    | false => simp
    | true => simp [h k List.mem_cons_self hlive]

/-- **The accounting of parking.**  In every run of any number of requests, on any
threads: once no reservation and no drop is half-way, the global counter is the number
of live guards and the sum of the counters of the models, and the byte counter is the
sum of the lengths of their bodies; at all times the live guards are within the three
limits; and a failed reservation leaves all counters as they were. -/
theorem parking_books (hr : Reach (step config) anyStep (start cache) s) :
    (Quiet s → s.world.global = total (·.stage.live.toNat) s.tasks ∧
      (∀ ms : Finset String, (∀ k ∈ s.tasks, k.stage.live = true → k.modelName ∈ ms) →
        ∑ m ∈ ms, s.world.perModel m = s.world.global) ∧
      s.world.parkedBytes = total (fun k => if k.stage.live then k.bodyLen else 0) s.tasks) ∧
    (total (·.stage.live.toNat) s.tasks ≤ config.maxGlobal ∧
      total (fun k => if k.stage.live then k.bodyLen else 0) s.tasks ≤ config.maxBytes ∧
      ∀ m, total (fun k => if k.stage.live ∧ k.modelName = m then 1 else 0) s.tasks ≤
        config.maxPerModel) ∧
    ∀ s' : System, Reach (step config) anyStep (start cache) s' → ∀ (n : Nat) (k k' : Request),
      s.tasks[n]? = some k → k.stage = .arriving → k'.stage = .gone →
      s'.tasks = s.tasks.set n k' → s'.world.global = s.world.global ∧
        s'.world.parkedBytes = s.world.parkedBytes ∧ s'.world.perModel = s.world.perModel := by
  have hs := books_of_reach hr
  refine ⟨fun hq => ?_, ⟨?_, ?_, fun m => ?_⟩, fun s' hr' n k k' hk harriving hgone hset => ?_⟩
  · have hglobal := hs.global.trans (total_congr_quiet hq fun k hk => (shares_quiet hk).1)
    refine ⟨hglobal, fun ms hms => ?_, hs.bytes.trans (total_congr_quiet hq fun k hk =>
      (shares_quiet hk).2.1)⟩
    rw [hglobal, ← sum_total_model ms s.tasks hms]
    refine Finset.sum_congr rfl fun m _ => (hs.model m).trans ?_
    exact total_congr_quiet hq fun k hk => (shares_quiet hk).2.2 m
  · refine (total_le_total (fun k => ?_) _).trans hs.globalLimit
    cases hlive : k.stage.live with
    | false => exact Nat.zero_le _
    | true => simp [(live_le _ hlive).1]
  · refine (total_le_total (fun k => ?_) _).trans hs.bytesLimit
    cases hlive : k.stage.live with
    | false => exact Nat.zero_le _
    | true => simp [(live_le _ hlive).2.1]
  · refine (total_le_total (fun k => ?_) _).trans
      ((hs.model m).symm.le.trans (hs.modelLimit m))
    cases hlive : k.stage.live with
    | false => simp
    | true => simp [Request.modelShare, (live_le _ hlive).2.2]
  · have hs' := books_of_reach hr'
    have hsame : ∀ f : Request → Nat, f k = 0 → f k' = 0 → total f s'.tasks = total f s.tasks := by
      intro f _ _
      have : total f (s.tasks.set n k') + f k = total f s.tasks + f k' := total_set f hk
      rw [hset]
      omega
    have hzero : ∀ k : Request, k.stage = .arriving ∨ k.stage = .gone → k.globalShare = 0 ∧
        k.bytesShare = 0 ∧ ∀ m, k.modelShare m = 0 := by
      rintro k (hstage | hstage) <;>
        simp [Request.globalShare, Request.bytesShare, Request.modelShare, hstage, Stage.inGlobal,
          Stage.inBytes, Stage.inModel, Stage.live]
    obtain ⟨hg, hb, hm⟩ := hzero k (.inl harriving)
    obtain ⟨hg', hb', hm'⟩ := hzero k' (.inr hgone)
    refine ⟨?_, ?_, funext fun m => ?_⟩
    · rw [hs'.global, hs.global, hsame _ hg hg']
    · rw [hs'.bytes, hs.bytes, hsame _ hb hb']
    · rw [hs'.model, hs.model, hsame _ (hm m) (hm' m)]

def thirdTurnedAway : List Event :=
  parks 0 ++ parks 1 ++ [.arrive ("m", true, 10)] ++ goes 2 1

theorem parking_books_thirdTurnedAway :
    let s := (exec (guarded (step ⟨2, 10, 100⟩) anyStep) (start (shows .sleeping))
      thirdTurnedAway).get (by decide +kernel)
    Quiet s ∧ s.world.global = 2 ∧ s.world.parkedBytes = 20 ∧
      total (·.stage.live.toNat) s.tasks ≤ 10 :=
  ⟨by decide +kernel, rfl, rfl, (parking_books (reach_get (by decide +kernel))).2.1.1⟩

end Sardeenz.Proxy.Parking
