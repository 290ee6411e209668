/-
# `Sardeenz.Workers.Events` — workers that join and leave, tick after tick

A reconciliation tick publishes `WORKER_JOINED` for a worker that was not in the
registry before, and `WORKER_LEFT` for one that its heartbeat gives as dead; the
dead worker is then removed from the registry.

    workerIdsBefore
    discoverWorkers             registers every worker that has an info key
    checkHeartbeats
    publishWorkerJoinEvents     registered now, and not in workerIdsBefore
    handleDeadWorkers           WORKER_LEFT, and out of the registry

The registry is in memory, and the removal does not touch Redis: the info key of
a worker stays there when its heartbeat expires.  So the next tick discovers the
dead worker again, announces that it has joined and, a moment later, that it has
left.

**Proved here.**  When arrivals and departures alternate (`events_alternate`), and a
worker that leaves with every tick (`dead_worker_leaves_twice`).
-/
import Sardeenz.Workers.Pool

namespace Sardeenz

open WorkerPool

/-! ## A tick -/

/-- What a tick is answered; `none` where a read fails as a whole. -/
structure TickInput where
  beginsAt : Nat
  endsAt : Nat
  infos : Option (List (String × WorkerPool.InfoReply))
  discovered : Option HeartbeatPipeline
  checked : Option HeartbeatPipeline
  allInstances : Option (List InstanceState)

namespace TickInput

section
variable (heartbeatTimeoutSecs : Nat) (tick : TickInput) (pool : WorkerPool)

def register : WorkerPool × List String :=
  match tick.infos with
  | none => (pool, [])
  | some infos => WorkerPool.registerAll pool infos

/-- The registry after `discoverWorkers`. -/
def afterDiscovery : WorkerPool :=
  match tick.discovered with
  | none => (tick.register pool).1
  | some pipeline =>
    WorkerPool.recordHeartbeats heartbeatTimeoutSecs pipeline (tick.register pool).1
      (tick.register pool).2.zipIdx

/-- The registry after `checkHeartbeats`. -/
def afterCheck : WorkerPool :=
  match tick.checked with
  | none => tick.afterDiscovery heartbeatTimeoutSecs pool
  | some pipeline =>
    (tick.afterDiscovery heartbeatTimeoutSecs pool).checkHeartbeats heartbeatTimeoutSecs pipeline

/-- `publishWorkerJoinEvents`. -/
def joined : List String :=
  (tick.afterCheck heartbeatTimeoutSecs pool).keys.filter fun workerId => workerId ∉ pool

def left : List String :=
  match tick.allInstances with
  | none => []
  | some _ => (tick.afterCheck heartbeatTimeoutSecs pool).getDeadWorkers

def after : WorkerPool :=
  (handleDeadWorkers (tick.afterCheck heartbeatTimeoutSecs pool) tick.allInstances).pool

end

end TickInput

/-! ## What is true of the workers -/

/-- The keys of the workers over time. -/
structure WorkerHistory where
  heartbeat : String → Nat → Option HeartbeatText
  registered : String → Nat → Prop

namespace WorkerHistory

variable (history : WorkerHistory) (heartbeatTimeoutSecs : Nat)

def LiveAt (workerId : String) (now : Nat) : Prop :=
  ∃ heartbeat, history.heartbeat workerId now = some (some heartbeat) ∧
    (now - heartbeat : Int) < heartbeatTimeoutSecs * 1000

def Live (tick : TickInput) (workerId : String) : Prop :=
  ∃ now, tick.beginsAt ≤ now ∧ now ≤ tick.endsAt ∧ history.LiveAt heartbeatTimeoutSecs workerId now

def Gone (tick : TickInput) (workerId : String) : Prop :=
  ∃ now, tick.beginsAt ≤ now ∧ now ≤ tick.endsAt ∧
    (¬ history.LiveAt heartbeatTimeoutSecs workerId now ∨ ¬ history.registered workerId now)

def DiscoversLive (pool : WorkerPool) (tick : TickInput) : Prop :=
  ∀ workerId ∈ (tick.register pool).2, workerId ∉ pool →
    history.Live heartbeatTimeoutSecs tick workerId

/-- `checkHeartbeats` reads the heartbeat of every worker: the pipeline is executed
during the tick, each read returns what is stored, and what was live when it was
read is still younger than the timeout when it is looked at. -/
def ReadsHeartbeats (pool : WorkerPool) (tick : TickInput) : Prop :=
  ∃ pipeline, tick.checked = some pipeline ∧
    tick.beginsAt ≤ pipeline.executedAt ∧ pipeline.executedAt ≤ tick.endsAt ∧
    ∀ id ∈ (tick.afterDiscovery heartbeatTimeoutSecs pool).keys.zipIdx,
      pipeline.reply id.2 = .ok (history.heartbeat id.1 pipeline.executedAt) ∧
        (history.LiveAt heartbeatTimeoutSecs id.1 pipeline.executedAt →
          ∀ heartbeat, history.heartbeat id.1 pipeline.executedAt = some (some heartbeat) →
            (pipeline.processedAt - heartbeat : Int) < heartbeatTimeoutSecs * 1000)

end WorkerHistory

/-! ## What a tick does to one worker -/

namespace TickInput

variable {heartbeatTimeoutSecs : Nat} {tick : TickInput} {pool : WorkerPool} {w : String}

theorem mem_registerAll (w : String) :
    ∀ (infos : List (String × WorkerPool.InfoReply)) (pool : WorkerPool),
      w ∈ (registerAll pool infos).1 ↔
        w ∈ pool ∨ w ∈ (registerAll pool infos).2
  | [], pool => by simp [registerAll]
  | (v, .ok (some (some payload))) :: rest, pool => by
    have hregister : w ∈ pool.register v payload ↔ w = v ∨ w ∈ pool := AList.mem_insert _
    simp only [registerAll, mem_registerAll w rest, List.mem_cons]
    tauto
  | (_, .ok (some none)) :: rest, pool | (_, .ok none) :: rest, pool => mem_registerAll w rest pool
  | (_, .error _) :: rest, pool => mem_registerAll w rest pool

theorem mem_register : w ∈ (tick.register pool).1 ↔ w ∈ pool ∨ w ∈ (tick.register pool).2 := by
  unfold register
  cases tick.infos with
  | none => simp
  | some infos => exact mem_registerAll w infos pool

theorem mem_afterCheck :
    w ∈ tick.afterCheck heartbeatTimeoutSecs pool ↔ w ∈ pool ∨ w ∈ (tick.register pool).2 := by
  have hdiscovery : w ∈ tick.afterDiscovery heartbeatTimeoutSecs pool ↔
      w ∈ (tick.register pool).1 := by
    unfold afterDiscovery
    cases tick.discovered with
    | none => exact Iff.rfl
    | some pipeline => exact mem_recordHeartbeats
  rw [← mem_register, ← hdiscovery]
  unfold afterCheck
  cases tick.checked with
  | none => exact Iff.rfl
  | some pipeline => exact mem_recordHeartbeats

theorem mem_joined : w ∈ tick.joined heartbeatTimeoutSecs pool ↔
      w ∉ pool ∧ w ∈ tick.afterCheck heartbeatTimeoutSecs pool := by
  rw [joined, List.mem_filter, decide_eq_true_iff, and_comm]
  rfl

theorem not_mem_foldl_erase {dead : List String} (h : w ∈ dead ∨ w ∉ pool) :
    w ∉ dead.foldl (fun pool workerId => pool.erase workerId) pool := by
  induction dead generalizing pool with
  | nil => exact h.resolve_left List.not_mem_nil
  | cons v dead =>
    grind [AList.mem_erase.mp]

/-- **The tick, for one worker**: it is in the registry afterwards if it was there
after the check and does not leave. -/
theorem mem_after : w ∈ tick.after heartbeatTimeoutSecs pool ↔
      w ∈ tick.afterCheck heartbeatTimeoutSecs pool ∧ w ∉ tick.left heartbeatTimeoutSecs pool := by
  unfold after left handleDeadWorkers
  cases tick.allInstances with
  | none => simp
  | some allInstances =>
    grind [not_mem_foldl_erase, TickReplies.mem_foldl_erase]

theorem mem_afterCheck_of_left (h : w ∈ tick.left heartbeatTimeoutSecs pool) :
    w ∈ tick.afterCheck heartbeatTimeoutSecs pool := by
  unfold left at h
  cases hall : tick.allInstances with
  | none =>
    grind
  | some allInstances =>
    rw [hall] at h
    exact (mem_getDeadWorkers.mp h).1

theorem exists_read_of_left {pipeline} (hchecked : tick.checked = some pipeline)
    (h : w ∈ tick.left heartbeatTimeoutSecs pool) :
    ∃ i, (w, i) ∈ (tick.afterDiscovery heartbeatTimeoutSecs pool).keys.zipIdx ∧
      resolveHeartbeatStatus (pipeline.reply i).text heartbeatTimeoutSecs pipeline.processedAt =
        .offline := by
  have hmem := mem_afterCheck_of_left h
  have hdead : ¬ WorkerPool.Alive (tick.afterCheck heartbeatTimeoutSecs pool) w := by
    unfold left at h
    cases hall : tick.allInstances with
    | none =>
      grind
    | some allInstances =>
      rw [hall] at h
      exact (mem_getDeadWorkers.mp h).2
  simp only [afterCheck, hchecked] at hmem hdead
  by_contra hnone
  refine hdead (alive_recordHeartbeats ?_ (.inl ?_))
  · grind
  · have hkey := AList.mem_keys.mp (mem_recordHeartbeats.mp hmem)
    obtain ⟨i, hi, hw⟩ := List.mem_iff_getElem.mp hkey
    exact ⟨(w, i), List.mem_zipIdx_iff_getElem?.mpr (by simp [hi, hw]), rfl⟩

end TickInput

/-! ## Tick after tick -/

def poolAt (heartbeatTimeoutSecs : Nat) (pool : WorkerPool) (ticks : Nat → TickInput) :
    Nat → WorkerPool
  | 0 => pool
  | k + 1 => (ticks k).after heartbeatTimeoutSecs (poolAt heartbeatTimeoutSecs pool ticks k)

theorem exists_last {P : Nat → Prop} {a b} (hab : a ≤ b) (ha : P a) (hb : ¬ P b) :
    ∃ k, a ≤ k ∧ k < b ∧ P k ∧ ¬ P (k + 1) := by
  induction b, hab using Nat.le_induction with
  | base => exact absurd ha hb
  | succ b hab =>
    grind

section
variable {heartbeatTimeoutSecs : Nat} {history : WorkerHistory} {pool : WorkerPool}
  {ticks : Nat → TickInput} {w : String} {i j : Nat}

theorem exists_discovered (hij : i < j)
    (hi : w ∈ (ticks i).left heartbeatTimeoutSecs (poolAt heartbeatTimeoutSecs pool ticks i))
    (hj : w ∈ (ticks j).left heartbeatTimeoutSecs (poolAt heartbeatTimeoutSecs pool ticks j)) :
    ∃ k, i < k ∧ k ≤ j ∧ w ∉ poolAt heartbeatTimeoutSecs pool ticks k ∧
      w ∈ ((ticks k).register (poolAt heartbeatTimeoutSecs pool ticks k)).2 := by
  have hgone : w ∉ poolAt heartbeatTimeoutSecs pool ticks (i + 1) := fun h =>
    (TickInput.mem_after.mp h).2 hi
  have hback := TickInput.mem_afterCheck_of_left hj
  by_cases hmem : w ∈ poolAt heartbeatTimeoutSecs pool ticks j
  · obtain ⟨k, hik, hkj, hk, hk'⟩ :=
      exists_last (P := fun k => w ∉ poolAt heartbeatTimeoutSecs pool ticks k) hij hgone
        (not_not_intro hmem)
    have hafter := (TickInput.mem_after.mp (not_not.mp hk')).1
    exact ⟨k, hik, Nat.le_of_lt hkj, hk, (TickInput.mem_afterCheck.mp hafter).resolve_left hk⟩
  · exact ⟨j, hij, Nat.le_refl j, hmem, (TickInput.mem_afterCheck.mp hback).resolve_left hmem⟩

theorem exists_left (hij : i < j)
    (hi : w ∈ (ticks i).joined heartbeatTimeoutSecs (poolAt heartbeatTimeoutSecs pool ticks i))
    (hj : w ∈ (ticks j).joined heartbeatTimeoutSecs (poolAt heartbeatTimeoutSecs pool ticks j)) :
    ∃ k, i ≤ k ∧ k < j ∧
      w ∈ (ticks k).left heartbeatTimeoutSecs (poolAt heartbeatTimeoutSecs pool ticks k) := by
  have hcame := (TickInput.mem_joined.mp hi).2
  have hgone := (TickInput.mem_joined.mp hj).1
  have hleft : ∀ k, w ∈ (ticks k).afterCheck heartbeatTimeoutSecs
      (poolAt heartbeatTimeoutSecs pool ticks k) →
      w ∉ poolAt heartbeatTimeoutSecs pool ticks (k + 1) →
        w ∈ (ticks k).left heartbeatTimeoutSecs (poolAt heartbeatTimeoutSecs pool ticks k) := by
    intro k hk hk'
    by_contra hnot
    exact hk' (TickInput.mem_after.mpr ⟨hk, hnot⟩)
  by_cases hmem : w ∈ poolAt heartbeatTimeoutSecs pool ticks (i + 1)
  · obtain ⟨k, _, _, hk, hk'⟩ :=
      exists_last (P := fun k => w ∈ poolAt heartbeatTimeoutSecs pool ticks k) hij hmem hgone
    grind [TickInput.mem_afterCheck.mpr]
  · exact ⟨i, Nat.le_refl i, hij, hleft i hcame hmem⟩

theorem gone_of_left {tick}
    (hreads : history.ReadsHeartbeats heartbeatTimeoutSecs pool tick)
    (h : w ∈ tick.left heartbeatTimeoutSecs pool) : history.Gone heartbeatTimeoutSecs tick w := by
  obtain ⟨pipeline, hchecked, hbegin, hend, hreplies⟩ := hreads
  obtain ⟨i, hid, hoffline⟩ := TickInput.exists_read_of_left hchecked h
  obtain ⟨hreply, hintime⟩ := hreplies (w, i) hid
  refine ⟨pipeline.executedAt, hbegin, hend, .inl fun hlive => ?_⟩
  obtain ⟨heartbeat, hstored, hyoung⟩ := hlive
  refine resolveHeartbeatStatus_ne_offline.mpr ⟨heartbeat, ?_, ?_⟩ hoffline
  · rw [hreply]
    exact hstored
  · exact hintime ⟨heartbeat, hstored, hyoung⟩ heartbeat hstored

end

/-- **Arrivals and departures alternate with the truth.**  Between two departures
of a worker there is a tick at which its heartbeat was live, if none of these ticks
adds a dead worker to the registry.  Between two arrivals there is a tick at which
it was dead, if the heartbeat reads of these ticks are answered, and in time. -/
theorem events_alternate (heartbeatTimeoutSecs : Nat) (history : WorkerHistory) (pool : WorkerPool)
    (ticks : Nat → TickInput) (w : String) :
    (∀ i j, i < j → (∀ k, i < k → k ≤ j → history.DiscoversLive heartbeatTimeoutSecs
        (poolAt heartbeatTimeoutSecs pool ticks k) (ticks k)) →
      w ∈ (ticks i).left heartbeatTimeoutSecs (poolAt heartbeatTimeoutSecs pool ticks i) →
      w ∈ (ticks j).left heartbeatTimeoutSecs (poolAt heartbeatTimeoutSecs pool ticks j) →
        ∃ k, i < k ∧ k ≤ j ∧ history.Live heartbeatTimeoutSecs (ticks k) w) ∧
      ∀ i j, i < j → (∀ k, i ≤ k → k < j → history.ReadsHeartbeats heartbeatTimeoutSecs
          (poolAt heartbeatTimeoutSecs pool ticks k) (ticks k)) →
        w ∈ (ticks i).joined heartbeatTimeoutSecs (poolAt heartbeatTimeoutSecs pool ticks i) →
        w ∈ (ticks j).joined heartbeatTimeoutSecs (poolAt heartbeatTimeoutSecs pool ticks j) →
          ∃ k, i ≤ k ∧ k < j ∧ history.Gone heartbeatTimeoutSecs (ticks k) w := by
  refine ⟨fun i j hij hlive hi hj => ?_, fun i j hij hreads hi hj => ?_⟩
  · obtain ⟨k, hik, hkj, hnot, hmem⟩ := exists_discovered hij hi hj
    exact ⟨k, hik, hkj, hlive k hik hkj w hmem hnot⟩
  · obtain ⟨k, hik, hkj, hleft⟩ := exists_left hij hi hj
    exact ⟨k, hik, hkj, gone_of_left (hreads k hik hkj) hleft⟩

/-! ### A worker that has died -/

def diedOnce : WorkerHistory where
  heartbeat _ _ := none
  registered workerId _ := workerId = "w"

def deadTick (k : Nat) : TickInput where
  beginsAt := 1000 * k
  endsAt := 1000 * k + 10
  infos := some [("w", .ok (some (some ⟨[], []⟩)))]
  discovered := some ⟨1000 * k + 2, 1000 * k + 3, fun _ => .ok none⟩
  checked := some ⟨1000 * k + 4, 1000 * k + 5, fun _ => .ok none⟩
  allInstances := some []

/-- **A dead worker leaves twice.**  Nobody has seen it alive in between; what the
ticks read is what is stored. -/
theorem dead_worker_leaves_twice : "w" ∈ (deadTick 0).left 30 (poolAt 30 ∅ deadTick 0) ∧
      "w" ∈ (deadTick 1).left 30 (poolAt 30 ∅ deadTick 1) ∧
      (∀ k, diedOnce.ReadsHeartbeats 30 (poolAt 30 ∅ deadTick k) (deadTick k)) ∧
      ∀ k, ¬ diedOnce.Live 30 (deadTick k) "w" := by
  refine ⟨by decide +kernel, by decide +kernel, fun k => ?_, fun k => ?_⟩
  · refine ⟨_, rfl, ?_, ?_, fun _ _ => ⟨rfl, fun _ _ h => by cases h⟩⟩
    all_goals
      simp only [deadTick]
      omega
  · rintro ⟨_, -, -, _, hstored, -⟩
    cases hstored

end Sardeenz
