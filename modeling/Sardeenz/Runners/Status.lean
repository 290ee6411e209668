/-
# `Sardeenz.Runners.Status` — stops, and the status of an instance

`stopRunner` takes the record of a live runner away, and marks a pending one as
cancelled; the start call looks at the mark when its launch begins, when the launcher
hands it the process and when the launcher is done.  The route
`/runners/by-instance/:instanceId/status` (`routes/runners.ts`) asks the manager for the
runner of an instance, which may be one whose launch has failed.

**Proved here.**  What follows a stop (`stop_wins`), and when the status of an instance is
accurate (`status_accurate`).
-/
import Sardeenz.Runners.Manager

namespace Sardeenz.Runners

open Interleave Indexes

variable {config : Config} {s s₁ s₂ : System} {n : Nat} {i : Input} {w w' : Indexes} {k k' : Call}

/-! ## Stops -/

def Input.ofStart : Input → Bool
  | .go | .probed _ | .spawn | .healthy | .fails _ => true
  | _ => false

def Call.stepsLeft (k : Call) : Nat :=
  match k.stage with
  | .rejected _ => 0
  | .queued | .cancelling => 1
  | .resolved => 2
  | .launching => if k.handle then 3 else 4
  | .calling | .probing _ | .returned => 5

/-- A stop has been accepted. -/
structure Stopped (k : Call) : Prop where
  live : k.live = false
  asked : k.handle = true → k.stopAsked = true
  done : k.cancelRequested = true ∨ k.stage = .returned

theorem Stopped.move (hk : Stopped k) (hsound : Sound k)
    (h : Runners.move config n i w k = some (w', k')) :
    Stopped k' ∧ (k.cancelRequested = true → k'.cancelRequested = true) := by
  revert h
  fun_cases Runners.move config n i w k
  all_goals
    intro h
    simp only [allocatePorts, rejects, Option.some.injEq, reduceCtorEq] at h
  all_goals grind -ring -linarith [Stopped]

variable {ok : System → Event → Prop}

theorem sound_of_reach (hr : Reach (step config) ok start s)
    (hk : s.tasks[n]? = some k) : Sound k :=
  (reach_inv (P := fun _ => True) trivial (fun _ _ _ => trivial)
    (fun _ _ _ _ _ _ _ _ _ _ _ => trivial) (fun _ _ _ => trivial) hr).2 n k hk

theorem stopped_stop (hsound : Sound k) (h : move config n .stop w k = some (w', k')) :
    Stopped k' ∧ (k.pending = true → k'.cancelRequested = true) := by
  have hlive := hsound.live
  simp only [move] at h
  grind [Stopped, Call.pending]

theorem rejects_of_cancelled (hsound : Sound k) (hcancelled : k.cancelRequested = true) :
    (k.stepsLeft = 0 → ∃ message, k.stage = .rejected message) ∧
    (k.stepsLeft ≠ 0 → ∃ i, i.ofStart = true ∧ (move config n i w k).isSome = true) ∧
    ∀ i w' k', i.ofStart = true → move config n i w k = some (w', k') →
      k'.stepsLeft < k.stepsLeft := by
  have hpending := hsound.cancelled hcancelled
  refine ⟨?_, ?_, fun i w' k' _ h => ?_⟩
  · grind [Call.stepsLeft]
  · intro _
    cases hstage : k.stage with
    | launching => exact ⟨.fails "", rfl, by simp [move, hstage]⟩
    | queued | resolved | cancelling => exact ⟨.go, rfl, by simp [move, hstage, hcancelled]⟩
    | calling | probing | returned | rejected => simp_all [Call.pending, Call.stepsLeft]
  · revert h
    fun_cases Runners.move config n i w k
    all_goals
      intro h
      simp only [rejects, Option.some.injEq, reduceCtorEq] at h
    all_goals grind -ring -linarith [Call.stepsLeft, Call.pending, Input.ofStart]

/-- **Stop wins over start.**  Once `stopRunner` has been accepted for a runner, in every
state reached afterwards the runner is not live and a launch handle that was received has
been asked to stop.  If it was pending, its start has rejected or is still to: it is not
stuck, and each of its steps leaves it fewer of them. -/
theorem stop_wins (hr : Reach (step config) anyStep start s) (hk : s.tasks[n]? = some k)
    (hstop : step config s (.move n .stop) = some s₁)
    (hlater : Reach (step config) anyStep s₁ s₂) :
    ∃ k₂, s₂.tasks[n]? = some k₂ ∧ k₂.live = false ∧ (k₂.handle = true → k₂.stopAsked = true) ∧
      (k.pending = true → (k₂.stepsLeft = 0 → ∃ message, k₂.stage = .rejected message) ∧
        (k₂.stepsLeft ≠ 0 → ∃ i, i.ofStart = true ∧ (move config n i s₂.world k₂).isSome = true) ∧
        ∀ i w' k', i.ofStart = true → move config n i s₂.world k₂ = some (w', k') →
          k'.stepsLeft < k₂.stepsLeft) := by
  obtain ⟨k₀, w₁, k₁, hk₀, hmove, rfl⟩ := Pool.step_move.mp hstop
  obtain rfl : k = k₀ := Option.some.inj (hk.symm.trans hk₀)
  change move config n .stop s.world k = some (w₁, k₁) at hmove
  have hsound := sound_of_reach hr hk
  have hstopped := stopped_stop hsound hmove
  obtain ⟨k₂, hk₂, hstopped₂, hsound₂, hcancelled⟩ := Pool.reach_task (n := n)
    (Q := fun k₂ => Stopped k₂ ∧ Sound k₂ ∧ (k.pending = true → k₂.cancelRequested = true))
    (fun i w k₂ w' k' hQ h => ⟨(hQ.1.move hQ.2.1 h).1, hQ.2.1.move h,
      fun hp => (hQ.1.move hQ.2.1 h).2 (hQ.2.2 hp)⟩)
    ⟨k₁, by simp [(List.getElem?_eq_some_iff.mp hk).1], hstopped.1, hsound.move hmove, hstopped.2⟩
    hlater
  exact ⟨k₂, hk₂, hstopped₂.live, hstopped₂.asked,
    fun hp => rejects_of_cancelled hsound₂ (hcancelled hp)⟩

/-- A stop comes while the process of runner 0 is starting, and the launcher is done
before it has exited. -/
theorem stop_wins_launching :
    let s := (exec (guarded (step exampleConfig) anyStep) start (starts 0 "i")).get rfl
    let s₁ := (step exampleConfig s (.move 0 .stop)).get rfl
    let s₂ := (exec (guarded (step exampleConfig) anyStep) s₁ (ready 0)).get rfl
    s₂.tasks.map (·.stage) = [.cancelling] ∧
      ∃ k₂, s₂.tasks[0]? = some k₂ ∧ k₂.live = false ∧ (k₂.handle = true → k₂.stopAsked = true) := by
  intro s s₁ s₂
  have hlater : Reach (step exampleConfig) anyStep s₁ s₂ := reach_get _
  have hstop : step exampleConfig s (.move 0 .stop) = some s₁ := rfl
  obtain ⟨k₂, hk₂, hlive, hasked, -⟩ := stop_wins (reach_get rfl) rfl hstop hlater
  exact ⟨rfl, k₂, hk₂, hlive, hasked⟩

/-! ## The status of an instance -/

def status (s : System) (m : String) : Nat :=
  match (s.world.getRunnerIdForInstance m).1 with
  | none => 404
  | some r =>
    match s.tasks[r]? with
    | some k => if k.live then 200 else 202
    | none => 202

def Starting (s : System) (m : String) : Prop :=
  ∃ k ∈ s.tasks, (k.allocating || k.pending) = true ∧ k.instanceId = m

def Live (s : System) (m : String) : Prop := ∃ k ∈ s.tasks, k.live = true ∧ k.instanceId = m

def Accurate (s : System) (m : String) : Prop :=
  (status s m = 202 ↔ Starting s m) ∧ (status s m = 200 ↔ Live s m) ∧
    (status s m = 404 ↔ ¬ Starting s m ∧ ¬ Live s m)

def FailedLog (s : System) (m : String) : Prop :=
  ∃ r ∈ s.world.failedInstanceLogRunners.lookup m, s.world.buffers r = true

def Allocating (s : System) (m : String) : Prop :=
  ∃ k ∈ s.tasks, k.allocating = true ∧ k.instanceId = m

@[simp] theorem failedInstanceLogRunners_retain :
    (w.retain n).failedInstanceLogRunners = w.failedInstanceLogRunners := by
  simp only [retain]
  split_ifs <;> rfl

theorem mem_noteFailure {m e}
    (he : e ∈ (w.noteFailure m n).failedInstanceLogRunners) :
    e ∈ w.failedInstanceLogRunners ∨ e.2 = n := by
  grind [noteFailure, List.mem_of_mem_tail]

theorem failed_move (h : move config n i w k = some (w', k')) :
    (∀ e ∈ w'.failedInstanceLogRunners, e ∈ w.failedInstanceLogRunners ∨
      e.2 = n ∧ ∃ message, k'.stage = .rejected message) ∧
    ((∃ message, k.stage = .rejected message) → ∃ message, k'.stage = .rejected message) := by
  revert h
  fun_cases Runners.move config n i w k
  all_goals
    intro h
    simp only [allocatePorts, rejects, Option.some.injEq, reduceCtorEq] at h
  all_goals grind -ring -linarith [mem_noteFailure, failedInstanceLogRunners_retain, release, reserve, drop, forgetFailure]

theorem failed_rejected (hr : Reach (step config) ok start s) :
    ∀ e ∈ s.world.failedInstanceLogRunners, ∃ k, s.tasks[e.2]? = some k ∧
      ∃ message, k.stage = .rejected message := by
  refine Pool.reach_inv (P := fun s : System => ∀ e ∈ s.world.failedInstanceLogRunners,
    ∃ k, s.tasks[e.2]? = some k ∧ ∃ message, k.stage = .rejected message) (by simp [start])
    (fun s a hs _ e he => ?_) (fun s n i k w _ hs _ hk h e he => ?_) (fun s m w hs _ h e he => ?_) hr
  · exact (exists_getElem?_append (by simp [rules]) e.2).mpr (hs e he)
  · obtain ⟨hnew, hself⟩ := failed_move h
    rw [exists_getElem?_set hk]
    split
    next heq =>
      rcases hnew e he with hold | ⟨-, hk'⟩
      · obtain ⟨_, hk₀, hrejected⟩ := hs e hold
        rw [heq, hk] at hk₀
        cases hk₀
        exact hself hrejected
      · exact hk'
    next hne => exact hs e ((hnew e he).resolve_right fun hn => hne hn.1)
  · cases h
    grind [getRunnerIdForInstance, forgetFailure]

theorem status_of_none {m} (hsound : ∀ (j : Nat) k, s.tasks[j]? = some k → Sound k)
    (hlog : ∀ e ∈ s.world.failedInstanceLogRunners, ∃ k, s.tasks[e.2]? = some k ∧
      ∃ message, k.stage = .rejected message) (hm : s.world.instanceRunners m = none) :
    (FailedLog s m → status s m = 202) ∧ (¬ FailedLog s m → status s m = 404) := by
  simp only [FailedLog, status, getRunnerIdForInstance, hm]
  cases hlookup : s.world.failedInstanceLogRunners.lookup m with
  | none => simp
  | some r =>
    obtain ⟨_, _, hl, -⟩ := List.lookup_eq_some_iff.mp hlookup
    obtain ⟨k, hk, _⟩ := hlog (m, r) (by simp [hl])
    have hlive : k.live = false := by
      have := (hsound r k hk).live
      grind
    cases hbuffer : s.world.buffers r <;> simp [hbuffer, hk, hlive]

/-- **When the status is accurate.**  In every run in which a start passes its conflict
check only while no other start of the instance is allocating its ports: the status of an
instance is accurate if and only if `instanceRunners` has the instance, or it has not and
the failed-launch index leads to a buffer exactly if a start of the instance is
allocating its ports. -/
theorem status_accurate (hr : Reach (step config) StartsApart start s) (m : String) :
    Accurate s m ↔ (s.world.instanceRunners m).isSome = true ∨ (FailedLog s m ↔ Allocating s m) := by
  have hs := reserved_of_reach hr
  have hsound : ∀ (j : Nat) k, s.tasks[j]? = some k → Sound k := fun j k => sound_of_reach hr
  have hpresent : ∀ k ∈ s.tasks, k.present = true → ∃ r, s.world.instanceRunners k.instanceId = some r ∧
      s.tasks[r]? = some k := by
    intro k hk hpresent
    obtain ⟨j, hj⟩ := List.getElem?_of_mem hk
    exact ⟨j, (hs.instances k.instanceId j).mpr ⟨k, hj, hpresent, rfl⟩, hj⟩
  cases hm : s.world.instanceRunners m with
  | some r =>
    obtain ⟨k, hk, _, rfl⟩ := (hs.instances m r).mp hm
    have hstatus : status s k.instanceId = if k.live then 200 else 202 := by
      simp [status, getRunnerIdForInstance, hm, hk]
    have honly : ∀ k' ∈ s.tasks, k'.instanceId = k.instanceId → k'.present = true → k' = k := by
      intro k' hk' hsame hpresent'
      obtain ⟨_, hr', htask⟩ := hpresent k' hk' hpresent'
      rw [hsame, hm] at hr'
      cases hr'
      exact Option.some.inj (htask.symm.trans hk)
    have hmem := List.mem_of_getElem? hk
    have hreturned := (hsound r k hk).live
    have hlive : Live s k.instanceId ↔ k.live = true := by
      refine ⟨?_, fun hlive => ⟨k, hmem, hlive, rfl⟩⟩
      rintro ⟨k', hk', hlive, hsame⟩
      exact honly k' hk' hsame (by simp [Call.present, hlive]) ▸ hlive
    have hstarting : Starting s k.instanceId ↔ k.live = false := by
      constructor
      · rintro ⟨k', hk', hstage, hsame⟩
        cases halloc : k'.allocating with
        | true =>
          obtain ⟨j, hj⟩ := List.getElem?_of_mem hk'
          rw [← hsame, hs.free j k' hj halloc] at hm
          cases hm
        | false =>
          have hpending : k'.pending = true := by simpa [halloc] using hstage
          cases honly k' hk' hsame (by simp [Call.present, hpending])
          grind [Call.pending]
      · exact fun hlive => ⟨k, hmem, by simp_all [Call.present], rfl⟩
    cases hl : k.live <;> simp [Accurate, hstatus, hlive, hstarting, hl]
  | none =>
    have hlive : ¬ Live s m := by
      rintro ⟨k, hk, hlive, rfl⟩
      obtain ⟨r, hr, -⟩ := hpresent k hk (by simp [Call.present, hlive])
      rw [hm] at hr
      cases hr
    have hstarting : Starting s m ↔ Allocating s m := by
      refine exists_congr fun k => and_congr_right fun hk => and_congr_left ?_
      rintro rfl
      have := hpresent k hk
      simp_all [Call.present]
    have hstatus := status_of_none hsound (failed_rejected hr) hm
    by_cases hfailed : FailedLog s m <;> simp_all [Accurate]

theorem status_accurate_ready :
    let s := (exec (guarded (step exampleConfig) StartsApart) start
      (starts 0 "i" ++ ready 0)).get (by decide +kernel)
    status s "i" = 200 ∧ Accurate s "i" :=
  ⟨rfl, (status_accurate (reach_get (by decide +kernel)) "i").mpr (.inl rfl)⟩

/-- **Starting, says the status of a failed start.** -/
theorem starting_after_failed_start : ∃ s, exec (step exampleConfig) start
        (starts 0 "i" ++ [.move 0 .log, .move 0 .exit, .move 0 (.fails "exited")]) = some s ∧
      status s "i" = 202 ∧ ∀ k ∈ s.tasks, k.present = false ∧ k.allocating = false :=
  ⟨_, rfl, rfl, by decide +kernel⟩

end Sardeenz.Runners
