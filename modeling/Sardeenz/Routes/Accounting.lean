/-
# `Sardeenz.Routes.Accounting` — the memory of a running instance is deducted

A placement decision sees what an instance uses in one of two ways: its hold, or
the used bytes of the worker's report.  The report counts only if it was taken
after the runner had allocated its memory.

    POST /runners      allocates      READY, ACTIVE      next report, next refresh
    ├──────────────────┼──────────────┼──────────────────┼─────────────▶
    hold ─────────────────────────────┘                  └─ report
                                       └── nothing ──────┘

`deployModel` gives the hold back when the instance becomes `ACTIVE`, whatever
report the leader, Redis or a refresh in flight has at that moment.

**Proved here.**  When the memory of a running instance is deducted in every state
(`no_accounting_gap`), and a placement on memory in use (`released_before_report`).
-/
import Mathlib.Data.Fintype.Basic
import Sardeenz.Routes.Launches

namespace Sardeenz

open Interleave Option Function AList LaunchLoc

/-! ## Which report a budget shows -/

namespace MemoryBudget

def SameReports (m' m : MemoryBudget) : Prop :=
  ∀ w budget', m'.budgets.lookup w = some budget' →
    ∃ budget, m.budgets.lookup w = some budget ∧ budget'.lastReportAt = budget.lastReportAt

variable {m m' : MemoryBudget}

theorem SameReports.of_eq (h : m'.budgets = m.budgets) : SameReports m' m :=
  fun _ budget hl => ⟨budget, h ▸ hl, rfl⟩

theorem SameReports.trans {m''} (h : SameReports m'' m') (h' : SameReports m' m) :
    SameReports m'' m := by
  intro w budget'' hl
  obtain ⟨budget', hl', heq'⟩ := h w budget'' hl
  obtain ⟨budget, hl, heq⟩ := h' w budget' hl'
  exact ⟨budget, hl, heq'.trans heq⟩

theorem SameReports.recomputeDeviceBudget (m : MemoryBudget) (w : String) (i : Nat) :
    SameReports (m.recomputeDeviceBudget w i) m := by
  intro _ _ _
  grind [lookup_recomputeDeviceBudget]

theorem SameReports.foldl {α : Type} {f}
    (hf : ∀ m a, SameReports (f m a) m) :
    ∀ (as : List α) (m : MemoryBudget), SameReports (as.foldl f m) m
  | [], _ => .of_eq rfl
  | a :: as, m => (SameReports.foldl hf as (f m a)).trans (hf m a)

theorem SameReports.reserveCapacity (m : MemoryBudget) (workerId : String) (i : Nat)
    (instanceId : String) (bytes : ℚ) :
    SameReports (m.reserveCapacity workerId i instanceId bytes) m :=
  (SameReports.recomputeDeviceBudget _ workerId i).trans (.of_eq rfl)

theorem SameReports.reserveAll (m : MemoryBudget) (workerId instanceId : String) (bytes : ℚ)
    (deviceIndices : List Nat) :
    SameReports (m.reserveAll workerId instanceId bytes deviceIndices) m :=
  .foldl (fun m i => .reserveCapacity m workerId i instanceId bytes) deviceIndices m

theorem SameReports.releaseKey (instanceId : String) (m : MemoryBudget) (key : String) :
    SameReports (m.releaseKey instanceId key) m := by
  unfold MemoryBudget.releaseKey
  split
  · exact .of_eq rfl
  · split
    · simp only
      split
      · exact (SameReports.recomputeDeviceBudget _ _ _).trans (.of_eq rfl)
      · exact .of_eq rfl
    · exact .of_eq rfl

theorem SameReports.releaseInstanceReservations (m : MemoryBudget) (instanceId : String) :
    SameReports (m.releaseInstanceReservations instanceId) m :=
  .foldl (SameReports.releaseKey instanceId) _ m

theorem SameReports.clearKey (workerId : String) (m : MemoryBudget) (key : String) :
    SameReports (m.clearKey workerId key) m := by
  simp only [MemoryBudget.clearKey]
  split
  · split
    · exact (SameReports.recomputeDeviceBudget _ _ _).trans (.of_eq rfl)
    · exact .of_eq rfl
  · exact .of_eq rfl

theorem SameReports.clearWorkerReservations (m : MemoryBudget) (workerId : String) :
    SameReports (m.clearWorkerReservations workerId) m :=
  .foldl (SameReports.clearKey workerId) _ m

theorem SameReports.eraseBudget (m : MemoryBudget) (workerId : String) :
    SameReports { m with budgets := m.budgets.erase workerId } m := by
  intro w _ _
  grind [lookup_erase, lookup_erase_ne]

theorem SameReports.dropWorker (m : MemoryBudget) (workerId : String) :
    SameReports (m.dropWorker workerId) m :=
  (SameReports.clearWorkerReservations _ workerId).trans (.eraseBudget m workerId)

def TakenFrom (replies : List (String × PipelineReply)) (now : Nat) (w : String)
    (budget : WorkerBudget) : Prop :=
  ∃ report, (w, .ok (some (.valid report))) ∈ replies ∧
    budget.lastReportAt = report.reportedAt.getD now

variable {now : Nat} {w : String} {budget : WorkerBudget}

theorem TakenFrom.cons {replies}
    (h : TakenFrom replies now w budget) (x : String × PipelineReply) :
    TakenFrom (x :: replies) now w budget := by
  obtain ⟨report, hmem, heq⟩ := h
  exact ⟨report, List.mem_cons_of_mem _ hmem, heq⟩

theorem lookup_takeReports : ∀ {replies : List (String × PipelineReply)} {m : MemoryBudget},
      (takeReports now m replies).1.budgets.lookup w = some budget →
      TakenFrom replies now w budget ∨ m.budgets.lookup w = some budget
  | [], _, h => .inr h
  | (workerId, .ok (some (.valid report))) :: rest, m, h => by
    rcases lookup_takeReports (show (takeReports now (m.setBudget _) rest).1.budgets.lookup w =
      some budget from h) with htaken | h
    · exact .inl (htaken.cons _)
    · by_cases hw : w = workerId
      · subst hw
        obtain rfl := Option.some.inj ((lookup_insert _).symm.trans h)
        exact .inl ⟨report, List.mem_cons_self, rfl⟩
      · exact .inr ((lookup_insert_ne hw).symm.trans h)
  | (_, .ok (some .malformed)) :: rest, m, h | (_, .ok none) :: rest, m, h
  | (_, .error _) :: rest, m, h =>
    (lookup_takeReports (show (takeReports now m rest).1.budgets.lookup w = some budget from
      h)).imp_left fun htaken => htaken.cons _

theorem lookup_applyReports {replies}
    (h : (m.applyReports replies now).budgets.lookup w = some budget) :
    TakenFrom replies now w budget ∨
      ∃ old, m.budgets.lookup w = some old ∧ budget.lastReportAt = old.lastReportAt := by
  obtain ⟨taken, htaken, heq⟩ := SameReports.foldl SameReports.dropWorker _ _ w budget h
  rcases lookup_takeReports htaken with ⟨report, hmem, hat⟩ | hold
  · exact .inl ⟨report, hmem, heq.trans hat⟩
  · exact .inr ⟨taken, hold, heq⟩

end MemoryBudget

/-! ## What is deducted -/

def RawReport.since (time : Nat) : RawReport → Bool
  | .malformed => true
  | .valid report => report.reportedAt.any (time < ·)

def MemoryBudget.PipelineReply.since (time : Nat) : MemoryBudget.PipelineReply → Bool
  | .ok (some raw) => raw.since time
  | .ok none | .error _ => true

section
variable {T : Type} (σ : LaunchSetting T) (s : LaunchState T)

def placedInstance (t : T) : Option (String × PlacementResult) :=
  match σ.jobs t, (s.loc t).placement with
  | .launch params, some result => some (params.instanceId, result)
  | _, _ => none

def Holds (x : String × PlacementResult) (device : Nat) : Prop :=
  x.1 ∈ s.world.memory.holdsOn x.2.workerId device
deriving Decidable

/-- The start of the launch's runner has been sent, and the runner has not
stopped. -/
def Running (t : T) : Prop := (s.loc t).dispatched = true ∧ s.world.stopped t = false
deriving Decidable

/-- The memory of the instance is deducted from the device: it has a hold there,
or the report the leader places by was taken after its runner had allocated. -/
def Deducted (t : T) (x : String × PlacementResult) (device : Nat) : Prop :=
  Holds s x device ∨ ∃ time, s.world.allocatedAt t = some time ∧
    ∀ budget, s.world.memory.budgets.lookup x.2.workerId = some budget → time < budget.lastReportAt

/-- No report of the worker from before the time can be placed by any more:
neither the leader has one, nor Redis, nor a refresh in flight. -/
@[mk_iff]
structure Superseded (workerId : String) (time : Nat) : Prop where
  now : time < s.world.now
  budget : ∀ budget ∈ s.world.memory.budgets.lookup workerId, time < budget.lastReportAt
  stored : ∀ raw ∈ s.world.reports.lookup workerId, raw.since time = true
  inFlight : ∀ t, ∀ reply ∈ (s.loc t).inFlight, reply.1 = workerId →
    MemoryBudget.PipelineReply.since time reply.2 = true

instance [Fintype T] (workerId : String) (time : Nat) : Decidable (Superseded s workerId time) :=
  decidable_of_iff' _ (superseded_iff ..)

end

/-- Every running instance has its holds, or its worker's reports are all from
after its allocation. -/
structure Accountable {T : Type} (σ : LaunchSetting T) (s : LaunchState T) : Prop
    extends Launched σ s where
  deducted : ∀ t, Running s t → ∀ x ∈ placedInstance σ s t, ∀ device ∈ x.2.deviceIndices,
    Holds s x device ∨ ∃ time ∈ s.world.allocatedAt t, Superseded s x.2.workerId time

section
variable {T : Type} [DecidableEq T] (σ : LaunchSetting T) (s : LaunchState T)

def Drops (a : LaunchAction T) (x : String × PlacementResult) (device : Nat) : Prop :=
  Holds s x device ∧ ∃ s' ∈ σ.step s a, ¬ Holds s' x device
deriving Decidable

def LaunchAction.mover : LaunchAction T → Option T
  | .thread t _ => some t
  | .around _ => none

/-- The condition on a step: a start is sent with its hold in place, and the hold
of a running instance is dropped only when every report of its worker was taken
after its runner had allocated. -/
@[mk_iff]
structure Covered (a : LaunchAction T) : Prop where
  sent : ∀ t ∈ a.mover, (s.prog t).awaited = some (.service .sendStart) →
    ∀ x ∈ placedInstance σ s t, ∀ device ∈ x.2.deviceIndices, Holds s x device
  dropped : ∀ t, Running s t → ∀ x ∈ placedInstance σ s t, ∀ device ∈ x.2.deviceIndices,
    Drops σ s a x device → ∃ time ∈ s.world.allocatedAt t, Superseded s x.2.workerId time

instance [Fintype T] (a : LaunchAction T) : Decidable (Covered σ s a) :=
  decidable_of_iff' _ (covered_iff ..)

end

/-! ## What a step leaves alone -/

section
variable {T : Type} {σ : LaunchSetting T} {w w' : LaunchWorld T} {t : T} {s s' : LaunchState T}

/-- What no call changes. -/
structure LaunchWorld.Beside (w w' : LaunchWorld T) : Prop where
  now : w'.now = w.now
  reports : w'.reports = w.reports
  allocatedAt : w'.allocatedAt = w.allocatedAt
  stopped : w'.stopped = w.stopped

variable {c : LaunchCall} {r : Except Failure (LaunchReply c)}

theorem Effect.beside (h : Effect σ w t c w' r) : w.Beside w' := by
  cases h with
  | plain hc | read h | apply | clear | release hjob => exact ⟨rfl, rfl, rfl, rfl⟩
  | @place _ request fixed workers hjob =>
    cases (w.decision σ request fixed workers).2 with
    | none | some result => exact ⟨rfl, rfl, rfl, rfl⟩

variable {l : LaunchLoc}

theorem LaunchLoc.dispatched_after (h : (l.after c r).dispatched = true) :
    l.dispatched = true ∨ c = .service .sendStart := by
  have hwritten : ∀ ok, (l.written ok).dispatched = l.dispatched := fun ok => by
    rcases l.written_eq ok with h | h <;> rw [h]
  cases c with
  | service c =>
    rcases Bool.or_eq_true_iff.mp h with h | h
    · exact .inl h
    · cases c with
      | sendStart => exact .inr rfl
      | _ => exact Bool.noConfusion h
  | createRow => exact .inl ((hwritten _).symm.trans h)
  | readClaims =>
    refine .inl (Eq.trans ?_ h)
    change l.dispatched = (l.checked r).dispatched
    rcases l.checked_eq r with h | h | h <;> rw [h]
  | getMemoryReports =>
    match r with
    | .error _ | .ok none | .ok (some _) => exact .inl h
  | placeAndReserve =>
    match r with
    | .error _ | .ok (_, none) | .ok (_, some _) => exact .inl h
  | resolveRunnerMetadata | createInstance _ | scanMemoryKeys | applyReports _ | clearBudgets
  | writeClusterMemorySnapshot | releaseReservations | retainReservations | deleteRow
  | selectVictims _ | evictVictims _ => exact .inl h

theorem LaunchLoc.placement_after (hallowed : l.Allowed c) (h : (l.after c r).dispatched = true) :
    (l.after c r).placement = l.placement := by
  cases c with
  | placeAndReserve =>
    match r with
    | .error _ | .ok (_, none) => rfl
    | .ok (_, some result) => exact absurd (hallowed.1.symm.trans h) Bool.false_ne_true
  | getMemoryReports =>
    match r with
    | .error _ | .ok none | .ok (some _) => rfl
  | applyReports _ | clearBudgets | releaseReservations => rfl
  | service _ | readClaims | resolveRunnerMetadata | createInstance _ | scanMemoryKeys
  | writeClusterMemorySnapshot | retainReservations | createRow _ | deleteRow | selectVictims _
  | evictVictims => exact (aside_after rfl l r).placement

theorem RawReport.since_stamped {time now} (h : time < now) (raw : RawReport) :
    (raw.stamped now).since time = true := by
  cases raw with
  | malformed => rfl
  | valid => simpa [RawReport.stamped, RawReport.since] using h

variable {workerId : String} {time : Nat}

theorem Superseded.sameReports (h : Superseded s workerId time) {m : MemoryBudget}
    (hm : m.SameReports s.world.memory) :
    ∀ budget ∈ m.budgets.lookup workerId, time < budget.lastReportAt := by
  intro budget hbudget
  obtain ⟨old, hold, heq⟩ := hm workerId budget hbudget
  rw [heq]
  exact h.budget old hold

theorem Superseded.applyReports (h : Superseded s workerId time) (t : T) :
    ∀ budget ∈ (s.world.memory.applyReports (s.loc t).inFlight
      s.world.now).budgets.lookup workerId, time < budget.lastReportAt := by
  intro budget hbudget
  rcases MemoryBudget.lookup_applyReports hbudget with ⟨report, hmem, heq⟩ | ⟨old, hold, heq⟩
  · have hsince : (RawReport.valid report).since time = true := h.inFlight t _ hmem rfl
    cases hat : report.reportedAt with
    | none => simp [RawReport.since, hat] at hsince
    | some reportedAt =>
      grind [RawReport.since]
  · rw [heq]
    exact h.budget old hold

/-! ## What a step leads from -/

variable [DecidableEq T] {e : Surroundings T}

theorem stopped_around {dispatched} (h : w.around dispatched e = some w')
    (hstopped : w'.stopped t = false) :
    w.stopped t = false := by
  cases e with
  | tick now | report workerId raw | allocate t' =>
    obtain ⟨-, h⟩ := ite_none_right_eq_some.mp h
    cases h
    exact hstopped
  | loseReport workerId | setWorkers workers | release instanceId | clearWorker workerId =>
    cases h
    exact hstopped
  | stop t' =>
    cases h
    grind [update_of_ne]

theorem allocatedAt_around {dispatched} (h : w.around dispatched e = some w')
    (hat : w.allocatedAt t = some time) :
    w'.allocatedAt t = some time := by
  cases e with
  | tick now | report workerId raw =>
    obtain ⟨-, h⟩ := ite_none_right_eq_some.mp h
    cases h
    exact hat
  | loseReport workerId | setWorkers workers | release instanceId | clearWorker workerId
  | stop t' =>
    cases h
    exact hat
  | allocate t' =>
    obtain ⟨⟨-, -, _⟩, h⟩ := ite_none_right_eq_some.mp h
    cases h
    grind [update_of_ne]

variable {a : LaunchAction T}

theorem running_of_step (h : Launched σ s) (hs : σ.step s a = some s') (hrun : Running s' t) :
    placedInstance σ s' t = placedInstance σ s t ∧ (Running s t ∨ ∃ i, a = .thread t i ∧
        (s.prog t).awaited = some (.service .sendStart) ∧
        s'.world.memory = s.world.memory) := by
  obtain ⟨-, ⟨t₀, i, c, w, r, p, rfl, hc, hallowed, hsem, rfl⟩ | ⟨e, w, -, hw, rfl⟩⟩ :=
    h.step_cases hs
  · have hstopped : s.world.stopped t = false := by
      rw [← (perform_effect hsem).beside.stopped]
      exact hrun.2
    by_cases ht : t = t₀
    · subst ht
      have hdispatched : ((s.loc t).after c r).dispatched = true := by
        simpa only [Threads.put, update_self] using hrun.1
      have hplacement : ((s.put w t p ((s.loc t).after c r)).loc t).placement =
          (s.loc t).placement := by
        simpa only [Threads.put, update_self] using
          placement_after hallowed hdispatched
      refine ⟨by rw [placedInstance, hplacement]; rfl, ?_⟩
      rcases dispatched_after hdispatched with hbefore | rfl
      · exact .inl ⟨hbefore, hstopped⟩
      · cases hsem
        exact .inr ⟨i, rfl, hc, rfl⟩
    · have hloc : (s.put w t₀ p ((s.loc t₀).after c r)).loc t = s.loc t := by
        simp only [Threads.put, update_of_ne ht]
      refine ⟨by rw [placedInstance, hloc]; rfl, .inl ⟨?_, hstopped⟩⟩
      rw [← hloc]
      exact hrun.1
  · exact ⟨rfl, .inl ⟨hrun.1, stopped_around hw hrun.2⟩⟩

theorem allocatedAt_step (h : Launched σ s) (hs : σ.step s a = some s')
    (hat : s.world.allocatedAt t = some time) :
    s'.world.allocatedAt t = some time := by
  obtain ⟨-, ⟨_, i, c, w, r, p, rfl, _, _, hsem, rfl⟩ | ⟨e, w, -, hw, rfl⟩⟩ :=
    h.step_cases hs
  · change w.allocatedAt t = some time
    rw [(perform_effect hsem).beside.allocatedAt]
    exact hat
  · exact allocatedAt_around hw hat

/-! ## Superseded reports stay superseded -/

theorem Superseded.put (h : Superseded s workerId time) (hbeside : s.world.Beside w)
    (hbudget : ∀ budget ∈ w.memory.budgets.lookup workerId, time < budget.lastReportAt)
    {p : Launching Unit}
    (hl : ∀ reply ∈ l.inFlight, reply.1 = workerId →
      MemoryBudget.PipelineReply.since time reply.2 = true) :
    Superseded (s.put w t p l) workerId time := by
  refine ⟨?_, hbudget, ?_, (forall_update_iff _ fun _ (l : LaunchLoc) =>
    ∀ reply ∈ l.inFlight, reply.1 = workerId → reply.2.since time = true).mpr
      ⟨hl, fun t' _ => h.inFlight t'⟩⟩
  · change time < w.now
    rw [hbeside.now]
    exact h.now
  · change ∀ raw ∈ w.reports.lookup workerId, raw.since time = true
    rw [hbeside.reports]
    exact h.stored

theorem Superseded.around (h : Superseded s workerId time)
    (hw : s.world.around (fun t => (s.loc t).dispatched) e = some w) :
    Superseded { s with world := w } workerId time := by
  cases e with
  | tick now =>
    obtain ⟨hle, h'⟩ := ite_none_right_eq_some.mp hw
    obtain rfl := Option.some.inj h'
    exact ⟨lt_of_lt_of_le h.now hle, h.budget, h.stored, h.inFlight⟩
  | report worker =>
    obtain ⟨-, h'⟩ := ite_none_right_eq_some.mp hw
    obtain rfl := Option.some.inj h'
    refine ⟨h.now, h.budget, fun stored hstored => ?_, h.inFlight⟩
    by_cases hworker : workerId = worker
    · grind [lookup_insert, RawReport.since_stamped, h.now]
    · exact h.stored stored ((lookup_insert_ne hworker).symm.trans hstored)
  | loseReport worker =>
    cases hw
    refine ⟨h.now, h.budget, fun stored hstored => ?_, h.inFlight⟩
    by_cases hworker : workerId = worker
    · grind [lookup_erase]
    · exact h.stored stored ((lookup_erase_ne hworker).symm.trans hstored)
  | allocate t =>
    obtain ⟨-, h'⟩ := ite_none_right_eq_some.mp hw
    obtain rfl := Option.some.inj h'
    exact ⟨h.now, h.budget, h.stored, h.inFlight⟩
  | setWorkers workers | stop t =>
    cases hw
    exact ⟨h.now, h.budget, h.stored, h.inFlight⟩
  | release =>
    cases hw
    exact ⟨h.now, h.sameReports (.releaseInstanceReservations _ _), h.stored, h.inFlight⟩
  | clearWorker worker =>
    cases hw
    exact ⟨h.now, h.sameReports (.clearWorkerReservations _ _), h.stored, h.inFlight⟩

theorem Superseded.step (hlaunched : Launched σ s) (h : Superseded s workerId time)
    (hs : σ.step s a = some s') :
    Superseded s' workerId time := by
  obtain ⟨-, ⟨t, i, c, w, r, p, rfl, _, hallowed, hsem, rfl⟩ | ⟨e, w, -, hw, rfl⟩⟩ :=
    hlaunched.step_cases hs
  · have hbeside := (perform_effect hsem).beside
    cases perform_effect hsem with
    | plain hplain =>
      refine h.put hbeside h.budget ?_
      rw [(aside_after hplain _ r).inFlight]
      exact h.inFlight t
    | read hreplies =>
      refine h.put hbeside h.budget fun reply hreply hworker => ?_
      rcases mem_inFlight_read hreplies hreply with hmem | hstored
      · exact h.inFlight t reply hmem hworker
      · match hreply : reply.2 with
        | .error _ | .ok none => rfl
        | .ok (some raw) => exact h.stored raw (hworker ▸ hstored _ hreply)
    | @apply replies =>
      obtain rfl : replies = (s.loc t).inFlight := hallowed
      exact h.put hbeside (h.applyReports t) fun _ hmem => absurd hmem List.not_mem_nil
    | clear => exact h.put hbeside (fun _ hb => nomatch hb) (h.inFlight t)
    | @place _ request fixed workers hjob =>
      refine h.put hbeside (h.sameReports ?_) ?_
      · cases (s.world.decision σ request fixed workers).2 with
        | none => exact .of_eq rfl
        | some => exact .reserveAll _ _ _ _ _
      · change ∀ reply ∈ ((s.loc t).placed _ _).inFlight, _
        rw [inFlight_placed]
        exact h.inFlight t
    | release hjob =>
      exact h.put hbeside (h.sameReports (.releaseInstanceReservations _ _)) (h.inFlight t)
  · exact h.around hw

/-! ## What a run keeps -/

theorem Accountable.step (h : Accountable σ s) (hok : Covered σ s a) (hs : σ.step s a = some s') :
    Accountable σ s' := by
  refine ⟨(h.toLaunched.step_cases hs).1, fun t hrun x hx device hdevice => ?_⟩
  obtain ⟨hplaced, hrun⟩ := running_of_step h.toLaunched hs hrun
  rw [hplaced] at hx
  rcases hrun with hrun | ⟨i, rfl, hawaited, hmemory⟩
  · by_cases hheld' : Holds s' x device
    · exact .inl hheld'
    · have hcover : ∃ time ∈ s.world.allocatedAt t, Superseded s x.2.workerId time := by
        rcases h.deducted t hrun x hx device hdevice with hheld | hcover
        · exact hok.dropped t hrun x hx device hdevice ⟨hheld, s', hs, hheld'⟩
        · exact hcover
      obtain ⟨time, hat, hsuperseded⟩ := hcover
      exact .inr ⟨time, allocatedAt_step h.toLaunched hs hat, hsuperseded.step h.toLaunched hs⟩
  · left
    have hheld := hok.sent t rfl hawaited x hx device hdevice
    rwa [Holds, hmemory]

/-- **No accounting gap.**  In every run in which each start is sent with its
hold in place, and the hold of a running instance is dropped only when every
report of its worker was taken after its runner had allocated, the memory of
each running instance is deducted from its devices in every state, and so at
every placement decision. -/
theorem no_accounting_gap {now : Nat} (hr : Reach σ.step (Covered σ) (σ.start now) s)
    (hrun : Running s t) {x : String × PlacementResult} (hx : placedInstance σ s t = some x)
    {device : Nat} (hdevice : device ∈ x.2.deviceIndices) : Deducted s t x device := by
  have hinv : Accountable σ s :=
    hr.inductive_inv ⟨.start σ now, fun _ h => Bool.noConfusion h.1⟩ fun h hok hs =>
      Accountable.step h hok hs
  rcases hinv.deducted t hrun x hx device hdevice with hheld | ⟨time, hat, hsuperseded⟩
  · exact .inl hheld
  · exact .inr ⟨time, hat, hsuperseded.budget⟩

end

/-! ## A hold given back too early -/

namespace ExampleLaunch

def usedReport : RawReport := .valid ⟨[⟨0, .cuda, 60, 100⟩], none, []⟩

def launchAndRefresh : LaunchSetting (Fin 2) where
  jobs t := if t = left then .launch (launch "a" 60) else .refresh
  timeouts := ⟨1000, 1000, 1000, 1000, 2⟩
  staleAfterSecs := 60

def allocates : List (LaunchAction (Fin 2)) :=
  comesUp ++ proceeds left 17 ++ [.around (.tick 5), .around (.allocate left), .around (.tick 9)]

/-- The worker reports at time 9 and the leader refreshes before the instance
becomes `ACTIVE`. -/
def reportedInTime : List (LaunchAction (Fin 2)) :=
  allocates ++ [.around (.report "w" usedReport)] ++
  List.replicate 4 (.thread right (goesWell (usedReport.stamped 9))) ++ proceeds left 12

theorem reportedInTime_isSome : (exec (guarded launchAndRefresh.step (Covered launchAndRefresh))
    (launchAndRefresh.start 0) reportedInTime).isSome := by
  decide +kernel

/-- The instance runs without a hold, and the leader's report has its memory. -/
theorem reportedInTime_deducted :
    let s := (exec (guarded launchAndRefresh.step (Covered launchAndRefresh))
      (launchAndRefresh.start 0) reportedInTime).get reportedInTime_isSome
    let x := ("a", (⟨"w", "vllm", [⟨0, .cuda⟩]⟩ : PlacementResult))
    (Running s left ∧ ¬ Holds s x 0) ∧ Deducted s left x 0 :=
  ⟨by decide +kernel, no_accounting_gap (reach_get reportedInTime_isSome) (by decide +kernel)
    (by decide +kernel) (by decide)⟩

def twoLarge : LaunchSetting (Fin 2) where
  jobs t := .launch (launch (if t = left then "a" else "b") 60)
  timeouts := ⟨1000, 1000, 1000, 1000, 2⟩
  staleAfterSecs := 60

/-- **An accounting gap.**  The first instance is `ACTIVE` and its hold is given
back, while the stored report is from before its allocation.  A second launch
refreshes its budgets, places by that report, and is given the same 60 of the
device's 100 bytes. -/
theorem released_before_report : (exec twoLarge.step (twoLarge.start 0)
      (allocates ++ proceeds left 12 ++ proceeds right 7)).map (fun s =>
        ((decide (Running s left), s.world.allocatedAt left,
          (s.world.memory.holdsOn "w" 0).lookup "a"),
        ((s.world.memory.budgets.lookup "w").map (·.lastReportAt), (s.prog right).awaited,
          (s.world.decision twoLarge ((launch "b" 60).placementRequest 60) none none).2))) =
      some ((true, some 5, none),
        (some 0, some (.placeAndReserve ((launch "b" 60).placementRequest 60) none none),
          some ⟨"w", "vllm", [⟨0, .cuda⟩]⟩)) := by
  decide +kernel

end ExampleLaunch

end Sardeenz
