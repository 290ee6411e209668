/-
# `Sardeenz.Reconciliation.Healing` — the tick after a clean-up that has failed

A clean-up that throws leaves the rest to a later tick, which selects its
candidates anew, by the state of their records.  Before that tick the instance is
in one of four states.

    on a dead worker     the record is as before     handleDeadWorkers selects it
    without its runner   the record is as before     reconcileMissingRunners selects it
    removed              record, endpoint and holds  reconcileInstanceTable deletes
                         are gone, a row may be left   the row
    in ERROR             the clean-up got no further  no pass selects it
                         than the transition

The last one is where the clean-up fails at the endpoint, the refresh or the
record.  A record in `ERROR` is selected only if its start is ambiguous or its
model has no row.

**Proved here.**  From which states a later tick completes the clean-up
(`later_tick_completes_iff`); a run into the last (`cleanup_is_stuck`), and that no number
of ticks leads out of it (`alone_ticks_stuck`).
-/
import Sardeenz.Reconciliation.Routing
import Sardeenz.Reconciliation.Cleanup

namespace Sardeenz

open Interleave List Option Alone

/-! ## Where the later tick finds the instance -/

def ReconcileCall.LeavesWorker (workerId : String) : ReconcileCall → Prop
  | .discoverWorkers | .checkHeartbeats => False
  | .removeWorker id => id ≠ workerId
  | _ => True

variable {c : ReconcileCall}

theorem ReconcileCall.OfCleanup.spares {r r'}
    (h : c.OfCleanup r') (hkey : ¬ (r.modelName = r'.modelName ∧ r.instanceId = r'.instanceId)) :
    c.Spares r := by
  cases c with
  | service modelName c =>
    obtain ⟨rfl, hc⟩ := h
    cases c with
    | transition id target updates | removeInstance id =>
      obtain rfl : id = r'.instanceId := hc
      exact hkey
    | _ => exact trivial
  | _ => exact trivial

theorem ReconcileCall.OfCleanup.leavesWorker {r'}
    (h : c.OfCleanup r') (workerId : String) : c.LeavesWorker workerId := by
  cases c with
  | discoverWorkers | checkHeartbeats | removeWorker => exact h.elim
  | _ => exact trivial

namespace ReconcileWorld

variable {w w' : ReconcileWorld} {r : InstanceState} {workerId runnerId : String}

def Reachable (workerId : String) (pool : WorkerPool) : Prop :=
  ∃ worker, pool.lookup workerId = some worker ∧ worker.status ≠ .offline

/-- The record is as it was read, its worker is known and not offline, and the
worker does not have its runner. -/
structure Missing (r : InstanceState) (workerId runnerId : String) (w : ReconcileWorld) : Prop
    extends Kept r w where
  reachable : Reachable workerId w.pool
  absent : (workerId, runnerId) ∉ w.runners

theorem Reachable.not_dead {pool} (h : Reachable workerId pool)
    {workerId'} (hdead : workerId' ∈ pool.getDeadWorkers) : workerId' ≠ workerId := by
  obtain ⟨_, _, _⟩ := h
  have hoffline := (mem_filter.mp hdead).2
  grind

theorem Change.pool (hw : w.Change c w') (hc : c.LeavesWorker workerId) :
    w'.pool.lookup workerId = w.pool.lookup workerId := by
  cases hw with
  | discover | check => exact hc.elim
  | removeWorker => exact AList.lookup_erase_ne (Ne.symm hc)
  | moves =>
    exact congrArg (AList.lookup workerId) (keeps_moves (J := fun w'' => w''.pool = w.pool)
      (fun hmoved hw => by cases hmoved <;> exact hw) _ rfl)
  | _ => rfl

/-- The record is as it was read, in `ERROR`, its start is not ambiguous, and its
model has a row. -/
structure Stuck (r : InstanceState) (w : ReconcileWorld) : Prop extends Kept r w where
  state : r.state = .error
  settled : r.runnerStartAmbiguous = false
  model : r.modelName ∈ w.modelRows

/-- `J` says that the record is as it was read, and holds on through the calls of
`T`, among them those of the clean-up of any other instance. -/
structure Stands (r : InstanceState) (J : ReconcileWorld → Prop) (T : ReconcileCall → Prop) :
    Prop where
  kept : ∀ {w}, J w → Kept r w
  change : ∀ {w c w'}, Change w c w' → T c → J w → J w'
  other : ∀ {r' : InstanceState} {c}, c.OfCleanup r' →
    ¬ (r.modelName = r'.modelName ∧ r.instanceId = r'.instanceId) → T c

theorem stands_kept (r : InstanceState) : Stands r (Kept r) (ReconcileCall.Spares r) where
  kept h := h
  change hw hc h := hw.kept hc h
  other hc hkey := hc.spares hkey

theorem stands_missing (r : InstanceState) (workerId runnerId : String) :
    Stands r (Missing r workerId runnerId) fun c => c.Spares r ∧ c.LeavesWorker workerId where
  kept h := h.toKept
  change hw hc h := by
    refine ⟨hw.kept hc.1 h.toKept, ?_, fun hmem => h.absent (hw.dropped.runners hmem)⟩
    rw [Reachable, hw.pool hc.2]
    exact h.reachable
  other hc hkey := ⟨hc.spares hkey, hc.leavesWorker workerId⟩

theorem stands_stuck (r : InstanceState) : Stands r (Stuck r) (ReconcileCall.Spares r) where
  kept h := h.toKept
  change hw hc h := by
    refine ⟨hw.kept hc h.toKept, h.state, h.settled, ?_⟩
    rw [hw.modelRows]
    exact h.model
  other hc hkey := hc.spares hkey

end ReconcileWorld

namespace Reconciling

open ReconcileWorld

/-- Nothing fails. -/
structure Undisturbed (i : ReconcileInput) : Prop where
  answered : i.outcome = .answered
  read : i.unread = []

/-- The instance is among those that were read, and no other record has its
names. -/
structure Lists (r : InstanceState) (all : List InstanceState) : Prop where
  mem : r ∈ all
  unique : ∀ r' ∈ all, r.modelName = r'.modelName ∧ r.instanceId = r'.instanceId → r' = r

section
variable {ok : ReconcileInput → Prop} {w : ReconcileWorld} {r r' : InstanceState}
  {workerId runnerId : String}

variable {α : Type} {p : Reconciling α}

theorem alone_done (h : Done r w) : Alone perform ok (fun w' _ => Done r w') p w :=
  alone_keeps (fun hw h => hw.done h) h

theorem alone_getWorkers {Q : ReconcileWorld → Except Failure WorkerPool → Prop}
    (h : Q w (.ok w.pool)) : Alone perform ok Q (ask .getWorkers) w := by
  intro i _ _ _ hs
  cases hs
  exact h

theorem alone_now {Q : ReconcileWorld → Except Failure Nat → Prop}
    (h : ∀ i, ok i → Q w (.ok i.now)) : Alone perform ok Q (ask .now) w := by
  intro i _ _ hi hs
  cases hs
  exact h i hi

variable (hok : ∀ i, ok i → Undisturbed i)
include hok

theorem alone_getAllInstances (h : Kept r w)
    {Q : ReconcileWorld → Except Failure (List InstanceState) → Prop}
    (hQ : ∀ all, Lists r all → Q w (.ok all)) : Alone perform ok Q (ask .getAllInstances) w := by
  intro i _ _ hi hs
  obtain ⟨hkeys, hs⟩ := ite_none_right_eq_some.mp hs
  rw [reply, (hok i hi).answered] at hs
  cases hs
  refine hQ _ ⟨mem_readAll hkeys (hok i hi).read h.stored, fun _ hmem hkey => ?_⟩
  exact h.eq_of_mem_readAll hmem hkey.1 hkey.2

/-! ### Passed over -/

section
variable {J : ReconcileWorld → Prop} {T : ReconcileCall → Prop} (hJ : Stands r J T)
include hJ

omit hok in
theorem alone_call (hc : T c) (h : J w) : Alone perform ok (fun w' _ => J w') (ask c) w :=
  fun _ _ _ _ hs => hJ.change (change_of_perform hs) hc h

omit hok in
theorem alone_stands (hp : Only T p) (h : J w) : Alone perform ok (fun w' _ => J w') p w := by
  refine alone_of_only (fun i w c w' result hc _ hw hs => ?_) hp h
  exact hJ.change (change_of_perform hs) hc hw

omit hok in
theorem alone_other (hp : Only (ReconcileCall.OfCleanup r') p)
    (hkey : ¬ (r.modelName = r'.modelName ∧ r.instanceId = r'.instanceId)) (h : J w) :
    Alone perform ok (fun w' _ => J w') p w :=
  alone_stands hJ (hp.mono fun _ hc => hJ.other hc hkey) h

omit hok in
/-- **Not selected.**  A loop over the instances that a pass selects keeps what
holds of an instance that it does not select. -/
theorem alone_each_other {all : List InstanceState} (hall : Lists r all)
    {selects : InstanceState → Bool} (hselects : selects r = false)
    {body : InstanceState → Reconciling Bool}
    (hbody : ∀ r', Only (ReconcileCall.OfCleanup r') (body r')) (h : J w) :
    Alone perform ok (fun w' _ => J w')
      (Program.each (fun r' => (body r').attempt) (all.filter selects)) w := by
  refine Alone.each_keeps (fun r' hr' w hw => Alone.attempt_keeps ?_) h
  grind [List.mem_filter.mp, alone_other, hall.unique]

theorem alone_handleDeadWorkers_other
    (hworkers : ∀ workerId ∈ w.pool.getDeadWorkers, T (.removeWorker workerId) ∧
      T (.clearWorkerReservations workerId) ∧
      (r.workerId = some workerId && isActiveOrTransitional r.state) = false) (h : J w) :
    Alone perform ok (fun w' _ => J w') handleDeadWorkers w := by
  refine andThen (alone_getWorkers ⟨_, rfl, ?_⟩)
  split
  · exact h
  · refine andThen (alone_getAllInstances hok (hJ.kept h) fun _ hall => ⟨_, rfl, ?_⟩)
    refine each_keeps (fun workerId hdead w hw => ?_) h
    obtain ⟨hremove, hclear, hselects⟩ := hworkers workerId hdead
    refine (alone_each_other hJ hall hselects (fun _ => only_reapOnDeadWorker workerId) hw).bind
      (fun w _ hw => ?_) fun _ _ hw => hw
    refine (alone_call hJ hremove hw).bind (fun w _ hw => ?_) fun _ _ hw => hw
    exact alone_call hJ hclear hw

theorem alone_recoverStuckInstances_other {config}
    (hstuck : ∀ i, ok i → isStuck config.toReconciliationConfig i.now r = false) (h : J w) :
    Alone perform ok (fun w' _ => J w') (recoverStuckInstances config) w := by
  refine andThen (alone_getAllInstances hok (hJ.kept h) fun _ hall => ⟨_, rfl, ?_⟩)
  refine andThen (alone_now fun i hi => ⟨_, rfl, ?_⟩)
  refine each_keeps (fun r' hr' w hw => ?_) h
  by_cases hkey : r.modelName = r'.modelName ∧ r.instanceId = r'.instanceId
  · obtain rfl := hall.unique r' hr' hkey
    have hnone : exceededTimeout config.toReconciliationConfig i.now r' = none :=
      isSome_eq_false_iff.mp (hstuck i hi) |> isNone_iff_eq_none.mp
    rw [recoverInstance, hnone]
    exact hw
  · exact alone_other hJ (only_recoverInstance _ _) hkey hw

theorem alone_recoverAmbiguousStarts_other (config : TickConfig)
    (hstart : (r.state = .error && r.runnerStartAmbiguous && r.workerId.isSome) = false)
    (h : J w) : Alone perform ok (fun w' _ => J w') (recoverAmbiguousStarts config) w := by
  refine andThen (alone_now fun i _ => ⟨_, rfl, ?_⟩)
  refine andThen (alone_getAllInstances hok (hJ.kept h) fun _ hall => ⟨_, rfl, ?_⟩)
  exact alone_each_other hJ hall hstart (fun _ => only_recoverAmbiguousStart config _) h

theorem alone_reconcileMissingRunners_other (config : TickConfig)
    (hstate : r.state ≠ .active ∧ r.state ≠ .starting) (h : J w) :
    Alone perform ok (fun w' _ => J w') (reconcileMissingRunners config) w := by
  refine andThen (alone_getAllInstances hok (hJ.kept h) fun _ hall => ⟨_, rfl, ?_⟩)
  refine andThen (alone_getWorkers ⟨_, rfl, ?_⟩)
  refine andThen (alone_now fun i _ => ⟨_, rfl, ?_⟩)
  refine alone_each_other hJ hall ?_ (fun _ => only_reconcileMissingRunner config _) h
  simp [mayMissRunner, hstate.1, hstate.2]

theorem alone_reapOrphanedInstances_other (hmodel : r.modelName ∈ w.modelRows) (h : J w) :
    Alone perform ok (fun w' _ => J w') reapOrphanedInstances w := by
  refine andThen (alone_getAllInstances hok (hJ.kept h) fun _ hall => ⟨_, rfl, ?_⟩)
  refine andThen (alone_answered (fun i hi => (hok i hi).answered) (fun _ => rfl)
    fun _ _ => ⟨_, rfl, ?_⟩)
  exact alone_each_other hJ hall (decide_eq_false (not_not.mpr hmodel)) (fun _ => only_reapOrphan) h

end

/-! ### On a dead worker -/

def KeptOrDone (r : InstanceState) (w : ReconcileWorld) : Prop := Kept r w ∨ Done r w

omit hok in
omit hok in
theorem isValidTransition_error {state : ModelLifecycleState}
    (h : isActiveOrTransitional state = true) : isValidTransition state .error = true := by
  cases state with
  | stopped | error => exact nomatch h
  | _ => rfl

theorem alone_reapOnDeadWorker (hstate : isActiveOrTransitional r.state = true)
    (workerId : String) (h : KeptOrDone r w) :
    Alone perform ok (fun w' _ => Done r w') (reapOnDeadWorker workerId r) w := by
  rcases h with hkept | hdone
  · refine (alone_reapInstance (fun i hi => (hok i hi).answered) hkept
      (isValidTransition_error hstate) _).bind ?_ ?_
    · rintro w' _ ⟨-, hdone⟩
      exact hdone
    · grind
  · exact alone_done hdone

theorem alone_reapAny (hstate : isActiveOrTransitional r.state = true) (workerId : String)
    (hkey : r.modelName = r'.modelName ∧ r.instanceId = r'.instanceId → r' = r)
    (h : KeptOrDone r w) :
    Alone perform ok (fun w' _ => KeptOrDone r w') (reapOnDeadWorker workerId r') w := by
  by_cases hsame : r.modelName = r'.modelName ∧ r.instanceId = r'.instanceId
  · obtain rfl := hkey hsame
    exact (alone_reapOnDeadWorker hok hstate workerId h).mono fun _ _ => .inr
  · rcases h with hkept | hdone
    · exact (alone_other (stands_kept r) (only_reapOnDeadWorker workerId) hsame hkept).mono
        fun _ _ => .inl
    · exact (alone_done hdone).mono fun _ _ => .inr

omit hok in
theorem alone_dropWorker {J : ReconcileWorld → Prop}
    (hJ : ∀ {w c w'}, Change w c w' → c.Spares r → J w → J w') (h : J w) (workerId : String) :
    Alone perform ok (fun w' result => result = .ok () ∧ J w') (do
        ask (.removeWorker workerId)
        ask (.clearWorkerReservations workerId)) w := by
  refine Alone.andThen fun i w₁ result _ hs => ?_
  have h₁ : J w₁ := hJ (change_of_perform hs) trivial h
  cases hs
  refine ⟨(), rfl, fun i w₂ result _ hs => ?_⟩
  have h₂ : J w₂ := hJ (change_of_perform hs) trivial h₁
  cases hs
  exact ⟨rfl, h₂⟩

section
variable {all : List InstanceState} (hall : Lists r all)
  (hstate : isActiveOrTransitional r.state = true)
include hall hstate

theorem alone_sweepAny (workerId : String) (h : KeptOrDone r w) :
    Alone perform ok (fun w' result => result = .ok () ∧ KeptOrDone r w')
      (sweepWorker all workerId) w := by
  refine andThen ((each (fun r' hr' w hw => ?_) h).mono ?_)
  · exact (alone_reapAny hok hstate workerId (hall.unique r' (mem_filter.mp hr').1) hw).attempt
  · rintro w' _ ⟨rfl, hw⟩
    exact ⟨(), rfl, alone_dropWorker (fun hw hc h => h.imp (hw.kept hc) hw.done) hw workerId⟩

theorem alone_sweepWorker (hworker : r.workerId = some workerId) (h : KeptOrDone r w) :
    Alone perform ok (fun w' result => result = .ok () ∧ Done r w')
      (sweepWorker all workerId) w := by
  have hmem : r ∈ all.filter fun i =>
      i.workerId = some workerId && isActiveOrTransitional i.state :=
    mem_filter.mpr ⟨hall.mem, by simp [hworker, hstate]⟩
  refine andThen ((each_of_mem (G := Done r) (fun w hw => ?_) hmem
    (fun r' hr' w hw => ?_) (fun r' _ w hw => ?_) h).mono ?_)
  · exact (alone_reapOnDeadWorker hok hstate workerId hw).attempt
  · exact (alone_reapAny hok hstate workerId (hall.unique r' (mem_filter.mp hr').1) hw).attempt
  · exact (alone_done hw).attempt
  · rintro w' _ ⟨rfl, hw⟩
    exact ⟨(), rfl, alone_dropWorker (r := r) (fun hw _ h => hw.done h) hw workerId⟩

end

/-- **A dead worker.**  When nothing fails, the pass cleans up the instance. -/
theorem alone_handleDeadWorkers (hstate : isActiveOrTransitional r.state = true)
    (hworker : r.workerId = some workerId)
    (hdead : (w.pool.lookup workerId).map (·.status) = some .offline) (h : Kept r w) :
    Alone perform ok (fun w' _ => Done r w') handleDeadWorkers w := by
  have hmem : workerId ∈ w.pool.getDeadWorkers := by
    obtain ⟨_, hlookup, hstatus⟩ := map_eq_some_iff.mp hdead
    have hknown : workerId ∈ w.pool := AList.lookup_isSome.mp (by rw [hlookup]; rfl)
    refine mem_filter.mpr ⟨AList.mem_keys.mp hknown, ?_⟩
    simp [hlookup, hstatus]
  refine andThen (alone_getWorkers ⟨_, rfl, ?_⟩)
  rw [if_neg]
  · refine andThen (alone_getAllInstances hok h fun _ hall => ⟨_, rfl, ?_⟩)
    refine (each_of_mem (J := KeptOrDone r) (fun w hw => ?_) hmem (fun workerId' _ w hw => ?_)
      (fun workerId' _ w hw => ?_) (.inl h)).mono fun _ _ h => h.2
    · exact alone_sweepWorker hok hall hstate hworker hw
    · exact alone_sweepAny hok hall hstate workerId' hw
    · exact ((alone_sweepAny hok hall hstate workerId' (.inr hw)).and (alone_done hw)).mono
        fun _ _ h => ⟨h.1.1, h.2⟩
  · grind

/-! ### Without its runner -/

/-- The instance can be found missing its runner. -/
structure Selectable (r : InstanceState) (workerId runnerId : String) : Prop where
  worker : r.workerId = some workerId
  runner : r.runnerId = some runnerId
  worker_ne : workerId ≠ ""
  runner_ne : runnerId ≠ ""
  state : r.state = .active ∨ r.state = .starting

omit hok in
theorem Selectable.isActiveOrTransitional (h : Selectable r workerId runnerId) :
    isActiveOrTransitional r.state = true := by
  rcases h.state with hstate | hstate
  · rw [hstate]
    rfl
  · rw [hstate]
    rfl

variable {config : TickConfig}

theorem alone_reconcileMissingRunner {now} (hselect : Selectable r workerId runnerId)
    (hgrace : ¬ (r.state = .starting ∧ config.inGrace now r = true))
    (h : Missing r workerId runnerId w ∨ Done r w) :
    Alone perform ok (fun w' _ => Done r w') (reconcileMissingRunner config now r) w := by
  rcases h with h | hdone
  · have hanswered : ∀ i, ok i → i.outcome = .answered := fun i hi => (hok i hi).answered
    have hprobe : Alone perform ok (fun w' result => w' = w ∧ result = .ok (some false))
        (tryCatch (do
            let found ← ask (.getRunner workerId runnerId)
            pure (some found)) fun _ => pure none) w := by
      refine tryCatch_of_ok (andThen (alone_answered hanswered (fun _ => rfl)
        fun i hi => ⟨_, rfl, some false, ?_, rfl, rfl⟩))
      rw [decide_eq_false h.absent]
    unfold reconcileMissingRunner
    rw [if_neg hgrace, hselect.worker, hselect.runner]
    refine andThen (hprobe.mono ?_)
    rintro _ _ ⟨rfl, rfl⟩
    refine ⟨_, rfl, ?_⟩
    refine (alone_reapInstance hanswered h.toKept
      (isValidTransition_error hselect.isActiveOrTransitional) _).bind ?_ ?_
    · rintro w' _ ⟨-, hdone⟩
      exact hdone
    · grind
  · exact alone_done hdone

/-- **A missing runner.**  When nothing fails, the pass cleans up the instance. -/
theorem alone_reconcileMissingRunners (hselect : Selectable r workerId runnerId)
    (hgrace : ∀ i, ok i → ¬ (r.state = .starting ∧ config.inGrace i.now r = true))
    (h : Missing r workerId runnerId w) :
    Alone perform ok (fun w' _ => Done r w') (reconcileMissingRunners config) w := by
  refine andThen (alone_getAllInstances hok h.toKept fun all hall => ⟨_, rfl, ?_⟩)
  refine andThen (alone_getWorkers ⟨_, rfl, ?_⟩)
  refine andThen (alone_now fun i hi => ⟨_, rfl, ?_⟩)
  have hmem : r ∈ all.filter (mayMissRunner w.pool) := by
    refine mem_filter.mpr ⟨hall.mem, ?_⟩
    obtain ⟨worker, hlookup, hstatus⟩ := h.reachable
    rcases hselect.state with hstate | hstate
    all_goals
      simp [mayMissRunner, present, hselect.worker, hselect.runner, hselect.worker_ne,
        hselect.runner_ne, hstate, hlookup, hstatus]
  refine (each_of_mem (J := fun w => Missing r workerId runnerId w ∨ Done r w)
    (fun w hw => ?_) hmem (fun r' hr' w hw => ?_) (fun r' _ w hw => ?_) (.inl h)).mono
      fun _ _ h => h.2
  · exact (alone_reconcileMissingRunner hok hselect (hgrace i hi) hw).attempt
  · by_cases hkey : r.modelName = r'.modelName ∧ r.instanceId = r'.instanceId
    · obtain rfl := hall.unique r' (mem_filter.mp hr').1 hkey
      exact ((alone_reconcileMissingRunner hok hselect (hgrace i hi) hw).mono
        fun _ _ => .inr).attempt
    · rcases hw with hw | hdone
      · exact ((alone_other (stands_missing r workerId runnerId)
          (only_reconcileMissingRunner config _) hkey hw).mono
          fun _ _ => .inl).attempt
      · exact ((alone_done hdone).mono fun _ _ => .inr).attempt
  · exact (alone_done hw).attempt

/-! ### Already removed -/

/-- Record, endpoint and holds are gone; the row may be left. -/
structure Removed (r : InstanceState) (w : ReconcileWorld) : Prop where
  named : w.Named
  record : ∀ modelName, w.NoRecord modelName r.instanceId
  endpoint : EndpointGone r w
  hold : ¬ w.memory.HasHold r.instanceId

omit hok in
theorem Removed.change {w' : ReconcileWorld} (hw : w.Change c w')
    (h : Removed r w) : Removed r w' :=
  ⟨hw.named h.named, fun modelName => hw.noRecord (h.record modelName), h.endpoint.change hw,
    fun hhold => h.hold (hw.dropped.memory.hasHold hhold)⟩

omit hok in
theorem Removed.done (h : Removed r w) (hrow : r.instanceId ∉ w.rows) : Done r w :=
  ⟨h.endpoint.1, h.record _, h.endpoint.2, hrow, h.hold⟩

omit hok in
theorem Removed.not_mem_readAll (h : Removed r w) (i : ReconcileInput) :
    r.instanceId ∉ (w.readAll i).map (·.instanceId) := by
  rintro hmem
  obtain ⟨record, hread, hid⟩ := List.mem_map.mp hmem
  obtain ⟨modelName, id, hrecord⟩ := stored_of_mem_readAll hread
  obtain ⟨-, rfl⟩ := h.named _ _ _ hrecord
  have hnone := h.record modelName
  grind [NoRecord]

/-- **A row is left.**  When nothing fails, the pass deletes it. -/
theorem alone_reconcileInstanceTable (h : Removed r w) :
    Alone perform ok (fun w' _ => Done r w') reconcileInstanceTable w := by
  have hanswered : ∀ i, ok i → i.outcome = .answered := fun i hi => (hok i hi).answered
  by_cases hrow : r.instanceId ∈ w.rows
  · refine andThen (alone_answered hanswered (fun _ => rfl) fun _ _ => ⟨_, rfl, ?_⟩)
    refine andThen fun i w' _ hi hs => ?_
    obtain ⟨-, hs⟩ := ite_none_right_eq_some.mp hs
    rw [reply, hanswered i hi] at hs
    cases hs
    have hmem : r.instanceId ∈
        w.rows.filter fun id => id ∉ (w.readAll i).map (·.instanceId) :=
      mem_filter.mpr ⟨hrow, decide_eq_true (h.not_mem_readAll i)⟩
    refine ⟨_, rfl, (each_of_mem (fun w hw => ?_) hmem
      (fun id _ w hw => ?_) (fun id _ w hw => ?_) h).mono fun _ _ h => h.2⟩
    · refine attempt (alone_answered hanswered (fun _ => rfl) fun i _ => ?_)
      refine Removed.done (hw.change (c := .deleteRow r.instanceId)
        (.rows (filter_subset_self _))) fun hmem => ?_
      exact absurd rfl (of_decide_eq_true (mem_filter.mp hmem).2)
    · exact (alone_keeps Removed.change hw).attempt
    · exact (alone_done hw).attempt
  · exact alone_done (h.done hrow)

end

/-! ## The tick -/

/-- What a later tick finds of an instance whose clean-up has failed. -/
inductive Finding where
  | removed
  | onDeadWorker (workerId : String)
  | withoutRunner (workerId runnerId : String)
  | inError
deriving DecidableEq

/-- Nothing fails in the tick; the worker is dead, where it was; or it is there,
the record is not stuck and not within the grace period. -/
def Finding.Quiet (config : TickConfig) (r : InstanceState) : Finding → ReconcileInput → Prop
  | .removed, i | .inError, i => Undisturbed i
  | .onDeadWorker workerId, i =>
    Undisturbed i ∧ (i.pool.lookup workerId).map (·.status) = some .offline
  | .withoutRunner workerId _, i =>
    Undisturbed i ∧ Reachable workerId i.pool ∧
      isStuck config.toReconciliationConfig i.now r = false ∧
      ¬ (r.state = .starting ∧ config.inGrace i.now r = true)

def Finding.Holds (r : InstanceState) (w : ReconcileWorld) : Finding → Prop
  | .removed => Removed r w
  | .onDeadWorker workerId =>
    Kept r w ∧ r.workerId = some workerId ∧ isActiveOrTransitional r.state = true
  | .withoutRunner workerId runnerId =>
    Kept r w ∧ Selectable r workerId runnerId ∧ (workerId, runnerId) ∉ w.runners
  | .inError => Stuck r w

section
variable {config : TickConfig} {w : ReconcileWorld} {r : InstanceState}

theorem Finding.Quiet.answers {finding : Finding} {i}
    (h : finding.Quiet config r i) (w : ReconcileWorld) (c : ReconcileCall) (hc : c.OfTick) :
    ∃ i, finding.Quiet config r i ∧ (w.perform i c).isSome = true := by
  have hquiet : ∀ keys, finding.Quiet config r { i with keys, allKeys := w.recordKeys } := by
    intro keys
    cases finding with
    | removed | inError => exact ⟨h.1, h.2⟩
    | onDeadWorker | withoutRunner => exact ⟨⟨h.1.1, h.1.2⟩, h.2⟩
  cases c with
  | service modelName c =>
    obtain ⟨_, hc⟩ := hc
    cases c with
    | scanned startIds =>
      refine ⟨_, hquiet startIds, ?_⟩
      have hscan : Refresh.ScanReply startIds (w.instancesOf modelName) startIds :=
        ⟨fun _ h _ => h, fun _ h => h⟩
      grind [perform, service, isSome_reply]
    | transition =>
      grind [perform, service, isSome_reply]
    | getInstance | removeInstance | scan | setModelState | removeModel | removeEndpoint =>
      exact ⟨_, hquiet [], isSome_reply _ _ _ _⟩
    | _ => exact hc.elim
  | getAllInstances =>
    refine ⟨_, hquiet [], ?_⟩
    simp only [perform, if_pos fun (key : String × String) (h : key ∈ w.recordKeys) => h]
    exact isSome_reply _ _ _ _
  | stopRunner =>
    grind [perform, isSome_reply]
  | getWorkers | removeWorker | clearWorkerReservations | releaseInstanceReservations | now =>
    exact ⟨_, hquiet [], rfl⟩
  | _ => exact ⟨_, hquiet [], isSome_reply _ _ _ _⟩

theorem alone_tick_removed (h : Removed r w) :
    Alone perform (Finding.removed.Quiet config r) (fun w' _ => Done r w') (tick config) w := by
  refine (alone_keeps Removed.change h).attempt_then fun w h => ?_
  refine (alone_keeps Removed.change h).attempt_then fun w h => ?_
  refine (alone_keeps Removed.change h).attempt_then fun w h => ?_
  refine (alone_keeps Removed.change h).attempt_then fun w h => ?_
  refine (alone_keeps Removed.change h).attempt_then fun w h => ?_
  refine (alone_keeps Removed.change h).attempt_then fun w h => ?_
  refine (alone_keeps Removed.change h).attempt_then fun w h => ?_
  refine (alone_keeps Removed.change h).attempt_then fun w h => ?_
  refine (alone_reconcileInstanceTable (fun _ hi => hi) h).attempt_then fun w h => ?_
  exact alone_done h

theorem alone_checkHeartbeats {ok} {J : ReconcileWorld → Prop}
    (hok : ∀ i, ok i → i.outcome = .answered) (h : ∀ i, ok i → J { w with pool := i.pool }) :
    Alone perform ok (fun w' _ => J w') (ask .checkHeartbeats) w :=
  alone_answered hok (fun _ => rfl) h

theorem alone_tick_dead {workerId} (hworker : r.workerId = some workerId)
    (hstate : isActiveOrTransitional r.state = true) (h : Kept r w) :
    Alone perform ((Finding.onDeadWorker workerId).Quiet config r) (fun w' _ => Done r w')
      (tick config) w := by
  refine (alone_call (stands_kept r) (c := .discoverWorkers) trivial h).attempt_then fun w h => ?_
  refine attempt_then (alone_checkHeartbeats (J := fun w => Kept r w ∧
    (w.pool.lookup workerId).map (·.status) = some .offline) (fun _ hi => hi.1.answered)
      fun i hi => ⟨Change.check.kept trivial h, hi.2⟩) fun w h => ?_
  refine (alone_handleDeadWorkers (fun _ hi => hi.1) hstate hworker h.2 h.1).attempt_then
    fun w h => ?_
  exact alone_done h

theorem alone_tick_missing {workerId runnerId} (hselect : Selectable r workerId runnerId)
    (habsent : (workerId, runnerId) ∉ w.runners) (h : Kept r w) :
    Alone perform ((Finding.withoutRunner workerId runnerId).Quiet config r)
      (fun w' _ => Done r w') (tick config) w := by
  have hok : ∀ i, (Finding.withoutRunner workerId runnerId).Quiet config r i → Undisturbed i :=
    fun _ hi => hi.1
  have hstands := stands_missing r workerId runnerId
  have hstate : (r.state = .error : Bool) = false := by
    grind [hselect.state]
  refine attempt_then (J := fun w => Kept r w ∧ (workerId, runnerId) ∉ w.runners)
    (fun i w' _ _ hs => ⟨(change_of_perform hs).kept trivial h,
      fun hmem => habsent ((change_of_perform hs).dropped.runners hmem)⟩) fun w h => ?_
  refine attempt_then (alone_checkHeartbeats (J := Missing r workerId runnerId)
    (fun _ hi => hi.1.answered) fun i hi => ⟨Change.check.kept trivial h.1, hi.2.1, h.2⟩)
      fun w h => ?_
  refine (alone_handleDeadWorkers_other hok hstands (fun workerId' hdead => ?_) h).attempt_then
    fun w h => ?_
  · have hne : workerId' ≠ workerId := h.reachable.not_dead hdead
    refine ⟨⟨trivial, hne⟩, ⟨trivial, trivial⟩, ?_⟩
    rw [hselect.worker, decide_eq_false fun heq => hne (Option.some.inj heq).symm, Bool.false_and]
  refine (alone_call hstands (c := .refreshMemoryBudgets) ⟨trivial, trivial⟩ h).attempt_then
    fun w h => ?_
  refine (alone_call hstands (c := .resumeMoves) ⟨trivial, trivial⟩ h).attempt_then fun w h => ?_
  refine (alone_recoverStuckInstances_other hok hstands (fun _ hi => hi.2.2.1) h).attempt_then
    fun w h => ?_
  refine (alone_recoverAmbiguousStarts_other hok hstands config ?_ h).attempt_then fun w h => ?_
  · rw [hstate, Bool.false_and, Bool.false_and]
  refine (alone_reconcileMissingRunners hok hselect (fun _ hi => hi.2.2.2) h).attempt_then
    fun w h => ?_
  exact alone_done h

/-- **No pass selects the record in `ERROR`.** -/
theorem alone_tick_stuck (h : Stuck r w) :
    Alone perform (Finding.inError.Quiet config r) (fun w' _ => Stuck r w') (tick config) w := by
  have hok : ∀ i, Finding.inError.Quiet config r i → Undisturbed i := fun _ hi => hi
  have hstands := stands_stuck r
  have hstate := h.state
  have hsettled := h.settled
  refine (alone_call hstands (c := .discoverWorkers) trivial h).attempt_then fun w h => ?_
  refine (alone_call hstands (c := .checkHeartbeats) trivial h).attempt_then fun w h => ?_
  refine (alone_handleDeadWorkers_other hok hstands (fun _ _ => ⟨trivial, trivial, ?_⟩)
    h).attempt_then fun w h => ?_
  · simp [isActiveOrTransitional, hstate]
  refine (alone_call hstands (c := .refreshMemoryBudgets) trivial h).attempt_then fun w h => ?_
  refine (alone_call hstands (c := .resumeMoves) trivial h).attempt_then fun w h => ?_
  refine (alone_recoverStuckInstances_other hok hstands (fun i _ => ?_) h).attempt_then
    fun w h => ?_
  · simp [isStuck, exceededTimeout, transitionalStates, hstate]
  refine (alone_recoverAmbiguousStarts_other hok hstands config ?_ h).attempt_then fun w h => ?_
  · simp [hsettled]
  refine (alone_reconcileMissingRunners_other hok hstands config ?_ h).attempt_then fun w h => ?_
  · simp [hstate]
  refine (alone_stands hstands (only_reconcileInstanceTable trivial trivial fun _ =>
    trivial) h).attempt_then fun w h => ?_
  exact (alone_reapOrphanedInstances_other hok hstands h.model h).attempt_keeps

/-- **The tick after a clean-up that has failed.**  From each of the four
states, a tick in which nothing fails can go on to its end; then nothing of the
instance is left, unless the clean-up had left the record in `ERROR`. -/
theorem later_tick_completes_iff {finding : Finding} (hquiet : ∃ i, finding.Quiet config r i)
    (h : finding.Holds r w) :
    Completes perform (finding.Quiet config r) (fun w' _ => w'.Gone r) (tick config) w ↔
      finding ≠ .inError := by
  obtain ⟨i, hi⟩ := hquiet
  constructor
  · rintro hcompletes rfl
    refine hcompletes.not_alone (fun _ hi => hi) hi.answers (only_tick config)
      ((alone_tick_stuck h).mono fun w' _ hstuck hgone => ?_)
    exact nomatch hgone.record.symm.trans hstuck.stored
  · intro hne
    refine completes hi.answers (only_tick config)
      (Alone.mono (Q := fun w' _ => Done r w') (fun _ _ hdone => hdone.2) ?_)
    cases finding with
    | removed => exact alone_tick_removed h
    | onDeadWorker workerId => exact alone_tick_dead h.2.1 h.2.2 h.1
    | withoutRunner workerId => exact alone_tick_missing h.2.1 h.2.2 h.1
    | inError => exact absurd rfl hne

end

end Reconciling

/-! ## A clean-up that fails at the endpoint -/

namespace ExampleReconcile

open Reconciling ReconcileWorld

def config : TickConfig := ⟨⟨600, 300⟩, 600⟩

def deployed : ReconcileWorld := { oneInstance with rows := ["a"], modelRows := ["m"] }

variable (status : WorkerStatus)

def quiet : ReconcileInput where
  keys := ["a"]
  allKeys := [("m", "a")]
  pool := AList.singleton "w" ⟨"w", status, [], [], none⟩

theorem kept_deployed : Kept active deployed where
  named modelName id record h := by
    have hkey : (modelName, id) ∈ deployed.recordKeys :=
      mem_recordKeys.mpr (AList.lookup_isSome.mp (by rw [h]; rfl))
    obtain ⟨rfl, rfl⟩ := Prod.mk.inj (mem_singleton.mp hkey)
    obtain rfl : active = record := Option.some.inj h
    exact ⟨rfl, rfl⟩
  idle := Finset.notMem_empty _
  stored := rfl

def failed : InstanceState := { active with state := .error }

def failedWorld : ReconcileWorld :=
  { deployed with models := AList.singleton "m" (AList.singleton "a" failed) }

/-- The transition has failed: the next tick in which nothing fails cleans up. -/
theorem dead_worker_heals : Completes perform ((Finding.onDeadWorker "w").Quiet config active)
      (fun w' _ => w'.Gone active) (tick config) deployed := by
  have hquiet : (Finding.onDeadWorker "w").Quiet config active (quiet .offline) :=
    ⟨⟨rfl, rfl⟩, by decide⟩
  have hholds : (Finding.onDeadWorker "w").Holds active deployed := ⟨kept_deployed, rfl, rfl⟩
  exact (later_tick_completes_iff ⟨_, hquiet⟩ hholds).mpr (by decide)

def serveFailing (i : ReconcileInput) (w : ReconcileWorld) (c : ReconcileCall) :
    ReconcileWorld × Except Failure (ReconcileReply c) :=
  if c = .service "m" (.removeEndpoint "10.0.0.7" 8000) then w.serve { i with outcome := .failed } c
  else w.serve i c

/-- What a tick in which the removal fails, and one in which nothing does, leave:
the state of the record, the endpoints of the model, and the rows. -/
def twoTicks :
    Option ModelLifecycleState × List (String × Nat) × List String :=
  let (failed, _) := (tick config).run (serveFailing (quiet status)) deployed
  let (w, _) := (tick config).run (serve (quiet status)) failed
  (((w.instancesOf "m").lookup "a").map (·.state),
    (endpointsOf w.routing "m").map fun e => (e.host, e.port), w.rows)

/-- **The clean-up is not completed.**  The worker is dead, or does not have the
runner, and the removal of the endpoint fails: after the next tick the record is
there, in `ERROR`, and so are the endpoint and the row. -/
theorem cleanup_is_stuck : twoTicks .offline = (some .error, [("10.0.0.7", 8000)], ["a"]) ∧
      twoTicks .online = (some .error, [("10.0.0.7", 8000)], ["a"]) := by
  decide +kernel

end ExampleReconcile

end Sardeenz
