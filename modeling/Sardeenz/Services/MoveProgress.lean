/-
# `Sardeenz.Services.MoveProgress` — a move is not wedged

`resume` run alone, with every worker reachable and every call answered
(`Ideal`), from any state of the operation, the source and the replacement.
Each time it is to remove the operation, to advance its phase, or to return
because the replacement is still starting.

    REPLACEMENT_STARTING   the replacement is gone, starting, ACTIVE or ERROR
    REPLACEMENT_READY      the same; if it is gone or ERROR, the source is ACTIVE
    CUTTING_OVER           the same, and an ACTIVE source is routed; if the
                           replacement is ACTIVE, the source is ACTIVE or DRAINING
    SOURCE_DRAINING        the source's start is not ambiguous
    REPLACEMENT_CLEANUP    an ambiguous start of the replacement names its worker

These are the states from which it does (`Movable`).  The others are not all out
of reach: `recoverStuckInstances` knows nothing of moves, and moves a source that
a crashed leader has left `DRAINING` to `ERROR`.  From then on every `resume`
throws.

**Proved here.**  A `resume` progresses exactly from the states that are `Movable`
(`resume_progress_iff`); a move that never does (`source_error_wedges_move`).
-/
import Sardeenz.Services.MoveAlone
import Sardeenz.Services.MoveSafety
import Sardeenz.Services.Recovery

namespace Sardeenz.MoveProgress

open Interleave Option Alone Move

/-! ## The property -/

def rank : MoveOperationPhase → Nat
  | .replacementStarting => 0
  | .replacementReady => 1
  | .cuttingOver => 2
  | .sourceDraining | .replacementCleanup => 3

variable {current : MoveOperationPhase}

theorem rank_le {phase}
    (h : phaseAllowed current phase = true) : rank current ≤ rank (phase.getD current) := by
  cases phase with
  | none => exact Nat.le_refl _
  | some phase =>
    revert h
    cases current <;> cases phase <;> decide

variable {phase : MoveOperationPhase}

theorem rank_lt (h : phase ∈ allowedPhases current) : rank current < rank phase := by
  revert h
  cases current <;> cases phase <;> decide

def Advanced (phase : MoveOperationPhase) (w : World) : Prop :=
  ∀ operation ∈ w.operation, rank phase < rank operation.phase

def Remains (phase : MoveOperationPhase) (w : World) : Prop :=
  ∃ operation ∈ w.operation, operation.phase = phase

theorem Remains.not_advanced {w} (h : Remains phase w) : ¬ Advanced phase w := by
  obtain ⟨operation, hstored, rfl⟩ := h
  exact fun hadvanced => Nat.lt_irrefl _ (hadvanced operation hstored)

def Waiting (σ : Setting) (timeouts : Timeouts) (now : Nat) (w : World)
    (operation : MoveOperation) : Prop :=
  ∃ r ∈ w.instances.lookup operation.replacementInstanceId,
    match operation.phase with
    | .replacementStarting =>
      (r.state = .pending ∨ r.state = .starting) ∧ Underway σ timeouts now operation.createdAt w
    | .replacementReady | .cuttingOver => r.state = .pending ∨ r.state = .starting
    | .replacementCleanup =>
      OpenStart r ∧ r.workerId ≠ none ∧ Underway σ timeouts now r.stateChangedAt w
    | .sourceDraining => False

def Routed (σ : Setting) (w : World) (r : InstanceState) : Prop :=
  ∃ address ∈ r.endpointAddress, RoutedAt w.routing σ.modelName address

def CanShift (σ : Setting) (w : World) (source : InstanceState) : Prop :=
  source.state = .draining ∨ (source.state = .active ∧ Routed σ w source)

def CanRollBack (σ : Setting) (w : World) (operation : MoveOperation) (source : InstanceState) :
    Prop :=
  source.state = .active ∧ (operation.phase = .cuttingOver → Routed σ w source)

def Foreseen (replacement : Option InstanceState) : Prop :=
  ∀ r ∈ replacement, r.state ∈ [.pending, .starting, .active, .error]

/-- The states from which `resume` goes on. -/
def Movable (σ : Setting) (w : World) (operation : MoveOperation) : Prop :=
  let source := w.instances.lookup operation.sourceInstanceId
  let replacement := w.instances.lookup operation.replacementInstanceId
  match operation.phase with
  | .replacementStarting => Foreseen replacement
  | .replacementReady | .cuttingOver =>
    Foreseen replacement ∧ ∀ s ∈ source,
      (operation.phase = .cuttingOver → replacement.map (·.state) = some .active → CanShift σ w s) ∧
      (replacement = none ∨ replacement.map (·.state) = some .error → CanRollBack σ w operation s)
  | .sourceDraining => ∀ s ∈ source, ¬ OpenStart s
  | .replacementCleanup => ∀ r ∈ replacement, OpenStart r → r.workerId ≠ none

section
variable (σ : Setting) (w : World) (operation : MoveOperation)

instance (r : InstanceState) : Decidable (Routed σ w r) :=
  inferInstanceAs (Decidable (∃ address ∈ r.endpointAddress, _))

instance (source : InstanceState) : Decidable (CanShift σ w source) :=
  inferInstanceAs (Decidable (_ ∨ _))

instance (source : InstanceState) : Decidable (CanRollBack σ w operation source) :=
  inferInstanceAs (Decidable (_ ∧ _))

instance (replacement : Option InstanceState) : Decidable (Foreseen replacement) :=
  inferInstanceAs (Decidable (∀ r ∈ replacement, _))

instance : Decidable (Movable σ w operation) := by
  unfold Movable
  split <;> infer_instance

end

section
variable {σ : Setting} {now : Nat} {ok : Input → Prop} {w : World}

/-- **Progress is not undone.** -/
theorem Advanced.perform {i w' c r} (h : Advanced phase w) (hw : w.perform σ i c = some (w', r)) :
    Advanced phase w' := by
  cases c with
  | updateMoveOperation operationId =>
    simp only [World.perform] at hw
    split at hw
    · rename_i updated hupdate
      obtain ⟨stored, hstored, -, hallowed, -, hphase, -⟩ := updateMoveOperation_eq_some hupdate
      refine Input.reply_world hw h ?_
      intro _ hu
      cases hu
      rw [hphase]
      exact Nat.lt_of_lt_of_le (h stored hstored) (rank_le hallowed)
    · exact Input.reply_world hw h h
  | removeMoveOperation operationId =>
    refine Input.reply_world hw h ?_
    intro operation ho
    refine h operation ?_
    grind
  | _ =>
    have hsame : w'.operation = w.operation :=
      ((World.perform_sameBut hw).operation fun h => by cases h).1
    intro operation ho
    exact h operation (hsame ▸ ho)

variable {α : Type}

theorem Advanced.alone (h : Advanced phase w) (p : Service α) : Ends σ ok (Advanced phase) p w :=
  alone_of_keeps (fun _ _ _ _ _ _ hw h => hw.perform h) h

variable {operation : MoveOperation}

/-- The program advances the operation if `P`, and leaves it in its phase if not. -/
def Decides (P : Prop) (phase : MoveOperationPhase) (w : World) : Prop :=
  (P → Advanced phase w) ∧ (¬ P → Remains phase w)

theorem alone_decides_of_advances {P} {p : Service α} (hP : P)
    (h : Ends σ ok (Advanced operation.phase) p w) :
    Ends σ ok (Decides P operation.phase) p w :=
  h.mono fun _ _ hadvanced => ⟨fun _ => hadvanced, fun hn => absurd hP hn⟩

theorem decides_of_remains {P} (hP : ¬ P) (h : w.operation = some operation) :
    Decides P operation.phase w :=
  ⟨fun hp => absurd hp hP, fun _ => ⟨operation, h, rfl⟩⟩

theorem Decides.congr {P P'} (hP : P ↔ P') (h : Decides P phase w) : Decides P' phase w :=
  ⟨fun hp => h.1 (hP.mpr hp), fun hn => h.2 fun hp => hn (hP.mp hp)⟩

theorem foreseen_none : Foreseen none := fun r hr => absurd hr (not_mem_none r)

variable {r : InstanceState}

theorem foreseen_some : Foreseen (some r) ↔ Starting r ∨ r.state = .active ∨ r.state = .error := by
  constructor
  · intro h
    have hstate := h r rfl
    grind
  · rintro h _ _
    grind

theorem movable_iff_of_cutover
    (hphase : operation.phase = .replacementReady ∨ operation.phase = .cuttingOver) :
    Movable σ w operation ↔ Foreseen (w.instances.lookup operation.replacementInstanceId) ∧
      ∀ s ∈ w.instances.lookup operation.sourceInstanceId, (operation.phase = .cuttingOver →
          (w.instances.lookup operation.replacementInstanceId).map (·.state) = some .active →
          CanShift σ w s) ∧
        (w.instances.lookup operation.replacementInstanceId = none ∨
            (w.instances.lookup operation.replacementInstanceId).map (·.state) = some .error →
          CanRollBack σ w operation s) := by
  grind [Movable]

variable {timeouts : Timeouts} {modelName : String}

theorem remains_teardown {id cleanup success}
    (hstored : w.operation = some operation)
    (hresolve : Leads σ ok (fun w' res => res = .ok .deferred ∧ w'.operation = w.operation)
      (resolveAmbiguousStart timeouts modelName id r) w) :
    Ends σ ok (Remains operation.phase) (do
        if ← teardown timeouts modelName id r cleanup then finish operation success
        else pure ()) w := by
  refine andThen ((alone_teardown_deferred hresolve).mono ?_)
  rintro w' _ ⟨rfl, hw'⟩
  refine ⟨false, rfl, ?_⟩
  exact ⟨operation, hw'.trans hstored, rfl⟩

variable (hok : ∀ i, ok i → Ideal now i)
include hok

/-! ## Progress, phase by phase -/

section
variable (hstored : w.operation = some operation)
include hstored

theorem advances_finish {success} :
    Ends σ ok (Advanced operation.phase) (finish operation success) w := by
  have hremove : ∀ i, ok i →
      w.perform σ i (.removeMoveOperation operation.operationId success) =
        some ({ w with operation := none, completed := w.completed || (true && success) },
          .ok true) := by
    intro i hi
    simp only [World.perform, removeMoveOperation, hstored]
    exact reply_answered (hok i hi).answered
  exact andThen (alone_await hremove fun _ _ => ⟨_, rfl, fun _ h => by cases h⟩)

theorem advances_update {errorMessage}
    {f : Option MoveOperation → Service α} (hphase : phase ∈ allowedPhases operation.phase) :
    Ends σ ok (Advanced operation.phase)
      (await (.updateMoveOperation operation.operationId { phase := some phase, errorMessage })
        >>= f) w := by
  have hallowed : phaseAllowed operation.phase (some phase) = true :=
    Bool.or_eq_true_iff.mpr (.inr (List.contains_iff_mem.mpr hphase))
  refine alone_updateMoveOperation hok hstored rfl hallowed fun _ => Advanced.alone ?_ _
  intro _ hu
  cases hu
  exact rank_lt hphase

theorem advances_teardown (hrounds : 0 < timeouts.rounds) {id cleanup success}
    (hresolve : Leads σ ok (fun w' res => ∃ record, res = .ok (.ready record) ∧
        (∃ current, w'.instances.lookup id = some current) ∧ w'.operation = w.operation)
      (resolveAmbiguousStart timeouts modelName id r) w) :
    Ends σ ok (Advanced operation.phase) (do
        if ← teardown timeouts modelName id r cleanup then finish operation success
        else pure ()) w := by
  refine andThen ((alone_teardown_ready hok hrounds hresolve).mono ?_)
  rintro w' _ ⟨rfl, hw'⟩
  refine ⟨true, rfl, ?_⟩
  exact advances_finish hok (hw'.trans hstored)

theorem advances_cleanup (hrounds : 0 < timeouts.rounds)
    (hid : operation.replacementInstanceId = σ.instanceId)
    (hphase : operation.phase = .replacementCleanup) (hmovable : Movable σ w operation)
    (hwaiting : ¬ Waiting σ timeouts now w operation) :
    Ends σ ok (Advanced operation.phase) (resumeCleanup timeouts modelName operation) w := by
  simp only [Movable, hphase] at hmovable
  refine alone_getInstance hok ?_
  cases hr : w.instances.lookup operation.replacementInstanceId with
  | none => exact advances_finish hok hstored
  | some r =>
    refine advances_teardown hok hstored hrounds ?_
    by_cases hopen : OpenStart r
    · have hworker := hmovable r hr hopen
      have hsettled : ¬ Underway σ timeouts now r.stateChangedAt w := by
        intro h
        refine hwaiting ⟨r, hr, ?_⟩
        grind
      grind [alone_resolve_replacement]
    · exact alone_resolve_closed hopen hr

theorem advances_draining (hrounds : 0 < timeouts.rounds)
    (hphase : operation.phase = .sourceDraining) (hmovable : Movable σ w operation) :
    Ends σ ok (Advanced operation.phase) (resumeDraining timeouts modelName operation) w := by
  simp only [Movable, hphase] at hmovable
  refine alone_isLeader hok ?_
  refine alone_getInstance hok ?_
  cases hs : w.instances.lookup operation.sourceInstanceId with
  | none => exact advances_finish hok hstored
  | some s => exact advances_teardown hok hstored hrounds (alone_resolve_closed (hmovable s hs) hs)

/-! ### The start of the replacement -/

theorem advances_settle (hphase : operation.phase = .replacementStarting)
    (hr : r.state = .active ∨ r.state = .error) :
    Ends σ ok (Advanced operation.phase)
      (settleReplacement timeouts modelName operation r) w := by
  unfold settleReplacement
  split
  · exact andThen (alone_ignored hok
      ⟨_, rfl, advances_update hok hstored (by rw [hphase]; decide)⟩)
  · rename_i hactive
    rw [if_pos (hr.resolve_left hactive)]
    exact andThen (alone_ignored hok
      ⟨_, rfl, advances_update hok hstored (by rw [hphase]; decide)⟩)

theorem advances_starting (hid : operation.replacementInstanceId = σ.instanceId)
    (hphase : operation.phase = .replacementStarting) (hmovable : Movable σ w operation)
    (hwaiting : ¬ Waiting σ timeouts now w operation) :
    Ends σ ok (Advanced operation.phase) (resumeStarting timeouts modelName operation) w := by
  simp only [Movable, hphase] at hmovable
  refine alone_getInstance hok ?_
  cases hr : w.instances.lookup operation.replacementInstanceId with
  | none => exact advances_finish hok hstored
  | some r =>
    by_cases hstarting : Starting r
    · have hsettled : ¬ Underway σ timeouts now operation.createdAt w := by
        intro h
        refine hwaiting ⟨r, hr, ?_⟩
        grind
      simp only [if_pos hstarting]
      refine andThen ((alone_recoverReplacementStart hok hid hr hstarting hsettled).mono ?_)
      rintro _ _ ⟨_, rfl, hstate, hw'⟩
      exact ⟨_, rfl, advances_settle hok (hw'.trans hstored) hphase hstate⟩
    · simp only [if_neg hstarting]
      refine advances_settle hok hstored hphase ?_
      have hstate := hmovable r hr
      grind

end

/-! ### The cutover -/

section
variable {source : InstanceState}

/-- **Taking the traffic from the source** succeeds if the source is `DRAINING`,
or `ACTIVE` and routed; otherwise it throws. -/
theorem alone_shiftTraffic (hsource : w.instances.lookup operation.sourceInstanceId = some source) :
    Leads σ ok (fun w' res => w'.operation = w.operation ∧
        ((CanShift σ w source ∧ res = .ok true) ∨ (¬ CanShift σ w source ∧ ∃ e, res = .error e)))
      (shiftTraffic operation source) w := by
  unfold shiftTraffic
  by_cases hactive : source.state = .active
  · rw [if_pos hactive]
    cases haddress : source.endpointAddress with
    | none =>
      refine ⟨rfl, .inr ⟨?_, _, rfl⟩⟩
      rintro (h | ⟨-, address, h, -⟩)
      · exact nomatch hactive.symm.trans h
      · exact nomatch haddress.symm.trans h
    | some address =>
      refine andThen (alone_cutover hok (fun hrouted _ => ⟨_, rfl, ?_⟩)
        fun hrouted => ⟨_, rfl, ?_⟩)
      · rw [if_pos rfl]
        refine alone_isLeader hok ?_
        refine andThen (alone_transition hok hsource (by rw [hactive]; decide)
          fun _ => ⟨_, rfl, ?_⟩)
        exact andThen (alone_refresh hok fun _ =>
          ⟨_, rfl, rfl, .inl ⟨.inr ⟨hactive, address, haddress, hrouted⟩, rfl⟩⟩)
      · rw [if_neg Bool.false_ne_true]
        refine ⟨rfl, .inr ⟨?_, _, rfl⟩⟩
        rintro (h | ⟨-, _, h, _⟩)
        · exact nomatch hactive.symm.trans h
        · grind
  · rw [if_neg hactive]
    by_cases hdraining : source.state = .draining
    · rw [if_pos hdraining]
      exact ⟨rfl, .inl ⟨.inl hdraining, rfl⟩⟩
    · rw [if_neg hdraining]
      refine ⟨rfl, .inr ⟨?_, _, rfl⟩⟩
      rintro (h | ⟨h, -⟩)
      · exact hdraining h
      · exact hactive h

/-- **Giving the traffic back** succeeds if the source is `ACTIVE` and, once the
cutover has begun, routed; otherwise it throws. -/
theorem alone_rollBack : Leads σ ok (fun w' res => w'.operation = w.operation ∧
        ((CanRollBack σ w operation source ∧ res = .ok ()) ∨
          (¬ CanRollBack σ w operation source ∧ ∃ e, res = .error e)))
      (replacementUnavailable.rollBack operation source) w := by
  unfold replacementUnavailable.rollBack
  by_cases hactive : source.state = .active
  · rw [if_neg (not_not.mpr hactive)]
    by_cases hphase : operation.phase = .cuttingOver
    · rw [if_pos hphase]
      unfold restoreSourceWeight
      cases haddress : source.endpointAddress with
      | none =>
        refine ⟨rfl, .inr ⟨?_, _, rfl⟩⟩
        rintro ⟨-, h⟩
        obtain ⟨address, h, -⟩ := h hphase
        exact nomatch haddress.symm.trans h
      | some address =>
        refine andThen (alone_restoreWeight hok fun routing => ⟨_, rfl, ?_⟩)
        by_cases hrouted : RoutedAt w.routing σ.modelName address
        · rw [if_pos (decide_eq_true hrouted)]
          exact ⟨rfl, .inl ⟨⟨hactive, fun _ => ⟨address, haddress, hrouted⟩⟩, rfl⟩⟩
        · rw [if_neg (mt of_decide_eq_true hrouted)]
          refine ⟨rfl, .inr ⟨?_, _, rfl⟩⟩
          rintro ⟨-, h⟩
          obtain ⟨_, h, _⟩ := h hphase
          grind
    · rw [if_neg hphase]
      exact ⟨rfl, .inl ⟨⟨hactive, fun h => absurd h hphase⟩, rfl⟩⟩
  · rw [if_pos hactive]
    exact ⟨rfl, .inr ⟨fun h => hactive h.1, _, rfl⟩⟩

variable (hstored : w.operation = some operation)
include hstored

theorem alone_cutOver
    (hphase : operation.phase = .replacementReady ∨ operation.phase = .cuttingOver)
    (hsource : w.instances.lookup operation.sourceInstanceId = some source) :
    Ends σ ok (Decides (operation.phase = .cuttingOver → CanShift σ w source) operation.phase)
      (cutOver timeouts modelName operation source) w := by
  rcases hphase with hphase | hphase
  · refine alone_decides_of_advances (fun h => nomatch hphase.symm.trans h) ?_
    exact advances_update hok hstored (by rw [hphase]; decide)
  · have hallowed : phaseAllowed operation.phase (some .cuttingOver) = true := by
      rw [hphase]
      decide
    refine alone_updateMoveOperation hok hstored rfl hallowed fun _ => ?_
    refine alone_isLeader hok ?_
    refine Alone.bind (alone_shiftTraffic hok hsource) ?_ ?_
    · rintro w' _ ⟨hw', ⟨hshift, h⟩ | ⟨-, e, h⟩⟩
      · obtain rfl := Except.ok.inj h
        rw [hphase]
        refine (advances_update hok hw'
          (show .sourceDraining ∈ allowedPhases .cuttingOver by decide)).mono fun _ _ hadvanced => ?_
        exact ⟨fun _ => hadvanced, fun hn => absurd (fun _ => hshift) hn⟩
      · cases h
    · rintro w' e ⟨hw', ⟨-, h⟩ | ⟨hshift, -⟩⟩
      · cases h
      · exact ⟨fun h => absurd (h hphase) hshift, fun _ => ⟨_, hw', hphase.symm⟩⟩

theorem alone_rollBack_andThen {f : Unit → Service Unit}
    (hf : ∀ w' : World, w'.operation = some operation →
      Ends σ ok (Advanced operation.phase) (f ()) w') :
    Ends σ ok (Decides (CanRollBack σ w operation source) operation.phase)
      (replacementUnavailable.rollBack operation source >>= f) w := by
  refine Alone.bind (alone_rollBack hok) ?_ ?_
  · rintro w' _ ⟨hw', ⟨hback, -⟩ | ⟨-, e, h⟩⟩
    · exact alone_decides_of_advances hback (hf w' (hw'.trans hstored))
    · cases h
  · grind [decides_of_remains]

section
variable {replacement : Option InstanceState}
  (hcleanup : .replacementCleanup ∈ allowedPhases operation.phase)
  (hstarting : ∀ r ∈ replacement, ¬ Starting r)
include hcleanup hstarting

theorem alone_sourceGone : Ends σ ok (Decides (Foreseen replacement) operation.phase)
      (sourceGone operation replacement) w := by
  unfold sourceGone
  cases replacement with
  | none => exact alone_decides_of_advances foreseen_none (advances_finish hok hstored)
  | some r =>
    by_cases hactive : r.state = .active
    · simp only [if_pos hactive]
      exact alone_decides_of_advances (foreseen_some.mpr (.inr (.inl hactive)))
        (advances_finish hok hstored)
    · simp only [if_neg hactive]
      by_cases herror : r.state = .error
      · rw [if_pos herror]
        exact alone_decides_of_advances (foreseen_some.mpr (.inr (.inr herror)))
          (advances_update hok hstored hcleanup)
      · rw [if_neg herror]
        refine decides_of_remains (fun h => ?_) hstored
        rcases foreseen_some.mp h with h | h | h
        · exact hstarting r rfl h
        · exact hactive h
        · exact herror h

theorem alone_replacementUnavailable (hactive : ∀ r ∈ replacement, r.state ≠ .active) :
    Ends σ ok (Decides (Foreseen replacement ∧ CanRollBack σ w operation source) operation.phase)
      (replacementUnavailable operation source replacement) w := by
  unfold replacementUnavailable
  cases replacement with
  | none =>
    refine (alone_rollBack_andThen hok hstored fun w' hw' => advances_finish hok hw').mono ?_
    exact fun _ _ h => h.congr (and_iff_right foreseen_none).symm
  | some r =>
    by_cases herror : r.state = .error
    · simp only [if_pos herror]
      refine (alone_rollBack_andThen hok hstored fun w' hw' =>
        advances_update hok hw' hcleanup).mono ?_
      exact fun _ _ h => h.congr (and_iff_right (foreseen_some.mpr (.inr (.inr herror)))).symm
    · simp only [if_neg herror]
      refine decides_of_remains (fun h => ?_) hstored
      rcases foreseen_some.mp h.1 with h | h | h
      · exact hstarting r rfl h
      · exact hactive r rfl h
      · exact herror h

end

theorem alone_resumeCutover
    (hphase : operation.phase = .replacementReady ∨ operation.phase = .cuttingOver)
    (hwaiting : ¬ Waiting σ timeouts now w operation) :
    Ends σ ok (Decides (Movable σ w operation) operation.phase)
      (resumeCutover timeouts modelName operation) w := by
  have hcleanup : .replacementCleanup ∈ allowedPhases operation.phase := by
    rcases hphase with h | h <;> rw [h] <;> decide
  have hstarting : ∀ r ∈ w.instances.lookup operation.replacementInstanceId,
      ¬ Starting r := by
    intro r hr h
    refine hwaiting ⟨r, hr, ?_⟩
    rcases hphase with hphase | hphase <;> simp only [hphase] <;> exact h
  rw [movable_iff_of_cutover hphase]
  refine alone_getInstance hok ?_
  refine alone_getInstance hok ?_
  generalize w.instances.lookup operation.replacementInstanceId = replacement at hstarting ⊢
  cases hs : w.instances.lookup operation.sourceInstanceId with
  | none =>
    refine (alone_sourceGone hok hstored hcleanup hstarting).mono fun _ _ h => h.congr ?_
    exact (and_iff_left fun s hs => absurd hs (not_mem_none s)).symm
  | some s =>
    by_cases hactive : replacement.map (·.state) = some .active
    · simp only [if_pos hactive]
      refine (alone_cutOver hok hstored hphase hs).mono fun _ _ h => h.congr ?_
      obtain ⟨r, rfl, hr⟩ := map_eq_some_iff.mp hactive
      refine ⟨fun h => ⟨foreseen_some.mpr (.inr (.inl hr)), fun s' hs' => ?_⟩,
        fun h hcutting => (h.2 s rfl).1 hcutting hactive⟩
      grind
    · simp only [if_neg hactive]
      have hnot : ∀ r ∈ replacement, r.state ≠ .active := by
        simp_all
      refine (alone_replacementUnavailable hok hstored hcleanup hstarting hnot).mono
        fun _ _ h => h.congr (and_congr_right fun hforeseen => ⟨fun h s' hs' => ?_, fun h => ?_⟩)
      · grind
      · refine (h s rfl).2 ?_
        cases replacement with
        | none => exact .inl rfl
        | some r =>
          rcases foreseen_some.mp hforeseen with h | h | h
          · exact absurd h (hstarting r rfl)
          · exact absurd h (hnot r rfl)
          · exact .inr (congrArg some h)

/-! ### Where the operation stays -/

theorem remains_starting
    (hphase : operation.phase = .replacementStarting) (hmovable : ¬ Movable σ w operation) :
    Ends σ ok (Remains operation.phase) (resumeStarting timeouts modelName operation) w := by
  simp only [Movable, hphase] at hmovable
  refine alone_getInstance hok ?_
  cases hr : w.instances.lookup operation.replacementInstanceId with
  | none => exact absurd (hr ▸ foreseen_none) hmovable
  | some =>
    rw [hr, foreseen_some] at hmovable
    simp only [if_neg fun h => hmovable (.inl h)]
    unfold settleReplacement
    rw [if_neg fun h => hmovable (.inr (.inl h)), if_neg fun h => hmovable (.inr (.inr h))]
    exact ⟨operation, hstored, rfl⟩

theorem remains_cleanup
    (hphase : operation.phase = .replacementCleanup) (hmovable : ¬ Movable σ w operation) :
    Ends σ ok (Remains operation.phase) (resumeCleanup timeouts modelName operation) w := by
  simp only [Movable, hphase, not_forall, not_not] at hmovable
  obtain ⟨r, hr, hopen, hworker⟩ := hmovable
  refine alone_getInstance hok ?_
  rw [mem_def.mp hr]
  exact remains_teardown hstored (alone_resolve_unplaced hopen hworker)

theorem remains_draining (hlookup : ∀ i, ok i → ∃ runnerId, i.lookup = .starting runnerId)
    (hne : operation.sourceInstanceId ≠ σ.instanceId)
    (hphase : operation.phase = .sourceDraining) (hmovable : ¬ Movable σ w operation) :
    Ends σ ok (Remains operation.phase) (resumeDraining timeouts modelName operation) w := by
  simp only [Movable, hphase, not_forall, not_not] at hmovable
  obtain ⟨s, hs, hopen⟩ := hmovable
  refine alone_isLeader hok ?_
  refine alone_getInstance hok ?_
  rw [mem_def.mp hs]
  refine remains_teardown hstored ?_
  cases hworker : s.workerId with
  | none => exact alone_resolve_unplaced hopen hworker
  | some workerId =>
    unfold resolveAmbiguousStart
    rw [if_pos hopen, hworker]
    refine alone_getWorker hok ?_
    refine andThen (alone_remote hok (fun _ => rfl) fun i hi => ⟨_, rfl, ?_⟩)
    obtain ⟨runnerId, hstarting⟩ := hlookup i hi
    rw [if_neg hne, hstarting]
    exact ⟨rfl, rfl⟩

omit hstored in
theorem remains_noteFailure (h : Remains phase w) (err : Failure) :
    Ends σ ok (Remains phase) (Move.noteFailure err) w := by
  obtain ⟨operation, hstored, rfl⟩ := h
  exact alone_noteFailure hok hstored fun _ => ⟨_, rfl, rfl⟩

/-! ## The whole of `resume` -/

theorem advances_resumeOperation (hrounds : 0 < timeouts.rounds)
    (hid : operation.replacementInstanceId = σ.instanceId) (hmovable : Movable σ w operation)
    (hwaiting : ¬ Waiting σ timeouts now w operation) :
    Ends σ ok (Advanced operation.phase) (resumeOperation timeouts modelName) w := by
  refine alone_resumeOperation hok hstored ?_ ?_ ?_ ?_
  · exact fun hphase => advances_starting hok hstored hid hphase hmovable hwaiting
  · exact fun hphase =>
      (alone_resumeCutover hok hstored hphase hwaiting).mono fun _ _ h => h.1 hmovable
  · exact fun hphase => advances_draining hok hstored hrounds hphase hmovable
  · exact fun hphase => advances_cleanup hok hstored hrounds hid hphase hmovable hwaiting

theorem remains_resumeOperation (hlookup : ∀ i, ok i → ∃ runnerId, i.lookup = .starting runnerId)
    (hne : operation.sourceInstanceId ≠ σ.instanceId)
    (hmovable : ¬ Movable σ w operation) (hwaiting : ¬ Waiting σ timeouts now w operation) :
    Ends σ ok (Remains operation.phase) (resumeOperation timeouts modelName) w := by
  refine alone_resumeOperation hok hstored ?_ ?_ ?_ ?_
  · exact fun hphase => remains_starting hok hstored hphase hmovable
  · exact fun hphase =>
      (alone_resumeCutover hok hstored hphase hwaiting).mono fun _ _ h => h.2 hmovable
  · exact fun hphase => remains_draining hok hstored hlookup hne hphase hmovable
  · exact fun hphase => remains_cleanup hok hstored hphase hmovable

end

end

/-! ## A wedged move -/

section
variable {σ : Setting} {timeouts : Timeouts} {now process : Nat} {w : World}

/-- The cutover has begun and the replacement serves, but the source has failed. -/
def Wedged (w : World) : Prop :=
  ∃ operation ∈ w.operation, operation.phase = .cuttingOver ∧
    stateOf w.instances operation.sourceInstanceId = some .error ∧
    stateOf w.instances operation.replacementInstanceId = some .active

instance (w : World) : Decidable (Wedged w) :=
  inferInstanceAs (Decidable (∃ operation ∈ w.operation, _))

/-- What every further `resume` throws. -/
def sourceFailed : Failure := .other "source entered ERROR during move"

variable {modelName : String}

section
variable {ok : Input → Prop} (hok : ∀ i, ok i → Ideal now i) (h : Wedged w)
include hok h

theorem wedged_throws : Leads σ ok (fun w' r => Wedged w' ∧ r = .error sourceFailed)
      (resumeOperation timeouts modelName) w := by
  obtain ⟨operation, hstored, hphase, hsource, hreplacement⟩ := h
  refine alone_resumeOperation hok hstored (fun h => nomatch hphase.symm.trans h) (fun _ => ?_)
    (fun h => nomatch hphase.symm.trans h) (fun h => nomatch hphase.symm.trans h)
  obtain ⟨_, hs, herror⟩ := map_eq_some_iff.mp hsource
  refine alone_getInstance hok ?_
  refine alone_getInstance hok ?_
  rw [hs]
  simp only [if_pos (show (w.instances.lookup operation.replacementInstanceId).map (·.state) =
    some .active from hreplacement)]
  have hallowed : phaseAllowed operation.phase (some .cuttingOver) = true := by
    rw [hphase]
    decide
  refine alone_updateMoveOperation hok hstored rfl hallowed fun _ => ?_
  refine alone_isLeader hok ?_
  rw [if_pos rfl]
  unfold shiftTraffic
  rw [herror]
  exact ⟨⟨_, rfl, rfl, hsource, hreplacement⟩, rfl⟩

theorem wedged_resume (hprocess : process ∉ w.resuming) :
    Ends σ ok (fun w' => Wedged w' ∧ process ∉ w'.resuming)
      (resume timeouts modelName process) w := by
  refine alone_resume hok hprocess (fun _ _ h => h) ?_
    ((wedged_throws hok (show Wedged { w with resuming := insert process w.resuming } from
      h)).mono fun _ _ h => h.1)
  rintro w' _ ⟨_, hstored, hphase, hsource, hreplacement⟩
  exact alone_noteFailure hok hstored fun _ => ⟨_, rfl, hphase, hsource, hreplacement⟩

end

/-- `n` calls of `resume`, one after the other, and then the program. -/
def afterResumes {α : Type} (timeouts : Timeouts) (modelName : String) (process : Nat)
    (p : Service α) : Nat → Service α
  | 0 => p
  | n + 1 =>
    (Move.resume timeouts modelName process).handle fun _ =>
      afterResumes timeouts modelName process p n

theorem only_afterResumes {α} {p : Service α} (modelName : String)
    (hp : Only Answerable p) : ∀ n, Only Answerable (afterResumes timeouts modelName process p n)
  | 0 => hp
  | n + 1 => (only_resume timeouts modelName process).handle fun _ =>
    only_afterResumes modelName hp n

/-- **Once wedged, always wedged.**  However many `resume`s have been run, the next
one throws. -/
theorem wedged_afterResumes (h : Wedged w) (hprocess : process ∉ w.resuming) (n : Nat) :
    Completes (World.perform σ) (Ideal now) (fun w' r => Wedged w' ∧ r = .error sourceFailed)
      (afterResumes timeouts modelName process (resumeOperation timeouts modelName) n) w := by
  refine completes (fun w c h => ?_)
    (only_afterResumes modelName (only_resumeOperation timeouts modelName) n) ?_
  · obtain ⟨i, hi, hsome⟩ := exists_ideal .absent w c h
    exact ⟨i, hi.1, hsome⟩
  · induction n generalizing w with
    | zero => exact wedged_throws (fun _ hi => hi) h
    | succ n ih =>
      refine alone_handle.mpr ((wedged_resume (fun _ hi => hi) h hprocess).mono ?_)
      exact fun _ _ h => ih h.1 h.2

end

/-! ### A crash and a lost read -/

section
variable {T : Type} [DecidableEq T]

abbrev State (T : Type) := Threads Call Reply Failure Unit World T

/-- A task goes on, or the worker of the replacement does.  A task that has crashed
goes on no more. -/
inductive Action (T : Type) where
  | run (t : T) (i : Input)
  | worker (a : WorkerAction)

def step (σ : Setting) (s : State T) : Action T → Option (State T)
  | .run t i => s.step (Contract.only fun _ => True) (fun _ => World.perform σ) t i
  | .worker a =>
    (s.world.worker.step a).map fun worker => { s with world := { s.world with worker } }

end

/-- Who is at work: the first leader, and the next one's reconciliation tick. -/
inductive Role where
  | runMove
  | resume
  | recovery
deriving DecidableEq

def exampleStart : State Role where
  world := MoveSafety.movingWorld
  prog
    | .runMove => Move.runMove exampleTimeouts "op" MoveSafety.exampleParams 0
    | .resume => Move.resume exampleTimeouts "m" 1
    | .recovery => recoverStuckInstances ⟨600, 300⟩
  loc _ := ()

/-- The next `k` calls of a task, answered at the given time. -/
def callsAt (time : Nat) (t : Role) (k : Nat) : List (Action Role) :=
  List.replicate k (.run t { keys := ["i", "s"], now := time })

/-- The leader cuts over and moves the source to `DRAINING`; then it crashes.  Six
minutes later the next leader's tick resumes the move, but its first read fails;
the recovery of the same tick finds the source stuck. -/
def crashedCutover : List (Action Role) :=
  callsAt 0 .runMove 11 ++ [.worker .deliver, .worker .reserve, .worker .launched] ++
    callsAt 1000 .runMove 30 ++
    callsAt 400000 .resume 1 ++ [.run .resume { outcome := .failed }] ++ callsAt 400000 .resume 3 ++
    callsAt 400000 .recovery 12

/-! ## When a move goes on -/

section
variable {σ : Setting} {timeouts : Timeouts} {now process : Nat} {w : World}
  {operation : MoveOperation}

theorem Waiting.movable (h : Waiting σ timeouts now w operation) : Movable σ w operation := by
  obtain ⟨r, hr, h⟩ := h
  have hcutover : Starting r →
      operation.phase = .replacementReady ∨ operation.phase = .cuttingOver →
      Movable σ w operation := by
    intro hstarting hphase
    rw [movable_iff_of_cutover hphase, mem_def.mp hr]
    refine ⟨foreseen_some.mpr (.inl hstarting), fun s _ => ⟨fun _ hactive => ?_, ?_⟩⟩
    · rcases hstarting with h | h <;> exact nomatch h.symm.trans (Option.some.inj hactive)
    · rintro (hnone | herror)
      · cases hnone
      · rcases hstarting with h | h <;> exact nomatch h.symm.trans (Option.some.inj herror)
  cases hphase : operation.phase with
  | replacementStarting =>
    simp only [hphase] at h
    simp only [Movable, hphase]
    rw [mem_def.mp hr]
    exact foreseen_some.mpr (.inl h.1)
  | replacementReady =>
    grind
  | cuttingOver =>
    grind
  | sourceDraining =>
    simp only [hphase] at h
  | replacementCleanup =>
    grind [Movable, mem_unique]

/-- **A move goes on exactly from the movable states.**  Whatever the phase of the
operation, the source and the replacement are: a `resume` that runs alone, with
every worker reachable and no call failing from outside, comes to its end, and
then has removed the operation, advanced its phase, or found the replacement still
starting or inside its grace period, if and only if the state is `Movable`. -/
theorem resume_progress_iff (hrounds : 0 < timeouts.rounds) (hstored : w.operation = some operation)
    (hreplacement : operation.replacementInstanceId = σ.instanceId)
    (hsource : operation.sourceInstanceId ≠ σ.instanceId) (hprocess : process ∉ w.resuming) :
    Completes (World.perform σ) (Ideal now)
        (fun w' _ => Advanced operation.phase w' ∨ Waiting σ timeouts now w operation)
        (Move.resume timeouts σ.modelName process) w ↔
      Movable σ w operation := by
  constructor
  · intro hcompletes
    by_contra hmovable
    have hwaiting : ¬ Waiting σ timeouts now w operation := fun h => hmovable h.movable
    -- Let every other start be reported as under way.
    refine hcompletes.not_alone (fun i (hi : Ideal now i ∧ i.lookup = .starting "") => hi.1)
      (exists_ideal (.starting "")) (only_resume timeouts σ.modelName process) ?_
    refine (alone_resume (fun _ hi => hi.1) hprocess
      (fun _ _ h => h) (fun _ err h => remains_noteFailure (fun _ hi => hi.1) h err)
      (remains_resumeOperation (fun _ hi => hi.1) hstored (fun _ hi => ⟨_, hi.2⟩) hsource
        hmovable hwaiting)).mono ?_
    rintro w' _ ⟨h, -⟩ (hadvanced | hwait)
    · exact h.not_advanced hadvanced
    · exact hwaiting hwait
  · intro hmovable
    refine completes (fun w c h => ?_) (only_resume timeouts σ.modelName process) ?_
    · obtain ⟨i, hi, hsome⟩ := exists_ideal .absent w c h
      exact ⟨i, hi.1, hsome⟩
    · by_cases hwaiting : Waiting σ timeouts now w operation
      · exact alone_of_keeps (fun _ _ _ _ _ _ _ _ => trivial) trivial |>.mono
          fun _ _ _ => .inr hwaiting
      · refine (alone_resume (fun _ hi => hi) hprocess
          (fun _ _ h => h) (fun _ err h => h.alone _)
          (advances_resumeOperation (fun _ hi => hi) hstored hrounds hreplacement hmovable
            hwaiting)).mono fun _ _ h => .inl h.1

end

/-- Before the crash the move goes on. -/
theorem cuttingOver_progress :
    let s := (exec (step exampleSetting) exampleStart (crashedCutover.take 41)).get
      (by decide +kernel)
    let operation := s.world.operation.get (by decide +kernel)
    (operation.phase = .cuttingOver ∧
      stateOf s.world.instances operation.sourceInstanceId = some .active) ∧
    Completes (World.perform exampleSetting) (Ideal 1000)
      (fun w' _ => Advanced operation.phase w' ∨
        Waiting exampleSetting exampleTimeouts 1000 s.world operation)
      (resume exampleTimeouts "m" 1) s.world :=
  ⟨by decide +kernel, (resume_progress_iff (by decide) (some_get _).symm (by decide +kernel)
    (by decide +kernel) (by decide +kernel)).mpr (by decide +kernel)⟩

/-- **A wedged move.**  One crash and one failed read lead to a state from which
every `resume` throws, however many have been run before and although nothing fails
any more. -/
theorem source_error_wedges_move :
    ∃ s, exec (step exampleSetting) exampleStart crashedCutover = some s ∧
      (s.prog .resume).Settled ∧ (s.prog .recovery).Settled ∧
      ∀ now n, Completes (World.perform exampleSetting) (Ideal now)
        (fun w' r => Wedged w' ∧ r = .error sourceFailed)
        (afterResumes exampleTimeouts "m" 1 (Move.resumeOperation exampleTimeouts "m") n)
        s.world := by
  refine ⟨(exec (step exampleSetting) exampleStart crashedCutover).get (by decide +kernel),
    (some_get _).symm, by decide +kernel, by decide +kernel, fun now n => ?_⟩
  exact wedged_afterResumes (by decide +kernel) (by decide +kernel) n

end Sardeenz.MoveProgress
