/-
# `Sardeenz.Services.MoveSafety` — a failed move leaves the source serving

`runMove` and the `resume`s on one world.  What the operation says of the source
is its standing:

    serving      STARTING, READY, CLEANUP; or removed without success
    shifting     CUTTING_OVER
    past         SOURCE_DRAINING; or removed by a success

The invariant is that a source in standing `serving` is `ACTIVE` and routed
with a weight, that one in standing `shifting` has not been torn down, and that
what each task knows is true.

**Proved here.**  When a move that has failed leaves its source `ACTIVE` and routed with
a weight (`failed_move_keeps_service`), and one that does not (`cleanup_after_cutover`).
-/
import Sardeenz.Services.MoveContract
import Mathlib.Data.Fintype.Option

namespace Sardeenz.MoveSafety

open Interleave Option World

variable {μ : MoveSetting}

/-! ## The system -/

/-- `runMove` (`none`) and the `resume`s on one world. -/
abbrev State (n : Nat) := Threads Call Reply Failure Stage World (Option (Fin n))

variable {n : Nat}

/-- A task makes its next call, a process crashes, the worker acts, or something
else changes another record or the routing map. -/
inductive Action (n : Nat) where
  | run (t : Option (Fin n)) (i : Input)
  | crash (process : Nat)
  | worker (a : WorkerAction)
  | otherInstance (id : String) (record : Option InstanceState)
  | mutate (mutation : Mutation) (now : Nat)

def replaceable (μ : MoveSetting) (record : Option InstanceState) : Bool :=
  match record.bind (·.endpointAddress) with
  | some address => address = μ.info.address
  | none => true

/-- One step of a system whose tasks run in the given processes.  Nothing else
touches the source: it does not fail, and no other request stops it. -/
def step (μ : MoveSetting) (procs : Option (Fin n) → Nat) (s : State n) :
    Action n → Option (State n)
  | .run t i => s.step (contract μ) (fun _ i w c => w.perform μ.toSetting i c) t i
  | .crash process =>
    some
      { world := { s.world with resuming := s.world.resuming.erase process }
        prog := fun t =>
          if procs t = process then .done (.error (.other "process crashed")) else s.prog t
        loc := fun t => if procs t = process then ⟨process, false, .nothing⟩ else s.loc t }
  | .worker a =>
    (s.world.worker.step a).map fun worker => { s with world := { s.world with worker } }
  | .otherInstance id record =>
    if id = μ.sourceId ∨ (id = μ.instanceId ∧ replaceable μ record = false) then none
    else some { s with world := s.world.setInstance id record }
  | .mutate mutation now =>
    if mutation.spares μ.modelName μ.sourceAddress then
      some { s with world := { s.world with routing := mutation.apply s.world.routing now } }
    else none

def start (μ : MoveSetting) (timeouts : Timeouts) (params : DeployModelParams)
    (procs : Option (Fin n) → Nat) (w : World) : State n where
  world := w
  prog
    | none => Move.runMove timeouts μ.operationId params (procs none)
    | some j => Move.resume timeouts params.modelName (procs (some j))
  loc t := ⟨procs t, false, .nothing⟩

/-- The calls that are to be ordered. -/
inductive MoveCall where
  | enter (process : Nat)
  | cleanup
  | other

def moveCall : Option Call → MoveCall
  | some (.enterResume process) => .enter process
  | some (.updateMoveOperation _ updates) =>
    if updates.phase = some .replacementCleanup then .cleanup else .other
  | _ => .other

/-- When such a call may be made by a task at `l`. -/
def OrderedCall (w : World) (l : Stage) : MoveCall → Prop
  -- No `resume` is in progress in another process.
  | .enter process => ∀ other ∈ w.resuming, other = process
  -- A failed deployment is not reported from outside `resume` during the cutover.
  | .cleanup => l.inside = false → w.operation.map (·.phase) ≠ some .cuttingOver
  | .other => True

instance (w : World) (l : Stage) (c) : Decidable (OrderedCall w l c) := by
  unfold OrderedCall
  split <;> infer_instance

/-- One `resume` at a time, and no report of a failure during the cutover. -/
def Ordered (s : State n) : Action n → Prop
  | .run t _ => OrderedCall s.world (s.loc t) (moveCall (s.prog t).awaited)
  | _ => True

instance (s : State n) (a : Action n) : Decidable (Ordered s a) := by
  unfold Ordered
  split <;> infer_instance

/-! ## What the phase says of the source -/

/-- What the operation says of the source: it serves, its traffic is being
taken, or it is being torn down. -/
inductive Standing where
  | serving
  | shifting
  | past
deriving DecidableEq

def Standing.ofPhase : MoveOperationPhase → Standing
  | .cuttingOver => shifting
  | .sourceDraining => past
  | .replacementStarting | .replacementReady | .replacementCleanup => serving

def standing (w : World) : Standing :=
  match w.operation with
  | some operation => .ofPhase operation.phase
  | none => if w.completed then .past else .serving

def SourceAlive (μ : MoveSetting) (w : World) : Prop :=
  alive (w.instances.lookup μ.sourceId) = true ∧
    (w.instances.lookup μ.sourceId).bind (·.endpointAddress) = some μ.sourceAddress

def SourceActive (μ : MoveSetting) (w : World) : Prop :=
  (w.instances.lookup μ.sourceId).map (·.state) = some .active ∧
    (w.instances.lookup μ.sourceId).bind (·.endpointAddress) = some μ.sourceAddress

def Carries (μ : MoveSetting) (w : World) : Prop :=
  ∃ e ∈ endpointsOf w.routing μ.modelName, e.address = μ.sourceAddress ∧ 0 < e.weight

instance (μ : MoveSetting) (w : World) : Decidable (Carries μ w) :=
  inferInstanceAs (Decidable (∃ e ∈ _, _))

/-- **The source serves**: it is `ACTIVE`, and routed with a weight. -/
def Serving (μ : MoveSetting) (w : World) : Prop := SourceActive μ w ∧ Carries μ w

instance (μ : MoveSetting) (w : World) : Decidable (Serving μ w) :=
  inferInstanceAs (Decidable ((_ = _ ∧ _ = _) ∧ _))

theorem SourceActive.alive {w} (h : SourceActive μ w) : SourceAlive μ w := by
  refine ⟨?_, h.2⟩
  obtain ⟨_, hrec, hstate⟩ := map_eq_some_iff.mp h.1
  rw [hrec]
  simp [MoveSafety.alive, hstate]

/-! ## The invariant -/

/-- What holds of the world. -/
structure Good (μ : MoveSetting) (w : World) : Prop where
  owns : ∀ operation, w.operation = some operation → Owns μ operation
  replacement : replaceable μ (w.instances.lookup μ.instanceId) = true
  serving : standing w = .serving → Serving μ w
  shifting : standing w = .shifting → SourceAlive μ w

def Facts (μ : MoveSetting) (w : World) : Know → Prop
  | .nothing => True
  | .early => standing w = .serving
  | .cutting active => standing w = .shifting ∧ (active = true → SourceActive μ w)
  | .restored => standing w = .shifting ∧ Serving μ w
  | .ended => standing w = .past

structure Inv (μ : MoveSetting) (procs : Option (Fin n) → Nat) (s : State n) : Prop where
  good : Good μ s.world
  facts : ∀ t, Facts μ s.world (s.loc t).know
  process : ∀ t, (s.loc t).process = procs t
  running : ∀ t, (s.loc t).inside = true → procs t ∈ s.world.resuming
  alone : ∀ t t', (s.loc t).inside = true → (s.loc t').inside = true → t = t'
  exclusive : ∀ t, (s.loc t).know.exclusive = true → (s.loc t).inside = true

theorem Good.alive_of_ne_past {w} (h : Good μ w) (hw : standing w ≠ .past) :
    SourceAlive μ w := by
  cases hst : standing w with
  | serving => exact (h.serving hst).1.alive
  | shifting => exact h.shifting hst
  | past => exact absurd hst hw

theorem Facts.ne_past {w k} (h : Facts μ w k) (hk : k.exclusive = true) :
    standing w ≠ .past := by
  cases k <;> simp_all [Facts, Know.exclusive]

/-- The step leaves the source, its weight and what the operation says of it
as they are. -/
structure Untouched (μ : MoveSetting) (w w' : World) : Prop where
  standing : MoveSafety.standing w' = MoveSafety.standing w
  source : w'.instances.lookup μ.sourceId = w.instances.lookup μ.sourceId
  carries : Carries μ w → Carries μ w'

section
variable {w w' : World} (hu : Untouched μ w w')
include hu

theorem Untouched.active (h : SourceActive μ w) : SourceActive μ w' := by
  unfold SourceActive
  rw [hu.source]
  exact h

theorem Untouched.facts {k} (h : Facts μ w k) : Facts μ w' k := by
  have hactive := hu.active
  have hcarries := hu.carries
  cases k <;> simp_all [Facts, Serving, hu.standing]

theorem Untouched.good (h : Good μ w)
    (howns : ∀ operation, w'.operation = some operation → Owns μ operation)
    (hrepl : replaceable μ (w'.instances.lookup μ.instanceId) = true) : Good μ w' where
  owns := howns
  replacement := hrepl
  serving := by
    rw [hu.standing]
    exact fun hs => ⟨hu.active (h.serving hs).1, hu.carries (h.serving hs).2⟩
  shifting := by
    rw [hu.standing]
    unfold SourceAlive
    rw [hu.source]
    exact h.shifting

end

theorem untouched_refl {w} : Untouched μ w w := ⟨rfl, rfl, id⟩

/-! ### The script's table -/

variable {phase : MoveOperationPhase}

theorem serving_of_ready (h : phaseAllowed phase (some .replacementReady) = true) :
    Standing.ofPhase phase = .serving := by
  cases phase <;> simp_all [phaseAllowed, allowedPhases, Standing.ofPhase]

theorem serving_of_cleanup
    (h : phaseAllowed phase (some .replacementCleanup) = true) (hne : phase ≠ .cuttingOver) :
    Standing.ofPhase phase = .serving := by
  cases phase <;> simp_all [phaseAllowed, allowedPhases, Standing.ofPhase]

theorem phase_of_shifting (h : Standing.ofPhase phase = .shifting) : phase = .cuttingOver := by
  cases phase <;> simp_all [Standing.ofPhase]

section
variable {l : Stage} {old new : MoveOperationPhase} {phase : Option MoveOperationPhase}
  (hnew : new = phase.getD old) (hallowed : phaseAllowed old phase = true)
  (hmay : mayWrite l phase)

include hnew hallowed hmay in
theorem next_of_nothing (hk : l.know = .nothing)
    (hok : phase = some .replacementCleanup → l.inside = false → old ≠ .cuttingOver) :
    Standing.ofPhase new = .ofPhase old := by
  subst hnew
  rcases phase with _ | phase
  · rfl
  · cases phase with
    | replacementReady => exact (serving_of_ready hallowed).symm
    | replacementCleanup =>
      have hout : l.inside = false := by simpa [mayWrite, hk] using hmay
      exact (serving_of_cleanup hallowed (hok rfl hout)).symm
    | _ => simp [mayWrite, hk] at hmay

include hnew hallowed in
theorem next_of_ended (hold : Standing.ofPhase old = .past) : new = .sourceDraining := by
  subst hnew
  rcases phase with _ | phase
  · cases old <;> simp_all [Standing.ofPhase]
  · cases old <;> cases phase <;> simp_all [phaseAllowed, allowedPhases, Standing.ofPhase]

include hnew hmay in
theorem next_of_early (hk : l.know = .early) (hold : Standing.ofPhase old = .serving) :
    new = .cuttingOver ∨ Standing.ofPhase new = .serving := by
  subst hnew
  rcases phase with _ | phase
  · exact .inr hold
  · cases phase <;> simp_all [mayWrite, Standing.ofPhase]

include hnew hallowed hmay in
theorem next_of_cutting {active : Bool} (hk : l.know = .cutting active) (hin : l.inside = true)
    (hold : old = .cuttingOver) : new = .sourceDraining ∨ new = .cuttingOver := by
  subst hnew hold
  rcases phase with _ | phase
  · exact .inr rfl
  · cases phase <;> simp_all [mayWrite, phaseAllowed, allowedPhases]

end

/-! ### After a call -/

variable {procs : Option (Fin n) → Nat}

section put
variable {s : State n} (hi : Inv μ procs s) {t : Option (Fin n)} {w : World} {k : Know}
include hi

theorem Inv.put (hgood : Good μ w) (hresuming : w.resuming = s.world.resuming)
    (hfacts : Facts μ w k) (hothers : ∀ t' ≠ t, Facts μ w (s.loc t').know)
    (hexcl : k.exclusive = true → (s.loc t).inside = true) (p : Service Unit) :
    Inv μ procs (s.put w t p { s.loc t with know := k }) := by
  have hothers' : ∀ t', Facts μ w (Function.update s.loc t { s.loc t with know := k } t').know :=
    (Function.forall_update_iff _ fun _ (l : Stage) => Facts μ w l.know).mpr ⟨hfacts, hothers⟩
  obtain ⟨-, -, _, _, _, _⟩ := hi
  refine ⟨hgood, hothers', fun t' => ?_, fun t' => ?_, fun _ _ => ?_, fun t' => ?_⟩
  all_goals
    simp only [Threads.put]
    grind -ring -linarith

theorem Inv.put_untouched (hu : Untouched μ s.world w)
    (howns : ∀ operation, w.operation = some operation → Owns μ operation)
    (hrepl : replaceable μ (w.instances.lookup μ.instanceId) = true)
    (hresuming : w.resuming = s.world.resuming) (hfacts : Facts μ w k)
    (hexcl : k.exclusive = true → (s.loc t).inside = true) (p : Service Unit) :
    Inv μ procs (s.put w t p { s.loc t with know := k }) :=
  hi.put (hu.good hi.good howns hrepl) hresuming hfacts (fun t' _ => hu.facts (hi.facts t')) hexcl p

theorem Inv.put_same (p : Service Unit) : Inv μ procs (s.put s.world t p (s.loc t)) :=
  hi.put_untouched untouched_refl hi.good.owns hi.good.replacement rfl
    (hi.facts t) (hi.exclusive t) p

theorem Inv.put_past (hpast : (s.loc t).know = .ended) (hstand : standing w = .past)
    (howns : ∀ operation, w.operation = some operation → Owns μ operation)
    (hrepl : replaceable μ (w.instances.lookup μ.instanceId) = true)
    (hresuming : w.resuming = s.world.resuming) (p : Service Unit) :
    Inv μ procs (s.put w t p { s.loc t with know := .ended }) := by
  have hold : standing s.world = .past := by simpa [hpast, Facts] using hi.facts t
  refine hi.put (k := .ended) ⟨howns, hrepl, ?_, ?_⟩ hresuming hstand ?_ nofun p
  · simp [hstand]
  · simp [hstand]
  · intro t' _
    have h := hi.facts t'
    simp_all [Facts]

theorem Inv.put_alone (hk : (s.loc t).know.exclusive = true) (hgood : Good μ w)
    (hresuming : w.resuming = s.world.resuming) (hfacts : Facts μ w k) (p : Service Unit) :
    Inv μ procs (s.put w t p { s.loc t with know := k }) := by
  have hin := hi.exclusive t hk
  refine hi.put hgood hresuming hfacts (fun t' ht' => ?_) (fun _ => hin) p
  have h := hi.facts t'
  have hexcl : ¬ (s.loc t').know.exclusive = true :=
    fun h => ht' (hi.alone t' t (hi.exclusive t' h) hin)
  have hne := (hi.facts t).ne_past hk
  generalize (s.loc t').know = k' at h hexcl
  cases k' <;> simp_all [Facts, Know.exclusive]

end put

/-! ### Reads -/

theorem standing_congr {w w'} (hop : w'.operation = w.operation)
    (hdone : w'.completed = w.completed) : standing w' = standing w := by
  unfold standing
  rw [hop, hdone]

theorem standing_of_operation {w operation}
    (hop : w.operation = some operation) : standing w = .ofPhase operation.phase := by
  unfold standing
  rw [hop]

theorem exclusive_of_learn {k c r}
    (hc : c ≠ .getMoveOperation) (h : (learn μ k c r).exclusive = true) :
    k.exclusive = true := by
  cases k with
  | ended => cases h
  | early | cutting _ | restored => rfl
  | nothing =>
    have hloose : (learn μ .nothing c r).Loose := by
      by_cases hq : quiet c = true
      · exact steady_loose _ c r (.inl rfl) hq
      · cases c with
        | getMoveOperation => exact absurd rfl hc
        | _ => first | exact .inl rfl | exact absurd rfl hq
    rcases hloose with hk | hk
    all_goals
      rw [hk] at h
      cases h

theorem facts_ite {w c} [Decidable c] (h : c → standing w = .past) :
    Facts μ w (if c then .ended else .nothing) := by
  by_cases hc : c <;> simp_all [Facts]

theorem SourceAlive.mem {w} (h : SourceAlive μ w) : μ.sourceId ∈ w.instances := by
  rw [← AList.lookup_isSome]
  cases hrec : w.instances.lookup μ.sourceId <;> simp_all [SourceAlive]

/-- The invariant holds when task `t` has got the answer `r` to its call. -/
abbrev After (μ : MoveSetting) (procs : Option (Fin n) → Nat) (s : State n) (t : Option (Fin n))
    (w : World) (c : Call) (r : Except Failure (Reply c)) : Prop :=
  ∀ p, Inv μ procs (s.put w t p ((contract μ).next (s.loc t) c r))

/-- … and the answer is an expected one. -/
abbrev Told (μ : MoveSetting) (procs : Option (Fin n) → Nat) (s : State n) (t : Option (Fin n))
    (w : World) (c : Call) (r : Except Failure (Reply c)) : Prop :=
  (contract μ).expected (s.loc t) c r ∧ After μ procs s t w c r

/-- … whatever it is, if the task may make the call. -/
abbrev Tells (μ : MoveSetting) (procs : Option (Fin n) → Nat) (s : State n) (t : Option (Fin n))
    (i : Input) (c : Call) : Prop :=
  ∀ {r : Except Failure (Reply c)} {w : World}, (contract μ).allowed (s.loc t) c →
    s.world.perform μ.toSetting i c = some (w, r) → Told μ procs s t w c r

section calls
variable {s : State n} (hi : Inv μ procs s) {t : Option (Fin n)} {i : Input} {w : World}
include hi

theorem Inv.facts_of {k} (hk : (s.loc t).know = k) : Facts μ s.world k := hk ▸ hi.facts t

theorem Inv.past_of_dead (h : ¬ SourceAlive μ s.world) : standing s.world = .past := by
  by_contra hne
  exact h (hi.good.alive_of_ne_past hne)

variable {c : Call}

omit hi in
theorem learn_error (hq : quiet c = true) (k : Know) (e : Failure) :
    learn μ k c (.error e) = k := by
  cases k <;> cases c <;> first | rfl | cases hq

/-- A read that is answered by `a`, or fails. -/
theorem Inv.call_read {r a} (hq : quiet c = true)
    (hr : r = .ok a ∨ ∃ e, r = .error e) (herror : ∀ e, (contract μ).expected (s.loc t) c (.error e))
    (hexp : (contract μ).expected (s.loc t) c (.ok a))
    (hfacts : ∀ k, Facts μ s.world k → Facts μ s.world (learn μ k c (.ok a))) :
    Told μ procs s t s.world c r := by
  have hput : Facts μ s.world (learn μ (s.loc t).know c r) → After μ procs s t s.world c r := by
    intro hfacts p
    rw [next_quiet hq]
    refine hi.put_untouched untouched_refl hi.good.owns hi.good.replacement rfl hfacts ?_ p
    refine fun hx => hi.exclusive t (exclusive_of_learn ?_ hx)
    rintro rfl
    cases hq
  rcases hr with rfl | ⟨e, rfl⟩
  · exact ⟨hexp, hput (hfacts _ (hi.facts t))⟩
  · refine ⟨herror e, hput ?_⟩
    rw [learn_error hq]
    exact hi.facts t

variable {id : String}

theorem Inv.call_getInstance : Tells μ procs s t i (.getInstance id) := by
  intro r w _ h
  obtain ⟨rfl, hr⟩ := perform_getInstance h
  refine hi.call_read rfl hr (fun _ => trivial) ⟨?_, ?_⟩ fun k hfacts => ?_
  · rintro rfl hx
    have halive := hi.good.alive_of_ne_past ((hi.facts t).ne_past hx)
    refine ⟨halive.1, halive.2, fun hearly => ?_⟩
    exact (hi.good.serving (hi.facts_of hearly)).1.1
  · rintro rfl _ _
    grind [hi.good.replacement, replaceable]
  · cases k with
    | ended | early | restored => exact hfacts
    | nothing =>
      refine facts_ite ?_
      rintro ⟨rfl, hdead⟩
      refine hi.past_of_dead fun halive => ?_
      rw [halive.1] at hdead
      cases hdead
    | cutting active =>
      cases hrec : s.world.instances.lookup id with
      | none => exact hfacts
      | some record =>
        refine ⟨hfacts.1, fun ha => ?_⟩
        by_cases hid : id = μ.sourceId
        · subst hid
          have hstate : record.state = .active := by simpa using ha
          exact ⟨by simp [hrec, hstate], (hi.good.shifting hfacts.1).2⟩
        · exact hfacts.2 (by simpa [hid] using ha)

theorem Inv.call_scan : Tells μ procs s t i .scan := by
  intro r w _ h
  obtain ⟨rfl, hr⟩ := Input.reply_read h
  have hmem : SourceAlive μ s.world → μ.sourceId ∈ s.world.instances.keys :=
    fun halive => AList.mem_keys.mp halive.mem
  refine hi.call_read rfl hr (fun _ => trivial) (fun hx => ?_) fun k hfacts => ?_
  · exact hmem (hi.good.alive_of_ne_past ((hi.facts t).ne_past hx))
  · cases k with
    | nothing => exact facts_ite fun hdead => hi.past_of_dead fun halive => hdead (hmem halive)
    | _ => exact hfacts

theorem Inv.call_scanned {startIds} : Tells μ procs s t i (.scanned startIds) := by
  intro r w _ h
  obtain ⟨hscan, h⟩ := ite_none_right_eq_some.mp h
  obtain ⟨rfl, hr⟩ := Input.reply_read h
  have hmem : SourceAlive μ s.world → μ.sourceId ∈ startIds → μ.sourceId ∈ i.keys :=
    fun halive hstart => hscan.1 _ hstart halive.mem
  refine hi.call_read rfl hr (fun _ => trivial) (fun hx => ?_)
    fun k hfacts => ?_
  · exact hmem (hi.good.alive_of_ne_past ((hi.facts t).ne_past hx))
  · cases k with
    | ended | early | restored | cutting _ => exact hfacts
    | nothing =>
      exact facts_ite fun hdead => hi.past_of_dead fun halive => hdead.2 (hmem halive hdead.1)

variable {r : Except Failure (Option MoveOperation)}

theorem Inv.call_getMoveOperation : Tells μ procs s t i .getMoveOperation := by
  intro r w ha h
  obtain ⟨rfl, hr⟩ := Input.reply_read h
  refine ⟨?_, fun p => ?_⟩
  · rcases hr with rfl | ⟨e, rfl⟩
    · cases hop : s.world.operation with
      | none => exact trivial
      | some operation =>
        refine ⟨hi.good.owns operation hop, fun hover => ?_⟩
        have hpast : standing s.world = .past := hi.facts_of hover
        rw [standing_of_operation hop] at hpast
        cases hphase : operation.phase <;> simp_all [Standing.ofPhase]
    · exact trivial
  · refine hi.put_untouched untouched_refl hi.good.owns hi.good.replacement rfl ?_ (fun _ => ha) p
    have hfacts := hi.facts t
    generalize (s.loc t).know = k at hfacts
    cases k with
    | ended | early | restored | cutting _ => exact hfacts
    | nothing =>
      rcases hr with rfl | ⟨e, rfl⟩
      · cases hop : s.world.operation with
        | none => exact trivial
        | some operation =>
          have hst := standing_of_operation hop
          show Facts μ s.world (.ofPhase operation.phase)
          cases hphase : operation.phase
          all_goals simp_all [Facts, Know.ofPhase, Standing.ofPhase]
      · exact trivial

/-! ### The operation -/

variable {operationId : String} {updates : MoveOperationUpdates}

omit hi in
theorem learn_unanswered {k : Know} (hr : ∀ operation, r ≠ .ok (some operation)) :
    learn μ k (.updateMoveOperation operationId updates) r =
      if k = .ended then .ended else .nothing := by
  match r with
  | .error _ | .ok none => cases k <;> rfl
  | .ok (some operation) => exact absurd rfl (hr operation)

omit hi in
theorem facts_written {operation' : MoveOperation}
    (hr : ∀ operation, r = .ok (some operation) → operation = operation')
    (hover : (s.loc t).know = .ended → standing { s.world with operation := some operation' } = .past)
    (hanswer : Facts μ { s.world with operation := some operation' }
      (learn μ (s.loc t).know (.updateMoveOperation operationId updates) (.ok (some operation')))) :
    Facts μ { s.world with operation := some operation' }
      (learn μ (s.loc t).know (.updateMoveOperation operationId updates) r) := by
  by_cases h : r = .ok (some operation')
  · rw [h]
    exact hanswer
  · rw [learn_unanswered fun operation heq => h (by rw [heq, hr operation heq])]
    exact facts_ite hover

/-- **The update of the operation.**  What the operation says of the source
changes only by a task in `resume`: when it begins to cut over, when it goes on
to drain, and when it has restored the weight. -/
theorem Inv.call_written {operation operation'}
    (hop : s.world.operation = some operation)
    (hallowed : phaseAllowed operation.phase updates.phase = true)
    (hphase : operation'.phase = updates.phase.getD operation.phase) (hown : Owns μ operation')
    (hmay : mayWrite (s.loc t) updates.phase)
    (hok : updates.phase = some .replacementCleanup → (s.loc t).inside = false →
      operation.phase ≠ .cuttingOver)
    (hr : ∀ operation, r = .ok (some operation) → operation = operation') (p : Service Unit) :
    Inv μ procs (s.put { s.world with operation := some operation' } t p { s.loc t with
        know := learn μ (s.loc t).know (.updateMoveOperation operationId updates) r }) := by
  have hst := standing_of_operation hop
  have hst' : standing { s.world with operation := some operation' } = .ofPhase operation'.phase :=
    rfl
  have howns : ∀ operation, some operation' = some operation → Owns μ operation := by
    grind
  have hgood : (Standing.ofPhase operation'.phase = .serving → Serving μ s.world) →
      (Standing.ofPhase operation'.phase = .shifting → SourceAlive μ s.world) →
      Good μ { s.world with operation := some operation' } :=
    fun hserving hshifting => ⟨howns, hi.good.replacement, hserving, hshifting⟩
  cases hk : (s.loc t).know with
  | nothing =>
    have hsame := next_of_nothing hphase hallowed hmay hk hok
    have hu : Untouched μ s.world { s.world with operation := some operation' } :=
      ⟨(hst'.trans hsame).trans hst.symm, rfl, id⟩
    refine hi.put_untouched hu howns hi.good.replacement rfl ?_ ?_ p
    · rw [← hk]
      exact facts_written hr (fun h => nomatch hk.symm.trans h) (by rw [hk]; exact trivial)
    · intro hx
      exact nomatch exclusive_of_learn (c := .updateMoveOperation operationId updates) nofun hx
  | ended =>
    have hpast := next_of_ended hphase hallowed (hst.symm.trans (hi.facts_of hk))
    have hst'' : standing { s.world with operation := some operation' } = .past := by
      rw [hst', hpast]
      rfl
    exact hi.put_past hk hst'' howns hi.good.replacement rfl p
  | early =>
    have hserving := hi.good.serving (hi.facts_of hk)
    have hnext := next_of_early hphase hmay hk (hst.symm.trans (hi.facts_of hk))
    refine hi.put_alone (by rw [hk]; rfl) (hgood (fun _ => hserving) fun _ => hserving.1.alive)
      rfl ?_ p
    rw [← hk]
    refine facts_written hr (fun h => nomatch hk.symm.trans h) ?_
    rw [hk]
    show Facts μ _ (if operation'.phase = .cuttingOver then .cutting true else .early)
    split
    · rename_i hcut
      exact ⟨by rw [hst', hcut]; rfl, fun _ => hserving.1⟩
    · rename_i hcut
      exact hst'.trans (hnext.resolve_left hcut)
  | cutting active =>
    have hfacts := hi.facts_of hk
    have hnext := next_of_cutting hphase hallowed hmay hk (hi.exclusive t (by rw [hk]; rfl))
      (phase_of_shifting (hst.symm.trans hfacts.1))
    refine hi.put_alone (by rw [hk]; rfl) (hgood ?_ fun _ => hi.good.shifting hfacts.1) rfl ?_ p
    · rcases hnext with h | h <;> simp [h, Standing.ofPhase]
    · rw [← hk]
      refine facts_written hr (fun h => nomatch hk.symm.trans h) ?_
      rw [hk]
      show Facts μ _ (if operation'.phase = .sourceDraining then .ended else .cutting active)
      split
      · rename_i hdrain
        show standing _ = .past
        rw [hst', hdrain]
        rfl
      · rename_i hdrain
        exact ⟨by rw [hst', hnext.resolve_left hdrain]; rfl, hfacts.2⟩
  | restored =>
    have hfacts := hi.facts_of hk
    refine hi.put_alone (by rw [hk]; rfl)
      (hgood (fun _ => hfacts.2) fun _ => hfacts.2.1.alive) rfl ?_ p
    rw [← hk]
    refine facts_written hr (fun h => nomatch hk.symm.trans h) ?_
    rw [hk]
    show Facts μ _ (if operation'.phase = .replacementCleanup then .early else .nothing)
    split
    · rename_i hclean
      show standing _ = .serving
      rw [hst', hclean]
      rfl
    · exact trivial

theorem Inv.call_updateMoveOperation
    (hok : OrderedCall s.world (s.loc t) (moveCall (some (.updateMoveOperation operationId updates)))) :
    Tells μ procs s t i (.updateMoveOperation operationId updates) := by
  intro r w ha h
  rcases perform_updateMoveOperation h with ⟨rfl, hr⟩ | ⟨operation', hupd, rfl, hr⟩
  · refine ⟨?_, fun p => ?_⟩
    · match r with
      | .error _ | .ok none => exact trivial
      | .ok (some operation) => exact absurd rfl (hr operation)
    · rw [next_learn (c := .updateMoveOperation operationId updates) nofun, learn_unanswered hr]
      refine hi.put_untouched untouched_refl hi.good.owns hi.good.replacement rfl ?_ ?_ p
      · exact facts_ite fun hover => hi.facts_of hover
      · split <;> exact nofun
  · obtain ⟨operation, hop, -, hallowed, hid, hphase, hsrc, hrepl⟩ :=
      updateMoveOperation_eq_some hupd
    have hown := hi.good.owns operation hop
    have hown' : Owns μ operation' :=
      ⟨hid.trans hown.1, hsrc.trans hown.2.1, hrepl.trans hown.2.2⟩
    refine ⟨?_, hi.call_written hop hallowed hphase hown' ha.2 ?_ hr⟩
    · match r with
      | .error _ | .ok none => exact trivial
      | .ok (some operation) =>
        obtain rfl := hr operation rfl
        refine ⟨hown', fun _ hup => ?_⟩
        rw [hphase, hup]
        rfl
    · intro hclean hout hcut
      simp only [moveCall, hclean] at hok
      exact hok hout (by rw [hop, map_some, hcut])

variable {r : Except Failure Bool}

theorem Inv.call_removeMoveOperation {success} :
    Tells μ procs s t i (.removeMoveOperation operationId success) := by
  intro r w ha h
  refine ⟨trivial, fun p => ?_⟩
  obtain ⟨-, ⟨rfl, hover⟩ | ⟨rfl, hknow⟩⟩ := ha
  · have hlearn : learn μ (s.loc t).know (.removeMoveOperation operationId true) r = .ended := by
      rw [hover]
      rfl
    have hpast : standing s.world = .past := hi.facts_of hover
    rw [next_learn (c := .removeMoveOperation operationId true) nofun, hlearn]
    rcases perform_removeMoveOperation h with rfl | rfl
    · exact hi.put_past hover hpast hi.good.owns hi.good.replacement rfl p
    · have hdone : standing { s.world with
          operation := none, completed := s.world.completed || true } = .past := by
        simp [standing]
      exact hi.put_past hover hdone (fun _ h => nomatch h) hi.good.replacement rfl p
  · have hserving : Serving μ s.world := by
      rcases hknow with hk | hk
      · exact hi.good.serving (hi.facts_of hk)
      · exact (hi.facts_of hk).2
    have hexcl : (s.loc t).know.exclusive = true := by
      rcases hknow with hk | hk <;> simp [hk, Know.exclusive]
    have hlearn : learn μ (s.loc t).know (.removeMoveOperation operationId false) r =
        .nothing := by
      rcases hknow with hk | hk <;> simp [hk, learn]
    rw [next_learn (c := .removeMoveOperation operationId false) nofun, hlearn]
    rcases perform_removeMoveOperation h with rfl | rfl
    · exact hi.put_alone (k := .nothing) hexcl hi.good rfl trivial p
    · have hgood : Good μ { s.world with
          operation := none, completed := s.world.completed || false } :=
        ⟨fun _ h => (nomatch h), hi.good.replacement, fun _ => hserving, fun _ => hserving.1.alive⟩
      exact hi.put_alone (k := .nothing) hexcl hgood rfl trivial p

/-! ### The records -/

variable (record : Option InstanceState)

theorem Inv.put_record (hid : id ≠ μ.sourceId)
    (hrepl : id = μ.instanceId → replaceable μ record = true) (p : Service Unit) :
    Inv μ procs (s.put (s.world.setInstance id record) t p (s.loc t)) := by
  have hu : Untouched μ s.world (s.world.setInstance id record) :=
    ⟨rfl, s.world.lookup_setInstance_ne hid record, fun h => h⟩
  refine hi.put_untouched hu hi.good.owns ?_ rfl (hu.facts (hi.facts t))
    (hi.exclusive t) p
  by_cases h : id = μ.instanceId
  · subst h
    rw [lookup_setInstance_self]
    exact hrepl rfl
  · rw [lookup_setInstance_ne _ h]
    exact hi.good.replacement

theorem Inv.put_source (hover : (s.loc t).know = .ended) (p : Service Unit) :
    Inv μ procs (s.put (s.world.setInstance μ.sourceId record) t p
      { s.loc t with know := .ended }) := by
  have hpast : standing (s.world.setInstance μ.sourceId record) = .past := hi.facts_of hover
  refine hi.put_past hover hpast hi.good.owns ?_ rfl p
  rw [lookup_setInstance_ne _ μ.source_ne]
  exact hi.good.replacement

theorem Inv.call_transition {target updates} :
    Tells μ procs s t i (.transition id target updates) := by
  intro r w ha h
  refine ⟨trivial, fun p => ?_⟩
  rw [next_learn (c := .transition id target updates) nofun]
  by_cases hid : id = μ.sourceId
  · subst hid
    rcases ha.1 rfl with hover | ⟨⟨_, hcut⟩, rfl, rfl⟩
    · have hlearn : learn μ (s.loc t).know (.transition μ.sourceId target updates) r = .ended := by
        rw [hover]
        rfl
      rw [hlearn]
      rcases perform_transition h with ⟨rfl, -⟩ | ⟨record, -, -, rfl, -⟩
      · exact hi.put_past hover (hi.facts_of hover) hi.good.owns hi.good.replacement rfl p
      · exact hi.put_source (some _) hover p
    · -- The source begins to drain: it is still there, and no longer `ACTIVE`.
      have hfacts := hi.facts_of hcut
      have hlearn : learn μ (s.loc t).know (.transition μ.sourceId .draining {}) r =
          .cutting false := by
        simp [hcut, learn]
      have hexcl : (s.loc t).know.exclusive = true := by
        rw [hcut]
        rfl
      rw [hlearn]
      rcases perform_transition h with ⟨rfl, -⟩ | ⟨record, hrec, -, rfl, -⟩
      · exact hi.put_alone (k := .cutting false) hexcl hi.good rfl ⟨hfacts.1, nofun⟩ p
      · have hsource := hi.good.shifting hfacts.1
        have hgood : Good μ (s.world.setInstance μ.sourceId
            (some (transitioned record .draining {} i.now))) := by
          refine ⟨hi.good.owns, ?_, fun hs => ?_, fun _ => ?_⟩
          · rw [lookup_setInstance_ne _ μ.source_ne]
            exact hi.good.replacement
          · exact nomatch hfacts.1.symm.trans hs
          · unfold SourceAlive
            rw [lookup_setInstance_self]
            refine ⟨by simp [alive], ?_⟩
            rw [bind_some, endpointAddress_transitioned rfl rfl rfl]
            simpa [hrec] using hsource.2
        exact hi.put_alone (k := .cutting false) hexcl hgood rfl ⟨hfacts.1, nofun⟩ p
  · rw [learn_transition hid]
    rcases perform_transition h with ⟨rfl, -⟩ | ⟨record, hrec, -, rfl, -⟩
    · exact hi.put_same p
    · refine hi.put_record (some _) hid ?_ p
      rintro rfl
      have hrepl := hi.good.replacement
      rw [hrec] at hrepl
      rcases ha.2 rfl with ⟨hhost, hport, hengine⟩ | rfl
      · simpa [replaceable, endpointAddress_transitioned hhost hport hengine] using hrepl
      · simp [replaceable, endpointAddress_activeUpdates]

theorem Inv.call_setInstance {r r' record}
    (hpart : c.part = some .instances) (hlearn : ∀ k, learn μ k c r' = k)
    (hsource : id = μ.sourceId → (s.loc t).know = .ended)
    (hrepl : id = μ.instanceId → replaceable μ record = true)
    (h : i.reply s.world (s.world.setInstance id record) r = some (w, r')) :
    After μ procs s t w c r' := by
  intro p
  rw [next_learn (by rw [hpart]; exact nofun), hlearn]
  refine Input.reply_world h (p := fun w => Inv μ procs (s.put w t p (s.loc t))) ?_ ?_
  · exact hi.put_same p
  · by_cases hid : id = μ.sourceId
    · subst hid
      have hover := hsource rfl
      have hput := hi.put_source record hover p
      rwa [← hover] at hput
    · exact hi.put_record record hid hrepl p

/-! ### The routing map -/

omit hi in
theorem Untouched.of_spared {w' : World} (hop : w'.operation = w.operation)
    (hdone : w'.completed = w.completed) (hinst : w'.instances = w.instances)
    (hrouting : w'.routing = w.routing ∨ ∃ (mutation : Mutation) (now : Nat),
      w'.routing = mutation.apply w.routing now ∧
        mutation.spares μ.modelName μ.sourceAddress = true) : Untouched μ w w' := by
  refine ⟨standing_congr hop hdone, by rw [hinst], ?_⟩
  rintro ⟨e, he, haddr, hweight⟩
  rcases hrouting with hw | ⟨mutation, now, hw, hspares⟩
  · exact ⟨e, by rwa [hw], haddr, hweight⟩
  · obtain ⟨e', he', haddr', hweight'⟩ := exists_mem_apply now he (haddr ▸ hspares)
    exact ⟨e', by rwa [hw], haddr'.trans haddr, by rwa [hweight']⟩

def aside : Option Part → Bool
  | some .instances | some .operation | some .resuming => false
  | none | some .routing | some .worker | some .claims => true

theorem Inv.call_spared {r} (hlearn : ∀ k, learn μ k c r = k)
    (hpart : aside c.part = true)
    (hrouting : c.mutation μ.toSetting = none ∨ ∃ mutation, c.mutation μ.toSetting = some mutation ∧
        mutation.spares μ.modelName μ.sourceAddress = true)
    (h : s.world.perform μ.toSetting i c = some (w, r)) : After μ procs s t w c r := by
  intro p
  have hinst : c.part ≠ some .instances := by grind [aside]
  have hop : c.part ≠ some .operation := by grind [aside]
  have hres : c.part ≠ some .resuming := by grind [aside]
  have hsame := perform_sameBut h
  have hu : Untouched μ s.world w := by
    refine .of_spared (hsame.operation hop).1 (hsame.operation hop).2 (hsame.instances hinst) ?_
    rcases hrouting with hnone | ⟨mutation, hm, hspares⟩
    · exact .inl (hsame.routing (Call.part_ne_routing hnone))
    · rcases perform_routing hm h with hw | ⟨hw, -⟩
      · exact .inr ⟨mutation, i.now, hw, hspares⟩
      · exact .inl hw
  rw [next_learn hres, hlearn]
  refine hi.put_untouched hu ?_ ?_ (hsame.resuming hres) (hu.facts (hi.facts t)) (hi.exclusive t) p
  · rw [(hsame.operation hop).1]
    exact hi.good.owns
  · rw [hsame.instances hinst]
    exact hi.good.replacement

theorem Inv.call_routing_over {r} (hpart : c.part = some .routing)
    (hover : (s.loc t).know = .ended) (h : s.world.perform μ.toSetting i c = some (w, r)) :
    After μ procs s t w c r := by
  intro p
  have hsame := perform_sameBut h
  rw [hpart] at hsame
  have hlearn : learn μ (s.loc t).know c r = .ended := by
    rw [hover]
    rfl
  have hpast : standing s.world = .past := hi.facts_of hover
  rw [next_learn (by rw [hpart]; exact nofun), hlearn]
  refine hi.put_past hover ?_ ?_ ?_ (hsame.resuming nofun) p
  · rw [standing_congr (hsame.operation nofun).1 (hsame.operation nofun).2]
    exact hpast
  · rw [(hsame.operation nofun).1]
    exact hi.good.owns
  · rw [hsame.instances nofun]
    exact hi.good.replacement

theorem Inv.call_routing_cutting {r active k}
    (hpart : c.part = some .routing) (hcut : (s.loc t).know = .cutting active)
    (hlearn : learn μ (.cutting active) c r = k)
    (hfacts : standing w = .shifting → (active = true → SourceActive μ w) → Facts μ w k)
    (h : s.world.perform μ.toSetting i c = some (w, r)) : After μ procs s t w c r := by
  intro p
  have hsame := perform_sameBut h
  rw [hpart] at hsame
  have hold := hi.facts_of hcut
  have hinst := hsame.instances nofun
  have hstand : standing w = .shifting :=
    (standing_congr (hsame.operation nofun).1 (hsame.operation nofun).2).trans hold.1
  have hgood : Good μ w := by
    refine ⟨?_, ?_, fun hs => ?_, fun _ => ?_⟩
    · rw [(hsame.operation nofun).1]
      exact hi.good.owns
    · rw [hinst]
      exact hi.good.replacement
    · exact nomatch hstand.symm.trans hs
    · unfold SourceAlive
      rw [hinst]
      exact hi.good.shifting hold.1
  rw [next_learn (by rw [hpart]; exact nofun), hcut, hlearn]
  refine hi.put_alone (by rw [hcut]; rfl) hgood (hsame.resuming nofun) (hfacts hstand ?_) p
  unfold SourceActive
  rw [hinst]
  exact hold.2

theorem Inv.call_updateEndpointWeight {host port weight} :
    Tells μ procs s t i (.updateEndpointWeight host port weight) := by
  rintro r w ⟨haddr, rfl, hcut⟩ h
  refine ⟨trivial, ?_⟩
  rcases r with e | _ | _
  · exact hi.call_routing_cutting rfl hcut rfl (fun hs hact => ⟨hs, hact⟩) h
  · exact hi.call_routing_cutting rfl hcut rfl (fun hs hact => ⟨hs, hact⟩) h
  · obtain ⟨e, he, hea, hweight⟩ := perform_updateEndpointWeight h
    exact hi.call_routing_cutting rfl hcut rfl
      (fun hs hact => ⟨hs, hact rfl, e, he, hea.trans haddr, hweight ▸ Nat.one_pos⟩) h

/-! ### The guard of `resume` -/

theorem Inv.guard {s'} (resuming : Finset Nat)
    (hworld : s'.world = { s.world with resuming })
    (hprocess : ∀ t, (s'.loc t).process = procs t)
    (hknow : ∀ t, (s'.loc t).know = (s.loc t).know ∨ (s'.loc t).know = .nothing)
    (hrunning : ∀ t, (s'.loc t).inside = true → procs t ∈ resuming)
    (halone : ∀ t t', (s'.loc t).inside = true → (s'.loc t').inside = true → t = t')
    (hexcl : ∀ t, (s'.loc t).know.exclusive = true → (s'.loc t).inside = true) :
    Inv μ procs s' := by
  have hu : Untouched μ s.world s'.world := by
    rw [hworld]
    exact ⟨rfl, rfl, fun h => h⟩
  refine ⟨hu.good hi.good ?_ ?_, fun t => ?_, hprocess, ?_, halone, hexcl⟩
  · rw [hworld]
    exact hi.good.owns
  · rw [hworld]
    exact hi.good.replacement
  · rcases hknow t with h | h
    · rw [h]
      exact hu.facts (hi.facts t)
    · rw [h]
      exact trivial
  · rw [hworld]
    exact hrunning

theorem Inv.put_guard {resuming l} (hprocess : l.process = (s.loc t).process)
    (hknow : l.know = (s.loc t).know ∨ l.know = .nothing)
    (hothers : ∀ t' ≠ t, (s.loc t').inside ≠ true)
    (hin : l.inside = true → procs t ∈ resuming)
    (hexcl : l.know.exclusive = true → l.inside = true) (p : Service Unit) :
    Inv μ procs (s.put { s.world with resuming } t p l) := by
  obtain ⟨-, -, _, -, -, _⟩ := id hi
  refine hi.guard resuming rfl (fun t' => ?_) (fun t' => ?_) (fun t' => ?_) (fun _ _ => ?_)
    (fun t' => ?_)
  all_goals
    simp only [Threads.put]
    grind -ring -linarith

theorem Inv.call_enterResume {process} (hok : ∀ other ∈ s.world.resuming, other = process) :
    Tells μ procs s t i (.enterResume process) := by
  intro r w ha h
  refine ⟨trivial, fun p => ?_⟩
  simp only [World.perform] at h
  split at h
  · rename_i hfree
    cases h
    refine hi.put_guard (l := { s.loc t with inside := true }) rfl (.inl rfl) ?_ (fun _ => ?_)
      (fun _ => rfl) p
    · intro t' _ hin
      have hmem := hi.running t' hin
      exact hfree.2 (hok _ hmem ▸ hmem)
    · rw [← hi.process t, ← ha.1]
      exact Finset.mem_insert_self _ _
  · cases h
    have hlearn : learn μ (s.loc t).know (.enterResume process) (.ok false) = (s.loc t).know := by
      cases (s.loc t).know <;> rfl
    show Inv μ procs (s.put s.world t p { s.loc t with know := learn μ (s.loc t).know _ _ })
    rw [hlearn]
    exact hi.put_same p

theorem Inv.call_leaveResume {process} : Tells μ procs s t i (.leaveResume process) := by
  intro r w ha h
  refine ⟨trivial, fun p => ?_⟩
  cases h
  have hothers : ∀ t' ≠ t, (s.loc t').inside ≠ true :=
    fun t' ht' hin => ht' (hi.alone t' t hin ha.2)
  refine hi.put_guard (l := ⟨(s.loc t).process, false, _⟩) rfl ?_ hothers nofun ?_ p
  all_goals grind -ring -linarith [Know.exclusive]

theorem Inv.call (hok : OrderedCall s.world (s.loc t) (moveCall (some c))) :
    Tells μ procs s t i c := by
  intro r w ha h
  cases c with
  | getInstance id => exact hi.call_getInstance ha h
  | scan => exact hi.call_scan ha h
  | scanned => exact hi.call_scanned ha h
  | getMoveOperation => exact hi.call_getMoveOperation ha h
  | updateMoveOperation operationId updates => exact hi.call_updateMoveOperation hok ha h
  | removeMoveOperation operationId => exact hi.call_removeMoveOperation ha h
  | transition id _ updates => exact hi.call_transition ha h
  | writeInstance id record =>
    have hreply : i.reply s.world (s.world.setInstance id (some record)) (.ok ()) = some (w, r) := h
    refine ⟨trivial, hi.call_setInstance rfl (fun k => ?_) ha.1
      (fun hid => ?_) hreply⟩
    · cases k <;> rfl
    · simp [replaceable, ha.2 hid]
  | removeInstance id =>
    have hreply : i.reply s.world (s.world.setInstance id none) (.ok ()) = some (w, r) := h
    refine ⟨trivial, hi.call_setInstance rfl (fun k => ?_) ha
      (fun _ => rfl) hreply⟩
    cases k <;> rfl
  | removeModel => exact ⟨trivial, hi.call_routing_over rfl ha h⟩
  | updateEndpointWeight host port => exact hi.call_updateEndpointWeight ha h
  | cutoverEndpointAndWait host port =>
    obtain ⟨_, hcut⟩ := ha
    exact ⟨trivial, hi.call_routing_cutting rfl hcut rfl
      (fun hs hact => ⟨hs, hact⟩) h⟩
  | removeEndpoint host port =>
    by_cases haddr : (host, port) = μ.sourceAddress
    · exact ⟨trivial, hi.call_routing_over rfl (ha haddr) h⟩
    · refine ⟨trivial, hi.call_spared (by rintro ⟨⟩ <;> rfl) rfl (.inr ⟨_, rfl, ?_⟩) h⟩
      simp [Mutation.spares, haddr]
  | addEndpoint endpoint protocol =>
    have hne : endpoint.address ≠ μ.sourceAddress := ha
    refine ⟨trivial, hi.call_spared (by rintro ⟨⟩ <;> rfl) rfl (.inr ⟨_, rfl, ?_⟩) h⟩
    simp [Mutation.spares, hne]
  | setModelState _ protocol =>
    exact ⟨trivial, hi.call_spared (by rintro ⟨⟩ <;> rfl) rfl (.inr ⟨_, rfl, rfl⟩) h⟩
  | enterResume process => exact hi.call_enterResume hok ha h
  | leaveResume process => exact hi.call_leaveResume ha h
  | awaitStart =>
    refine ⟨?_, hi.call_spared (by rintro ⟨⟩ <;> rfl) rfl (.inl rfl) h⟩
    rcases r with e | info
    · exact trivial
    · exact info_of_awaitStart h
  | getRunnerByInstance id =>
    refine ⟨?_, hi.call_spared (by rintro ⟨⟩ <;> rfl) rfl (.inl rfl) h⟩
    rcases r with e | _ | _ | info
    case ok.ready => exact info_of_getRunnerByInstance h
    all_goals exact trivial
  | _ =>
    exact ⟨trivial, hi.call_spared (by rintro ⟨⟩ <;> rfl) rfl (.inl rfl) h⟩

end calls

/-! ## Runs -/

variable {s : State n}

theorem Inv.crash (hi : Inv μ procs s) (process : Nat) {s'}
    (h : step μ procs s (.crash process) = some s') : Inv μ procs s' := by
  cases h
  obtain ⟨-, -, _, _, _, _⟩ := id hi
  refine hi.guard (s.world.resuming.erase process) rfl (fun t => ?_) (fun t => ?_)
    (fun t => ?_) (fun t _ => ?_) (fun t => ?_)
  all_goals grind -ring -linarith [Know.exclusive]

variable {w : World}

theorem Inv.elsewhere (hi : Inv μ procs s)
    (hu : Untouched μ s.world w) (hop : w.operation = s.world.operation)
    (hresuming : w.resuming = s.world.resuming)
    (hrepl : replaceable μ (w.instances.lookup μ.instanceId) = true) :
    Inv μ procs { s with world := w } := by
  refine ⟨hu.good hi.good ?_ hrepl, fun t => hu.facts (hi.facts t), hi.process, ?_, hi.alone,
    hi.exclusive⟩
  · rw [hop]
    exact hi.good.owns
  · grind [hi.running]

theorem step_inv {s' a}
    (hs : s.Obey (contract μ) (fun _ _ _ => True) ∧ Inv μ procs s) (hok : Ordered s a)
    (h : step μ procs s a = some s') :
    s'.Obey (contract μ) (fun _ _ _ => True) ∧ Inv μ procs s' := by
  obtain ⟨hobey, hi⟩ := hs
  cases a with
  | run t i =>
    have hrun : s.step (contract μ) (fun _ i w c => w.perform μ.toSetting i c) t i = some s' := h
    refine Threads.step_obey hobey ?_ hrun
    intro c w r _ ha hc hsem
    obtain ⟨k, hk⟩ := hc
    have hordered : OrderedCall s.world (s.loc t) (moveCall (s.prog t).awaited) := hok
    rw [hk] at hordered
    exact hi.call hordered ha hsem
  | crash process =>
    refine ⟨?_, hi.crash process h⟩
    cases h
    intro t
    by_cases hp : procs t = process
    · simp [hp, Obeys]
    · simpa [hp] using hobey t
  | worker a =>
    obtain ⟨worker, -, rfl⟩ := map_eq_some_iff.mp h
    exact ⟨hobey, hi.elsewhere ⟨rfl, rfl, fun h => h⟩ rfl rfl hi.good.replacement⟩
  | otherInstance id record =>
    obtain ⟨hid, h⟩ := ite_none_left_eq_some.mp h
    cases h
    have hsource : id ≠ μ.sourceId := fun h => hid (.inl h)
    refine ⟨hobey, hi.elsewhere
      ⟨rfl, s.world.lookup_setInstance_ne hsource record, fun h => h⟩ rfl rfl ?_⟩
    by_cases hr : id = μ.instanceId
    · grind [lookup_setInstance_self]
    · rw [lookup_setInstance_ne _ hr]
      exact hi.good.replacement
  | mutate mutation now =>
    obtain ⟨hspares, h⟩ := ite_none_right_eq_some.mp h
    cases h
    exact ⟨hobey, hi.elsewhere (.of_spared rfl rfl rfl (.inr ⟨mutation, now, rfl, hspares⟩))
      rfl rfl hi.good.replacement⟩

/-- A world in which a move has just begun: the operation is in
`REPLACEMENT_STARTING`, its source serves, and no `resume` is running. -/
structure Begun (μ : MoveSetting) (w : World) : Prop where
  operation : ∃ operation, w.operation = some operation ∧ Owns μ operation ∧
    operation.phase = .replacementStarting
  replacement : replaceable μ (w.instances.lookup μ.instanceId) = true
  serving : Serving μ w
  resuming : w.resuming = ∅

variable {params : DeployModelParams} {timeouts : Timeouts}

theorem inv_start (hw : Begun μ w) : Inv μ procs (start μ timeouts params procs w) where
  good := by
    obtain ⟨operation, hop, hown, _⟩ := hw.operation
    refine ⟨fun _ hop' => ?_, hw.replacement, fun _ => hw.serving, fun _ => ?_⟩
    · obtain rfl := Option.some.inj (hop.symm.trans hop')
      exact hown
    · exact hw.serving.1.alive
  facts := fun _ => trivial
  process := fun _ => rfl
  running := fun _ h => nomatch h
  alone := fun _ _ h => nomatch h
  exclusive := fun _ h => nomatch h

theorem obey_start (hid : params.instanceId = μ.instanceId) :
    (start μ timeouts params procs w).Obey (contract μ) (fun _ _ _ => True) := by
  intro t
  cases t with
  | none => exact obeys_runMove hid ⟨rfl, rfl, .inl rfl⟩
  | some => exact obeys_resume ⟨rfl, rfl, .inl rfl⟩

/-- The move has failed: its operation is in `REPLACEMENT_CLEANUP`, or has been
removed and not by a success. -/
def Failed (w : World) : Prop :=
  w.operation.map (·.phase) = some .replacementCleanup ∨ (w.operation = none ∧ w.completed = false)

instance (w : World) : Decidable (Failed w) :=
  inferInstanceAs (Decidable (_ = _ ∨ (_ = _ ∧ _ = _)))

theorem Failed.standing (h : Failed w) : standing w = .serving := by
  unfold MoveSafety.standing
  rcases h with h | ⟨hop, hdone⟩
  · grind [Standing.ofPhase]
  · simp [hop, hdone]

/-- The instance `s` is moved to the worker `w`, where `i` replaces it. -/
def exampleMove : MoveSetting where
  toSetting := exampleSetting
  operationId := "op"
  sourceId := "s"
  sourceAddress := ("10.0.0.6", 8001)
  source_ne := by decide
  address_ne := by decide

/-- The source is `ACTIVE` and routed, the replacement `STARTING`. -/
def movingWorld : World where
  instances := startingWorld.instances.insert "s"
    { newInstance "m" "s" (some "v") none 0 with
      state := .active, runnerHost := some "10.0.0.6", runnerPort := some 8000,
      runnerEnginePort := some 8001 }
  routing := addEndpoint ∅ "m" ⟨"10.0.0.6", 8001, 1, true, some "q"⟩ (some .openai) 0
  operation := some
    { operationId := "op", modelName := "m", sourceInstanceId := "s", replacementInstanceId := "i",
      targetWorkerId := "w", targetDeviceIndices := [0], phase := .replacementStarting,
      createdAt := 0, updatedAt := 0 }

def exampleParams : DeployModelParams := ⟨"m", "i", "w", .openai, true⟩

def inLeader : Option (Fin 2) → Nat := fun _ => 0

def calls (t : Option (Fin 2)) (k : Nat) : List (Action 2) :=
  List.replicate k (.run t { keys := ["i", "s"] })

theorem begun_movingWorld : Begun exampleMove movingWorld where
  operation := ⟨_, rfl, ⟨rfl, rfl, rfl⟩, rfl⟩
  replacement := by decide +kernel
  serving := by decide +kernel
  resuming := rfl

/-- A `resume` finds the replacement starting; the worker rejects the start, and
`runMove` cleans up. -/
def rejectedStart : List (Action 2) :=
  calls none 11 ++ calls (some left) 8 ++ [.worker (.reject 400)] ++ calls none 27

/-- The replacement is `ACTIVE`, and a `resume` cuts over before the deployment
has ended; then the last refresh of the deployment fails. -/
def failureAfterCutover : List (Action 2) :=
  calls none 11 ++ [.worker .deliver, .worker .reserve, .worker .launched] ++ calls none 11 ++
    calls (some left) 11 ++ calls none 1 ++ [.run none { outcome := .failed }] ++ calls none 11 ++
    calls (some left) 9 ++ calls (some right) 19

/-- `runMove` in process 0, a `resume` in process 1. -/
def twoProcesses : Option (Fin 2) → Nat
  | some 1 => 1
  | _ => 0

/-- `runMove`'s own `resume` is about to cut over when another process becomes the
leader; there a second `resume` sees the replacement fail, restores the weight and
cleans up, and then the first one cuts over. -/
def staleCutover : List (Action 2) :=
  calls none 11 ++ [.worker .deliver, .worker .reserve, .worker .launched] ++ calls none 27 ++
    [.otherInstance "i" (some { newInstance "m" "i" (some "w") none 0 with state := .error })] ++
    calls (some right) 8 ++ calls none 1

/-- **Two `resume`s at a time** are enough to lose the service: here `runMove` has
reported no failure. -/
theorem failed_after_staleCutover : ∃ s, exec (step exampleMove twoProcesses)
        (start exampleMove exampleTimeouts exampleParams twoProcesses movingWorld)
        staleCutover = some s ∧
      Failed s.world ∧ ¬ Serving exampleMove s.world :=
  ⟨(exec (step exampleMove twoProcesses)
      (start exampleMove exampleTimeouts exampleParams twoProcesses movingWorld)
      staleCutover).get (by decide +kernel),
    (some_get _).symm, by decide +kernel, by decide +kernel⟩

end Sardeenz.MoveSafety
