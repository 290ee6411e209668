/-
# `Sardeenz.Services.MoveAlone` — `resume`, run alone

What the calls and helpers of `resume` lead to when nothing else runs, every worker
can be reached and no call fails from outside (`Ideal`).

    calls         one rule for each, with the only answer it can have
    helpers       a refresh changes the routing map only; `stopModel` succeeds
                  from every state
    teardown      succeeds once an ambiguous start is resolved, and is put off
                  until then
    resume        goes by the phase; its `catch` writes a message, its `finally`
                  makes room for the next one

The rules hold for every set of inputs that are all ideal.  Every call but the
answer to a start can be answered by one (`exists_ideal`), and `resume` awaits no
such answer (`only_resume`): so what it leads to, it leads to in the end.
-/
import Sardeenz.Alone
import Sardeenz.Services.Move
import Sardeenz.Services.World

namespace Sardeenz.MoveProgress

open Interleave Option Alone Move

/-- Every worker can be reached and no call fails from outside: calls are
answered, the process stays the leader, and a runner that is drained is healthy
and has no request in flight.  The clock shows `now` or later. -/
structure Ideal (now : Nat) (i : Input) : Prop where
  answered : i.outcome = .answered
  leader : i.isLeader = true
  worker : i.workerKnown = true
  inTime : i.aborted = false
  healthy : i.health.state ≠ .error
  idle : i.health.activeRequests = some 0
  clock : now ≤ i.now

abbrev Starting (r : InstanceState) : Prop := r.state = .pending ∨ r.state = .starting

abbrev OpenStart (r : InstanceState) : Prop := r.runnerStartAmbiguous = true ∧ r.runnerId = none

/-- The worker has the start of the replacement under way; or it does not know of
it, and the grace period from `since` on has not passed. -/
def Underway (σ : Setting) (timeouts : Timeouts) (now since : Nat) (w : World) : Prop :=
  (∃ runnerId, w.worker.lookup σ.info = .starting runnerId) ∨
    (w.worker.lookup σ.info = .absent ∧ now < since + timeouts.ambiguousStartGraceMs)

/-- What a program leads to when it runs alone on the world of a move. -/
abbrev Leads {α : Type} (σ : Setting) (ok : Input → Prop) (Q : World → Except Failure α → Prop)
    (p : Service α) (w : World) : Prop :=
  Alone (World.perform σ) ok Q p w

/-- … whatever its outcome. -/
abbrev Ends {α : Type} (σ : Setting) (ok : Input → Prop) (J : World → Prop) (p : Service α)
    (w : World) : Prop :=
  Leads σ ok (fun w' _ => J w') p w

/-! ## The calls -/

section
variable {σ : Setting} {now : Nat} {ok : Input → Prop} {w : World}

theorem reply_answered {α} {i : Input} {before after} {r : Except Failure α}
    (h : i.outcome = .answered) : i.reply before after r = some (after, r) := by
  unfold Input.reply
  rw [h]

theorem alone_await {c Q}
    {after : Input → World} {r : Input → Except Failure (Reply c)}
    (hc : ∀ i, ok i → w.perform σ i c = some (after i, r i))
    (h : ∀ i, ok i → Q (after i) (r i)) : Leads σ ok Q (await c) w := by
  intro i _ _ hi hw
  obtain ⟨rfl, rfl⟩ := Prod.mk.inj (Option.some.inj ((hc i hi).symm.trans hw))
  exact h i hi

theorem alone_remote (hok : ∀ i, ok i → Ideal now i) {c Q} {after : Input → World}
    {r : Input → Except Failure (Reply c)}
    (hc : ∀ i, w.perform σ i c = i.reply w (after i) (r i))
    (h : ∀ i, ok i → Q (after i) (r i)) : Leads σ ok Q (await c) w :=
  alone_await (fun i hi => (hc i).trans (reply_answered (hok i hi).answered)) h

variable {Q : World → Except Failure Unit → Prop}

theorem alone_when {c} [Decidable c] {p}
    (h : c → Leads σ ok Q p w) (hn : ¬ c → Q w (.ok ())) :
    Leads σ ok Q (Service.when c p) w := by
  unfold Service.when
  split
  · rename_i hc
    exact h hc
  · rename_i hc
    exact hn hc

variable (hok : ∀ i, ok i → Ideal now i)
include hok

variable {id : String} {α : Type} {S : World → Except Failure α → Prop}

theorem alone_getInstance {f : Option InstanceState → Service α}
    (h : Leads σ ok S (f (w.instances.lookup id)) w) :
    Leads σ ok S (await (.getInstance id) >>= f) w :=
  andThen (alone_remote hok (fun _ => rfl) fun _ _ => ⟨_, rfl, h⟩)

theorem alone_getMoveOperation {Q : World → Except Failure (Option MoveOperation) → Prop}
    (h : Q w (.ok w.operation)) : Leads σ ok Q (await .getMoveOperation) w :=
  alone_remote hok (fun _ => rfl) fun _ _ => h

section
variable {f : Bool → Service α}

theorem alone_isLeader (h : Leads σ ok S (f true) w) : Leads σ ok S (await .isLeader >>= f) w :=
  andThen (alone_await (fun _ _ => rfl) fun i hi => ⟨_, congrArg _ (hok i hi).leader, h⟩)

theorem alone_getWorker {workerId} (h : Leads σ ok S (f true) w) :
    Leads σ ok S (await (.getWorker workerId) >>= f) w :=
  andThen (alone_await (fun _ _ => rfl) fun i hi => ⟨_, congrArg _ (hok i hi).worker, h⟩)

theorem alone_aborted (h : Leads σ ok S (f false) w) : Leads σ ok S (await .aborted >>= f) w :=
  andThen (alone_await (fun _ _ => rfl) fun i hi => ⟨_, congrArg _ (hok i hi).inTime, h⟩)

end

theorem alone_now {f : Nat → Service α} (h : ∀ time, now ≤ time → Leads σ ok S (f time) w) :
    Leads σ ok S (await .now >>= f) w :=
  andThen (alone_await (fun _ _ => rfl) fun i hi => ⟨_, rfl, h i.now (hok i hi).clock⟩)

theorem alone_getHealth {Q : World → Except Failure RunnerHealth → Prop}
    (h : ∀ health, health.state ≠ .error → health.activeRequests = some 0 → Q w (.ok health)) :
    Leads σ ok Q (await .getHealth) w :=
  alone_remote hok (fun _ => rfl) fun i hi =>
    h i.health (hok i hi).healthy (hok i hi).idle

variable {r : InstanceState}

theorem alone_transition {target updates}
    {Q : World → Except Failure InstanceState → Prop}
    (hr : w.instances.lookup id = some r) (hvalid : isValidTransition r.state target = true)
    (h : ∀ time, Q { w with instances := w.instances.insert id (transitioned r target updates time) }
      (.ok (transitioned r target updates time))) :
    Leads σ ok Q (await (.transition id target updates)) w := by
  refine alone_await (fun i hi => ?_) fun i _ => h i.now
  have htransition : transition (w.instances.lookup id) σ.modelName id target updates i.now =
      .ok (transitioned r target updates i.now) := transition_eq_ok.mpr ⟨r, hr, hvalid, rfl⟩
  simp only [World.perform, htransition]
  exact reply_answered (hok i hi).answered

theorem alone_updateMoveOperation {operationId updates operation} {f : Option MoveOperation → Service α}
    (hstored : w.operation = some operation) (hid : operation.operationId = operationId)
    (hphase : phaseAllowed operation.phase updates.phase = true)
    (h : ∀ time, let updated := { operation with
        phase := updates.phase.getD operation.phase
        errorMessage := updates.errorMessage <|> operation.errorMessage
        updatedAt := time }
      Leads σ ok S (f (some updated)) { w with operation := some updated }) :
    Leads σ ok S (await (.updateMoveOperation operationId updates) >>= f) w := by
  refine andThen (alone_await (fun i hi => ?_) fun i _ => ⟨_, rfl, h i.now⟩)
  simp only [World.perform, updateMoveOperation, hstored, hid, hphase]
  exact reply_answered (hok i hi).answered

theorem alone_ignored (h : Q w (.ok ())) :
    Leads σ ok Q (Service.ignoringErrors (await .bookkeeping)) w :=
  tryCatch_of_ok (alone_remote hok (fun _ => rfl) fun _ _ => ⟨_, rfl, h⟩)

theorem alone_cutover {address} {Q : World → Except Failure Bool → Prop}
    (h : RoutedAt w.routing σ.modelName address → ∀ routing, Q { w with routing } (.ok true))
    (hn : ¬ RoutedAt w.routing σ.modelName address → Q w (.ok false)) :
    Leads σ ok Q (await (.cutoverEndpointAndWait address.1 address.2)) w := by
  intro i _ r hi hw
  simp only [World.perform] at hw
  split at hw
  · rename_i routing hcutover
    rw [reply_answered (hok i hi).answered] at hw
    cases hw
    exact h (cutoverEndpoint_isSome.mp (isSome_of_eq_some hcutover)) routing
  · rename_i hcutover
    rw [reply_answered (hok i hi).answered] at hw
    cases hw
    refine hn fun hrouted => ?_
    exact absurd hcutover (isSome_iff_ne_none.mp (cutoverEndpoint_isSome.mpr hrouted))

theorem alone_restoreWeight {address Q}
    (h : ∀ routing, Q { w with routing } (.ok (decide (RoutedAt w.routing σ.modelName address)))) :
    Leads σ ok Q (await (.updateEndpointWeight address.1 address.2 1)) w := by
  intro i _ r hi hw
  obtain ⟨routing, hfound⟩ : ∃ routing,
      updateEndpointWeight w.routing σ.modelName address.1 address.2 1 i.now =
        .ok (routing, decide (RoutedAt w.routing σ.modelName address)) :=
    updateEndpointWeight_found (by decide)
  simp only [World.perform, hfound, reply_answered (hok i hi).answered] at hw
  cases hw
  exact h routing

/-! ## The helpers -/

def Clean (w : World) (w' : World) (r : Except Failure Unit) : Prop :=
  r = .ok () ∧ w'.operation = w.operation

theorem alone_readInstances : ∀ ids : List String,
    Leads σ ok (fun w' r => w' = w ∧ ∃ records, r = .ok records) (readInstances ids) w
  | [] => ⟨rfl, _, rfl⟩
  | _ :: ids => by
    refine alone_getInstance hok ?_
    refine andThen ((alone_readInstances ids).mono ?_)
    rintro w' r ⟨rfl, records, rfl⟩
    exact ⟨records, rfl, rfl, _, rfl⟩

theorem alone_getInstancesForModel : Leads σ ok (fun w' r => w' = w ∧ ∃ records, r = .ok records)
      getInstancesForModel w := by
  refine andThen (alone_remote hok (fun _ => rfl) fun _ _ => ⟨_, rfl, andThen ?_⟩)
  intro i w' r hi hw
  obtain ⟨-, hw⟩ := ite_none_right_eq_some.mp hw
  rw [reply_answered (hok i hi).answered] at hw
  cases hw
  exact ⟨_, rfl, alone_readInstances hok _⟩

theorem alone_refresh (h : ∀ routing, Q { w with routing } (.ok ())) :
    Leads σ ok Q refreshModelRoutingState w := by
  refine andThen ((alone_getInstancesForModel hok).mono ?_)
  rintro _ r ⟨rfl, records, rfl⟩
  refine ⟨records, rfl, ?_⟩
  split
  all_goals exact alone_remote hok (fun _ => rfl) fun _ _ => h _

variable {modelName : String}

theorem alone_setRunnerEndpoint {endpoint} (hr : w.instances.lookup id = some r)
    (h : Q { w with instances := w.instances.insert id (r.withEndpoint endpoint) } (.ok ())) :
    Leads σ ok Q (setRunnerEndpoint modelName id endpoint) w := by
  refine alone_getInstance hok ?_
  rw [hr]
  exact alone_remote hok (fun _ => rfl) fun _ _ => h

theorem alone_pollRunnerHealth :
    Leads σ ok (fun w' r => w' = w ∧ ∃ health : RunnerHealth, r = .ok health ∧
      health.state ≠ .error ∧ health.activeRequests = some 0) (pollRunnerHealth id) w := by
  refine tryCatch_of_ok ?_
  refine andThen (alone_getHealth hok fun health hstate hidle => ⟨_, rfl, ?_⟩)
  refine alone_getInstance hok ?_
  refine andThen (alone_when (fun h => absurd h.2 hstate) fun _ => ⟨_, rfl, ?_⟩)
  exact ⟨health, rfl, rfl, health, rfl, hstate, hidle⟩

theorem alone_waitForDrain {timeouts rounds} (hrounds : 0 < rounds) :
    Leads σ ok (fun w' r => w' = w ∧ r = .ok ())
      (waitForDrain timeouts modelName id rounds 0) w := by
  obtain ⟨rounds, rfl⟩ := Nat.exists_eq_succ_of_ne_zero hrounds.ne'
  refine alone_aborted hok ?_
  refine andThen ((alone_pollRunnerHealth hok).mono ?_)
  rintro w' r ⟨rfl, health, rfl, hstate, hidle⟩
  refine ⟨health, rfl, ?_⟩
  rw [if_neg hstate, if_neg (by decide), if_pos hidle]
  exact ⟨rfl, rfl⟩

theorem alone_removeRouted (h : ∀ routing, Q { w with routing } (.ok ())) :
    Leads σ ok Q (removeRouted r) w := by
  unfold removeRouted
  split
  · exact alone_remote hok (fun _ => rfl) fun _ _ => h _
  · exact h w.routing

theorem alone_settleStopped (hr : w.instances.lookup id = some r) :
    Leads σ ok (Clean w) (settleStopped id (some r.state)) w := by
  -- One transition, or two.
  have hone : ∀ {w' : World} {r' : InstanceState} {updates : InstanceUpdates},
      w'.operation = w.operation → w'.instances.lookup id = some r' →
      isValidTransition r'.state .stopped = true →
      Leads σ ok (Clean w)
        (do let _ ← await (.transition id .stopped updates)) w' := fun hw' hr' hvalid =>
    andThen (alone_transition hok hr' hvalid fun _ => ⟨_, rfl, rfl, hw'⟩)
  have htwo : ∀ {target : ModelLifecycleState} {updates : InstanceUpdates},
      isValidTransition r.state target = true → isValidTransition target .stopped = true →
      Leads σ ok (Clean w)
        (do
          let _ ← await (.transition id target updates)
          let _ ← await (.transition id .stopped {})) w := by
    intro target updates hvalid hstopped
    refine andThen (alone_transition hok hr hvalid fun _ => ⟨_, rfl, ?_⟩)
    refine hone rfl (AList.lookup_insert _) ?_
    rw [transitioned_state]
    exact hstopped
  cases hstate : r.state with
  | pending | starting | draining | sleeping => exact htwo (by rw [hstate]; decide) (by decide)
  | stopping | error => exact hone rfl hr (by rw [hstate]; decide)
  | active | stopped => exact ⟨rfl, rfl⟩

theorem alone_stopModel {timeouts} (hrounds : 0 < timeouts.rounds)
    (hasRunner : Bool) (hr : w.instances.lookup id = some r) :
    Leads σ ok (Clean w) (stopModel timeouts modelName id hasRunner) w := by
  refine alone_getInstance hok ?_
  rw [hr]
  refine tryCatch_of_ok ((?_ : Alone _ _ (Clean w) _ _).mono fun _ _ h => ⟨(), h.1, rfl, h.2⟩)
  -- What follows the transition to `DRAINING`.
  have hrest : ∀ {w' : World} {r' : InstanceState}, w'.operation = w.operation →
      w'.instances.lookup id = some r' →
      Leads σ ok (Clean w)
        (do
          Service.when (hasRunner ∧ (r.state = .active ∨ r.state = .draining))
            (waitForDrain timeouts modelName id timeouts.rounds 0)
          removeRouted r
          let before ← await (.getInstance id)
          settleStopped id (before.map (·.state))
          refreshModelRoutingState) w' := by
    intro w' r' hw' hr'
    have hdrain : Leads σ ok (fun w'' res => w'' = w' ∧ res = .ok ())
        (Service.when (hasRunner ∧ (r.state = .active ∨ r.state = .draining))
          (waitForDrain timeouts modelName id timeouts.rounds 0)) w' :=
      alone_when (fun _ => alone_waitForDrain hok hrounds) fun _ => ⟨rfl, rfl⟩
    refine andThen (hdrain.mono ?_)
    rintro w'' res ⟨rfl, rfl⟩
    refine ⟨(), rfl, andThen (alone_removeRouted hok fun routing => ⟨_, rfl, ?_⟩)⟩
    refine alone_getInstance hok ?_
    rw [hr']
    refine andThen ((alone_settleStopped hok (w := { w'' with routing }) hr').mono ?_)
    rintro _ res ⟨rfl, hw₃⟩
    exact ⟨(), rfl, alone_refresh hok fun _ => ⟨rfl, hw₃.trans hw'⟩⟩
  refine andThen (alone_when (fun hactive => ?_) fun _ => ⟨(), rfl, hrest rfl hr⟩)
  refine andThen (alone_transition hok hr (by rw [hactive]; decide) fun _ => ⟨_, rfl, ?_⟩)
  exact alone_refresh hok fun _ => ⟨(), rfl, hrest rfl (AList.lookup_insert _)⟩

/-! ## Teardown -/

theorem alone_stopTolerant {runnerId} :
    Leads σ ok (Clean w) (Teardown.stopTolerant runnerId) w := by
  have hcall : Leads σ ok (fun w' r => w'.operation = w.operation ∧
      (r = .ok () ∨ ∃ message, r = .error (.workerHttp 404 message)))
      (await (.stopRunner runnerId)) w := by
    intro i w' r hi hw
    refine ⟨((World.perform_sameBut hw).operation fun h => by cases h).1, ?_⟩
    have hanswer : ∀ {after : World} {r' : Except Failure Unit},
        i.reply w after r' = some (w', r) → r = r' := by
      intro after r' h
      rw [reply_answered (hok i hi).answered] at h
      exact (Prod.mk.inj (Option.some.inj h)).2.symm
    simp only [World.perform] at hw
    split at hw
    · split at hw
      · exact .inl (hanswer hw)
      · exact .inr ⟨_, hanswer hw⟩
    · split at hw
      · exact .inr ⟨_, hanswer hw⟩
      · exact .inl (hanswer hw)
  refine hcall.tryCatch (fun w' _ h => ⟨rfl, h.1⟩) ?_
  rintro w' e ⟨hw', h | ⟨message, h⟩⟩
  · cases h
  · obtain rfl := Except.error.inj h
    exact ⟨rfl, hw'⟩

theorem alone_reapRunner : Leads σ ok (Clean w) (reapRunner r) w := by
  unfold reapRunner
  split
  · refine alone_getWorker hok ?_
    exact alone_stopTolerant hok
  · exact ⟨rfl, rfl⟩

section
variable {timeouts : Timeouts} {modelName id : String}

theorem alone_removeResolved (hrounds : 0 < timeouts.rounds) {r'}
    (hr : w.instances.lookup id = some r') :
    Leads σ ok (Clean w) (removeResolved timeouts modelName id r) w := by
  refine andThen ((alone_stopModel hok hrounds _ hr).mono ?_)
  rintro _ _ ⟨rfl, hw₁⟩
  refine ⟨(), rfl, andThen ((alone_reapRunner hok).mono ?_)⟩
  rintro _ _ ⟨rfl, hw₂⟩
  refine ⟨(), rfl, andThen (alone_remote hok (fun _ => rfl) fun _ _ => ⟨_, rfl, ?_⟩)⟩
  exact alone_ignored hok ⟨rfl, hw₂.trans hw₁⟩

theorem alone_teardown_ready (hrounds : 0 < timeouts.rounds) {cleanup}
    (hresolve : Leads σ ok (fun w' res => ∃ record, res = .ok (.ready record) ∧
        (∃ current, w'.instances.lookup id = some current) ∧ w'.operation = w.operation)
      (resolveAmbiguousStart timeouts modelName id r) w) :
    Leads σ ok (fun w' res => res = .ok true ∧ w'.operation = w.operation)
      (teardown timeouts modelName id r cleanup) w := by
  refine andThen (tryCatch_of_ok (andThen (hresolve.mono ?_)))
  rintro _ _ ⟨record, rfl, ⟨current, hcurrent⟩, hw₁⟩
  refine ⟨_, rfl, andThen ((alone_removeResolved hok hrounds hcurrent).mono ?_)⟩
  rintro _ _ ⟨rfl, hw₂⟩
  exact ⟨(), rfl, some true, rfl, _, rfl, rfl, hw₂.trans hw₁⟩

omit hok in
theorem alone_teardown_deferred {cleanup : Bool} (hresolve : Leads σ ok
      (fun w' res => res = .ok .deferred ∧ w'.operation = w.operation)
      (Move.resolveAmbiguousStart timeouts modelName id r) w) :
    Leads σ ok (fun w' res => res = .ok false ∧ w'.operation = w.operation)
      (Move.teardown timeouts modelName id r cleanup) w := by
  refine Alone.andThen (Alone.tryCatch_of_ok (Alone.andThen (hresolve.mono ?_)))
  rintro w₁ _ ⟨rfl, hw₁⟩
  exact ⟨_, rfl, some false, rfl, _, rfl, rfl, hw₁⟩

omit hok in
theorem alone_resolve_closed (hclosed : ¬ OpenStart r) (hr : w.instances.lookup id = some r) :
    Leads σ ok (fun w' res => ∃ record, res = .ok (.ready record) ∧
        (∃ current, w'.instances.lookup id = some current) ∧ w'.operation = w.operation)
      (Move.resolveAmbiguousStart timeouts modelName id r) w := by
  unfold Move.resolveAmbiguousStart
  rw [if_neg hclosed]
  exact ⟨r, rfl, ⟨r, hr⟩, rfl⟩

theorem alone_resolve_replacement (hopen : OpenStart r) (hworker : r.workerId ≠ none)
    (hr : w.instances.lookup σ.instanceId = some r)
    (hsettled : ¬ Underway σ timeouts now r.stateChangedAt w) :
    Leads σ ok (fun w' res => ∃ record, res = .ok (.ready record) ∧
        (∃ current, w'.instances.lookup σ.instanceId = some current) ∧
        w'.operation = w.operation)
      (resolveAmbiguousStart timeouts modelName σ.instanceId r) w := by
  obtain ⟨workerId, hworker⟩ := ne_none_iff_exists'.mp hworker
  unfold resolveAmbiguousStart
  rw [if_pos hopen, hworker]
  refine alone_getWorker hok ?_
  refine andThen (alone_remote hok (fun _ => rfl) fun _ _ => ⟨_, rfl, ?_⟩)
  rw [if_pos rfl]
  cases hlookup : w.worker.lookup σ.info with
  | starting runnerId => exact absurd (.inl ⟨runnerId, hlookup⟩) hsettled
  | absent =>
    refine alone_now hok fun _ htime => ?_
    rw [if_neg fun h => hsettled (.inr ⟨hlookup, Nat.lt_of_le_of_lt htime h⟩)]
    exact ⟨r, rfl, ⟨r, hr⟩, rfl⟩
  | ready info =>
    refine andThen (alone_setRunnerEndpoint hok hr ⟨_, rfl, ?_⟩)
    refine alone_getInstance hok ?_
    rw [AList.lookup_insert]
    exact ⟨_, rfl, ⟨_, AList.lookup_insert _⟩, rfl⟩

omit hok in
theorem alone_resolve_unplaced (hopen : OpenStart r) (hworker : r.workerId = none) :
    Leads σ ok (fun w' res => res = .ok .deferred ∧ w'.operation = w.operation)
      (Move.resolveAmbiguousStart timeouts modelName id r) w := by
  unfold Move.resolveAmbiguousStart
  rw [if_pos hopen, hworker]
  exact ⟨rfl, rfl⟩

end

/-! ## The start of the replacement -/

section
variable {operation : MoveOperation} {timeouts : Timeouts} {modelName : String}

section
variable (hr : w.instances.lookup operation.replacementInstanceId = some r)
include hr

theorem alone_recoverAbsent (hstarting : Starting r) :
    Leads σ ok (fun w' res => ∃ record, res = .ok (some record) ∧
        record.state = .error ∧ w'.operation = w.operation) (recoverAbsent operation) w := by
  have hvalid : isValidTransition r.state .error = true := by
    rcases hstarting with h | h <;> rw [h] <;> decide
  exact tryCatch_of_ok (andThen (alone_transition hok hr hvalid fun _ =>
    ⟨_, rfl, _, rfl, _, rfl, transitioned_state _ _ _ _, rfl⟩))

theorem alone_markStarting {workerId} (hstarting : Starting r) :
    Leads σ ok (fun w' res => ∃ record, res = .ok record ∧
        record.state = .starting ∧ w'.operation = w.operation ∧
        w'.instances.lookup operation.replacementInstanceId = some record)
      (recoverReady.markStarting workerId operation r) w := by
  unfold recoverReady.markStarting
  split
  · rename_i hpending
    refine alone_transition hok hr (by rw [hpending]; decide) fun _ =>
      ⟨_, rfl, transitioned_state _ _ _ _, rfl, AList.lookup_insert _⟩
  · rename_i hpending
    exact ⟨r, rfl, hstarting.resolve_left hpending, rfl, hr⟩

theorem alone_recoverReady {workerId info} (hstarting : Starting r) :
    Leads σ ok (fun w' res => ∃ record, res = .ok (some record) ∧
        record.state = .active ∧ w'.operation = w.operation)
      (recoverReady modelName workerId operation r info) w := by
  refine andThen ((alone_markStarting hok hr hstarting).mono ?_)
  rintro _ _ ⟨started, rfl, hstate, hw₁, hstarted⟩
  refine ⟨started, rfl, andThen (alone_setRunnerEndpoint hok hstarted ⟨_, rfl, ?_⟩)⟩
  refine andThen (alone_remote hok (fun _ => rfl) fun _ _ => ⟨_, rfl, ?_⟩)
  have hvalid : isValidTransition (started.withEndpoint info.placement).state .active = true := by
    rw [withEndpoint_state, hstate]
    decide
  refine andThen (tryCatch_of_ok (alone_transition hok (AList.lookup_insert _) hvalid
    fun _ => ⟨_, rfl, _, rfl, ?_⟩))
  refine andThen (alone_refresh hok fun _ => ⟨_, rfl, ?_⟩)
  exact andThen (alone_ignored hok ⟨_, rfl, _, rfl, transitioned_state _ _ _ _, hw₁⟩)

end

theorem alone_recoverReplacementStart (hid : operation.replacementInstanceId = σ.instanceId)
    (hr : w.instances.lookup operation.replacementInstanceId = some r)
    (hstarting : Starting r)
    (hsettled : ¬ Underway σ timeouts now operation.createdAt w) :
    Leads σ ok (fun w' res => ∃ record, res = .ok (some record) ∧
        (record.state = .active ∨ record.state = .error) ∧ w'.operation = w.operation)
      (recoverReplacementStart timeouts modelName operation r) w := by
  refine alone_getWorker hok ?_
  refine andThen (alone_remote hok (fun _ => rfl) fun _ _ => ⟨_, rfl, ?_⟩)
  rw [if_pos hid]
  cases hlookup : w.worker.lookup σ.info with
  | starting runnerId => exact absurd (.inl ⟨runnerId, hlookup⟩) hsettled
  | absent =>
    refine alone_now hok fun _ htime => ?_
    rw [if_neg fun h => hsettled (.inr ⟨hlookup, Nat.lt_of_le_of_lt htime h⟩)]
    refine (alone_recoverAbsent hok hr hstarting).mono ?_
    grind
  | ready info =>
    refine (alone_recoverReady hok hr hstarting).mono ?_
    grind

/-! ## The whole of `resume` -/

theorem alone_noteFailure {err} (hstored : w.operation = some operation)
    (h : ∀ updatedAt, Q { w with
      operation := some { operation with errorMessage := some err.message, updatedAt } } (.ok ())) :
    Leads σ ok Q (noteFailure err) w := by
  refine andThen (tryCatch_of_ok (alone_getMoveOperation hok ⟨_, rfl, _, rfl, ?_⟩))
  rw [hstored]
  exact tryCatch_of_ok (alone_updateMoveOperation hok hstored rfl rfl
    fun time => ⟨_, rfl, h time⟩)

theorem alone_resumeOperation (hstored : w.operation = some operation)
    (hstarting : operation.phase = .replacementStarting →
      Leads σ ok Q (resumeStarting timeouts modelName operation) w)
    (hcutover : operation.phase = .replacementReady ∨ operation.phase = .cuttingOver →
      Leads σ ok Q (resumeCutover timeouts modelName operation) w)
    (hdraining : operation.phase = .sourceDraining →
      Leads σ ok Q (resumeDraining timeouts modelName operation) w)
    (hcleanup : operation.phase = .replacementCleanup →
      Leads σ ok Q (resumeCleanup timeouts modelName operation) w) :
    Leads σ ok Q (resumeOperation timeouts modelName) w := by
  refine andThen (alone_getMoveOperation hok ⟨_, rfl, ?_⟩)
  rw [hstored]
  refine alone_isLeader hok ?_
  grind [resumeFrom]

/-- `resume` in a process in which none is running: its `catch` and its `finally`
keep what the operation's phase says. -/
theorem alone_resume {process J} (hprocess : process ∉ w.resuming)
    (hJ : ∀ w resuming, J w → J { w with resuming })
    (hnote : ∀ w err, J w → Ends σ ok J (noteFailure err) w)
    (h : Ends σ ok J (resumeOperation timeouts modelName)
      { w with resuming := insert process w.resuming }) :
    Ends σ ok (fun w' => J w' ∧ process ∉ w'.resuming)
      (resume timeouts modelName process) w := by
  refine andThen (alone_await (fun i hi => if_pos ⟨(hok i hi).leader, hprocess⟩)
    fun _ _ => ⟨_, rfl, ?_⟩)
  refine andFinally (h.tryCatch (fun _ _ h => h) fun w' e hw' => hnote w' e hw') ?_
  intro w' r hw'
  exact alone_await (fun _ _ => rfl) fun _ _ => ⟨rfl, hJ _ _ hw', Finset.notMem_erase _ _⟩

end

end

/-! ## `resume` can go on -/

section
variable {σ : Setting} {now : Nat}

def Answerable (c : Call) : Prop := c ≠ .awaitStart

theorem exists_ideal (lookup : RunnerLookup) (w : World) (c : Call) (h : Answerable c) :
    ∃ i : Input, (Ideal now i ∧ i.lookup = lookup) ∧ (w.perform σ i c).isSome = true := by
  have hideal : ∀ keys, Ideal now { now, lookup, keys } ∧
      ({ now, lookup, keys } : Input).lookup = lookup := fun keys =>
    ⟨⟨rfl, rfl, rfl, rfl, nofun, rfl, Nat.le_refl _⟩, rfl⟩
  cases c with
  | scanned startIds =>
    refine ⟨_, hideal startIds, ?_⟩
    have hscan : Refresh.ScanReply startIds w.instances startIds :=
      ⟨fun id hid _ => hid, fun id hid => hid⟩
    simp only [World.perform, if_pos hscan]
    rfl
  | awaitStart => exact absurd rfl h
  | transition | updateEndpointWeight | cutoverEndpointAndWait | updateMoveOperation | sendStart
  | claim | enterResume =>
    refine ⟨_, hideal [], ?_⟩
    simp only [World.perform]
    split <;> rfl
  | stopRunner =>
    refine ⟨_, hideal [], ?_⟩
    simp only [World.perform]
    split
    · split <;> rfl
    · rfl
  | _ => exact ⟨_, hideal [], rfl⟩

theorem only_refresh : Only Answerable refreshModelRoutingState :=
  keeps_refresh (fun _ => only_call nofun) (only_call nofun) (fun _ => only_call nofun)
    (fun _ _ => only_call nofun) (only_call nofun)

theorem only_setRunnerEndpoint (modelName id : String) (endpoint : RunnerPlacement) :
    Only Answerable (setRunnerEndpoint modelName id endpoint) := by
  refine only_then nofun fun record => ?_
  cases record with
  | none => exact .throw _
  | some record => exact only_perform nofun

theorem only_reaping (modelName id : String) :
    Move.Reaping (Contract.only Answerable) (fun _ => True) modelName id where
  upkeep :=
    { refresh := only_refresh
      getInstance := only_call nofun
      transition := fun _ _ _ => only_call nofun
      getHealth := only_call nofun
      aborted := only_call nofun }
  worker _ := only_call nofun
  now := only_call nofun
  stopRunner _ := only_call nofun
  bookkeeping := only_call nofun
  removeInstance := only_call nofun
  lookup _ _ := ⟨nofun, fun _ _ => ⟨trivial, fun _ _ => only_setRunnerEndpoint _ _ _⟩⟩
  removeEndpoint _ _ _ _ _ _ := only_call nofun

section
variable (timeouts : Timeouts) (modelName : String) (operation : MoveOperation)

theorem only_finish (success : Bool) : Only Answerable (finish operation success) :=
  only_then nofun fun _ => .pure _

theorem only_bookkeeping : Only Answerable (Service.ignoringErrors (await .bookkeeping)) :=
  keeps_ignoringErrors (only_perform nofun)

theorem only_teardown_finish (id : String) (r : InstanceState) (cleanup success : Bool) :
    Only Answerable (do
        if ← teardown timeouts modelName id r cleanup then finish operation success
        else pure ()) :=
  ((only_reaping modelName id).teardown timeouts r cleanup).bind fun _ =>
    .ite (only_finish operation success) (.pure _)

theorem only_resumeCleanup : Only Answerable (resumeCleanup timeouts modelName operation) := by
  refine only_then nofun fun replacement => ?_
  cases replacement with
  | none => exact only_finish operation false
  | some r => exact only_teardown_finish timeouts modelName operation _ r true false

theorem only_resumeDraining :
    Only Answerable (resumeDraining timeouts modelName operation) := by
  refine only_then nofun fun _ => .ite ?_ (.pure _)
  refine only_then nofun fun source => ?_
  cases source with
  | none => exact only_finish operation true
  | some s => exact only_teardown_finish timeouts modelName operation _ s false true

theorem only_shiftTraffic (source : InstanceState) :
    Only Answerable (shiftTraffic operation source) := by
  refine .ite ?_ (.ite (.pure _) (.throw _))
  cases source.endpointAddress with
  | none => exact .throw _
  | some =>
    refine only_then nofun fun _ => .ite ?_ (.throw _)
    refine only_then nofun fun _ => .ite ?_ (.pure _)
    exact only_then nofun fun _ => only_refresh.bind fun _ => .pure _

theorem only_cutOver (source : InstanceState) :
    Only Answerable (cutOver timeouts modelName operation source) := by
  refine only_then nofun fun updated => ?_
  cases updated with
  | none => exact .pure _
  | some cuttingOver =>
    refine only_then nofun fun _ => .ite ?_ (.pure _)
    refine (only_shiftTraffic cuttingOver source).bind fun _ =>
      .ite ?_ (.pure _)
    refine only_then nofun fun updated => ?_
    cases updated with
    | none => exact .pure _
    | some sourceDraining => exact only_resumeDraining timeouts modelName sourceDraining

theorem only_rollBack (source : InstanceState) :
    Only Answerable (replacementUnavailable.rollBack operation source) := by
  refine .ite (.throw _) (.ite ?_ (.pure _))
  unfold restoreSourceWeight
  cases source.endpointAddress with
  | none => exact .throw _
  | some =>
    exact only_then nofun fun _ => .ite (.pure _) (.throw _)

theorem only_toCleanup (errorMessage : String) :
    Only Answerable (do let _ ← toCleanup operation errorMessage) :=
  only_then nofun fun _ => .pure _

theorem only_resumeCutover : Only Answerable (resumeCutover timeouts modelName operation) := by
  refine only_then nofun fun source => ?_
  refine only_then nofun fun replacement => ?_
  cases source with
  | none =>
    cases replacement with
    | none => exact only_finish operation false
    | some r =>
      exact .ite (only_finish operation true) (.ite (only_toCleanup operation _) (.pure _))
  | some s =>
    refine .ite (only_cutOver timeouts modelName operation s) ?_
    cases replacement with
    | none => exact (only_rollBack operation s).bind fun _ => only_finish operation false
    | some r =>
      exact .ite ((only_rollBack operation s).bind fun _ => only_toCleanup operation _) (.pure _)

theorem only_resumeFrom : Only Answerable (resumeFrom timeouts modelName operation) := by
  unfold resumeFrom
  split
  · exact .pure _
  · exact only_resumeCleanup timeouts modelName operation
  · exact only_resumeCutover timeouts modelName operation
  · exact only_resumeCutover timeouts modelName operation
  · exact only_resumeDraining timeouts modelName operation

theorem only_settleReplacement (r : InstanceState) :
    Only Answerable (settleReplacement timeouts modelName operation r) := by
  have hgoOn : ∀ updated,
      Only Answerable (settleReplacement.goOn timeouts modelName updated) := by
    intro updated
    cases updated with
    | none => exact .pure _
    | some updated => exact only_resumeFrom timeouts modelName updated
  refine .ite ?_ (.ite ?_ (.pure _))
  · exact only_bookkeeping.bind fun _ => (only_perform nofun).bind hgoOn
  · exact only_bookkeeping.bind fun _ => .bind (only_perform nofun) hgoOn

theorem only_recoverReady (workerId : String) (r : InstanceState) (info : RunnerInfo) :
    Only Answerable (recoverReady modelName workerId operation r info) := by
  refine .bind (.ite (only_perform nofun) (.pure _)) fun _ => ?_
  refine (only_setRunnerEndpoint _ _ _).bind fun _ => only_then nofun fun _ => ?_
  refine .bind ((only_perform nofun).tryCatch fun _ => ?_) fun _ => ?_
  · refine only_then nofun fun current => ?_
    cases current with
    | none => exact .throw _
    | some current => exact .ite (.pure _) (.throw _)
  · exact only_refresh.bind fun _ => only_bookkeeping.bind fun _ => .pure _

theorem only_recoverAbsent : Only Answerable (recoverAbsent operation) := by
  refine .tryCatch (only_then nofun fun _ => .pure _) fun _ => ?_
  exact only_then nofun fun _ => .ite (.pure _) (.throw _)

theorem only_resumeStarting : Only Answerable (resumeStarting timeouts modelName operation) := by
  refine only_then nofun fun replacement => ?_
  cases replacement with
  | none => exact only_finish operation false
  | some r =>
    refine .ite (.bind ?_ fun recovered => ?_)
      (only_settleReplacement timeouts modelName operation r)
    · refine only_then nofun fun _ => .ite ?_ (.pure _)
      refine only_then nofun fun lookup => ?_
      cases lookup with
      | starting => exact .pure _
      | absent =>
        exact only_then nofun fun _ =>
          .ite (.pure _) (only_recoverAbsent operation)
      | ready info => exact only_recoverReady modelName operation _ r info
    · cases recovered with
      | none => exact .pure _
      | some recovered => exact only_settleReplacement timeouts modelName operation recovered

omit operation in
theorem only_resumeOperation : Only Answerable (Move.resumeOperation timeouts modelName) := by
  refine only_then nofun fun stored => ?_
  cases stored with
  | none => exact .pure _
  | some operation =>
    refine only_then nofun fun leader => .ite ?_ (.pure _)
    exact .ite (only_resumeStarting timeouts modelName operation)
      (only_resumeFrom timeouts modelName operation)

theorem only_resume (process : Nat) : Only Answerable (resume timeouts modelName process) := by
  refine only_then nofun fun _ => .ite ?_ (.pure _)
  refine .handle ((only_resumeOperation timeouts modelName).tryCatch fun _ => ?_) fun r => ?_
  · refine .bind ((only_perform nofun).tryCatch fun _ => .pure _) fun stored => ?_
    cases stored with
    | none => exact .pure _
    | some =>
      exact keeps_ignoringErrors (only_then nofun fun _ => .pure _)
  · refine .handle (only_perform nofun) fun r' => ?_
    cases r' with
    | error e => exact .throw e
    | ok =>
      cases r with
      | error e => exact .throw e
      | ok a => exact .pure a

end

end

end Sardeenz.MoveProgress
