/-
# `Sardeenz.Reconciliation.Cleanup` — a clean-up, failing or not

What the clean-ups of an instance and the tick call, and what the one that `handleDeadWorkers`
and `reconcileMissingRunners` share leaves of the instance.

    fails at            record      endpoint    row     holds
    transition          as before   there       there   there
    endpoint, refresh   ERROR       there?      there   there
    record              ERROR       gone        there   there
    row                 gone        gone        there   there

**Proved here.**  When nothing fails, nothing is left (`alone_reapInstance`).
Wherever it fails, the record is as before, or in `ERROR`, or gone with the
endpoint (`alone_reapInstance_aftermath`).
-/
import Sardeenz.Reconciliation.Frame

namespace Sardeenz

open Interleave Alone

/-! ## What the clean-ups call -/

def Call.OfRouting : Call → Prop
  | .getInstance _ | .scan | .scanned _ | .setModelState _ _ | .removeModel
  | .removeEndpoint _ _ => True
  | _ => False

def Call.OfCleanup (instanceId : String) : Call → Prop
  | .transition id _ _ | .removeInstance id => id = instanceId
  | c => c.OfRouting

def ReconcileCall.OfCleanup (r : InstanceState) : ReconcileCall → Prop
  | .service modelName c => modelName = r.modelName ∧ c.OfCleanup r.instanceId
  | .deleteRow _ | .releaseInstanceReservations _ | .getWorkers | .findModelByName _
  | .getRunner _ _ | .getRunnerByInstance _ _ | .stopRunner _ _ => True
  | _ => False

def ReconcileCall.OfTick : ReconcileCall → Prop
  | .service _ c => ∃ instanceId, c.OfCleanup instanceId
  | _ => True

theorem ReconcileCall.OfCleanup.ofTick {c : ReconcileCall} {r}
    (h : c.OfCleanup r) : c.OfTick := by
  cases c with
  | service _ c => exact ⟨_, h.2⟩
  | _ => exact trivial

theorem Call.OfRouting.ofCleanup {c} (h : c.OfRouting) (r : InstanceState) :
    (ReconcileCall.service r.modelName c).OfCleanup r := by
  refine ⟨rfl, ?_⟩
  cases c with
  | transition | removeInstance => exact h.elim
  | _ => exact h

theorem Call.OfRouting.spares {c} (h : c.OfRouting) (modelName : String)
    (r : InstanceState) : (ReconcileCall.service modelName c).Spares r := by
  cases c with
  | transition | removeInstance => exact h.elim
  | _ => exact trivial

namespace Reconciling

open ReconcileWorld

section
variable {A : ReconcileCall → Prop} {r : InstanceState} {modelName : String}

theorem only_ofService {α} : ∀ {p : Service α}, Only (fun c => A (.service modelName c)) p →
      Only A (ofService modelName p)
  | .done _, _ => fun _ _ => trivial
  | .call _ _, hp => fun _ _ => ⟨(hp () trivial).1, fun result _ =>
    only_ofService (fun _ _ => (hp () trivial).2 result trivial) () trivial⟩

theorem only_refreshModelRoutingState {A} (hA : ∀ c : Call, c.OfRouting → A c) :
    Only A refreshModelRoutingState :=
  keeps_refresh (fun id => only_call (hA (.getInstance id) trivial)) (only_call (hA .scan trivial))
    (fun startIds => only_call (hA (.scanned startIds) trivial))
    (fun state protocol => only_call (hA (.setModelState state protocol) trivial))
    (only_call (hA .removeModel trivial))

theorem only_removeRouted {A} (hA : ∀ c : Call, c.OfRouting → A c) :
    Only A (removeRouted r) := by
  unfold removeRouted
  split
  · exact only_perform (hA (.removeEndpoint _ _) trivial)
  · exact .pure _

theorem only_refresh : Only (ReconcileCall.OfCleanup r)
    (ofService r.modelName refreshModelRoutingState) :=
  only_ofService (only_refreshModelRoutingState fun _ hc => hc.ofCleanup r)

theorem only_unroute : Only (ReconcileCall.OfCleanup r) (ofService r.modelName (removeRouted r)) :=
  only_ofService (only_removeRouted fun _ hc => hc.ofCleanup r)

theorem only_awaitTransition (target : ModelLifecycleState) (updates : InstanceUpdates) :
    Only (fun c => ReconcileCall.OfCleanup r (.service r.modelName c))
      (await (.transition r.instanceId target updates)) :=
  fun _ _ => ⟨⟨rfl, rfl⟩, fun _ _ => trivial⟩

theorem only_removeInstance : Only (ReconcileCall.OfCleanup r)
    (ofService r.modelName (await (.removeInstance r.instanceId))) :=
  only_ofService fun _ _ => ⟨⟨rfl, rfl⟩, fun _ _ => trivial⟩

theorem only_reapInstance (errorMessage : String) :
    Only (ReconcileCall.OfCleanup r) (reapInstance r errorMessage) := by
  refine (only_ofService (only_awaitTransition _ _)).bind fun _ => ?_
  refine only_unroute.bind fun _ => only_refresh.bind fun _ => ?_
  refine only_removeInstance.bind fun _ => ?_
  exact only_then trivial fun _ => only_perform trivial

theorem only_reapOnDeadWorker (workerId : String) :
    Only (ReconcileCall.OfCleanup r) (reapOnDeadWorker workerId r) :=
  (only_reapInstance _).bind fun _ => .pure _

variable (config : TickConfig)

theorem only_reconcileMissingRunner (now : Nat) :
    Only (ReconcileCall.OfCleanup r) (reconcileMissingRunner config now r) := by
  refine .ite (.pure _) ?_
  split
  · refine .bind (.tryCatch ?_ fun _ => .pure _) fun _ => ?_
    · exact only_then trivial fun _ => .pure _
    · exact .ite ((only_reapInstance _).bind fun _ => .pure _) (.pure _)
  · exact .pure _

theorem only_settleAmbiguousStart : Only (ReconcileCall.OfCleanup r) (settleAmbiguousStart r) := by
  refine only_unroute.bind fun _ => only_removeInstance.bind fun _ => ?_
  refine only_then trivial fun _ => only_then trivial fun _ => ?_
  exact only_refresh.bind fun _ => .pure _

theorem only_recoverAmbiguousStart (now : Nat) :
    Only (ReconcileCall.OfCleanup r) (recoverAmbiguousStart config now r) := by
  unfold recoverAmbiguousStart
  split
  · exact .pure _
  · refine only_then trivial fun _ => .ite ?_ (.pure _)
    refine only_then trivial fun lookup => ?_
    cases lookup with
    | starting => exact .pure _
    | absent => exact .ite (.pure _) only_settleAmbiguousStart
    | ready =>
      refine .bind (.tryCatch (only_perform trivial) fun e => ?_) fun _ =>
        only_settleAmbiguousStart
      split
      · exact .pure _
      · exact .throw _

theorem only_reapOrphan : Only (ReconcileCall.OfCleanup r) (reapOrphan r) := by
  refine only_then trivial fun _ => .ite (.pure _) ?_
  refine (only_stopOrphanRunner trivial fun _ _ _ _ => trivial).bind fun _ =>
    .ite ?_ (.pure _)
  refine only_then trivial fun _ => ?_
  exact only_unroute.bind fun _ => only_removeInstance.bind fun _ =>
    .pure _

theorem only_recoverInstance (config : ReconciliationConfig) (now : Nat) :
    Only (ReconcileCall.OfCleanup r) (ofService r.modelName (recoverInstance config now r)) := by
  refine only_ofService ?_
  unfold recoverInstance
  split
  · exact .pure _
  · refine keeps_ignoringErrors (.bind (only_awaitTransition _ _) fun _ => ?_)
    refine (only_removeRouted fun _ hc => hc.ofCleanup r).bind fun _ => ?_
    exact only_refreshModelRoutingState fun _ hc => hc.ofCleanup r

end

/-! ## What a tick calls -/

theorem only_each_cleanup {body : InstanceState → Reconciling Bool}
    (hbody : ∀ r, Only (ReconcileCall.OfCleanup r) (body r)) (all : List InstanceState) :
    Only ReconcileCall.OfTick (Program.each (fun r => (body r).attempt) all) :=
  .each fun r _ => ((hbody r).mono fun _ hc => hc.ofTick).attempt

theorem only_reconcileInstanceTable {A} (hrows : A .findRows)
    (hall : A .getAllInstances) (hdelete : ∀ instanceId, A (.deleteRow instanceId)) :
    Only A reconcileInstanceTable := by
  refine only_then hrows fun _ => only_then hall fun _ => ?_
  exact .each fun id _ => (only_perform (hdelete id)).attempt

theorem only_handleDeadWorkers : Only ReconcileCall.OfTick handleDeadWorkers := by
  refine only_then trivial fun _ => .ite (.pure _) ?_
  refine only_then trivial fun _ => .each fun workerId _ => ?_
  refine (only_each_cleanup (fun r => only_reapOnDeadWorker workerId) _).bind fun _ => ?_
  exact only_then trivial fun _ => only_perform trivial

theorem only_recoverStuckInstances (config : TickConfig) :
    Only ReconcileCall.OfTick (recoverStuckInstances config) := by
  refine only_then trivial fun _ => only_then trivial fun _ => ?_
  exact .each fun r _ => (only_recoverInstance _ _).mono fun _ hc => hc.ofTick

theorem only_recoverAmbiguousStarts (config : TickConfig) :
    Only ReconcileCall.OfTick (recoverAmbiguousStarts config) := by
  refine only_then trivial fun now => only_then trivial fun _ => ?_
  exact only_each_cleanup (fun r => only_recoverAmbiguousStart config now) _

theorem only_reconcileMissingRunners (config : TickConfig) :
    Only ReconcileCall.OfTick (reconcileMissingRunners config) := by
  refine only_then trivial fun _ => only_then trivial fun _ => ?_
  refine only_then trivial fun now => ?_
  exact only_each_cleanup (fun r => only_reconcileMissingRunner config now) _

theorem only_reapOrphanedInstances : Only ReconcileCall.OfTick reapOrphanedInstances := by
  refine only_then trivial fun _ => only_then trivial fun _ => ?_
  exact only_each_cleanup (fun r => only_reapOrphan) _

theorem only_tick (config : TickConfig) : Only ReconcileCall.OfTick (tick config) := by
  refine (only_perform trivial).attempt.bind fun _ => ?_
  refine (only_perform trivial).attempt.bind fun _ => ?_
  refine only_handleDeadWorkers.attempt.bind fun _ => ?_
  refine (only_perform trivial).attempt.bind fun _ => ?_
  refine (only_perform trivial).attempt.bind fun _ => ?_
  refine (only_recoverStuckInstances config).attempt.bind fun _ => ?_
  refine (only_recoverAmbiguousStarts config).attempt.bind fun _ => ?_
  refine (only_reconcileMissingRunners config).attempt.bind fun _ => ?_
  refine (only_reconcileInstanceTable trivial trivial fun _ => trivial).attempt.bind fun _ => ?_
  exact only_reapOrphanedInstances.attempt

/-! ## A clean-up in which nothing fails -/

section
variable {ok : ReconcileInput → Prop} {w : ReconcileWorld} {r : InstanceState}
  {modelName : String}

theorem alone_keeps {α} {J : ReconcileWorld → Prop}
    (hJ : ∀ {w c w'}, Change w c w' → J w → J w') {p : Reconciling α} (hw : J w) :
    Alone perform ok (fun w _ => J w) p w := by
  refine alone_of_keeps (fun i w c w' _ _ hw hs => ?_) hw
  exact hJ (change_of_perform hs) hw

variable (hok : ∀ i, ok i → i.outcome = .answered)
include hok

theorem alone_answered {C} {R : C → Type} {sem c Q} {after : ReconcileInput → ReconcileWorld}
    {result : ReconcileInput → Except Failure (R c)}
    (hc : ∀ i, sem i w c = reply i w (after i) (result i)) (h : ∀ i, ok i → Q (after i) (result i)) :
    Alone sem ok Q (Program.perform c) w := by
  intro i _ _ hi hs
  rw [hc, reply, hok i hi] at hs
  cases hs
  exact h i hi

theorem alone_readInstances : ∀ ids : List String,
    Alone (service modelName) ok (fun _ result => ∃ records, result = .ok records)
      (readInstances ids) w
  | [] => ⟨[], rfl⟩
  | _ :: ids => by
    refine andThen (alone_answered hok (fun _ => rfl) fun _ _ => ⟨_, rfl, ?_⟩)
    refine andThen ((alone_readInstances ids).mono ?_)
    rintro _ _ ⟨records, rfl⟩
    exact ⟨records, rfl, _, rfl⟩

theorem alone_refresh : Alone perform ok (fun _ result => result = .ok ())
      (ofService modelName refreshModelRoutingState) w := by
  refine alone_ofService.mpr (andThen (andThen ?_))
  refine alone_answered hok (fun _ => rfl) fun _ _ => ⟨_, rfl, andThen ?_⟩
  intro i w' result hi hs
  obtain ⟨-, hs⟩ := Option.ite_none_right_eq_some.mp hs
  rw [reply, hok i hi] at hs
  cases hs
  refine ⟨_, rfl, (alone_readInstances hok _).mono ?_⟩
  rintro w' _ ⟨records, rfl⟩
  refine ⟨records, rfl, ?_⟩
  split
  all_goals exact alone_answered hok (fun _ => rfl) fun _ _ => rfl

def EndpointGone (r : InstanceState) (w : ReconcileWorld) : Prop :=
  r.modelName ∉ w.moving ∧ ∀ address, r.endpointAddress = some address →
    ¬ RoutedAt w.routing r.modelName address

omit hok in
theorem EndpointGone.change {w' : ReconcileWorld} {c : ReconcileCall} (hw : w.Change c w')
    (h : EndpointGone r w) : EndpointGone r w' := by
  refine ⟨?_, fun address haddress => (hw.unrouted ⟨h.1, h.2 address haddress⟩).2⟩
  rw [hw.moving]
  exact h.1

theorem alone_removeRouted (hidle : r.modelName ∉ w.moving) :
    Alone perform ok (fun w' result => result = .ok () ∧ EndpointGone r w')
      (ofService r.modelName (removeRouted r)) w := by
  unfold removeRouted
  split
  · rename_i address haddress
    refine alone_answered hok (fun _ => rfl) fun i _ => ⟨rfl, hidle, fun _ _ => ?_⟩
    grind [not_routedAt_removeEndpoint]
  · rename_i hnone
    exact ⟨rfl, hidle, fun address haddress => nomatch hnone.symm.trans haddress⟩

/-- **The shared clean-up, when nothing fails, leaves nothing.** -/
theorem alone_reapInstance (h : Kept r w) (hvalid : isValidTransition r.state .error = true)
    (errorMessage : String) :
    Alone perform ok (fun w' result => result = .ok () ∧ Done r w')
      (reapInstance r errorMessage) w := by
  have htransition : Alone perform ok (fun w' result => r.modelName ∉ w'.moving ∧
      ∃ record, result = .ok record) (ofService r.modelName (await (.transition r.instanceId .error
        { errorMessage := some (some errorMessage) }))) w := by
    refine alone_ofService.mpr fun i w' result hi hs => ⟨?_, ?_⟩
    · rw [(change_of_service hs).moving]
      exact h.idle
    · have hwritten : transition ((w.instancesOf r.modelName).lookup r.instanceId) r.modelName
          r.instanceId .error { errorMessage := some (some errorMessage) } i.now = .ok _ :=
        transition_eq_ok.mpr ⟨r, h.stored, hvalid, rfl⟩
      simp only [service, hwritten, reply, hok i hi] at hs
      cases hs
      exact ⟨_, rfl⟩
  refine andThen (htransition.mono ?_)
  rintro _ _ ⟨hidle, record, rfl⟩
  refine ⟨record, rfl, andThen ((alone_removeRouted hok hidle).mono ?_)⟩
  rintro _ _ ⟨rfl, hendpoint⟩
  refine ⟨(), rfl, andThen (((alone_refresh hok).and
    (alone_keeps (EndpointGone.change) hendpoint)).mono ?_)⟩
  rintro w₃ _ ⟨rfl, hendpoint⟩
  refine ⟨(), rfl, andThen (alone_ofService.mpr (alone_answered hok (fun _ => rfl)
    fun i _ => ⟨(), rfl, ?_⟩))⟩
  have hremoved : (w₃.removeInstance r.modelName r.instanceId).NoRecord r.modelName r.instanceId := by
    rw [NoRecord, lookup_removeInstance, if_pos ⟨rfl, rfl⟩]
  refine andThen (alone_answered hok (fun _ => rfl) fun i _ => ⟨(), rfl, ?_⟩)
  intro i w' result _ hs
  cases hs
  refine ⟨rfl, hendpoint.1, hremoved, hendpoint.2, fun hrow => ?_,
    MemoryBudget.not_hasHold_releaseInstanceReservations _ _⟩
  exact absurd rfl (of_decide_eq_true (List.mem_filter.mp hrow).2)

end

/-! ## A clean-up that may fail -/

/-- What the shared clean-up leaves of the record. -/
inductive Aftermath (r : InstanceState) (errorMessage : String) (w : ReconcileWorld) : Prop
  | untouched (kept : Kept r w)
  | inError (now : Nat)
      (kept : Kept (transitioned r .error { errorMessage := some (some errorMessage) } now) w)
  | removed (record : w.NoRecord r.modelName r.instanceId) (endpoint : EndpointGone r w)

section
variable {ok : ReconcileInput → Prop} {w : ReconcileWorld} {r record : InstanceState}

theorem alone_spared {α} {p : Reconciling α} (hp : Only (ReconcileCall.Spares r) p)
    (h : Kept r w) : Alone perform ok (fun w' _ => Kept r w') p w := by
  refine alone_of_only (fun i w c w' _ hc _ hw hs => ?_) hp h
  exact (change_of_perform hs).kept hc hw

theorem returns_unroute (hidle : r.modelName ∉ w.moving) :
    Returns perform ok (fun w' _ => EndpointGone r w') (ofService r.modelName (removeRouted r))
      w := by
  unfold removeRouted
  split
  · rename_i address haddress
    refine Returns.call fun i w' _ _ hs => ?_
    obtain ⟨rfl, -⟩ := reply_eq_ok hs
    refine ⟨hidle, fun _ _ => ?_⟩
    grind [not_routedAt_removeEndpoint]
  · rename_i hnone
    exact Returns.pure ⟨hidle, fun address haddress => nomatch hnone.symm.trans haddress⟩

theorem alone_transition_error (h : Kept r w) (updates : InstanceUpdates) :
    Alone perform ok (fun w' result => (∃ now, Kept (transitioned r .error updates now) w') ∨
        Kept r w' ∧ ∀ a, result ≠ .ok a)
      (ofService r.modelName (await (.transition r.instanceId .error updates))) w := by
  refine alone_ofService.mpr fun i w' result _ hs => ?_
  simp only [service] at hs
  split at hs
  · rename_i record hrecord
    obtain ⟨_, hold, -, rfl⟩ := transition_eq_ok.mp hrecord
    obtain rfl := Option.some.inj (h.stored.symm.trans hold)
    obtain ⟨hname, hid⟩ := transitioned_names r .error updates i.now
    have hkept : Kept (transitioned r .error updates i.now)
        (w.setInstance r.modelName r.instanceId (transitioned r .error updates i.now)) := by
      refine ⟨h.named.setInstance ⟨hname, hid⟩, ?_, ?_⟩
      · rw [hname]
        exact h.idle
      · rw [lookup_setInstance, if_pos ⟨rfl, rfl⟩]
    cases result with
    | ok a =>
      obtain ⟨rfl, -⟩ := reply_eq_ok hs
      exact .inl ⟨i.now, hkept⟩
    | error e =>
      rcases reply_world hs with rfl | rfl
      · exact .inl ⟨i.now, hkept⟩
      · exact .inr ⟨h, fun a ha => by cases ha⟩
  · cases result with
    | ok a => cases (reply_eq_ok hs).2
    | error e =>
      rcases reply_world hs with rfl | rfl
      all_goals exact .inr ⟨h, fun a ha => by cases ha⟩

theorem alone_removeInstance (h : Kept record w) :
    Alone perform ok (fun w' result => w'.NoRecord r.modelName r.instanceId ∨
        Kept record w' ∧ ∀ a, result ≠ .ok a)
      (ofService r.modelName (await (.removeInstance r.instanceId))) w := by
  have hremoved : (w.removeInstance r.modelName r.instanceId).NoRecord r.modelName r.instanceId := by
    rw [NoRecord, lookup_removeInstance, if_pos ⟨rfl, rfl⟩]
  refine alone_ofService.mpr fun i w' result _ hs => ?_
  cases result with
  | ok a =>
    obtain ⟨rfl, -⟩ := reply_eq_ok hs
    exact .inl hremoved
  | error =>
    rcases reply_world hs with rfl | rfl
    · exact .inl hremoved
    · exact .inr ⟨h, fun a ha => by cases ha⟩

end

end Reconciling

end Sardeenz
