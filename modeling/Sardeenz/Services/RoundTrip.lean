/-
# `Sardeenz.Services.RoundTrip` — an instance that sleeps and wakes

`sleepModel` and `wakeModel` of one `ACTIVE` instance, one after the other, when
nothing else runs, no call fails from outside and the runner is ready (`Ready`).

    sleepModel   ACTIVE → DRAINING → SLEEPING, the endpoint is removed
    wakeModel    SLEEPING → STARTING → ACTIVE, the endpoint is added again

**Proved here.**  The record ends as it began, and its endpoint is offered
(`sleep_then_wake`).
-/
import Sardeenz.Services.MoveAlone

namespace Sardeenz.RoundTrip

open Interleave Option Alone MoveProgress

/-- Nothing fails, and the runner is ready whenever it is asked. -/
def Ready (now : Nat) (i : Input) : Prop := Ideal now i ∧ i.health.state = .ready

section
variable {σ : Setting} {now : Nat} {w : World} {id modelName : String} {r : InstanceState}
  {timeouts : Timeouts} {Q : World → Except Failure Unit → Prop}

theorem ideal (i : Input) (h : Ready now i) : Ideal now i := h.1

theorem exists_ready (w : World) (c : Call) (h : Answerable c) :
    ∃ i, Ready now i ∧ (w.perform σ i c).isSome = true := by
  obtain ⟨i, ⟨hi, -⟩, hsome⟩ := exists_ideal .absent w c h
  refine ⟨{ i with health := ⟨.ready, some 0, none⟩ },
    ⟨⟨hi.answered, hi.leader, hi.worker, hi.inTime, nofun, rfl, hi.clock⟩, rfl⟩, ?_⟩
  cases c with
  | getHealth => simp [World.perform, Input.reply, hi.answered]
  | _ => exact hsome

/-! ## A refresh that finds the instance active -/

theorem alone_readInstances_eq : ∀ ids : List String,
    Leads σ (Ready now) (fun w' res => w' = w ∧ res = .ok (ids.filterMap w.instances.lookup))
      (readInstances ids) w
  | [] => ⟨rfl, rfl⟩
  | id :: ids => by
    refine alone_getInstance ideal ?_
    refine andThen ((alone_readInstances_eq ids).mono ?_)
    rintro w' res ⟨rfl, rfl⟩
    refine ⟨_, rfl, rfl, congrArg _ ?_⟩
    cases h : w'.instances.lookup id <;> simp [h]

theorem alone_refresh_active (hr : w.instances.lookup id = some r) (hactive : r.state = .active)
    (h : ∀ protocol time, Q { w with
      routing := setModelState w.routing σ.modelName .active (some protocol) time } (.ok ())) :
    Leads σ (Ready now) Q refreshModelRoutingState w := by
  refine andThen (andThen (alone_remote ideal (fun _ => rfl) fun _ _ => ⟨_, rfl, andThen ?_⟩))
  intro i w' res hi hw
  obtain ⟨hscan, hw⟩ := ite_none_right_eq_some.mp hw
  rw [reply_answered hi.1.answered] at hw
  cases hw
  refine ⟨_, rfl, (alone_readInstances_eq _).mono ?_⟩
  rintro w _ ⟨rfl, rfl⟩
  have hmem : id ∈ w.instances := AList.lookup_isSome.mp (by rw [hr]; rfl)
  have hhas : HasState (i.keys.filterMap w.instances.lookup) .active :=
    ⟨r, List.mem_filterMap.mpr ⟨id, hscan.1 id (AList.mem_keys.mp hmem) hmem, hr⟩, hactive⟩
  refine ⟨_, rfl, ?_⟩
  simp only [refreshDecision, deriveAggregateState_active hhas, toRoutingState, map_some]
  exact alone_remote ideal (fun _ => rfl) fun _ _ => h _ _

/-! ## The two operations -/

theorem alone_waitForReady (hrounds : 0 < timeouts.rounds) :
    Leads σ (Ready now) (fun w' res => w' = w ∧ res = .ok ())
      (waitForReady timeouts modelName id) w := by
  obtain ⟨rounds, hsucc⟩ := Nat.exists_eq_succ_of_ne_zero hrounds.ne'
  rw [waitForReady, hsucc]
  refine alone_aborted ideal ?_
  refine andThen (tryCatch_of_ok ?_)
  refine andThen (alone_remote ideal (fun _ => rfl) fun i hi => ⟨_, rfl, ?_⟩)
  refine alone_getInstance ideal ?_
  refine andThen (alone_when (fun h => absurd h.2 hi.1.healthy) fun _ => ⟨_, rfl, ?_⟩)
  refine ⟨_, rfl, _, rfl, ?_⟩
  rw [if_pos (.inl hi.2)]
  exact ⟨rfl, rfl⟩

theorem alone_sleepModel (hrounds : 0 < timeouts.rounds)
    (hr : w.instances.lookup id = some r) (hactive : r.state = .active)
    (h : ∀ time instances routing, instances.lookup id = some (transitioned r .sleeping {} time) →
      Q { w with instances, routing } (.ok ())) :
    Leads σ (Ready now) Q (sleepModel timeouts modelName id) w := by
  refine alone_getInstance ideal ?_
  rw [hr]
  refine tryCatch_of_ok ?_
  refine andThen (alone_when (fun _ => ?_) (absurd hactive))
  refine andThen (alone_transition ideal hr (by rw [hactive]; rfl) fun _ => ⟨_, rfl, ?_⟩)
  refine ⟨_, rfl, andThen (alone_refresh ideal fun _ => ⟨_, rfl, ?_⟩)⟩
  refine andThen ((alone_waitForDrain ideal hrounds).mono ?_)
  rintro _ _ ⟨rfl, rfl⟩
  refine ⟨_, rfl, andThen (alone_remote ideal (fun _ => rfl) fun _ _ => ⟨_, rfl, ?_⟩)⟩
  refine andThen (alone_removeRouted ideal fun _ => ⟨_, rfl, ?_⟩)
  refine andThen (alone_transition ideal (AList.lookup_insert _) rfl fun time => ⟨_, rfl, ?_⟩)
  exact alone_refresh ideal fun _ => ⟨_, rfl, h time _ _ (AList.lookup_insert _)⟩

theorem alone_wakeModel (hrounds : 0 < timeouts.rounds)
    (hr : w.instances.lookup id = some r) (hsleeping : r.state = .sleeping) {address}
    (haddress : r.endpointAddress = some address)
    (h : ∀ time w', w'.instances.lookup id = some (transitioned r .active {} time) →
      r.wakeEndpoint address ∈ endpointsOf w'.routing σ.modelName →
      (w'.routing.lookup σ.modelName).map (·.state) = some .active → Q w' (.ok ())) :
    Leads σ (Ready now) Q (wakeModel timeouts modelName id) w := by
  refine alone_getInstance ideal ?_
  rw [hr]
  refine tryCatch_of_ok ?_
  refine andThen (alone_when (fun _ => ?_) (absurd hsleeping))
  refine andThen (alone_transition ideal hr (by rw [hsleeping]; rfl) fun _ => ⟨_, rfl, ?_⟩)
  refine ⟨_, rfl, andThen (alone_refresh ideal fun _ => ⟨_, rfl, ?_⟩)⟩
  refine andThen (alone_remote ideal (fun _ => rfl) fun _ _ => ⟨_, rfl, ?_⟩)
  refine andThen ((alone_waitForReady hrounds).mono ?_)
  rintro _ _ ⟨rfl, rfl⟩
  refine ⟨_, rfl, ?_⟩
  rw [addRouted, haddress]
  refine andThen (alone_remote ideal (fun _ => rfl) fun _ _ => ⟨_, rfl, ?_⟩)
  refine andThen (alone_transition ideal (AList.lookup_insert _) rfl fun time => ⟨_, rfl, ?_⟩)
  refine alone_refresh_active (AList.lookup_insert _) rfl fun _ _ =>
    ⟨_, rfl, h time _ (AList.lookup_insert _) ?_ ?_⟩
  · rw [endpointsOf_setModelState, endpointsOf_addEndpoint_self]
    exact List.mem_append_right _ (List.mem_singleton_self _)
  · rw [setModelState, AList.lookup_insert]
    rfl

end

/-! ## They can go on -/

section
variable (timeouts : Timeouts) (modelName id : String)

theorem only_sleepModel : Only Answerable (sleepModel timeouts modelName id) := by
  have hup := (only_reaping modelName id).upkeep
  refine only_then nofun fun record => ?_
  cases record with
  | none => exact .throw _
  | some r =>
    have hremove : Only Answerable (removeRouted r) := by
      unfold removeRouted
      split
      · exact only_perform nofun
      · exact .pure _
    refine .tryCatch ?_ fun _ => (hup.transitionToError _ _).bind fun _ => .throw _
    refine (keeps_when (only_then nofun fun _ => .pure _)).bind fun _ => hup.refresh.bind fun _ => ?_
    refine (hup.waitForDrain _ _ _ _).bind fun _ => only_then nofun fun _ => hremove.bind fun _ => ?_
    exact only_then nofun fun _ => hup.refresh

theorem only_wakeModel : Only Answerable (wakeModel timeouts modelName id) :=
  WakeCalls.wakeModel
    ⟨only_refresh, only_call nofun, only_call nofun, only_call nofun, only_call nofun,
      fun _ _ => only_call nofun, only_call nofun, fun _ _ => only_call nofun⟩
    (fun _ _ _ _ _ => only_perform nofun () trivial) timeouts modelName

end

/-- The record is `r`, apart from the time of the last change and the error message; its endpoint
is offered, and the model is routed as active. -/
structure Restored (σ : Setting) (id : String) (r : InstanceState) (address : String × Nat)
    (w : World) : Prop where
  record : ∃ time, w.instances.lookup id =
    some { r with stateChangedAt := time, errorMessage := none }
  offered : r.wakeEndpoint address ∈ endpointsOf w.routing σ.modelName
  routed : (w.routing.lookup σ.modelName).map (·.state) = some .active

/-- **Sleep, then wake.**  Alone and with a runner that answers, the two operations of an `ACTIVE`
instance complete, and restore it. -/
theorem sleep_then_wake {σ : Setting} {timeouts : Timeouts} {w id r address} (modelName : String)
    (now : Nat) (hrounds : 0 < timeouts.rounds) (hr : w.instances.lookup id = some r)
    (hactive : r.state = .active) (haddress : r.endpointAddress = some address) :
    Completes (World.perform σ) (Ready now)
      (fun w' res => res = .ok () ∧ Restored σ id r address w')
      (do sleepModel timeouts modelName id; wakeModel timeouts modelName id) w := by
  refine completes exists_ready
    ((only_sleepModel _ _ _).bind fun _ => only_wakeModel _ _ _) (andThen ?_)
  refine alone_sleepModel hrounds hr hactive fun _ _ _ hsleeping => ⟨_, rfl, ?_⟩
  refine alone_wakeModel hrounds hsleeping rfl haddress fun time w' hrecord hmem hstate =>
    ⟨rfl, ⟨time, hrecord.trans ?_⟩, hmem, hstate⟩
  cases r
  cases hactive
  rfl

def awake : InstanceState :=
  { newInstance "m" "i" (some "w") none 0 with
    state := .active, runnerHost := some "10.0.0.7", runnerPort := some 8000 }

theorem awake_sleeps_and_wakes : Completes (World.perform exampleSetting) (Ready 0)
    (fun w' res => res = .ok () ∧ Restored exampleSetting "i" awake ("10.0.0.7", 8000) w')
    (do sleepModel exampleTimeouts "m" "i"; wakeModel exampleTimeouts "m" "i")
    { startingWorld with instances := AList.singleton "i" awake } :=
  sleep_then_wake "m" 0 (by decide) rfl rfl rfl

end Sardeenz.RoundTrip
