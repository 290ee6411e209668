/-
# `Sardeenz.Routes.LaunchCalls` — what the parts of a launch call

Of the calls of a launch three matter to the other requests on the model: the
instance is created, removed when the request fails, and its runner is dispatched.
All the others are *plain*.

    launch          plain, createInstance; removeInstance in its `catch`
    prepareStart    plain, then `sendStart`
    the rest        plain

A launch is part of a handler (`ofLaunch`), and a function of the services part of
both.  What a contract of the handlers says about the calls of a part is a contract
of its own (`onLaunch`, `onService`), and the part is held to that.
-/
import Sardeenz.Routes.Handlers

namespace Sardeenz

open Interleave Obeys

/-! ## Plain calls -/

def Call.isPlain : Call → Bool
  | .removeInstance _ | .sendStart => false
  | _ => true

/-- The call neither creates or removes the instance nor dispatches its runner. -/
def LaunchCall.isPlain : LaunchCall → Bool
  | .service c => c.isPlain
  | .createInstance _ => false
  | _ => true

section
variable {L : Type} {P : Contract Call Reply Failure L} {I : L → Prop} {params : DeployModelParams}
  (h : ∀ c : Call, c.isPlain = true → KeepsCall P I c)
include h

theorem keeps_refresh_of_plain : Keeps P I refreshModelRoutingState :=
  keeps_refresh (fun _ => h _ rfl) (h _ rfl) (fun _ => h _ rfl) (fun _ _ => h _ rfl) (h _ rfl)

theorem deploying_of_plain : Deploying P I params where
  leader := h _ rfl
  bookkeeping := h _ rfl
  upkeep :=
    { refresh := keeps_refresh_of_plain h
      getInstance := h _ rfl
      transition := fun _ _ _ => h _ rfl
      getHealth := h _ rfl
      aborted := h _ rfl }

end

section
variable {α : Type} {A : Call → Prop} {params : DeployModelParams}
  (hA : ∀ c, c.isPlain = true → A c)
include hA

theorem only_refreshModelRoutingState : Only A refreshModelRoutingState :=
  keeps_refresh_of_plain fun c hc => only_call (hA c hc)

theorem only_deployFailed (ambiguous : Bool) (err : Failure) :
    Only A (params.deployFailed ambiguous err : Service α) :=
  fun _ _ => ((deploying_of_plain fun c hc => only_call (hA c hc)).deployFailed ambiguous err
    trivial).mono fun _ _ _ => trivial

theorem only_activate (timeouts : Timeouts) (info : RunnerInfo) :
    Only A (params.activate timeouts info) :=
  (deploying_of_plain fun c hc => only_call (hA c hc)).activate
    (keeps_setRunnerEndpoint (only_call (hA _ rfl)) (fun _ _ _ _ => only_call (hA _ rfl)) _)
    (only_call (hA _ rfl)) (only_call (hA _ rfl)) timeouts

end

/-! ## The parts of a launch -/

namespace Launching

variable {α : Type} {A : LaunchCall → Prop}

theorem only_ofService : ∀ {p : Service α}, Only (fun c => A (.service c)) p → Only A (ofService p)
  | .done _, _ => fun _ _ => trivial
  | .call _ _, hp => fun _ _ =>
    ⟨hp.awaited rfl, fun r _ => only_ofService (hp.next r) () trivial⟩

theorem only_await {c} (hc : A (.service c)) : Only A (ofService (await c)) :=
  fun _ _ => ⟨hc, fun _ _ => trivial⟩

theorem only_refreshAll (hA : ∀ c, c.isPlain = true → A c) : Only A refreshAll := by
  refine keeps_refreshAll_of fun c hc => only_call (hA c ?_)
  cases c with
  | service c | createInstance protocol => cases hc
  | _ => rfl

end Launching

section
variable {α : Type} {A : LaunchCall → Prop} (hA : ∀ c, c.isPlain = true → A c)
include hA

open Launching

variable (params : DeployModelParams)

theorem only_deployFailedHolding (ambiguous : Bool) (err : Failure) :
    Only A (params.deployFailedHolding ambiguous err : Launching α) := by
  refine .tryCatch (only_ofService (only_deployFailed (fun c hc => hA (.service c) hc) _ _)) fun e => ?_
  have hrest : ∀ c : LaunchCall, c.isPlain = true → Only A (do
      let _ ← request c
      (throw e : Launching α)) := fun c hc =>
    only_then (hA c hc) fun _ => .throw e
  split
  · exact hrest .retainReservations rfl
  · exact hrest .releaseReservations rfl

theorem only_afterDispatch (timeouts : Timeouts) : Only A (do
      let info ← tryCatch (ofService (await .awaitStart)) fun err =>
        params.deployFailedHolding err.leavesStartOpen err
      tryCatch (do
          ofService (params.activate timeouts info)
          request .releaseReservations)
        (params.deployFailedHolding false)) := by
  refine .bind (.tryCatch (only_await (hA _ rfl)) fun err =>
    only_deployFailedHolding hA params _ err) fun info => ?_
  refine .tryCatch ?_ fun err => only_deployFailedHolding hA params _ err
  exact (only_ofService (only_activate (fun c hc => hA (.service c) hc) timeouts info)).bind fun _ =>
    only_perform (hA .releaseReservations rfl)

end

namespace LaunchParams

open Launching

variable {A : LaunchCall → Prop} (params : LaunchParams)

theorem only_assertLaunchAllowed (claims : LaunchClaims) :
    Only A (params.assertLaunchAllowed claims) := by
  unfold assertLaunchAllowed
  split
  · exact .pure _
  · exact .throw _

section
variable (hA : ∀ c, c.isPlain = true → A c)
include hA

theorem only_assertMoveStillOwned : Only A params.assertMoveStillOwned := by
  unfold assertMoveStillOwned
  split
  · exact .pure _
  · exact .bind (only_await (hA _ rfl)) fun _ => .ite (.pure _) (.throw _)

theorem only_recordPlacement (result : PlacementResult) : Only A (params.recordPlacement result) :=
  .bind (only_await (hA _ rfl)) fun _ => only_perform (hA (.createRow result) rfl)

theorem only_placeOrReclaim (requiredMemory : Nat) :
    Only A (params.placeOrReclaim requiredMemory) := by
  refine (only_refreshAll hA).bind fun _ => ?_
  refine only_then (hA _ rfl) fun placed => ?_
  obtain ⟨_, result⟩ := placed
  cases result with
  | some result =>
    refine (params.only_recordPlacement hA result).bind fun _ => ?_
    refine only_then (hA _ rfl) fun claims => .ite ?_ ?_
    · exact .bind (.tryCatch (only_perform (hA .deleteRow rfl)) fun _ =>
        .pure _) fun _ => .throw _
    · refine (params.only_assertLaunchAllowed claims).bind fun _ => ?_
      exact (params.only_assertMoveStillOwned hA).bind fun _ => .pure _
  | none =>
    refine .ite (.throw _) (.ite (.throw _) ?_)
    exact only_then (hA (.selectVictims _) rfl) fun _ =>
      .ite (.throw _) (.pure _)

theorem only_requestPart (hcreate : ∀ protocol, A (.createInstance protocol))
    (hremove : A (.service (.removeInstance params.instanceId))) (requiredMemory : Nat)
    (protocol : Protocol) : Only A (params.requestPart requiredMemory protocol) := by
  have hthrow : ∀ {α : Type} (err : Failure), Only A (do
      request .releaseReservations
      (throw err : Launching α)) := fun err =>
    only_then (hA .releaseReservations rfl) fun _ => .throw err
  refine .bind (.tryCatch (only_perform (hcreate protocol)) hthrow) fun _ => ?_
  refine .tryCatch (params.only_placeOrReclaim hA requiredMemory) fun err => ?_
  exact .bind (.tryCatch (only_await hremove) fun _ => .pure _) fun _ => hthrow err

theorem only_launch (hcreate : ∀ protocol, A (.createInstance protocol))
    (hremove : A (.service (.removeInstance params.instanceId))) : Only A params.launch := by
  refine only_then (hA _ rfl) fun claims => ?_
  refine (params.only_assertLaunchAllowed claims).bind fun _ => .ite ?_ (.throw _)
  split
  · refine only_then (hA _ rfl) fun protocol => ?_
    exact (params.only_requestPart hA hcreate hremove _ protocol).bind fun _ => .pure _
  · exact .throw _

end

end LaunchParams

/-! ## Contracts of the parts -/

section
variable {L α : Type}

def onLaunch (P : Contract RouteCall RouteReply Failure L) (record : ModelRecord)
    (instanceId : String) : Contract LaunchCall LaunchReply Failure L where
  allowed l c := P.allowed l (.launch record instanceId c)
  expected l c r := P.expected l (.launch record instanceId c) r
  next l c r := P.next l (.launch record instanceId c) r

def onService (P : Contract LaunchCall LaunchReply Failure L) :
    Contract Call Reply Failure L where
  allowed l c := P.allowed l (.service c)
  expected l c r := P.expected l (.service c) r
  next l c r := P.next l (.service c) r

variable {Q : L → Except Failure α → Prop}

theorem obeys_ofLaunch {P record instanceId} :
    ∀ {p : Launching α} {l : L}, Obeys (onLaunch P record instanceId) Q p l →
      Obeys P Q (Handling.ofLaunch record instanceId p) l
  | .done _, _, hp => hp
  | .call _ _, _, hp => ⟨hp.1, fun r hr => obeys_ofLaunch (hp.2 r hr)⟩

theorem obeys_onService {P} :
    ∀ {p : Service α} {l : L}, Obeys (onService P) Q p l → Obeys P Q (Launching.ofService p) l
  | .done _, _, hp => hp
  | .call _ _, _, hp => ⟨hp.1, fun r hr => obeys_onService (hp.2 r hr)⟩

def PlainStill (P : Contract LaunchCall LaunchReply Failure L) : Prop :=
  ∀ c : LaunchCall, c.isPlain = true → Still P c

variable {P : Contract LaunchCall LaunchReply Failure L} {l : L}

/-- The runner may be dispatched here.  Unless it is, the contract stays; in any case
it is within `J` then. -/
structure MaySend (P : Contract LaunchCall LaunchReply Failure L) (J : L → Prop) (l : L) :
    Prop where
  allowed : P.allowed l (.service .sendStart)
  unsent : ∀ r, r ≠ .ok true → P.next l (.service .sendStart) r = l
  sent : J (P.next l (.service .sendStart) (.ok true))
  here : J l

variable {J : L → Prop}

section
variable (hplain : PlainStill P) (hsend : MaySend P J l)
include hplain hsend

variable (params : DeployModelParams)

theorem obeys_prepareStart :
    Obeys P (fun l _ => J l) (Launching.ofService params.prepareStart) l := by
  have hstill : ∀ c : Call, c.isPlain = true → KeepsCall (onService P) (· = l) c := fun c hc =>
    keepsCall_of_next_eq (fun l _ => (hplain (.service c) hc l).1)
      fun l r => (hplain (.service c) hc l).2 r
  refine obeys_onService (((deploying_of_plain hstill).prepareStart (J := J) (hstill _ rfl)
    (fun _ hl' => ?_) rfl).mono ?_)
  · subst hl'
    refine ⟨hsend.allowed, fun r _ => ?_⟩
    rcases r with e | _ | _
    · exact hsend.unsent (.error e) (fun h => by cases h)
    · exact hsend.unsent (.ok false) (fun h => by cases h)
    · exact hsend.sent
  · grind [hsend.here]

/-- **A deployment** dispatches its runner at most once, and what follows is plain. -/
theorem obeys_deployModel (timeouts : Timeouts) :
    Obeys P (fun l _ => J l) (params.deployModelHolding timeouts) l := by
  have hafter := fun l (hl : J l) => of_still (Q := fun l _ => J l)
    (only_afterDispatch hplain params timeouts) fun _ => hl
  refine obeys_bind.mpr (obeys_tryCatch.mpr ((obeys_prepareStart hplain hsend params).mono ?_))
  rintro l (err | u) hl
  · refine of_still (only_deployFailedHolding hplain params false err) fun r => ?_
    grind
  · exact hafter l hl

theorem obeys_reclaimCapacity (params : LaunchParams) (timeouts : Timeouts) (requiredMemory : Nat)
    (protocol : Protocol) (workers : List WorkerRecord) (victims : List String) :
    Obeys P (fun l _ => J l)
      (params.reclaimCapacity timeouts requiredMemory protocol workers victims) l := by
  have herr : Failure → J l := fun _ => hsend.here
  refine still_bind (only_perform (hplain _ rfl)) (fun _ => ?_) herr
  refine still_bind (Launching.only_refreshAll hplain) (fun _ => ?_) herr
  refine still_bind (only_perform (hplain _ rfl)) (fun placed => ?_) herr
  obtain ⟨_, reclaimed⟩ := placed
  cases reclaimed with
  | none => exact hsend.here
  | some result =>
    refine still_bind (params.only_recordPlacement hplain result) (fun _ => ?_) herr
    refine still_bind (only_perform (hplain _ rfl)) (fun claims => ?_) herr
    split
    · refine of_still (only_then (hplain _ rfl) fun _ => ?_) fun _ => hsend.here
      refine .bind (Launching.only_await (hplain _ rfl)) fun _ => ?_
      exact Launching.only_ofService
        (only_refreshModelRoutingState fun c hc => hplain (.service c) hc)
    · exact still_bind (params.only_assertLaunchAllowed claims)
        (fun _ => obeys_deployModel hplain hsend _ timeouts) herr

theorem obeys_background (params : LaunchParams) (timeouts : Timeouts) (requiredMemory : Nat)
    (protocol : Protocol) :
    ∀ task, Obeys P (fun l _ => J l) (params.background timeouts requiredMemory protocol task) l
  | .deploy result => obeys_deployModel hplain hsend _ timeouts
  | .reclaim workers victims => by
    refine obeys_tryCatch.mpr ((obeys_reclaimCapacity hplain hsend params timeouts requiredMemory
      protocol workers victims).mono ?_)
    rintro l (err | u) hl
    · refine of_still (Launching.only_ofService ?_) fun _ => hl
      exact keeps_transitionToError
        (only_refreshModelRoutingState fun c hc => hplain (.service c) hc)
        (fun _ _ => only_call (hplain _ rfl)) _ _
    · exact hl

end

end

end Sardeenz
