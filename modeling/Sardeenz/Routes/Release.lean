/-
# `Sardeenz.Routes.Release` — a claim is deleted when its request is over

A handler adds its claim to one of the in-flight sets, and a `catch`, a `finally`
or the end of its background task deletes it.  Between the claim and the `try`, or
the task, that deletes it nothing may throw.  One handler awaits there: `wake`
reads the record of the model, and room for each instance is made with three more
reads, all of them in no `try`.

    idle      the request holds no claim
    held      it has added one
    leaked    a read of `wake` has failed under the claim, which stays

The sets have no owners.  `ClaimRun.mine` follows the one claim that the request
has added: it is in the set, and nobody has deleted it since.  Between two calls
the other requests may do anything to the stores and the sets.

**Proved here.**  When the claim of a request that is over is in no set
(`claim_released_iff`).
-/
import Sardeenz.Routes.Stores

namespace Sardeenz

open Interleave Handling RouteWorld Obeys Handler
open Routes (Claims Operation)

/-! ## The sets -/

/-- One of the sets; the key is the model, or the model and the instance. -/
inductive ClaimSet where
  | stopping
  | instanceOp (instanceId : String)
  | deleting
  | moving
  | launching
  | modelLifecycle
  | configurationUpdate
deriving DecidableEq

def ClaimSet.Holds (claims : Claims) (modelName : String) : ClaimSet → Prop
  | stopping => modelName ∈ claims.stoppingInFlight
  | instanceOp instanceId => (modelName, instanceId) ∈ claims.instanceOpInFlight
  | deleting => modelName ∈ claims.deletingInFlight
  | moving => modelName ∈ claims.movingInFlight
  | launching => modelName ∈ claims.launchingInFlight
  | modelLifecycle => modelName ∈ claims.modelLifecycleInFlight
  | configurationUpdate => modelName ∈ claims.configurationUpdateInFlight

instance ClaimSet.decidableHolds (claims : Claims) (modelName : String) (set : ClaimSet) :
    Decidable (set.Holds claims modelName) := by
  unfold ClaimSet.Holds
  split <;> infer_instance

def Routes.Operation.set : Operation → ClaimSet
  | .stop _ => .stopping
  | .sleep | .wake => .modelLifecycle
  | .addInstance | .start => .launching
  | .instanceOp instanceId => .instanceOp instanceId
  | .update => .configurationUpdate
  | .delete _ _ => .deleting

theorem Routes.Operation.not_holds_release (o : Operation) (claims : Claims) (modelName : String) :
    ¬ o.set.Holds (o.release claims modelName) modelName := by
  cases o with
  | stop force | sleep | wake | addInstance | start | instanceOp instanceId | update
  | delete force => exact Finset.notMem_erase _ _

/-! ## A request among others -/

/-- The reads that `wake` awaits under its claim, in no `try`. -/
def RouteCall.unguarded : RouteCall → Bool
  | .findByName _ | .getAllInstances | .getLastInferenceTimestamps _ | .findAll => true
  | _ => false

def RouteCall.adds (modelName : String) (set : ClaimSet) :
    (c : RouteCall) → Except Failure (RouteReply c) → Bool
  | .claim n o, r =>
    match r with
    | .ok none => decide (n = modelName ∧ o.set = set)
    | _ => false
  | .claimMove n, _ => decide (n = modelName ∧ set = .moving)
  | _, _ => false

/-- What comes from outside when a call is performed. -/
structure ClaimInput extends RouteInput where
  meanwhile : Option RouteWorld := none

/-- The stores, and what has become of the claim of the request. -/
structure ClaimRun where
  world : RouteWorld
  mine : Bool := false
  broken : Bool := false
  taken : Bool := false

namespace ClaimRun

variable (modelName : String) (set : ClaimSet)

def elapse (s : ClaimRun) : Option RouteWorld → ClaimRun
  | none => s
  | some w =>
    let stays := decide (set.Holds w.claims modelName)
    { s with world := w, mine := s.mine && stays, taken := s.taken || (s.mine && !stays) }

def note (s : ClaimRun) (c : RouteCall) (w : RouteWorld) (r : Except Failure (RouteReply c)) :
    ClaimRun :=
  { s with
    world := w
    mine := (s.mine || c.adds modelName set r) && decide (set.Holds w.claims modelName)
    taken := s.taken && !c.adds modelName set r
    broken := s.broken || (s.mine && c.unguarded && !r.isOk) }

def perform (i : ClaimInput) (s : ClaimRun) (c : RouteCall) :
    Option (ClaimRun × Except Failure (RouteReply c)) :=
  let s := s.elapse modelName set i.meanwhile
  (s.world.perform modelName i.toRouteInput c).map fun x =>
    (s.note modelName set c x.1 x.2, x.2)

def anyInput (_ : ClaimInput) : Prop := True

end ClaimRun

/-! ## Stages of a request -/

/-- How far a request has come. -/
inductive Stage where
  | idle
  | held (set : ClaimSet)
  | leaked
deriving DecidableEq

namespace Stage

def lose : Stage → Stage
  | held _ => leaked
  | stage => stage

def after (stage : Stage) : (c : RouteCall) → Except Failure (RouteReply c) → Stage
  | .claim _ o, r =>
    match r with
    | .ok none => held o.set
    | _ => stage
  | .claimMove _, _ => held .moving
  | .release _ _, _ | .releaseMove _, _ => idle
  | c, r => if c.unguarded && !r.isOk then stage.lose else stage

def Allows (modelName : String) (stage : Stage) : RouteCall → Prop
  | .claim n _ | .claimMove n => n = modelName ∧ stage = idle
  | .release n o => n = modelName ∧ stage = held o.set
  | .releaseMove n => n = modelName ∧ stage = held .moving
  | _ => True

/-- What stays within the process does not fail, and a claim is refused only by the
sets. -/
def Expects (modelName : String) : (c : RouteCall) → Except Failure (RouteReply c) → Prop
  | .claim _ o, r => r = .ok none ∨ ∃ claims, r = .ok (some claims) ∧ o.Refused claims modelName
  | c, r => c.isLocal = true → ∃ a, r = .ok a

def contract (modelName : String) : Contract RouteCall RouteReply Failure Stage where
  allowed := Allows modelName
  expected _ := Expects modelName
  next := after

def Over : Stage → Prop
  | held _ => False
  | _ => True

def At (modelName : String) (set : ClaimSet) : Stage → ClaimRun → Prop
  | idle, s => s.broken = false ∧ s.mine = false
  | held set', s => s.broken = false ∧
      (s.mine = true → set' = set ∧ set.Holds s.world.claims modelName ∧ s.taken = false)
  | leaked, s => (s.broken = false ∧ s.mine = false) ∨ (s.broken = true ∧
      ((s.mine = false ∧ s.taken = true) ∨
        (s.mine = true ∧ set.Holds s.world.claims modelName ∧ s.taken = false)))

/-! ### The state follows the stage -/

section
variable {modelName : String} {set : ClaimSet} {stage : Stage} {s : ClaimRun}

theorem At.elapse (hs : stage.At modelName set s) (meanwhile : Option RouteWorld) :
    stage.At modelName set (s.elapse modelName set meanwhile) := by
  cases meanwhile with
  | none => exact hs
  | some w =>
    cases stage
    all_goals
      cases hmine : s.mine <;> by_cases hw : set.Holds w.claims modelName <;>
        simp_all [At, ClaimRun.elapse]

variable {c : RouteCall}

section
variable (hc : c.changesClaims = false) (r : Except Failure (RouteReply c))
include hc r

theorem adds_eq_false : c.adds modelName set r = false := by
  unfold RouteCall.adds
  split
  · cases hc
  · cases hc
  · rfl

theorem after_eq : stage.after c r = if c.unguarded && !r.isOk then stage.lose else stage := by
  unfold after
  split
  · cases hc
  · cases hc
  · cases hc
  · cases hc
  · rfl

end

variable {w : RouteWorld} {r : Except Failure (RouteReply c)}

theorem At.note (hs : stage.At modelName set s) (hc : c.changesClaims = false)
    (hw : w.claims = s.world.claims) :
    (stage.after c r).At modelName set (s.note modelName set c w r) := by
  rw [after_eq hc]
  cases stage
  all_goals
    split
    all_goals cases hmine : s.mine <;> simp_all [At, lose, ClaimRun.note, adds_eq_false hc]

theorem At.note_adds {set'} (hs : idle.At modelName set s) (hc : c.unguarded = false)
    (hadds : c.adds modelName set r = true → set' = set) :
    (held set').At modelName set (s.note modelName set c w r) := by
  refine ⟨?_, fun hm => ?_⟩
  · simp [ClaimRun.note, hs.1, hc]
  · simp only [ClaimRun.note, hs.2, Bool.false_or, Bool.and_eq_true, decide_eq_true_eq] at hm
    exact ⟨hadds hm.1, hm.2, by simp [ClaimRun.note, hm.1]⟩

theorem At.note_refused (hs : idle.At modelName set s) (hc : c.unguarded = false)
    (hadds : c.adds modelName set r = false) :
    idle.At modelName set (s.note modelName set c w r) := by
  refine ⟨?_, ?_⟩
  · simp [ClaimRun.note, hs.1, hc]
  · simp [ClaimRun.note, hs.2, hadds]

theorem At.note_deletes {set'} (hs : (held set').At modelName set s)
    (hc : c.unguarded = false) (hadds : c.adds modelName set r = false)
    (hw : ¬ set'.Holds w.claims modelName) :
    idle.At modelName set (s.note modelName set c w r) := by
  refine ⟨?_, ?_⟩
  · simp [ClaimRun.note, hs.1, hc]
  · refine Bool.eq_false_iff.mpr fun hm => ?_
    simp only [ClaimRun.note, hadds, Bool.or_false, Bool.and_eq_true, decide_eq_true_eq] at hm
    rw [← (hs.2 hm.1).1] at hm
    exact hw hm.2

theorem expects_of_unclaiming {i w'} (hc : c.changesClaims = false)
    (h : w.perform modelName i c = some (w', r)) : Expects modelName c r := by
  unfold Expects
  split
  · cases hc
  · exact fun hlocal => perform_isLocal hlocal h

/-- **One call** of a request that keeps to its contract. -/
theorem At.perform {i s'} (hs : stage.At modelName set s)
    (hallowed : (contract modelName).allowed stage c)
    (h : s.perform modelName set i c = some (s', r)) :
    (contract modelName).expected stage c r ∧ (stage.after c r).At modelName set s' := by
  obtain ⟨⟨w, _⟩, hw, hx⟩ := Option.map_eq_some_iff.mp h
  cases hx
  have he := hs.elapse i.meanwhile
  cases hchanges : c.changesClaims with
  | false =>
    exact ⟨expects_of_unclaiming hchanges hw,
      he.note hchanges (claims_perform hchanges hw)⟩
  | true =>
    cases c with
    | claim n o =>
      obtain ⟨rfl, rfl⟩ := hallowed
      rw [perform_own rfl] at hw
      simp only [performOwn] at hw
      split at hw
      · rename_i hrefused
        cases hw
        exact ⟨.inr ⟨_, rfl, hrefused⟩, he.note_refused rfl rfl⟩
      · cases hw
        exact ⟨.inl rfl, he.note_adds rfl fun hadds => (of_decide_eq_true hadds).2⟩
    | claimMove n =>
      obtain ⟨rfl, rfl⟩ := hallowed
      exact ⟨fun hlocal => perform_isLocal hlocal hw,
        he.note_adds rfl fun hadds => (of_decide_eq_true hadds).2.symm⟩
    | release n o =>
      obtain ⟨rfl, rfl⟩ := hallowed
      rw [perform_own rfl] at hw
      cases hw
      exact ⟨fun _ => ⟨_, rfl⟩, he.note_deletes rfl rfl (o.not_holds_release _ _)⟩
    | releaseMove n =>
      obtain ⟨rfl, rfl⟩ := hallowed
      rw [perform_own rfl] at hw
      cases hw
      exact ⟨fun _ => ⟨_, rfl⟩, he.note_deletes rfl rfl (Finset.notMem_erase _ _)⟩
    | _ => cases hchanges

end

/-! ## Programs and stages -/

section
variable {modelName : String} {α β : Type} {stage : Stage} {set : ClaimSet}

def Unclaiming (c : RouteCall) : Prop := c.changesClaims = false

abbrev Quiet (modelName : String) (c : RouteCall) : Prop := Still (contract modelName) c

variable {c : RouteCall}

theorem allows_of_unclaiming (hc : Unclaiming c) : stage.Allows modelName c := by
  unfold Allows
  split
  · cases hc
  · cases hc
  · cases hc
  · cases hc
  · trivial

theorem quiet (hc : c.changesClaims = false) (hguarded : c.unguarded = false) :
    Quiet modelName c := by
  refine fun _ => ⟨allows_of_unclaiming hc, fun r => ?_⟩
  simp [contract, after_eq hc, hguarded]

theorem keepsCall_over (hc : Unclaiming c) : KeepsCall (contract modelName) Over c := by
  refine fun stage hover => ⟨allows_of_unclaiming hc, fun r _ => ?_⟩
  simp only [contract, after_eq hc]
  cases stage with
  | idle | leaked => simp [lose, Over]
  | held => exact hover.elim

theorem keepsCall_idle (hc : Unclaiming c) : KeepsCall (contract modelName) (· = idle) c := by
  rintro _ rfl
  refine ⟨allows_of_unclaiming hc, fun r _ => ?_⟩
  simp [contract, after_eq hc, lose]

theorem ok_of_expects {r} (hlocal : c.isLocal = true)
    (hr : Expects modelName c r) : ∃ a, r = .ok a := by
  unfold Expects at hr
  grind

variable {S : Stage → Except Failure β → Prop}

theorem obeys_local {f : RouteReply c → Handling β} (hc : Quiet modelName c)
    (hlocal : c.isLocal = true) (hf : ∀ a, Obeys (contract modelName) S (f a) stage) :
    Obeys (contract modelName) S (ask c >>= f) stage := by
  refine ⟨(hc stage).1, fun r hr => ?_⟩
  rw [(hc stage).2 r]
  obtain ⟨a, rfl⟩ := ok_of_expects hlocal hr
  exact hf a

/-! ### Claims and their deletion -/

theorem obeys_claim {o} {f : Option Claims → Handling β}
    (hrefused : ∀ claims, o.Refused claims modelName →
      Obeys (contract modelName) S (f (some claims)) idle)
    (hheld : Obeys (contract modelName) S (f none) (held o.set)) :
    Obeys (contract modelName) S (ask (.claim modelName o) >>= f) idle := by
  refine ⟨⟨rfl, rfl⟩, fun r hr => ?_⟩
  rcases hr with rfl | ⟨claims, rfl, hclaims⟩
  · exact hheld
  · exact hrefused claims hclaims

theorem obeys_claimMove {f : Unit → Handling β}
    (hheld : Obeys (contract modelName) S (f ()) (held .moving)) :
    Obeys (contract modelName) S (ask (.claimMove modelName) >>= f) idle := by
  refine ⟨⟨rfl, rfl⟩, fun r hr => ?_⟩
  obtain ⟨a, rfl⟩ := hr rfl
  exact hheld

/-- Whatever its outcome, the program leaves no claim to delete. -/
abbrev Settles (modelName : String) (p : Handling α) (stage : Stage) : Prop :=
  Obeys (contract modelName) (fun stage _ => stage.Over) p stage

def Frees (modelName : String) (set : ClaimSet) (p : Handling Unit) : Prop :=
  Obeys (contract modelName) (fun stage r => stage = idle ∧ r = .ok ()) p (held set)

theorem frees_release (o : Operation) : Frees modelName o.set (ask (.release modelName o)) := by
  refine ⟨⟨rfl, rfl⟩, fun r hr => ?_⟩
  obtain ⟨a, rfl⟩ := hr rfl
  exact ⟨rfl, rfl⟩

theorem frees_releaseMove : Frees modelName .moving (ask (.releaseMove modelName)) := by
  refine ⟨⟨rfl, rfl⟩, fun r hr => ?_⟩
  obtain ⟨a, rfl⟩ := hr rfl
  exact ⟨rfl, rfl⟩

variable {p : Handling α}

theorem Frees.settles {q} (hq : Frees modelName set q)
    (hp : Only (Quiet modelName) p) :
    Settles modelName (p.andFinally q) (held set) := by
  refine obeys_andFinally.mpr (of_still hp fun r => hq.mono ?_)
  rintro _ _ ⟨rfl, rfl⟩
  trivial

/-- The claim is held if the program has returned, and no more if it has thrown. -/
def HeldOr (set : ClaimSet) (stage : Stage) : Except Failure α → Prop
  | .ok _ => stage = held set
  | .error _ => stage.Over

theorem Frees.tryCatch {q} (hq : Frees modelName set q)
    (hp : Only (Quiet modelName) p) :
    Obeys (contract modelName) (HeldOr set) (tryCatch p fun err => do
        q
        throw err) (held set) := by
  refine obeys_tryCatch.mpr (of_still hp fun r => ?_)
  cases r with
  | ok => rfl
  | error err =>
    refine obeys_bind.mpr (hq.mono ?_)
    rintro _ _ ⟨rfl, rfl⟩
    trivial

variable {f : α → Handling β}

theorem obeys_heldOr_bind (hp : Obeys (contract modelName) (HeldOr set) p stage)
    (hf : ∀ a, Obeys (contract modelName) S (f a) (held set))
    (he : ∀ stage err, stage.Over → S stage (.error err)) :
    Obeys (contract modelName) S (p >>= f) stage := by
  refine obeys_bind.mpr (hp.mono ?_)
  rintro stage (err | a) h
  · exact he stage err h
  · obtain rfl : stage = held set := h
    exact hf a

/-! ### How a handler ends -/

/-- When the answer has been sent and the task has settled, no claim is left to
delete. -/
def Finishes (modelName : String) (stage : Stage) (r : Except Failure Answer) : Prop :=
  Obeys (contract modelName) (fun stage _ => stage.Over) (serve (.done r)) stage

/-- The handler, the answer and the task leave no claim to delete. -/
abbrev Clears (modelName : String) (p : Handling Answer) (stage : Stage) : Prop :=
  Obeys (contract modelName) (Finishes modelName) p stage

theorem Finishes.error (stage : Stage) (err : Failure) (hover : stage.Over) :
    Finishes modelName stage (.error err) :=
  of_still (only_perform (quiet rfl rfl)) fun _ => hover

theorem Finishes.refused (err : Failure) : Finishes modelName idle (.error err) :=
  Finishes.error idle err trivial

theorem Finishes.ok {background} (h : Settles modelName background stage)
    (response : RouteResponse) : Finishes modelName stage (.ok (response, background)) :=
  obeys_local (quiet rfl rfl) rfl fun _ => h

theorem obeys_checks (hp : Only Unclaiming p) (he : ∀ err, S idle (.error err))
    (hf : ∀ a, Obeys (contract modelName) S (f a) idle) :
    Obeys (contract modelName) S (p >>= f) idle := by
  have hkeeps : Keeps (contract modelName) (· = idle) p :=
    keeps_of_only (hp.mono fun _ hc => keepsCall_idle hc)
  grind [hkeeps.obeys_bind]

/-- A handler that has not claimed yet may throw. -/
theorem clears_check {f} (hp : Only Unclaiming p)
    (hf : ∀ a, Clears modelName (f a) idle) : Clears modelName (p >>= f) idle :=
  obeys_checks hp Finishes.refused hf

end

end Stage

/-! ## The handlers -/

section
variable {α β : Type} {modelName : String}

open Stage Handler

theorem only_unclaiming_ofService (n : String) (p : Service α) : Only Unclaiming (ofService n p) :=
  only_ofService (only_true.mono fun _ _ => rfl)

theorem only_quiet_ofService (n : String) (p : Service α) :
    Only (Quiet modelName) (ofService n p) :=
  only_ofService (only_true.mono fun _ _ => quiet rfl rfl)

theorem only_quiet_ofLaunch (record : ModelRecord) (instanceId : String) (p : Launching α) :
    Only (Quiet modelName) (ofLaunch record instanceId p) :=
  only_ofLaunch (only_true.mono fun _ _ => quiet rfl rfl)

theorem only_unclaiming_admission (config : RouteConfig) : Only Unclaiming (admission config modelName) :=
  only_admission rfl

theorem only_unclaiming_assertNoMove (action : String) :
    Only Unclaiming (assertNoMove modelName action) :=
  only_assertNoMove (A := Unclaiming) rfl rfl action

variable {c : RouteCall}

theorem only_unclaiming_ask (hc : Unclaiming c) : Only Unclaiming (ask c) :=
  only_perform hc

theorem only_quiet_ask (hc : c.changesClaims = false) (hguarded : c.unguarded = false) :
    Only (Quiet modelName) (ask c) :=
  only_perform (quiet hc hguarded)

theorem only_quiet_allSettled {ps : List (Handling α)}
    (h : ∀ p ∈ ps, Only (Quiet modelName) p) : Only (Quiet modelName) (allSettled ps) :=
  Only.settleAll (quiet rfl rfl) h

theorem only_quiet_teardown (config : RouteConfig) (context : String)
    (instances : List InstanceState) :
    Only (Quiet modelName)
      (allSettled (instances.map (teardown config modelName context))) := by
  refine only_quiet_allSettled fun p hp => ?_
  obtain ⟨i, -, rfl⟩ := List.mem_map.mp hp
  exact only_quiet_ofService _ _

theorem obeys_refused (error : ControlPlaneError) :
    Clears modelName (throwControlPlane error) idle :=
  Finishes.refused _

theorem finishes_done (stage : Stage) (hover : stage.Over) (response : RouteResponse) :
    Finishes modelName stage (.ok (response, pure ())) :=
  Finishes.ok (obeys_pure.mpr hover) response

variable {o : Operation} (config : RouteConfig)

theorem obeys_answered {p : Handling Unit} (hp : Only (Quiet modelName) p)
    (response : RouteResponse) :
    Clears modelName (do
        p.andFinally (ask (.release modelName o))
        pure (response, pure ())) (held o.set) := by
  refine obeys_bind.mpr (((frees_release o).settles hp).mono ?_)
  rintro stage (err | u) hover
  · exact Finishes.error stage err hover
  · exact finishes_done stage hover response

/-! ### Stop -/

variable (instances : List InstanceState)

theorem obeys_forceStop : Clears modelName (forceStop modelName instances) idle := by
  refine obeys_claim (fun _ _ => obeys_refused _) (obeys_answered ?_ _)
  refine (only_all (quiet rfl rfl) fun p hp => ?_).bind fun _ => only_quiet_ofService _ _
  obtain ⟨i, -, rfl⟩ := List.mem_map.mp hp
  refine (only_quiet_ofService _ _).bind fun _ => ?_
  exact (only_quiet_ask rfl rfl).attempt.bind fun _ => only_quiet_ask rfl rfl

theorem obeys_softStop : Clears modelName (softStop config modelName instances) idle := by
  unfold softStop
  split
  · refine clears_check (only_unclaiming_ask rfl) fun claims => ?_
    split
    · exact obeys_refused _
    · refine clears_check (only_unclaiming_assertNoMove _) fun _ => ?_
      refine obeys_claim (fun claims _ => obeys_refused _) ?_
      exact Finishes.ok ((frees_release _).settles (only_quiet_teardown config "Stop" _)) _
  · exact obeys_refused _

variable (force : Bool)

theorem obeys_stop : Clears modelName (stop config modelName force) idle := by
  refine clears_check (only_unclaiming_admission config) fun _ => ?_
  refine clears_check (only_unclaiming_assertNoMove _) fun _ => ?_
  refine clears_check (only_unclaiming_ofService _ _) fun instances => ?_
  split
  · exact obeys_refused _
  · split
    · exact obeys_forceStop instances
    · exact obeys_softStop config instances

/-! ### Delete -/

theorem only_quiet_clearMoveForDelete :
    Only (Quiet modelName) (clearMoveForDelete modelName force) := by
  refine (only_quiet_ofService _ _).bind fun durable => ?_
  cases durable with
  | none => exact .pure _
  | some =>
    refine .bind (only_quiet_ask rfl rfl) fun claims => .ite (.throw _) ?_
    refine (only_quiet_ofService _ _).bind fun _ => ?_
    have hleft : ∀ left : Option MoveOperation, Only (Quiet modelName) (do
        if left.isSome then throwControlPlane (moveInProgress modelName "delete")
        else
          let claims ← ask .claims
          if modelName ∈ claims.movingInFlight then
            throwControlPlane (moveInProgress modelName "delete")
          else pure ()) := fun left => by
      refine .ite (.throw _) ((only_quiet_ask rfl rfl).bind fun claims => ?_)
      exact .ite (.throw _) (.pure _)
    exact Keeps.ite ((Keeps.pure _).bind hleft) ((only_quiet_ofService _ _).bind hleft)

theorem obeys_forceDelete : Clears modelName (forceDelete modelName instances) idle := by
  refine obeys_claim (fun _ _ => obeys_refused _) (obeys_answered ?_ _)
  refine (only_quiet_clearMoveForDelete true).bind fun _ => ?_
  refine (only_all (quiet rfl rfl) fun p _ => ?_).bind fun _ => ?_
  · grind [only_quiet_ofService]
  · refine (Keeps.each fun i _ => only_quiet_ask rfl rfl).bind fun _ => ?_
    exact (only_quiet_ofService _ _).bind fun _ => only_quiet_ask rfl rfl

theorem obeys_deleteRecord : Clears modelName (deleteRecord modelName) idle := by
  refine obeys_claim (fun _ _ => obeys_refused _) (obeys_answered ?_ _)
  exact (only_quiet_clearMoveForDelete false).bind fun _ => only_quiet_ask rfl rfl

theorem only_quiet_deleteInstances :
    Only (Quiet modelName) (deleteInstances config modelName instances) := by
  refine (only_quiet_teardown config "Delete" instances).bind fun _ => ?_
  refine (only_all (quiet rfl rfl) fun p _ => ?_).bind fun _ => ?_
  · grind [only_quiet_ofService]
  · refine .ite (.pure _) (.attempt ?_)
    exact (only_quiet_ask rfl rfl).bind fun _ => only_quiet_ofService _ _

theorem obeys_softDelete : Clears modelName (softDelete config modelName instances) idle := by
  unfold softDelete
  split
  · refine clears_check (only_unclaiming_ask rfl) fun claims => ?_
    split
    all_goals exact obeys_refused _
  · refine obeys_claim (fun claims _ => obeys_refused _) ?_
    refine obeys_heldOr_bind ((frees_release _).tryCatch (only_quiet_clearMoveForDelete false))
      (fun _ => ?_) Finishes.error
    exact Finishes.ok ((frees_release _).settles (only_quiet_deleteInstances config instances)) _

theorem obeys_delete : Clears modelName (delete config modelName force) idle := by
  refine clears_check (only_unclaiming_admission config) fun _ => ?_
  refine clears_check
    (only_both rfl (only_unclaiming_ofService _ _) (only_unclaiming_ask rfl)) fun read => ?_
  dsimp only
  split
  · exact obeys_refused _
  · split
    · exact obeys_forceDelete read.1
    · split
      · exact obeys_deleteRecord
      · exact obeys_softDelete config read.1

/-! ### Sleep and wake -/

theorem obeys_sleepRequest :
    Obeys (contract modelName) (HeldOr .modelLifecycle) (sleepRequest config modelName) idle := by
  have hrefused : ∀ {α : Type} (error : ControlPlaneError),
      Obeys (contract modelName) (HeldOr .modelLifecycle)
        (throwControlPlane error : Handling α) idle := fun error => trivial
  refine obeys_checks (only_unclaiming_admission config) (fun _ => trivial) fun _ => ?_
  refine obeys_checks (only_unclaiming_assertNoMove _) (fun _ => trivial) fun _ => ?_
  refine obeys_checks (only_unclaiming_ofService _ _) (fun _ => trivial) fun _ => ?_
  split
  · exact hrefused _
  dsimp only
  split
  · exact hrefused _
  split
  · exact hrefused _
  refine obeys_checks (only_unclaiming_assertNoMove _) (fun _ => trivial) fun _ => ?_
  refine obeys_claim (fun _ _ => hrefused _) ?_
  refine obeys_heldOr_bind ((frees_release .sleep).tryCatch ?_) (fun _ => ?_) fun _ _ h => h
  · refine (Keeps.each fun i _ => ?_).bind fun _ => only_quiet_ofService _ _
    exact (only_quiet_ofService _ _).bind fun _ => Keeps.pure _
  · exact obeys_pure.mpr rfl

theorem obeys_sleep : Clears modelName (sleep config modelName) idle := by
  refine obeys_heldOr_bind (obeys_sleepRequest config) (fun _ => ?_) Finishes.error
  refine Finishes.ok ((frees_release .sleep).settles (only_quiet_allSettled fun p _ => ?_)) _
  grind [only_quiet_ofService]

theorem obeys_unguarded {S set}
    {f : RouteReply c → Handling β} (hc : Unclaiming c)
    (hf : ∀ a, Obeys (contract modelName) S (f a) (held set)) (he : ∀ err, S leaked (.error err))
    (hread : c.unguarded = true) :
    Obeys (contract modelName) S (ask c >>= f) (held set) := by
  refine obeys_bind.mpr ⟨allows_of_unclaiming hc, fun r _ => ?_⟩
  cases r with
  | ok a =>
    simp only [contract, after_eq hc, hread]
    exact hf a
  | error err =>
    simp only [contract, after_eq hc, hread]
    exact he err

theorem obeys_makeRoom (requiredMemory : Nat) (i : InstanceState) :
    Obeys (contract modelName) (HeldOr .modelLifecycle)
      (makeRoom config modelName requiredMemory i) (held .modelLifecycle) := by
  unfold makeRoom
  split
  · exact obeys_pure.mpr rfl
  split
  · refine obeys_local (quiet rfl rfl) rfl fun _ => ?_
    split
    · refine obeys_unguarded rfl (fun _ => ?_) (fun _ => trivial) rfl
      refine obeys_unguarded rfl (fun _ => ?_) (fun _ => trivial) rfl
      refine obeys_unguarded rfl (fun _ => ?_) (fun _ => trivial) rfl
      refine obeys_local (quiet rfl rfl) rfl fun victims => ?_
      have hquiet : Only (Quiet modelName)
          (evict config victims "Eviction (wake capacity reclamation)") := by
        refine only_quiet_allSettled fun p hp => ?_
        obtain ⟨_, -, rfl⟩ := List.mem_map.mp hp
        exact (only_quiet_ofService _ _).bind fun _ => only_quiet_ofService _ _
      have hevict : Obeys (contract modelName)
          (fun stage (_ : Except Failure Unit) => stage = held .modelLifecycle)
          (evict config victims "Eviction (wake capacity reclamation)") (held .modelLifecycle) :=
        of_still hquiet fun _ => rfl
      refine (hevict.calm (calm_settleAll _)).mono ?_
      rintro _ _ ⟨rfl, u, rfl⟩
      rfl
    · exact obeys_pure.mpr rfl
  · exact obeys_pure.mpr rfl

theorem obeys_beginWakes (requiredMemory : Nat) : ∀ claimed : List InstanceState,
      Obeys (contract modelName) (fun stage r => HeldOr .modelLifecycle stage r ∧
          ∀ tasks, r = .ok tasks → ∀ task ∈ tasks, Only (Quiet modelName) task)
        (beginWakes config modelName requiredMemory claimed) (held .modelLifecycle)
  | [] => by
    refine obeys_pure.mpr ⟨rfl, ?_⟩
    grind
  | i :: rest => by
    refine obeys_heldOr_bind (obeys_makeRoom config requiredMemory i) (fun _ => ?_)
      fun stage err hover => ⟨hover, fun _ h => by cases h⟩
    refine obeys_bind.mpr ?_
    have hwake : Only (Quiet modelName)
        (ofService modelName (wakeModel config.timeouts modelName i.instanceId)).attempt :=
      (only_quiet_ofService _ _).attempt
    refine overlap_left (quiet rfl rfl) ((obeys_beginWakes requiredMemory rest).mono ?_) hwake
    rintro stage (err | _) ⟨hstage, _⟩ task htask
    · -- the wake that has begun goes on, then the error is thrown
      refine Keeps.obeys_bind (keeps_of_only (htask.mono fun c hc => hc.keepsCall _)) hstage
        (fun stage _ hover => ?_) fun stage err hover => ⟨hover, fun _ h => by cases h⟩
      exact ⟨hover, fun _ h => by cases h⟩
    · refine ⟨hstage, ?_⟩
      grind [List.mem_cons.mp]

theorem only_quiet_claimAsleep : ∀ sleeping : List InstanceState,
    Only (Quiet modelName) (claimAsleep modelName sleeping)
  | [] => .pure _
  | i :: rest => by
    refine .bind ?_ fun _ => (only_quiet_claimAsleep rest).bind fun _ => .pure _
    refine .tryCatch ?_ fun _ => .pure _
    exact (only_quiet_ofService _ _).bind fun _ => .pure _

theorem obeys_wakeClaimed (sleeping : List InstanceState) :
    Clears modelName (wakeClaimed config modelName sleeping) (held .modelLifecycle) := by
  refine obeys_heldOr_bind ((frees_release .wake).tryCatch ?_) (fun claimed => ?_) Finishes.error
  · refine (only_quiet_claimAsleep sleeping).bind fun claimed => ?_
    exact (only_quiet_ofService _ _).bind fun _ => .pure _
  refine obeys_unguarded rfl (fun _ => ?_) (fun err => Finishes.error leaked err trivial) rfl
  refine obeys_bind.mpr ((obeys_beginWakes config _ claimed).mono ?_)
  rintro stage (err | tasks) ⟨hstage, htasks⟩
  · exact Finishes.error stage err hstage
  · obtain rfl : stage = held .modelLifecycle := hstage
    exact Finishes.ok ((frees_release .wake).settles (only_quiet_allSettled (htasks tasks rfl))) _

theorem obeys_wake : Clears modelName (wake config modelName) idle := by
  refine clears_check (only_unclaiming_admission config) fun _ => ?_
  refine clears_check (only_unclaiming_assertNoMove _) fun _ => ?_
  refine clears_check (only_unclaiming_ofService _ _) fun _ => ?_
  split
  · exact obeys_refused _
  dsimp only
  split
  · split
    · exact finishes_done idle trivial _
    · exact obeys_refused _
  split
  · exact obeys_refused _
  refine clears_check (only_unclaiming_assertNoMove _) fun _ => ?_
  exact obeys_claim (fun _ _ => obeys_refused _) (obeys_wakeClaimed config _)

/-! ### Launches -/

theorem obeys_attempt_release {p : Handling α} (hp : Only (Quiet modelName) p) : Settles modelName
      (do
        p.attempt
        ask (.release modelName o)) (held o.set) := by
  have hattempt : Obeys (contract modelName)
      (fun stage (_ : Except Failure Unit) => stage = held o.set) p.attempt (held o.set) :=
    of_still hp.attempt fun _ => rfl
  refine obeys_bind.mpr ((hattempt.calm (calm_handle (fun _ => calm_pure ()) p)).mono ?_)
  rintro _ _ ⟨rfl, u, rfl⟩
  refine (frees_release o).mono ?_
  rintro _ _ ⟨rfl, -⟩
  trivial

theorem obeys_launchHeld (o : Operation) (record : ModelRecord) (instanceId : String) :
    Obeys (contract modelName)
      (fun stage r => HeldOr o.set stage r ∧ ∀ task background, r = .ok (task, background) →
        Settles modelName background (held o.set))
      (launchHeld config modelName o record instanceId) (held o.set) := by
  refine obeys_heldOr_bind ((frees_release o).tryCatch (only_quiet_ofLaunch _ _ _))
    (fun _ => ?_) fun stage _ hover => ⟨hover, fun _ _ h => by cases h⟩
  refine ⟨rfl, ?_⟩
  rintro _ _ ⟨⟩
  exact obeys_attempt_release (only_quiet_ofLaunch _ _ _)

theorem obeys_launched {config record instanceId}
    {f : LaunchParams.Background × Handling Unit → Handling Answer}
    (response : LaunchParams.Background → RouteResponse)
    (hf : ∀ task background, f (task, background) = pure (response task, background)) :
    Clears modelName (launchHeld config modelName o record instanceId >>= f) (held o.set) := by
  refine obeys_bind.mpr ((obeys_launchHeld config o record instanceId).mono ?_)
  rintro stage (err | ⟨task, background⟩) ⟨hstage, hbackground⟩
  · exact Finishes.error stage err hstage
  · obtain rfl : stage = held o.set := hstage
    simp only [hf]
    exact Finishes.ok (hbackground task background rfl) _

theorem obeys_addInstance : Clears modelName (addInstance config modelName) idle := by
  refine clears_check (only_unclaiming_admission config) fun _ => ?_
  refine clears_check (only_unclaiming_ask rfl) fun record => ?_
  cases record with
  | none => exact obeys_refused _
  | some record =>
    refine clears_check (only_unclaiming_assertNoMove _) fun _ => ?_
    refine clears_check (only_unclaiming_ask rfl) fun _ => ?_
    exact obeys_claim (fun _ refused => refused.elim) (obeys_launched _ fun _ _ => rfl)

theorem obeys_start : Clears modelName (Handler.start config modelName) idle := by
  refine clears_check (only_unclaiming_admission config) fun _ => ?_
  refine clears_check
    (only_both rfl (only_unclaiming_ofService _ _) (only_unclaiming_ask rfl)) fun read => ?_
  obtain ⟨_, record⟩ := read
  cases record with
  | none => exact obeys_refused _
  | some record =>
    dsimp only
    split
    · refine clears_check (only_unclaiming_assertNoMove _) fun _ => ?_
      refine clears_check (only_unclaiming_ask rfl) fun instanceId => ?_
      exact obeys_claim (fun _ refused => refused.elim) (obeys_launched
        (fun task => { modelName, instanceId := some instanceId
                       state := some (launchState task).1, previousState := some .stopped
                       message := some (launchState task).2 }) fun _ _ => rfl)
    · exact obeys_refused _

theorem obeys_deploy (body : ModelBody) :
    Clears modelName (deploy config modelName body) idle := by
  have hlaunch : ∀ {α : Type} (record : ModelRecord) (instanceId : String) (p : Launching α),
      Only Unclaiming (ofLaunch record instanceId p) := fun record instanceId p =>
    only_ofLaunch (only_true.mono fun _ _ => rfl)
  refine clears_check (only_unclaiming_ofService _ _) fun _ => ?_
  split
  · split
    · exact obeys_refused _
    · refine clears_check ?_ fun _ => ?_
      · refine .tryCatch (only_unclaiming_ask rfl) fun err => ?_
        exact .ite (.throw _) (.throw _)
      refine clears_check (only_unclaiming_ask rfl) fun instanceId => ?_
      refine clears_check ?_ fun _ => ?_
      · refine (hlaunch _ _ _).tryCatch fun err => ?_
        exact .bind (.attempt (only_unclaiming_ask rfl)) fun _ => .throw _
      have hover : ∀ {p : Handling Unit}, Only Unclaiming p →
          Settles modelName p idle := fun hp =>
        keeps_of_only (hp.mono fun _ hc => keepsCall_over hc) idle trivial
      exact Finishes.ok (hover (hlaunch _ _ _).attempt) _
  · exact obeys_refused _

/-! ### Move -/

def localContract : Contract Call Reply Failure Unit where
  allowed _ _ := True
  expected _ c r := c.isLocal = true → ∃ a, r = .ok a
  next _ _ _ := ()

theorem obeys_ofService {Q : Except Failure α → Prop} {stage} :
    ∀ {p : Service α}, Obeys localContract (fun _ r => Q r) p () →
      Obeys (contract modelName) (fun stage' r => stage' = stage ∧ Q r) (ofService modelName p)
        stage
  | .done _, hp => ⟨rfl, hp⟩
  | .call c k, hp => by
    have hquiet : Quiet modelName (.service modelName c) := quiet rfl rfl
    refine ⟨(hquiet stage).1, fun r hr => ?_⟩
    have hexpects : Expects modelName (.service modelName c) r := hr
    exact obeys_ofService (hp.2 r fun hlocal => hexpects hlocal)

theorem calm_noteFailure (err : Failure) : Calm (Move.noteFailure err) := by
  refine Calm.bind (fun found => ?_) (calm_tryCatch (fun _ => calm_pure none) _)
  cases found with
  | none => exact calm_pure ()
  | some => exact calm_tryCatch (fun _ => calm_pure ()) _

theorem obeys_resume (timeouts : Timeouts) (process : Nat) :
    Obeys localContract (fun _ r => r = .ok ()) (Move.resume timeouts modelName process) () := by
  have hany : ∀ {α : Type} (p : Service α), Obeys localContract (fun _ _ => True) p () := fun p =>
    keeps_of_only (only_true.mono fun c _ => fun _ _ => ⟨trivial, fun _ _ => trivial⟩) () trivial
  refine ⟨trivial, fun r hr => ?_⟩
  obtain ⟨entered, rfl⟩ := hr rfl
  have hbody : Calm (tryCatch (Move.resumeOperation timeouts modelName) Move.noteFailure) :=
    calm_tryCatch calm_noteFailure _
  cases entered with
  | false => rfl
  | true =>
    refine obeys_andFinally.mpr (((hany _).calm hbody).mono ?_)
    rintro _ _ ⟨-, u, rfl⟩
    refine ⟨trivial, fun r hr => ?_⟩
    obtain ⟨_, rfl⟩ := hr rfl
    rfl

theorem obeys_runMove (operationId : String) {deployment : Handling Unit}
    (hdeployment : Only (Quiet modelName) deployment) :
    Settles modelName (runMove config modelName operationId deployment) (held .moving) := by
  refine Frees.settles ?_ ?_
  · refine obeys_bind.mpr ((obeys_ofService (obeys_resume config.timeouts config.process)).mono ?_)
    rintro _ _ ⟨rfl, rfl⟩
    exact frees_releaseMove
  · refine .tryCatch (hdeployment.bind fun _ => ?_) fun _ => ?_
    all_goals
      refine (only_quiet_ofService _ _).bind fun _ => .ite ?_ (.pure _)
      exact (only_quiet_ofService _ _).bind fun _ => .pure _

variable (instanceId : String)

theorem obeys_moveClaimed (body : MoveBody)
    (record : ModelRecord) (operationId replacementInstanceId : String) :
    Clears modelName
      (moveClaimed config modelName instanceId body record operationId replacementInstanceId)
      (held .moving) := by
  refine obeys_bind.mpr (obeys_tryCatch.mpr (of_still (only_quiet_ofLaunch _ _ _)
    fun r => ?_))
  cases r with
  | ok =>
    exact Finishes.ok (obeys_runMove config operationId (only_quiet_ofLaunch _ _ _)) _
  | error err =>
    refine obeys_bind.mpr (frees_releaseMove.mono ?_)
    rintro _ _ ⟨rfl, rfl⟩
    refine obeys_checks (only_unclaiming_ofService _ _).attempt Finishes.refused fun _ => ?_
    exact obeys_throw.mpr (Finishes.error idle err trivial)

theorem only_unclaiming_assertMoveAdmission : Only Unclaiming (assertMoveAdmission modelName) := by
  refine (only_unclaiming_ofService _ _).bind fun _ => ?_
  refine .bind (only_unclaiming_ask rfl) fun _ => ?_
  exact .ite (.pure _) (.ite (.throw _) (.throw _))

theorem obeys_move (body : MoveBody) :
    Clears modelName (move config modelName instanceId body)
      idle := by
  refine clears_check (only_unclaiming_admission config) fun _ => ?_
  split
  · exact obeys_refused _
  refine clears_check only_unclaiming_assertMoveAdmission fun _ => ?_
  refine clears_check
    (only_both rfl (only_unclaiming_ask rfl) (only_unclaiming_ofService _ _)) fun _ => ?_
  split
  · refine clears_check only_unclaiming_assertMoveAdmission fun _ => ?_
    refine clears_check (only_unclaiming_ask rfl) fun _ => ?_
    split
    · exact obeys_refused _
    refine clears_check only_unclaiming_assertMoveAdmission fun _ => ?_
    refine clears_check (only_unclaiming_ask rfl) fun operationId => ?_
    refine clears_check (only_unclaiming_ask rfl) fun _ => ?_
    refine clears_check (only_unclaiming_ofService _ _) fun _ => ?_
    refine clears_check (only_unclaiming_ask rfl) fun _ => ?_
    split
    · exact obeys_claimMove (obeys_moveClaimed config instanceId body _ operationId _)
    · exact obeys_refused _
  · exact obeys_refused _

/-! ### Update, and the operations on one instance -/

theorem obeys_update (body : ModelBody) :
    Clears modelName (update config modelName body) idle := by
  refine clears_check (only_unclaiming_admission config) fun _ => ?_
  refine clears_check (only_unclaiming_assertNoMove _) fun _ => ?_
  refine clears_check
    (only_both rfl (only_unclaiming_ask rfl) (only_unclaiming_ofService _ _)) fun _ => ?_
  dsimp only
  split
  · exact obeys_refused _
  split
  · split
    · refine clears_check (only_unclaiming_ask rfl) fun claims => ?_
      split
      all_goals exact obeys_refused _
    · refine obeys_claim (fun claims _ => obeys_refused _) (obeys_answered ?_ _)
      exact (only_quiet_ask rfl rfl).bind fun _ => .ite (.pure _) (.throw _)
  · exact obeys_refused _

theorem only_unclaiming_findInstance (action instanceId : String) :
    Only Unclaiming (findInstance config modelName action instanceId) := by
  refine (only_unclaiming_admission config).bind fun _ => ?_
  refine (only_unclaiming_assertNoMove action).bind fun _ => ?_
  refine (only_unclaiming_ofService _ _).bind fun found => ?_
  cases found with
  | none => exact .throw _
  | some => exact .pure _

theorem obeys_deleteInstance : Clears modelName
      (deleteInstance config modelName instanceId) idle := by
  refine clears_check (only_unclaiming_findInstance config _ instanceId) fun i => ?_
  split
  · exact obeys_refused _
  refine clears_check (only_unclaiming_assertNoMove _) fun _ => ?_
  refine obeys_claim (fun _ _ => obeys_refused _) ?_
  refine Finishes.ok ((frees_release _).settles ?_) _
  exact (only_quiet_ofService _ _).bind fun _ => .pure _

theorem obeys_shiftInstance (action : String) (i : InstanceState) (target : ModelLifecycleState)
    (task : Service Unit) (message : String) :
    Clears modelName (shiftInstance modelName action i target task message) idle := by
  unfold shiftInstance
  split
  · exact obeys_refused _
  refine clears_check (only_unclaiming_assertNoMove _) fun _ => ?_
  refine obeys_claim (fun _ _ => obeys_refused _) ?_
  refine obeys_heldOr_bind ((frees_release _).tryCatch (only_quiet_ofService _ _)) (fun _ => ?_)
    Finishes.error
  exact Finishes.ok (obeys_attempt_release (only_quiet_ofService _ _)) _

theorem obeys_sleepInstance : Clears modelName
      (Handler.sleepInstance config modelName instanceId) idle := by
  refine clears_check (only_unclaiming_findInstance config _ instanceId) fun i => ?_
  split
  · exact obeys_shiftInstance _ _ _ _ _
  · exact obeys_refused _

theorem obeys_wakeInstance : Clears modelName
      (Handler.wakeInstance config modelName instanceId) idle := by
  refine clears_check (only_unclaiming_findInstance config _ instanceId) fun i => ?_
  split
  · exact finishes_done idle trivial _
  split
  · exact obeys_shiftInstance _ _ _ _ _
  · exact obeys_refused _

/-- **Every handler** leaves no claim to delete. -/
theorem obeys_handler (request : Request) :
    Clears modelName (request.handler config modelName) idle := by
  cases request with
  | deploy body => exact obeys_deploy config body
  | stop force => exact obeys_stop config force
  | delete force => exact obeys_delete config force
  | sleep => exact obeys_sleep config
  | wake => exact obeys_wake config
  | addInstance => exact obeys_addInstance config
  | start => exact obeys_start config
  | move instanceId body => exact obeys_move config instanceId body
  | update body => exact obeys_update config body
  | deleteInstance instanceId => exact obeys_deleteInstance config instanceId
  | sleepInstance instanceId => exact obeys_sleepInstance config instanceId
  | wakeInstance instanceId => exact obeys_wakeInstance config instanceId

end

/-- **Claims are deleted**: once the request has answered and its task has settled,
its claim is in the set no more exactly if no unguarded read has failed under it,
or somebody else has deleted it. -/
theorem claim_released_iff (config : RouteConfig) (modelName : String) (request : Request)
    (set : ClaimSet) (w : RouteWorld) :
    Alone (ClaimRun.perform modelName set) ClaimRun.anyInput
      (fun s _ => s.mine = false ↔ s.broken = false ∨ s.taken = true)
      (serve (request.handler config modelName)) { world := w } := by
  have hobeys : Obeys (Stage.contract modelName) (fun stage _ => stage.Over)
      (serve (request.handler config modelName)) .idle :=
    obeys_handle.mpr (obeys_handler config request)
  have hstart : Stage.idle.At modelName set { world := w } := ⟨rfl, rfl⟩
  have halone : Alone (ClaimRun.perform modelName set) ClaimRun.anyInput
      (fun s _ => ∃ stage : Stage, stage.At modelName set s ∧ stage.Over) _ _ :=
    hobeys.alone (fun _ hs hallowed h => hs.perform hallowed h) hstart
  refine halone.mono ?_
  rintro s _ ⟨stage, hs, hover⟩
  cases stage with
  | idle => exact iff_of_true hs.2 (.inl hs.1)
  | held => exact hover.elim
  | leaked =>
    rcases hs with ⟨hbroken, hmine⟩ | ⟨hbroken, ⟨hmine, htaken⟩ | ⟨hmine, -, htaken⟩⟩
    · exact iff_of_true hmine (.inl hbroken)
    · exact iff_of_true hmine (.inr htaken)
    · simp [hmine, hbroken, htaken]

/-! ### A wake whose read fails -/

namespace ClaimRun

def asleep : RouteWorld where
  records := AList.insert "a"
    { newInstance "m" "a" (some "w") none 0 with
      state := .sleeping, runnerHost := some "host", runnerPort := some 1 } ∅

/-- The checks pass, the claim is taken, the instance is claimed; the read of the
record fails, and the error is answered. -/
def readFails : List ClaimInput :=
  List.replicate 14 { answer := RouteInput.undisturbed, keys := ["a"] } ++
    [{ answer := RouteInput.undisturbed, outcome := .failed }, { answer := RouteInput.undisturbed }]

end ClaimRun

theorem failed_wake_keeps_claim : ∃ s, (serve (Request.wake.handler .permissive "m")).feed
        (ClaimRun.perform "m" .modelLifecycle) ClaimRun.readFails { world := ClaimRun.asleep } =
          some (s, .ok ()) ∧
      s.mine = true ∧ "m" ∈ s.world.claims.modelLifecycleInFlight :=
  ⟨_, rfl, rfl, Finset.mem_insert_self _ _⟩

end Sardeenz
