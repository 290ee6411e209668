/-
# `Sardeenz.Routes.LaunchContract` — what a launch does with its hold

The contract of `deployFromRecord` and of a budget refresh: where a thread is,
as far as the memory of the cluster is concerned.

    job          what the thread runs
    stage        what is known of its hold
    placement    the devices it has reserved
    dispatched   `POST /runners` has been sent
    inFlight     the reports a refresh has read and not yet taken over

The stages of a hold:

    free → held                        direct: the `catch` releases from here on
    free → reserved → held             reclamation: `deployModel` releases from `held` on
           reserved → abandoned        … and nobody does if it fails before that
    held → free, retained              `deployModel` has settled

**Proved here.**  A launch settles `free`, `retained` or `abandoned`
(`obeys_deployFromRecord`).
-/
import Sardeenz.Routes.Launch

namespace Sardeenz

open Interleave

/-! ## Where a thread is -/

/-- What a thread runs: a launch, or `refreshAll` of the reconciliation loop. -/
inductive Job where
  | launch (params : LaunchParams)
  | refresh
deriving DecidableEq

/-- What is known of the hold of a launch. -/
inductive HoldStage where
  | free
  | reserved
  | held
  | retained
  | abandoned
deriving DecidableEq

/-- Where a thread is in its contract. -/
structure LaunchLoc where
  job : Job
  stage : HoldStage := .free
  placement : Option PlacementResult := none
  dispatched : Bool := false
  inFlight : List (String × MemoryBudget.PipelineReply) := []

namespace LaunchLoc

/-- The answer has `POST /runners` sent. -/
def sends : (c : Call) → Except Failure (Reply c) → Bool
  | .sendStart, .ok sent => sent
  | _, _ => false

def succeeded {ε α : Type} : Except ε α → Bool
  | .ok _ => true
  | .error _ => false

def written (l : LaunchLoc) (ok : Bool) : LaunchLoc :=
  if l.stage = .reserved ∧ ok = false then { l with stage := .abandoned } else l

def claimsAnswered (l : LaunchLoc) (claims : LaunchClaims) : Bool :=
  claims.deleting ||
    match l.job with
    | .launch params => succeeded (params.launchAllowed claims)
    | .refresh => true

/-- `assertLaunchAllowed` of the reclamation. -/
def checked (l : LaunchLoc) : Except Failure LaunchClaims → LaunchLoc
  | .error _ => l.written false
  | .ok claims =>
    if l.stage = .reserved then
      if claims.deleting then l
      else if l.claimsAnswered claims then { l with stage := .held }
      else { l with stage := .abandoned }
    else l

def placed (l : LaunchLoc) (reclaiming : Bool) :
    Except Failure (List WorkerRecord × Option PlacementResult) → LaunchLoc
  | .ok (_, some result) =>
    { l with stage := if reclaiming then .reserved else .held, placement := some result }
  | .ok (_, none) | .error _ => l

def read (l : LaunchLoc) :
    Except Failure (Option (List (String × MemoryBudget.PipelineReply))) → LaunchLoc
  | .ok (some replies) => { l with inFlight := replies }
  | .ok none | .error _ => l

def after (l : LaunchLoc) : (c : LaunchCall) → Except Failure (LaunchReply c) → LaunchLoc
  | .service c, r =>
    { l.written (succeeded r) with dispatched := l.dispatched || sends c r }
  | .createRow _, r => l.written (succeeded r)
  | .readClaims, r => l.checked r
  | .getMemoryReports _, r => l.read r
  | .applyReports _, _ => { l with inFlight := [] }
  | .placeAndReserve _ _ workers, r => l.placed workers.isSome r
  | .releaseReservations, _ => { l with stage := .free }
  | .retainReservations, _ => { l with stage := .retained }
  | _, _ => l

section
variable (l : LaunchLoc)
include l

theorem written_eq (ok : Bool) :
    l.written ok = l ∨ l.written ok = { l with stage := .abandoned } := by
  grind [written]

variable (r : Except Failure LaunchClaims)

theorem checked_eq : l.checked r = l ∨ l.checked r = { l with stage := .held } ∨
      l.checked r = { l with stage := .abandoned } := by
  rcases r with e | _
  · exact (l.written_eq false).imp_right .inr
  · grind [checked]

theorem job_written (ok : Bool) : (l.written ok).job = l.job := by
  rcases l.written_eq ok with h | h <;> rw [h]

theorem job_checked : (l.checked r).job = l.job := by
  rcases l.checked_eq r with h | h | h <;> rw [h]

@[simp] theorem job_after (c : LaunchCall) (r : Except Failure (LaunchReply c)) :
    (l.after c r).job = l.job := by
  cases c with
  | service c | createRow result => exact l.job_written _
  | readClaims => exact l.job_checked r
  | getMemoryReports =>
    match r with
    | .error _ | .ok none | .ok (some _) => rfl
  | placeAndReserve =>
    match r with
    | .error _ | .ok (_, none) | .ok (_, some _) => rfl
  | resolveRunnerMetadata | createInstance _ | scanMemoryKeys | applyReports _ | clearBudgets
  | writeClusterMemorySnapshot | releaseReservations | retainReservations | deleteRow
  | selectVictims _ | evictVictims _ => rfl

end

/-- What a thread may call: it takes over the reports it has read, and places
the request of its launch, before the dispatch. -/
def Allowed (l : LaunchLoc) : LaunchCall → Prop
  | .applyReports replies => replies = l.inFlight
  | .placeAndReserve request fixed _ =>
    l.dispatched = false ∧ ∃ params requiredMemory, l.job = .launch params ∧
      params.requiredMemory = some (requiredMemory + 1) ∧
      request = params.placementRequest (requiredMemory + 1) ∧
      (fixed = none ∨ fixed = params.fixedPlacement)
  | _ => True

end LaunchLoc

def launchContract : Contract LaunchCall LaunchReply Failure LaunchLoc where
  allowed := LaunchLoc.Allowed
  expected _ _ _ := True
  next := LaunchLoc.after

def HoldStage.Done (stage : HoldStage) : Prop :=
  stage = .free ∨ stage = .retained ∨ stage = .abandoned

/-! ## Launches obey the contract -/

namespace Launching

variable {α : Type} {l : LaunchLoc}

def anyCalls : Contract Call Reply Failure Unit where
  allowed _ _ := True
  expected _ _ _ := True
  next _ _ _ := ()

theorem obeys_anyCalls : ∀ (p : Service α), Obeys anyCalls (fun _ _ => True) p ()
  | .done _ => trivial
  | .call _ k => ⟨trivial, fun r _ => obeys_anyCalls (k r)⟩

theorem keepsCall_anyCalls (c : Call) : KeepsCall anyCalls (fun _ => True) c :=
  fun _ _ => ⟨trivial, fun _ _ => trivial⟩

theorem deploying_anyCalls (params : DeployModelParams) :
    Deploying anyCalls (fun _ => True) params where
  leader := keepsCall_anyCalls _
  bookkeeping := keepsCall_anyCalls _
  upkeep :=
    { refresh := fun _ _ => obeys_anyCalls _
      getInstance := keepsCall_anyCalls _
      transition := fun _ _ _ => keepsCall_anyCalls _
      getHealth := keepsCall_anyCalls _
      aborted := keepsCall_anyCalls _ }

theorem written_of_ne (hl : l.stage ≠ .reserved) (ok : Bool) : l.written ok = l :=
  if_neg fun h => hl h.1

theorem obeys_ofService {Q : Except Failure α → Prop} :
    ∀ {p : Service α} {l : LaunchLoc}, l.stage ≠ .reserved → Obeys anyCalls (fun _ r => Q r) p () →
      Obeys launchContract (fun l' r => l'.stage = l.stage ∧ Q r) (ofService p) l
  | .done _, _, _, hp => ⟨rfl, hp⟩
  | .call c k, l, hl, hp => by
    refine ⟨trivial, fun r _ => ?_⟩
    have hstage : (l.after (.service c) r).stage = l.stage := by
      simp only [LaunchLoc.after, written_of_ne hl]
    refine (obeys_ofService (hstage ▸ hl) (hp.2 r trivial)).mono ?_
    rintro l' _ ⟨hl', hr'⟩
    exact ⟨hl'.trans hstage, hr'⟩

theorem keeps_ofService (stage : HoldStage) (hstage : stage ≠ .reserved) (p : Service α) :
    Keeps launchContract (·.stage = stage) (ofService p) := by
  rintro l rfl
  exact (obeys_ofService hstage (obeys_anyCalls p)).mono fun _ _ h => h.1

/-- What a refresh leaves alone. -/
structure Same (l l' : LaunchLoc) : Prop where
  job : l'.job = l.job
  stage : l'.stage = l.stage
  dispatched : l'.dispatched = l.dispatched

theorem keeps_refreshAll (l : LaunchLoc) : Keeps launchContract (Same l) refreshAll := by
  have hwrite : KeepsCall launchContract (Same l) .writeClusterMemorySnapshot :=
    fun l' h => ⟨trivial, fun _ _ => h⟩
  have hscan : KeepsCall launchContract (Same l) .scanMemoryKeys :=
    fun l' h => ⟨trivial, fun _ _ => h⟩
  have hclear : KeepsCall launchContract (Same l) .clearBudgets :=
    fun l' h => ⟨trivial, fun _ _ => h⟩
  refine hscan.bind fun _ => .ite hclear.perform ?_
  -- The reports are read and taken over; between the two they are in flight.
  intro l' h
  refine obeys_bind.mpr ⟨trivial, fun r _ => ?_⟩
  match r with
  | .error _ | .ok none => exact h
  | .ok (some replies) =>
    refine obeys_bind.mpr ⟨rfl, fun r _ => ?_⟩
    match r with
    | .error _ => exact ⟨h.job, h.stage, h.dispatched⟩
    | .ok _ => exact hwrite.perform _ ⟨h.job, h.stage, h.dispatched⟩

end Launching

namespace DeployModelParams

open Launching

variable {α : Type} {l : LaunchLoc}

theorem obeys_deployFailedHolding (hl : l.stage ≠ .reserved) (params : DeployModelParams)
    (ambiguous : Bool) (err : Failure) :
    Obeys launchContract (fun l' r => l'.stage.Done ∧ ∃ e, r = .error e)
      (params.deployFailedHolding ambiguous err : Launching α) l := by
  have hfailed : Obeys anyCalls (fun _ r => ∃ e, r = .error e)
      (params.deployFailed ambiguous err : Service α) () :=
    ((deploying_anyCalls params).deployFailed ambiguous err trivial).mono fun _ _ h => h.2
  refine (obeys_ofService hl hfailed).tryCatch ?_ fun l' e _ => ?_
  · grind
  · dsimp only
    split
    · refine obeys_bind.mpr ⟨trivial, fun r _ => ?_⟩
      cases r with
      | error e' => exact ⟨.inr (.inl rfl), e', rfl⟩
      | ok => exact ⟨.inr (.inl rfl), e, rfl⟩
    · refine obeys_bind.mpr ⟨trivial, fun r _ => ?_⟩
      cases r with
      | error e' => exact ⟨.inl rfl, e', rfl⟩
      | ok => exact ⟨.inl rfl, e, rfl⟩

theorem obeys_stretch {S : LaunchLoc → α → Prop} {p : Launching α}
    {params : DeployModelParams} (ambiguous : Failure → Bool)
    (hp : Obeys launchContract (fun l r => match r with
      | .ok a => S l a
      | .error _ => l.stage ≠ .reserved) p l) :
    Obeys launchContract (fun l r => match r with
      | .ok a => S l a
      | .error _ => l.stage.Done)
      (tryCatch p fun err => params.deployFailedHolding (ambiguous err) err) l := by
  refine hp.tryCatch (fun _ _ h => h) fun l e hl => ?_
  refine (obeys_deployFailedHolding hl params (ambiguous e) e).mono ?_
  grind

theorem obeys_deployModelHolding (timeouts : Timeouts) (params : DeployModelParams)
    (hl : l.stage = .held) :
    Obeys launchContract (fun l _ => l.stage.Done) (params.deployModelHolding timeouts) l := by
  have hservice : ∀ {β : Type} (p : Service β) (l : LaunchLoc), l.stage = .held →
      Obeys launchContract (fun l r => match r with
        | .ok _ => l.stage = .held
        | .error _ => l.stage ≠ .reserved) (ofService p) l := by
    intro β p l hl
    refine (keeps_ofService .held (by decide) p l hl).mono ?_
    rintro _ (e | a) h
    · exact fun hr => nomatch h.symm.trans hr
    · exact h
  refine obeys_bind.mpr ((obeys_stretch (fun _ => false) (hservice _ l hl)).mono ?_)
  rintro l (e | _) hl
  · exact hl
  refine obeys_bind.mpr ((obeys_stretch Failure.leavesStartOpen (hservice _ l hl)).mono ?_)
  rintro l (e | _) hl
  · exact hl
  refine (obeys_stretch (S := fun l _ => l.stage.Done) (fun _ => false) ?_).mono ?_
  · refine obeys_bind.mpr ((hservice _ l hl).mono ?_)
    rintro l (e | _) hl
    · exact hl
    · refine ⟨trivial, fun r _ => ?_⟩
      cases r with
      | error e => exact fun h => nomatch h
      | ok => exact .inl rfl
  · grind

end DeployModelParams

namespace LaunchParams

open Launching

variable {l : LaunchLoc} {params : LaunchParams}

/-- The launch is free to place. -/
structure Unplaced (params : LaunchParams) (l : LaunchLoc) : Prop where
  job : l.job = .launch params
  stage : l.stage = .free
  dispatched : l.dispatched = false

theorem Unplaced.same {l'} (h : Unplaced params l) (hs : Same l l') :
    Unplaced params l' :=
  ⟨hs.job.trans h.job, hs.stage.trans h.stage, hs.dispatched.trans h.dispatched⟩

variable {requiredMemory : Nat}

theorem Unplaced.allowed (h : Unplaced params l)
    (hmemory : params.requiredMemory = some (requiredMemory + 1)) {fixed}
    (hfixed : fixed = none ∨ fixed = params.fixedPlacement) (workers : Option (List WorkerRecord)) :
    l.Allowed (.placeAndReserve (params.placementRequest (requiredMemory + 1)) fixed workers) :=
  ⟨h.dispatched, params, requiredMemory, h.job, hmemory, rfl, hfixed⟩

theorem keeps_refreshAll_unplaced : Keeps launchContract (Unplaced params) Launching.refreshAll :=
  fun l hl => (keeps_refreshAll l l ⟨rfl, rfl, rfl⟩).mono fun _ _ h => hl.same h

theorem keeps_assertLaunchAllowed {I} (claims : LaunchClaims) :
    Keeps launchContract I (params.assertLaunchAllowed claims) := by
  unfold assertLaunchAllowed
  split
  · exact .pure _
  · exact .throw _

/-! ### The request part -/

theorem keepsCall_held {c} (hallowed : ∀ l, LaunchLoc.Allowed l c)
    (hafter : ∀ (l : LaunchLoc) r, l.stage = .held → (l.after c r).stage = .held) :
    KeepsCall launchContract (·.stage = .held) c :=
  fun l hl => ⟨hallowed l, fun r _ => hafter l r hl⟩

variable (result : PlacementResult)

theorem keeps_recordPlacement_held :
    Keeps launchContract (·.stage = .held) (params.recordPlacement result) := by
  refine (keeps_ofService .held (by decide) _).bind fun _ => ?_
  refine (keepsCall_held (c := .createRow result) (fun _ => trivial) fun l r hl => ?_).perform
  rw [LaunchLoc.after, written_of_ne (by rw [hl]; decide), hl]

theorem checked_held (hl : l.stage = .held) (r : Except Failure LaunchClaims) :
    (l.checked r).stage = .held := by
  cases r with
  | error => rw [LaunchLoc.checked, written_of_ne (by rw [hl]; decide), hl]
  | ok => rw [LaunchLoc.checked, if_neg (by rw [hl]; decide), hl]

theorem keepsCall_readClaims_held : KeepsCall launchContract (·.stage = .held) .readClaims :=
  keepsCall_held (fun _ => trivial) fun _ r hl => checked_held hl r

theorem keeps_assertMoveStillOwned_held :
    Keeps launchContract (·.stage = .held) params.assertMoveStillOwned := by
  unfold assertMoveStillOwned
  split
  · exact .pure _
  · exact (keeps_ofService .held (by decide) _).bind fun _ => .ite (.pure _) (.throw _)

def HandedOver (params : LaunchParams) (l : LaunchLoc) : Background → Prop
  | .deploy _ => l.stage = .held
  | .reclaim _ _ => Unplaced params l

theorem obeys_placed (hl : l.stage = .held) : Obeys launchContract (fun l r => match r with
      | .ok task => HandedOver params l task
      | .error _ => l.stage ≠ .reserved)
      (do
        params.recordPlacement result
        let claims ← request .readClaims
        if claims.deleting then
          ignoringErrors (request .deleteRow)
          throwControlPlane params.deleteInProgress
        else
          params.assertLaunchAllowed claims
          params.assertMoveStillOwned
          pure (.deploy result)) l := by
  have herr : ∀ (l : LaunchLoc) (e : Failure), l.stage = .held → l.stage ≠ .reserved :=
    fun l _ hl hr => nomatch hl.symm.trans hr
  refine (keeps_recordPlacement_held result).obeys_bind hl (fun l _ hl => ?_) herr
  refine keepsCall_readClaims_held.obeys_bind hl (fun l claims hl => ?_) herr
  split
  · have hdelete : KeepsCall launchContract (·.stage = .held) .deleteRow :=
      keepsCall_held (fun _ => trivial) fun _ _ hl => hl
    refine (hdelete.perform.tryCatch fun _ => .pure _).obeys_bind hl (fun l _ hl => ?_) herr
    exact herr l (.ownershipLost) hl
  · refine (keeps_assertLaunchAllowed claims).obeys_bind hl (fun l _ hl => ?_) herr
    refine keeps_assertMoveStillOwned_held.obeys_bind hl (fun l _ hl => ?_) herr
    exact hl

theorem obeys_placeOrReclaim (hmemory : params.requiredMemory = some (requiredMemory + 1))
    (hl : Unplaced params l) :
    Obeys launchContract (fun l r => match r with
      | .ok task => HandedOver params l task
      | .error _ => l.stage ≠ .reserved) (params.placeOrReclaim (requiredMemory + 1)) l := by
  have herr : ∀ (l : LaunchLoc) (e : Failure), Unplaced params l → l.stage ≠ .reserved :=
    fun l _ hl hr => nomatch hl.stage.symm.trans hr
  refine keeps_refreshAll_unplaced.obeys_bind hl (fun l _ hl => ?_) herr
  refine obeys_bind.mpr ⟨hl.allowed hmemory (.inr rfl) none, fun r _ => ?_⟩
  match r with
  | .error e => exact herr l e hl
  | .ok (workers, some result) => exact obeys_placed result rfl
  | .ok (workers, none) =>
    change Obeys launchContract _ (ite _ _ _) l
    split
    · exact herr l .ownershipLost hl
    · split
      · exact herr l .ownershipLost hl
      · have hselect : KeepsCall launchContract (Unplaced params) (.selectVictims
            (Placement.eligibleWorkerIds (params.placementRequest (requiredMemory + 1))
              workers)) := fun _ h => ⟨trivial, fun _ _ => h⟩
        refine hselect.obeys_bind hl (fun l _ hl => ?_) herr
        split
        · exact herr l .ownershipLost hl
        · exact hl

theorem obeys_released (err : Failure) : Obeys launchContract (fun l r => match r with
      | .ok task => HandedOver params l task
      | .error _ => l.stage.Done)
      (do
        request .releaseReservations
        throw err : Launching Background) l := by
  refine obeys_bind.mpr ⟨trivial, fun r _ => ?_⟩
  cases r with
  | error e | ok _ => exact .inl rfl

theorem obeys_requestPart (protocol : Protocol)
    (hmemory : params.requiredMemory = some (requiredMemory + 1)) (hl : Unplaced params l) :
    Obeys launchContract (fun l r => match r with
      | .ok task => HandedOver params l task
      | .error _ => l.stage.Done) (params.requestPart (requiredMemory + 1) protocol) l := by
  refine obeys_bind.mpr (obeys_tryCatch.mpr ⟨trivial, fun r _ => ?_⟩)
  cases r with
  | error e =>
    refine obeys_bind.mpr ⟨trivial, fun r _ => ?_⟩
    cases r with
    | error e | ok _ => exact .inl rfl
  | ok =>
    refine (obeys_placeOrReclaim hmemory hl).tryCatch (fun _ _ h => h) fun l e hl => ?_
    -- The removal of the record cannot fail here, so the release is reached.
    refine obeys_bind.mpr (((keeps_ofService l.stage hl _ l rfl).tryCatch
    (Q := fun _ r => ∃ a, r = .ok a) (fun _ a _ => ⟨a, rfl⟩) fun _ _ _ =>
    obeys_pure.mpr ⟨(), rfl⟩).mono ?_)
    rintro l _ ⟨_, rfl⟩
    exact obeys_released e

/-! ### The reclamation -/

/-- The reclamation has reserved: a failure leaves the hold behind. -/
structure Reserved (params : LaunchParams) (l : LaunchLoc) : Prop where
  job : l.job = .launch params
  stage : l.stage = .reserved

/-- The reclamation after a write that was `ok` or failed. -/
def Written (params : LaunchParams) (l : LaunchLoc) : Bool → Prop
  | true => Reserved params l
  | false => l.stage.Done

theorem Reserved.written (h : Reserved params l) (ok : Bool) :
    Written params (l.written ok) ok := by
  cases ok with
  | true => exact ⟨(l.job_written true).trans h.job, by simp [LaunchLoc.written, h.stage]⟩
  | false => exact .inr (.inr (by simp [LaunchLoc.written, h.stage]))

theorem Reserved.obeys_transition (h : Reserved params l) (instanceId : String)
    (target : ModelLifecycleState) (updates : InstanceUpdates) :
    Obeys launchContract (fun l r => Written params l (LaunchLoc.succeeded r))
      (ofService (await (.transition instanceId target updates))) l := by
  refine ⟨trivial, fun r _ => ?_⟩
  cases r with
  | error => exact h.written false
  | ok => exact ⟨(h.written true).job, (h.written true).stage⟩

theorem obeys_recordPlacement_reserved (hl : Reserved params l) :
    Obeys launchContract (fun l r => Written params l (LaunchLoc.succeeded r))
      (params.recordPlacement result) l := by
  refine obeys_bind.mpr ((hl.obeys_transition _ _ _).mono ?_)
  rintro l (e | _) hl
  · exact hl
  · exact ⟨trivial, fun r _ => Reserved.written hl (LaunchLoc.succeeded r)⟩

variable {protocol : Protocol}

theorem obeys_reclaimed {timeouts} (hl : Reserved params l) :
    Obeys launchContract (fun l _ => l.stage.Done) (do
        params.recordPlacement result
        let claims ← request .readClaims
        if claims.deleting then
          request .releaseReservations
          let _ ← ofService (await (.transition params.instanceId .error
            { errorMessage := some (some "Deployment aborted: model delete in progress") }))
          ofService refreshModelRoutingState
        else
          params.assertLaunchAllowed claims
          (params.deployParams protocol result false).deployModelHolding timeouts) l := by
  refine obeys_bind.mpr ((obeys_recordPlacement_reserved result hl).mono ?_)
  rintro l (e | _) hl
  · exact hl
  refine obeys_bind.mpr ⟨trivial, fun r _ => ?_⟩
  cases r with
  | error e => exact hl.written false
  | ok claims =>
    change Obeys launchContract _ (ite _ _ _) (l.checked (.ok claims))
    rw [LaunchLoc.checked, if_pos hl.stage]
    cases hdeleting : claims.deleting with
    | true =>
      -- The release comes first; what follows cannot undo it.
      refine obeys_bind.mpr ⟨trivial, fun r _ => ?_⟩
      cases r with
      | error e => exact .inl rfl
      | ok =>
        refine (((keeps_ofService .free (by decide) _).bind fun _ =>
          keeps_ofService .free (by decide) _) _ rfl).mono ?_
        exact fun l _ hl => .inl hl
    | false =>
      simp only [LaunchLoc.claimsAnswered, hdeleting, hl.job]
      unfold assertLaunchAllowed
      cases params.launchAllowed claims with
      | error error => exact .inr (.inr rfl)
      | ok => exact DeployModelParams.obeys_deployModelHolding timeouts _ rfl

theorem obeys_reclaimCapacity {timeouts workers victims}
    (hmemory : params.requiredMemory = some (requiredMemory + 1)) (hl : Unplaced params l) :
    Obeys launchContract (fun l _ => l.stage.Done)
      (params.reclaimCapacity timeouts (requiredMemory + 1) protocol workers victims) l := by
  have herr : ∀ (l : LaunchLoc) (e : Failure), Unplaced params l → l.stage.Done :=
    fun l _ hl => .inl hl.stage
  have hevict : KeepsCall launchContract (Unplaced params) (.evictVictims victims) :=
    fun _ h => ⟨trivial, fun _ _ => h⟩
  refine hevict.obeys_bind hl (fun l _ hl => ?_) herr
  refine keeps_refreshAll_unplaced.obeys_bind hl (fun l _ hl => ?_) herr
  refine obeys_bind.mpr ⟨hl.allowed hmemory (.inl rfl) (some workers), fun r _ => ?_⟩
  match r with
  | .error e => exact herr l e hl
  | .ok (_, none) => exact .inl hl.stage
  | .ok (_, some result) => exact obeys_reclaimed result ⟨hl.job, rfl⟩

variable (timeouts : Timeouts)

theorem obeys_background (protocol : Protocol)
    (hmemory : params.requiredMemory = some (requiredMemory + 1)) {task}
    (hl : HandedOver params l task) :
    Obeys launchContract (fun l _ => l.stage.Done)
      (params.background timeouts (requiredMemory + 1) protocol task) l := by
  cases task with
  | deploy => exact DeployModelParams.obeys_deployModelHolding timeouts _ hl
  | reclaim =>
    refine (obeys_reclaimCapacity hmemory hl).tryCatch (fun _ _ h => h) fun l e hl => ?_
    have hne : l.stage ≠ .reserved := by
      rcases hl with h | h | h <;> exact fun hr => nomatch h.symm.trans hr
    exact (keeps_ofService l.stage hne _ l rfl).mono fun _ _ h => by rwa [h]

/-- **A launch settles without a hold, or with one that is retained or
abandoned.** -/
theorem obeys_deployFromRecord (hl : Unplaced params l) :
    Obeys launchContract (fun l _ => l.stage.Done) (params.deployFromRecord timeouts) l := by
  have herr : ∀ (l : LaunchLoc) (e : Failure), Unplaced params l → l.stage.Done :=
    fun l _ hl => .inl hl.stage
  have hclaims : KeepsCall launchContract (Unplaced params) .readClaims := by
    refine fun l hl => ⟨trivial, fun r _ => ?_⟩
    have hsame : l.checked r = l := by
      cases r with
      | error e => exact written_of_ne (by rw [hl.stage]; decide) _
      | ok claims => exact if_neg (by rw [hl.stage]; decide)
    change Unplaced params (l.checked r)
    rwa [hsame]
  have hmeta : KeepsCall launchContract (Unplaced params) .resolveRunnerMetadata :=
    fun _ h => ⟨trivial, fun _ _ => h⟩
  refine hclaims.obeys_bind hl (fun l claims hl => ?_) herr
  refine (keeps_assertLaunchAllowed claims).obeys_bind hl (fun l _ hl => ?_) herr
  split
  · split
    · rename_i requiredMemory hmemory
      refine hmeta.obeys_bind hl (fun l protocol hl => ?_) herr
      refine obeys_bind.mpr ((obeys_requestPart protocol hmemory hl).mono ?_)
      rintro l (e | _) hl
      · exact hl
      · exact obeys_background timeouts protocol hmemory hl
    · exact .inl hl.stage
  · exact .inl hl.stage

end LaunchParams

end Sardeenz
