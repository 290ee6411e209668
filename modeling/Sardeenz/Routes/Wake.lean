/-
# `Sardeenz.Routes.Wake` — wake triggers on one model

`POST /api/v1/wake` (`routes/internal.ts`) and the proxy's side of it
(`trigger_wake`, `parking/wake.rs`).  The route reads the instances, and then

    some instance is ACTIVE or STARTING      accepted, nothing to do
    none is SLEEPING                         409
    otherwise                                the most recently active one that sleeps is
                                             claimed, SLEEPING → STARTING, and woken in the
                                             background

The claim is a compare-and-set, and "a losing concurrent request will find it in
STARTING and return 202 above".  It does so only if it reads the instances after
the claim.  If it has read them before, its own claim is refused, the route
answers 409, and the proxy fails the requests it has parked.

**Proved here.**  When all triggers are accepted and one instance wakes (`one_wake`), and
two that are answered differently (`lost_race_rejected`).
-/
import Mathlib.Data.Fintype.Basic
import Sardeenz.Services.Listing

namespace Sardeenz

open Interleave List Option Function AList Listing

/-! ## The route -/

/-- The body of an answer that is no error, with its status. -/
structure WakeResponse where
  statusCode : Nat
  accepted : Bool
  modelName : String
  currentState : ModelLifecycleState
  message : String
deriving DecidableEq, Repr

/-- What the route does with the instances it has read. -/
inductive WakeDecision where
  | respond (response : WakeResponse)
  | reject (error : ControlPlaneError)
  | claim (target : InstanceState)
deriving DecidableEq

/-- `lastInferenceAt ?? ''`, in the order of the texts. -/
def InstanceState.recency (r : InstanceState) : Nat :=
  match r.lastInferenceAt with
  | none => 0
  | some time => time + 1

/-- The comparison of the route's `sort` is negative. -/
def wakesBefore (a b : InstanceState) : Bool :=
  b.recency < a.recency || (b.recency = a.recency && b.stateChangedAt < a.stateChangedAt)

/-- The first element after the `sort`, which is stable. -/
def wakeTarget : List InstanceState → Option InstanceState
  | [] => none
  | first :: rest =>
    some (rest.foldl (fun best i => if wakesBefore i best then i else best) first)

def wakeDecision (modelName : String) (instances : List InstanceState) : WakeDecision :=
  if instances.isEmpty then .reject (.modelNotFound modelName)
  else if instances.any (·.state = .active) then
    .respond ⟨200, true, modelName, .active, "Model is already active"⟩
  else if instances.any (·.state = .starting) then
    .respond ⟨202, true, modelName, .starting, "Model is already waking up"⟩
  else
    match wakeTarget (instances.filter (·.state = .sleeping)) with
    | none => .reject (.invalidState modelName (deriveAggregateState instances).text "wake")
    | some target =>
      if target.endpointAddress.isSome then .claim target
      else
        .reject ⟨500, .internalError,
          s!"Instance {target.instanceId} of {modelName} has no runner endpoint", []⟩

/-- The wake route, up to its answer.  The wake itself runs in the background. -/
def wakeRoute (modelName : String) : Service WakeResponse := do
  if ← await .isLeader then
    let instances ← getInstancesForModel
    match wakeDecision modelName instances with
    | .respond response => pure response
    | .reject error => Service.throwControlPlane error
    | .claim target =>
      let _ ← await (.transition target.instanceId .starting {})
      refreshModelRoutingState
      pure ⟨202, true, modelName, .starting, "Wake initiated"⟩
  else Service.throwControlPlane .notLeader

def triggerWake (modelName : String) : Service Unit :=
  (wakeRoute modelName).handle fun
    | .ok response =>
      if response.accepted then pure ()
      else throw (.other "control plane did not accept wake")
    | .error _ => throw (.other "wake trigger rejected by control plane")

/-! ## The decision -/

variable {instances : List InstanceState}

theorem wakeTarget_mem {target}
    (h : wakeTarget instances = some target) : target ∈ instances := by
  cases instances with
  | nil => cases h
  | cons first rest =>
    obtain rfl := Option.some.inj h
    clear h
    induction rest generalizing first with
    | nil => exact mem_singleton_self _
    | cons i rest =>
      grind [mem_cons.mpr]

def InstanceState.Awake (r : InstanceState) : Prop := r.state = .active ∨ r.state = .starting

theorem wakeDecision_awake (modelName : String) (h : ∃ i ∈ instances, i.Awake) :
    ∃ response, wakeDecision modelName instances = .respond response ∧ response.accepted = true := by
  obtain ⟨i, hi, hawake⟩ := h
  have hne : instances.isEmpty = false := by
    cases instances with
    | nil => exact absurd hi not_mem_nil
    | cons => rfl
  simp only [wakeDecision, hne, Bool.false_eq_true, if_false]
  split
  · exact ⟨_, rfl, rfl⟩
  · rename_i hactive
    have hstarting : instances.any (·.state = .starting) = true := by
      refine any_eq_true.mpr ⟨i, hi, decide_eq_true ?_⟩
      refine hawake.resolve_left fun h => hactive ?_
      exact any_eq_true.mpr ⟨i, hi, decide_eq_true h⟩
    simp_all

theorem wakeDecision_asleep (modelName : String) (hne : instances ≠ [])
    (h : ∀ i ∈ instances, i.state = .sleeping ∧ i.endpointAddress.isSome = true) :
    ∃ target ∈ instances, wakeDecision modelName instances = .claim target := by
  have hempty : instances.isEmpty = false := by
    cases instances with
    | nil => exact absurd rfl hne
    | cons => rfl
  have hnone : ∀ q : ModelLifecycleState, q ≠ .sleeping →
      instances.any (·.state = q) = false := by
    refine fun q hq => any_eq_false.mpr fun i hi hd => hq ?_
    rw [← of_decide_eq_true hd, (h i hi).1]
  have hall : instances.filter (·.state = .sleeping) = instances :=
    filter_eq_self.mpr fun i hi => decide_eq_true (h i hi).1
  simp only [wakeDecision]
  cases htarget : wakeTarget instances with
  | none =>
    cases instances with
    | nil => exact absurd rfl hne
    | cons => cases htarget
  | some target =>
    have hmem := wakeTarget_mem htarget
    grind

theorem mem_of_claim {modelName target}
    (h : wakeDecision modelName instances = .claim target) : target ∈ instances := by
  unfold wakeDecision at h
  grind [mem_of_mem_filter, wakeTarget_mem]

namespace Wake

/-! ## The contract -/

/-- How far a trigger is, or the wake it has left in the background. -/
inductive Stage where
  | choosing
  | claimed (id : String)
  | lost
  | idle
  | waking (id : String)
deriving DecidableEq

def Stage.after : Stage → (c : Call) → Except Failure (Reply c) → Stage
  | .choosing, .transition id _ _, .ok _ => .claimed id
  | .choosing, .transition _ _ _, .error _ => .lost
  | m, _, _ => m

def MayTransition (modelName : String) (k : Listing) (id : String)
    (target : ModelLifecycleState) : Stage → Prop
  | .choosing => target = .starting ∧ ∃ seen record, k = .reading [] seen ∧
      wakeDecision modelName (Listing.records seen) = .claim record ∧ id = record.instanceId
  | .waking id' => id = id' ∧ (target = .starting ∨ target = .active ∨ target = .error)
  | .claimed _ | .lost | .idle => False

def watched (modelName : String) : Watched Stage where
  allowed k m c :=
    match c with
    | .transition id target updates =>
      updates.keepsEndpoint ∧ MayTransition modelName k id target m
    | .isLeader | .scan | .scanned _ | .getInstance _ | .setModelState _ _ | .removeModel
    | .wakeRunner | .getHealth | .aborted | .addEndpoint _ _ => True
    | _ => False
  expected _ _ c r :=
    match c, r with
    | .transition _ _ _, _ => True
    | .isLeader, r => r = .ok true
    | _, .ok _ => True
    | _, .error _ => False
  next _ m c r := m.after c r

def Ends (modelName : String) (l : Listing × Stage) : Except Failure Unit → Prop
  | .ok _ => (∃ id, l.2 = .claimed id) ∨ l.2 = .choosing ∧ ∃ seen response,
      l.1 = .reading [] seen ∧ wakeDecision modelName (Listing.records seen) = .respond response
  | .error _ => l.2 = .lost ∨ l.2 = .choosing ∧ ∃ seen error,
      l.1 = .reading [] seen ∧ wakeDecision modelName (Listing.records seen) = .reject error

section
variable {modelName : String} {m : Stage}

theorem reads (modelName : String) (m : Stage) : (watched modelName).Reads (· = m) where
  scan _ _ hm := ⟨trivial, fun r => by rw [hm]; cases m <;> rfl⟩
  scanned _ _ _ hm := ⟨trivial, fun r => by rw [hm]; cases m <;> rfl⟩
  get _ _ _ hm := ⟨trivial, fun r => by rw [hm]; cases m <;> rfl⟩

theorem not_mayFail : ¬ (watched modelName).MayFail (· = m) := by
  rintro ⟨k, m, e, -, h | ⟨_, h⟩ | ⟨_, h⟩⟩
  all_goals exact h

theorem obeys_refresh_watched (k : Listing) :
    Obeys (watched modelName).contract (fun l r => l.2 = m ∧ ∃ u, r = .ok u)
      refreshModelRoutingState (k, m) := by
  refine Watched.obeys_refresh (reads modelName m) k rfl ?_ ?_ fun _ _ _ _ h => absurd h not_mayFail
  · rintro seen m _ _ rfl -
    refine ⟨⟨trivial, trivial⟩, fun r hr => ?_⟩
    match r, hr with
    | .ok u, _ => exact ⟨by cases m <;> rfl, u, rfl⟩
  · rintro seen m rfl -
    refine ⟨⟨trivial, trivial⟩, fun r hr => ?_⟩
    match r, hr with
    | .ok u, _ => exact ⟨by cases m <;> rfl, u, rfl⟩

theorem obeys_wakeRoute : Obeys (watched modelName).contract (fun l r => match r with
      | .ok response => response.accepted = true ∧ Ends modelName l (.ok ())
      | .error e => Ends modelName l (.error e)) (wakeRoute modelName) (.unread, .choosing) := by
  refine obeys_bind.mpr ⟨⟨trivial, trivial⟩, fun r hr => ?_⟩
  obtain rfl : r = .ok true := hr
  refine obeys_bind.mpr ((Watched.obeys_getInstancesForModel (reads modelName .choosing)
    .unread rfl).mono ?_)
  rintro l (e | _) hl
  · exact absurd hl.2 not_mayFail
  obtain ⟨seen, _, rfl, rfl, rfl⟩ := hl
  dsimp only
  split
  · rename_i response hdecision
    exact ⟨by grind [wakeDecision], .inr ⟨rfl, seen, response, rfl, hdecision⟩⟩
  · rename_i error hdecision
    exact .inr ⟨rfl, seen, error, rfl, hdecision⟩
  · rename_i target hdecision
    refine obeys_bind.mpr ⟨⟨trivial, ⟨rfl, rfl, rfl, rfl, rfl⟩, rfl, seen, target, rfl, hdecision,
      rfl⟩, fun r _ => ?_⟩
    match r with
    | .error e => exact .inl rfl
    | .ok record =>
      refine obeys_bind.mpr ((obeys_refresh_watched _).mono ?_)
      rintro l _ ⟨hl, u, rfl⟩
      exact ⟨rfl, .inl ⟨target.instanceId, hl⟩⟩

theorem obeys_triggerWake :
    Obeys (watched modelName).contract (Ends modelName) (triggerWake modelName)
      (.unread, .choosing) := by
  refine obeys_handle.mpr (obeys_wakeRoute.mono ?_)
  rintro l (e | _) hl
  · exact hl
  · simp_all

/-! ### The wake in the background -/

theorem keepsCall_waking {id c} (hallowed : ∀ k,
    (watched modelName).allowed k (.waking id) c) (hnot : ∀ k : Listing, k.Follows c) :
    KeepsCall (watched modelName).contract (·.2 = .waking id) c := by
  rintro ⟨k, _⟩ rfl
  exact ⟨⟨hnot k, hallowed k⟩, fun r _ => rfl⟩

theorem keeps_wakeModel (timeouts : Timeouts) (id : String) :
    Keeps (watched modelName).contract (·.2 = .waking id) (wakeModel timeouts modelName id) := by
  have htransition : ∀ target (updates : InstanceUpdates), updates.keepsEndpoint →
      (target = .starting ∨ target = .active ∨ target = .error) →
      KeepsCall (watched modelName).contract (·.2 = .waking id)
        (.transition id target updates) := fun target updates hupdates htarget =>
    keepsCall_waking (fun _ => ⟨hupdates, rfl, htarget⟩) fun _ => trivial
  have hnone : InstanceUpdates.keepsEndpoint {} := ⟨rfl, rfl, rfl, rfl, rfl⟩
  have hcalls : WakeCalls (watched modelName).contract (·.2 = .waking id) id :=
    { refresh := by
        rintro ⟨k, _⟩ rfl
        exact (obeys_refresh_watched k).mono fun _ _ h => h.1
      getInstance := keepsCall_waking (fun _ => trivial) fun _ => trivial
      getHealth := keepsCall_waking (fun _ => trivial) fun _ => trivial
      aborted := keepsCall_waking (fun _ => trivial) fun _ => trivial
      wakeRunner := keepsCall_waking (fun _ => trivial) fun _ => trivial
      addEndpoint := fun _ _ => keepsCall_waking (fun _ => trivial) fun _ => trivial
      active := htransition _ _ hnone (.inr (.inl rfl))
      error := fun updates h => htransition _ _ h (.inr (.inr rfl)) }
  refine hcalls.wakeModel ?_ timeouts modelName
  rintro ⟨k, _⟩ _ rfl - -
  exact (htransition .starting {} hnone (.inl rfl)).perform _ rfl

end

/-! ## The system -/

def transitionOf : Call → Option (String × ModelLifecycleState)
  | .transition id target _ => some (id, target)
  | _ => none

/-- One step of a trigger, or of the wake it has started. -/
inductive Action (T : Type) where
  | trigger (t : T) (i : Input)
  | background (t : T) (i : Input)

namespace Action

variable {T : Type}

def thread : Action T → T ⊕ T
  | trigger t _ => .inl t
  | background t _ => .inr t

def input : Action T → Input
  | trigger _ i | background _ i => i

end Action

abbrev State (T : Type) := Threads Call Reply Failure (Listing × Stage) World (T ⊕ T)

def start {T : Type} (modelName : String) (w : World) : State T where
  world := w
  prog := Sum.elim (fun _ => triggerWake modelName) fun _ => .done (.ok ())
  loc := Sum.elim (fun _ => (.unread, .choosing)) fun _ => (.unread, .idle)

section
variable {T : Type} [DecidableEq T]

/-- A trigger that has claimed and is answered leaves `wakeModel` behind. -/
def spawn (σ : Setting) (timeouts : Timeouts) (t : T) (s : State T) : State T :=
  match s.prog (.inl t), (s.loc (.inl t)).2 with
  | .done (.ok _), .claimed id =>
    s.put s.world (.inr t) (wakeModel timeouts σ.modelName id) (.unread, .waking id)
  | _, _ => s

def step (σ : Setting) (timeouts : Timeouts) (s : State T) (a : Action T) : Option (State T) :=
  let moved := s.step (watched σ.modelName).contract (fun _ i => World.perform σ i) a.thread a.input
  match a with
  | .trigger t _ => moved.map (spawn σ timeouts t)
  | .background _ _ => moved

/-- No external failure: Redis answers, the leader stays, and the runner that is
woken becomes ready in time. -/
@[mk_iff]
structure Undisturbed (s : State T) (a : Action T) : Prop where
  answered : a.input.outcome = .answered
  leader : a.input.isLeader = true
  wakes : ∀ c ∈ (s.prog a.thread).awaited, ∀ move ∈ transitionOf c, move.2 ≠ .error

instance (s : State T) (a : Action T) : Decidable (Undisturbed s a) :=
  decidable_of_iff' _ (undisturbed_iff ..)

def ClaimsUnread (s : State T) : Action T → Prop
  | .trigger t _ => ∀ c ∈ (s.prog (.inl t)).awaited, ∀ move ∈ transitionOf c,
      ∀ t', t' ≠ t → move.1 ∉ (s.loc (.inl t')).1.seen.map (·.1)
  | .background _ _ => True

instance [Fintype T] (s : State T) (a : Action T) : Decidable (ClaimsUnread s a) := by
  unfold ClaimsUnread
  split <;> infer_instance

def Orderly (s : State T) (a : Action T) : Prop := Undisturbed s a ∧ ClaimsUnread s a

instance [Fintype T] (s : State T) (a : Action T) : Decidable (Orderly s a) :=
  inferInstanceAs (Decidable (_ ∧ _))

/-- All instances sleep, and their runners are known. -/
structure AllAsleep (w : World) : Prop where
  inhabited : ∃ id, id ∈ w.instances
  asleep : ∀ id r, w.instances.lookup id = some r →
    r.instanceId = id ∧ r.state = .sleeping ∧ r.endpointAddress.isSome = true

def Moved (w : World) (id : String) : Prop :=
  ∃ r, w.instances.lookup id = some r ∧ r.state ≠ .sleeping

end

/-! ## The invariant -/

/-- A record as it is while `moved` is the instance that has been claimed. -/
structure Fits (moved : Option String) (id : String) (r : InstanceState) : Prop where
  key : r.instanceId = id
  endpoint : r.endpointAddress.isSome = true
  awake : moved = some id → r.Awake
  asleep : moved ≠ some id → r.state = .sleeping

def OfTrigger (moved : Option String) (instances : Instances) : Listing × Stage → Prop
  | (k, .choosing) => (∀ id ∈ instances, k.Covers id) ∧
      ∀ x ∈ k.seen, (x.2.isSome = true ↔ x.1 ∈ instances) ∧ ∀ r ∈ x.2, Fits moved x.1 r
  | (_, .claimed id) => moved = some id
  | (_, .lost) | (_, .idle) | (_, .waking _) => False

def OfBackground (moved : Option String) : Listing × Stage → Prop
  | (_, .idle) => True
  | (_, .waking id) => moved = some id
  | (_, .choosing) | (_, .claimed _) | (_, .lost) => False

def OfThread {T : Type} (moved : Option String) (instances : Instances) :
    T ⊕ T → Listing × Stage → Prop
  | .inl _ => OfTrigger moved instances
  | .inr _ => OfBackground moved

/-- The instance that has been claimed, if one has, and everything else asleep. -/
structure Facts {T : Type} (moved : Option String) (instances : Instances)
    (loc : T ⊕ T → Listing × Stage) : Prop where
  inhabited : ∃ id, id ∈ instances
  record : ∀ id r, instances.lookup id = some r → Fits moved id r
  present : ∀ id, moved = some id → id ∈ instances
  thread : ∀ t, OfThread moved instances t (loc t)

section
variable {T : Type} {moved : Option String} {instances : Instances}
  {loc : T ⊕ T → Listing × Stage} {modelName : String}

variable {seen : List (String × Option InstanceState)} {id : String}

theorem OfTrigger.mem_records (h : OfTrigger moved instances (.reading [] seen, .choosing))
    (hid : id ∈ instances) : ∃ r ∈ records seen, Fits moved id r := by
  rcases h.1 id hid with hleft | ⟨_, hseen⟩
  · exact absurd hleft not_mem_nil
  · obtain ⟨r, rfl⟩ := isSome_iff_exists.mp ((h.2 _ hseen).1.mpr hid)
    exact ⟨r, mem_filterMap.mpr ⟨_, hseen, rfl⟩, (h.2 _ hseen).2 r rfl⟩

variable {k : Listing}

theorem OfTrigger.of_mem_records (h : OfTrigger moved instances (k, .choosing)) {r}
    (hr : r ∈ records k.seen) :
    r.instanceId ∈ instances ∧ Fits moved r.instanceId r := by
  obtain ⟨⟨_, record⟩, hseen, hrecord⟩ := mem_filterMap.mp hr
  obtain rfl : record = some r := hrecord
  have hfits := (h.2 _ hseen).2 r rfl
  rw [hfits.key]
  exact ⟨(h.2 _ hseen).1.mp rfl, hfits⟩

theorem Facts.decision_of_moved (modelName : String) (h : Facts moved instances loc)
    (hmoved : moved = some id) (hk : OfTrigger moved instances (.reading [] seen, .choosing)) :
    ∃ response, wakeDecision modelName (records seen) = .respond response := by
  obtain ⟨r, hr, hfits⟩ := hk.mem_records (h.present id hmoved)
  obtain ⟨response, hdecision, -⟩ := wakeDecision_awake modelName ⟨r, hr, hfits.awake hmoved⟩
  exact ⟨response, hdecision⟩

theorem Facts.decision_of_asleep (modelName : String) (h : Facts none instances loc)
    (hk : OfTrigger none instances (.reading [] seen, .choosing)) :
    ∃ target, wakeDecision modelName (records seen) = .claim target := by
  obtain ⟨_, hid⟩ := h.inhabited
  obtain ⟨r, hr, -⟩ := hk.mem_records hid
  obtain ⟨target, -, hdecision⟩ := wakeDecision_asleep modelName (ne_nil_of_mem hr)
    fun i hi => ⟨(hk.of_mem_records hi).2.asleep nofun, (hk.of_mem_records hi).2.endpoint⟩
  exact ⟨target, hdecision⟩

variable {l : Listing × Stage}

theorem Facts.ends (h : Facts moved instances loc) (hl : OfTrigger moved instances l)
    {r} (hends : Ends modelName l r) :
    r = .ok () ∧ ∃ id, moved = some id := by
  obtain ⟨k, m⟩ := l
  match r, hends with
  | .ok _, .inl ⟨id, hm⟩ =>
    obtain rfl : m = .claimed id := hm
    exact ⟨rfl, id, hl⟩
  | .ok _, .inr ⟨hm, seen, response, hk, hdecision⟩ =>
    obtain rfl : m = .choosing := hm
    obtain rfl : k = .reading [] seen := hk
    cases moved with
    | some id => exact ⟨rfl, id, rfl⟩
    | none =>
      obtain ⟨target, hclaim⟩ := h.decision_of_asleep modelName hl
      exact nomatch hdecision.symm.trans hclaim
  | .error e, .inl hm =>
    obtain rfl : m = .lost := hm
    exact absurd hl id
  | .error e, .inr ⟨hm, seen, error, hk, hdecision⟩ =>
    obtain rfl : m = .choosing := hm
    obtain rfl : k = .reading [] seen := hk
    cases moved with
    | some id =>
      obtain ⟨response, hrespond⟩ := h.decision_of_moved modelName rfl hl
      exact nomatch hdecision.symm.trans hrespond
    | none =>
      obtain ⟨target, hclaim⟩ := h.decision_of_asleep modelName hl
      exact nomatch hdecision.symm.trans hclaim

/-! ### The calls -/

variable {σ : Setting} {i : Input} {w w' : World} {c : Call}

theorem expected_of_answered {m r}
    (hanswered : i.outcome = .answered) (hleader : i.isLeader = true)
    (hallowed : (watched modelName).allowed k m c) (h : w.perform σ i c = some (w', r)) :
    (watched modelName).expected k m c r := by
  have hok : ∀ {α : Type} {after : World} {r r' : Except Failure α},
      i.reply w after r = some (w', r') → r' = r := by
    intro α after r r' h
    simp only [Input.reply, hanswered] at h
    exact (Prod.mk.inj (Option.some.inj h)).2.symm
  cases c with
  | transition => exact trivial
  | isLeader =>
    cases h
    exact congrArg Except.ok hleader
  | aborted =>
    cases h
    exact trivial
  | scanned =>
    obtain ⟨-, h⟩ := ite_none_right_eq_some.mp h
    obtain rfl := hok h
    exact trivial
  | getInstance | scan | setModelState | removeModel | wakeRunner | getHealth | addEndpoint =>
    obtain rfl := hok h
    exact trivial
  | _ => exact absurd hallowed id

theorem exists_answer (σ : Setting) (w : World) {m}
    (hallowed : (watched modelName).allowed k m c) :
    ∃ i : Input, i.outcome = .answered ∧ i.isLeader = true ∧ (w.perform σ i c).isSome := by
  cases c with
  | scanned startIds =>
    refine ⟨{ keys := startIds }, rfl, rfl, ?_⟩
    have hscan : Refresh.ScanReply startIds w.instances startIds :=
      ⟨fun id hid _ => hid, fun id hid => hid⟩
    simp only [World.perform, if_pos hscan]
    rfl
  | transition id =>
    refine ⟨{}, rfl, rfl, ?_⟩
    simp only [World.perform]
    split
    · rfl
    · rfl
  | isLeader | scan | getInstance | setModelState | removeModel | wakeRunner | getHealth | aborted
  | addEndpoint => exact ⟨{}, rfl, rfl, rfl⟩
  | _ => exact absurd hallowed id

variable {t : T ⊕ T}

theorem Facts.put [DecidableEq T] (h : Facts moved instances loc)
    (hl : OfThread moved instances t l) :
    Facts moved instances (update loc t l) := by
  refine ⟨h.inhabited, h.record, h.present, ?_⟩
  exact (forall_update_iff _ _).mpr ⟨hl, fun t' _ => h.thread t'⟩

theorem Facts.read (h : Facts moved w.instances loc) {r}
    (hc : transitionOf c = none) (hallowed : (watched modelName).contract.allowed (loc t) c)
    (hw : w.perform σ i c = some (w', r)) :
    OfThread moved w.instances t ((watched modelName).contract.next (loc t) c r) := by
  have hstage : ∀ m : Stage, m.after c r = m := by
    intro m
    cases c with
    | transition => cases hc
    | _ => cases m <;> rfl
  have hthread := h.thread t
  rcases hl : loc t with ⟨k, m⟩
  rw [hl] at hallowed hthread
  change OfThread moved w.instances t (k.after c r, m.after c r)
  rw [hstage m]
  cases t with
  | inr t =>
    cases m with
    | idle | waking => exact hthread
    | _ => exact absurd hthread id
  | inl t =>
    cases m with
    | claimed id => exact hthread
    | choosing =>
      refine ⟨fun id hid => (hthread.1 id hid).after hallowed.1 hid hw, fun x hx => ?_⟩
      rcases mem_seen_after hw hx with hx | hx
      · exact hthread.2 x hx
      · rw [hx]
        exact ⟨lookup_isSome, fun r hr => h.record x.1 r hr⟩
    | _ => exact absurd hthread id

variable {record : InstanceState}

theorem Facts.insert (h : Facts moved instances loc) (hid : id ∈ instances)
    (hmoved : ∀ id', moved = some id' → id' = id)
    (hfits : Fits (some id) id record) {loc' : T ⊕ T → Listing × Stage}
    (hthread : ∀ t, OfThread (some id) instances t (loc' t)) :
    Facts (some id) (instances.insert id record) loc' := by
  have hmem : ∀ x, x ∈ instances.insert id record ↔ x ∈ instances := by
    grind [mem_insert]
  refine ⟨⟨id, (hmem id).mpr hid⟩, fun x r hx => ?_, fun x hx => ?_, fun t => ?_⟩
  · by_cases hxid : x = id
    · grind [lookup_insert]
    · rw [lookup_insert_ne hxid] at hx
      have hold := h.record x r hx
      refine ⟨hold.key, hold.endpoint, fun heq => absurd (Option.some.inj heq).symm hxid,
        fun _ => hold.asleep fun heq => hxid (hmoved x heq)⟩
  · cases hx
    exact (hmem id).mpr hid
  · have ht := hthread t
    cases t with
    | inr t => exact ht
    | inl t =>
      rcases hl : loc' (.inl t) with ⟨k, m⟩
      rw [hl] at ht
      cases m with
      | choosing =>
        refine ⟨fun x hx => ht.1 x ((hmem x).mp hx), fun x hx => ?_⟩
        exact ⟨(ht.2 x hx).1.trans (hmem x.1).symm, (ht.2 x hx).2⟩
      | _ => exact ht

theorem OfThread.claimed (h : OfThread none instances t l)
    (hunread : t.isLeft = true → id ∉ l.1.seen.map (·.1)) :
    OfThread (some id) instances t l := by
  obtain ⟨k, m⟩ := l
  cases t with
  | inr t =>
    cases m with
    | waking id' => exact absurd h.symm (some_ne_none id')
    | _ => exact h
  | inl t =>
    cases m with
    | choosing =>
      refine ⟨h.1, fun x hx => ⟨(h.2 x hx).1, fun r hr => ?_⟩⟩
      have hfits := (h.2 x hx).2 r hr
      refine ⟨hfits.key, hfits.endpoint, fun heq => ?_, fun _ => hfits.asleep nofun⟩
      exact absurd (mem_map.mpr ⟨x, hx, (Option.some.inj heq).symm⟩) (hunread rfl)
    | claimed id' => exact absurd h.symm (some_ne_none id')
    | _ => exact h

variable {target : ModelLifecycleState} {updates : InstanceUpdates}

theorem Fits.transitioned (h : Fits moved id record)
    (htarget : target = .starting ∨ target = .active)
    (hupdates : updates.keepsEndpoint) (now : Nat) :
    Fits (some id) id (transitioned record target updates now) := by
  obtain ⟨hhost, hport, hengine, -, -⟩ := hupdates
  refine ⟨by rw [transitioned_instanceId, h.key], ?_, fun _ => ?_, fun hne => absurd rfl hne⟩
  · rw [endpointAddress_transitioned hhost hport hengine]
    exact h.endpoint
  · rw [InstanceState.Awake, transitioned_state]
    exact htarget.symm

variable {r : Except Failure InstanceState}

/-- **The claim.**  If no other trigger has read the instance, the others will
find it awake. -/
theorem Facts.claim [DecidableEq T] (h : Facts moved w.instances loc) {t}
    (hk : loc (.inl t) = (k, .choosing))
    (hallowed : (watched modelName).allowed k .choosing (.transition id target updates))
    (hunread : ∀ t', t' ≠ t → id ∉ (loc (.inl t')).1.seen.map (·.1))
    (hanswered : i.outcome = .answered)
    (hw : w.perform σ i (.transition id target updates) = some (w', r)) :
    Facts (some id) w'.instances (update loc (.inl t)
      ((watched modelName).contract.next (loc (.inl t)) (.transition id target updates) r)) := by
  obtain ⟨hupdates, rfl, seen, record, rfl, hdecision, rfl⟩ := hallowed
  have hthread : OfTrigger moved w.instances (.reading [] seen, .choosing) := by
    have hl := h.thread (.inl t)
    rw [hk] at hl
    exact hl
  obtain rfl : moved = none := by
    cases moved with
    | none => rfl
    | some id =>
      obtain ⟨_, hrespond⟩ := h.decision_of_moved modelName rfl hthread
      cases hdecision.symm.trans hrespond
  obtain ⟨hid, -⟩ := hthread.of_mem_records (mem_of_claim hdecision)
  obtain ⟨current, hcurrent⟩ := isSome_iff_exists.mp (lookup_isSome.mpr hid)
  have hfits := h.record _ current hcurrent
  have hok : transition (w.instances.lookup record.instanceId) σ.modelName record.instanceId
      .starting updates i.now = .ok (transitioned current .starting updates i.now) :=
    transition_eq_ok.mpr ⟨current, hcurrent, by rw [hfits.asleep fun h => by cases h]; rfl, rfl⟩
  simp only [World.perform, hok, Input.reply, hanswered] at hw
  cases hw
  refine h.insert hid (fun _ h => by cases h) (hfits.transitioned (.inl rfl) hupdates i.now)
    ((forall_update_iff _ _).mpr ⟨?_, fun t' _ => ?_⟩)
  · rw [hk]
    rfl
  · refine (h.thread t').claimed fun _ => ?_
    grind [Sum.isLeft_iff.mp]

theorem Facts.wake [DecidableEq T] (h : Facts moved w.instances loc) {t id'}
    (hk : loc (.inr t) = (k, .waking id'))
    (hallowed : (watched modelName).allowed k (.waking id') (.transition id target updates))
    (htarget : target ≠ .error)
    (hw : w.perform σ i (.transition id target updates) = some (w', r)) :
    Facts (some id) w'.instances (update loc (.inr t)
      ((watched modelName).contract.next (loc (.inr t)) (.transition id target updates) r)) := by
  obtain ⟨hupdates, rfl, _⟩ := hallowed
  have hmoved : moved = some id := by
    have hl := h.thread (.inr t)
    rw [hk] at hl
    exact hl
  subst hmoved
  have hnext : ∀ t', OfThread (some id) w.instances t' (update loc (.inr t)
      ((watched modelName).contract.next (loc (.inr t)) (.transition id target updates) r) t') := by
    refine (forall_update_iff _ _).mpr ⟨?_, fun t' _ => h.thread t'⟩
    rw [hk]
    cases r <;> rfl
  rcases World.perform_transition hw with ⟨rfl, -⟩ | ⟨record, hrecord, -, rfl, -⟩
  · exact ⟨h.inhabited, h.record, h.present, hnext⟩
  · refine h.insert (h.present id rfl) (fun id' heq => (Option.some.inj heq).symm) ?_ hnext
    refine (h.record id record hrecord).transitioned ?_ hupdates i.now
    grind

end

section
variable {T : Type}

def EndsAs (modelName : String) : T ⊕ T → Listing × Stage → Except Failure Unit → Prop
  | .inl _ => Ends modelName
  | .inr _ => fun _ _ => True

/-- **The invariant.** -/
structure Inv (σ : Setting) (s : State T) : Prop where
  obey : s.Obey (watched σ.modelName).contract (EndsAs σ.modelName)
  facts : ∃ moved, Facts moved s.world.instances s.loc

variable {σ : Setting} {timeouts : Timeouts} {w : World}

theorem Inv.start (hw : AllAsleep w) : Inv σ (start σ.modelName w : State T) where
  obey t := by
    cases t with
    | inl t => exact obeys_triggerWake
    | inr t => exact trivial
  facts := by
    refine ⟨none, hw.inhabited, fun id r hr => ?_, nofun, fun t => ?_⟩
    · obtain ⟨hkey, hstate, hendpoint⟩ := hw.asleep id r hr
      exact ⟨hkey, hendpoint, nofun, fun _ => hstate⟩
    · cases t with
      | inl t => exact ⟨fun _ _ => trivial, fun x hx => absurd hx not_mem_nil⟩
      | inr t => exact trivial

variable [DecidableEq T] {s s' : State T} {a : Action T}

theorem Facts.call {moved} (h : Facts moved s.world.instances s.loc)
    (hok : Orderly s a) {c} (hc : c ∈ (s.prog a.thread).awaited)
    (hallowed : (watched σ.modelName).contract.allowed (s.loc a.thread) c)
    {r} (hw : s.world.perform σ a.input c = some (w, r)) :
    ∃ moved, Facts moved w.instances (update s.loc a.thread
      ((watched σ.modelName).contract.next (s.loc a.thread) c r)) := by
  cases hmove : transitionOf c with
  | none =>
    have hinstances : w.instances = s.world.instances := by
      refine (World.perform_sameBut hw).instances ?_
      cases c with
      | transition => cases hmove
      | writeInstance | removeInstance => exact absurd hallowed.2 id
      | _ => exact nofun
    rw [hinstances]
    exact ⟨moved, h.put (h.read hmove hallowed hw)⟩
  | some =>
    cases c with
    | transition id target =>
      refine ⟨some id, ?_⟩
      have hthread := h.thread a.thread
      rcases hl : s.loc a.thread with ⟨k, m⟩
      rw [hl] at hallowed hthread
      rw [← hl]
      -- Triggers claim, wakes go on with what was claimed, and nothing else moves.
      cases a with
      | trigger t i =>
        cases m with
        | choosing =>
          exact h.claim hl hallowed.2 (hok.2 _ hc (id, target) rfl) hok.1.answered hw
        | claimed | lost | idle => exact absurd hallowed.2.2 False.elim
        | waking => exact absurd hthread False.elim
      | background t i =>
        cases m with
        | waking => exact h.wake hl hallowed.2 (hok.1.wakes _ hc (id, target) rfl) hw
        | claimed | lost | idle => exact absurd hallowed.2.2 False.elim
        | choosing => exact absurd hthread False.elim
    | _ => cases hmove

theorem Inv.thread (h : Inv σ s) (hok : Orderly s a)
    (hs : s.step (watched σ.modelName).contract (fun _ i => World.perform σ i) a.thread a.input =
      some s') : Inv σ s' := by
  have hstep : s'.Obey (watched σ.modelName).contract (EndsAs σ.modelName) ∧
      ∃ moved, Facts moved s'.world.instances s'.loc := by
    refine Threads.step_obey (J := fun s' => ∃ moved, Facts moved s'.world.instances s'.loc)
      h.obey ?_ hs
    rintro c w r - hallowed ⟨k, hk⟩ hw
    obtain ⟨moved, hfacts⟩ := h.facts
    refine ⟨expected_of_answered hok.1.answered hok.1.leader hallowed.2 hw, fun p => ?_⟩
    exact hfacts.call hok (by rw [hk]; rfl) hallowed hw
  exact ⟨hstep.1, hstep.2⟩

theorem Inv.spawn (h : Inv σ s) (t : T) : Inv σ (spawn σ timeouts t s) := by
  unfold Wake.spawn
  split
  · rename_i id _ hstage
    obtain ⟨moved, hfacts⟩ := h.facts
    refine ⟨h.obey.put ?_, moved, hfacts.put ?_⟩
    · exact (keeps_wakeModel timeouts id _ rfl).mono fun _ _ _ => trivial
    · have hthread := hfacts.thread (.inl t)
      rcases hl : s.loc (.inl t) with ⟨k, m⟩
      rw [hl] at hthread hstage
      obtain rfl : m = .claimed id := hstage
      exact hthread
  · exact h

theorem Inv.step (h : Inv σ s) (hok : Orderly s a) (hs : step σ timeouts s a = some s') :
    Inv σ s' := by
  cases a with
  | trigger t i =>
    obtain ⟨_, hs₁, rfl⟩ := map_eq_some_iff.mp hs
    exact (h.thread hok hs₁).spawn t
  | background t i => exact h.thread hok hs

/-- **One wake.**  All instances of a model sleep, and any number of triggers
arrive.  In every run without external failures in which no trigger claims an
instance that another one has already read: every trigger that is answered is
accepted, and one that is not can go on; no two instances are moved out of
`SLEEPING`, and once a trigger is answered exactly one has been. -/
theorem one_wake (hw : AllAsleep w) (hr : Reach (step σ timeouts) Orderly (start σ.modelName w) s) :
    (∀ t r, s.prog (.inl t) = .done r → r = .ok ()) ∧
      (∀ t, ¬ (s.prog (.inl t)).Settled → ∃ i s', i.outcome = .answered ∧ i.isLeader = true ∧
        step σ timeouts s (.trigger t i) = some s') ∧
      (∀ id id', Moved s.world id → Moved s.world id' → id = id') ∧
      ∀ t, (s.prog (.inl t)).Settled → ∃! id, Moved s.world id := by
  have hinv : Inv σ s := hr.inductive_inv (.start hw) fun h hok hs => Inv.step h hok hs
  obtain ⟨moved, hfacts⟩ := hinv.facts
  have hends : ∀ t r, s.prog (.inl t) = .done r → r = .ok () ∧ ∃ id, moved = some id := by
    intro t r hp
    have hobey := hinv.obey (.inl t)
    rw [hp] at hobey
    exact hfacts.ends (hfacts.thread (.inl t)) hobey
  have hone : ∀ id, Moved s.world id → moved = some id := by
    rintro id ⟨r, hr, hstate⟩
    by_contra hne
    exact hstate ((hfacts.record id r hr).asleep hne)
  have hunique : ∀ id id', Moved s.world id → Moved s.world id' → id = id' :=
    fun id id' hid hid' => Option.some.inj ((hone id hid).symm.trans (hone id' hid'))
  refine ⟨fun t r hp => (hends t r hp).1, fun t ht => ?_, hunique, fun t ht => ?_⟩
  · have hobey := hinv.obey (.inl t)
    cases hp : s.prog (.inl t) with
    | done r => exact absurd (by rw [hp]; exact trivial) ht
    | call c k =>
      rw [hp] at hobey
      obtain ⟨i, hanswered, hleader, hsome⟩ := exists_answer σ s.world hobey.1.2
      obtain ⟨x, hx⟩ := isSome_iff_exists.mp hsome
      have hstep : (step σ timeouts s (.trigger t i)).isSome := by
        simp only [Wake.step, Action.thread, Action.input, Threads.step, hp, hx]
        rfl
      obtain ⟨s', hs'⟩ := isSome_iff_exists.mp hstep
      exact ⟨i, s', hanswered, hleader, hs'⟩
  · cases hp : s.prog (.inl t) with
    | call c k => exact absurd ht (by rw [hp]; exact id)
    | done r =>
      obtain ⟨-, id, hmoved⟩ := hends t r hp
      obtain ⟨r, hr⟩ := isSome_iff_exists.mp
        (lookup_isSome.mpr (hfacts.present id hmoved))
      have hawake : r.state ≠ .sleeping := by
        rcases (hfacts.record id r hr).awake hmoved with h | h
        all_goals rw [h]; exact nofun
      exact ⟨id, ⟨r, hr, hawake⟩, fun id' hid' => hunique id' id hid' ⟨r, hr, hawake⟩⟩

end

/-! ## Two triggers -/

/-- Instance `i` sleeps, and its runner is known. -/
def sleepingInstance : InstanceState :=
  { newInstance "m" "i" (some "w") none 0 with
    state := .sleeping
    runnerHost := some "10.0.0.7"
    runnerPort := some 8000
    runnerEnginePort := some 8001
    runnerId := some "r" }

def sleepingWorld : World where
  instances := AList.insert "i" sleepingInstance ∅
  routing := ∅

theorem sleepingWorld_allAsleep : AllAsleep sleepingWorld where
  inhabited := ⟨"i", by decide⟩
  asleep id r hr := by
    by_cases hid : id = "i"
    · subst hid
      obtain rfl := Option.some.inj ((lookup_insert _).symm.trans hr)
      exact ⟨rfl, rfl, rfl⟩
    · rw [show sleepingWorld.instances.lookup id = _ from lookup_insert_ne hid] at hr
      cases hr

def answers : Input where
  keys := ["i"]

def triggers (t : Fin 2) (n : Nat) : List (Action (Fin 2)) := List.replicate n (.trigger t answers)

/-- One trigger claims, the other one reads the instances, and then both are
answered and the runner is woken. -/
def inTurn : List (Action (Fin 2)) :=
  triggers left 5 ++ triggers right 4 ++ triggers left 4 ++
    List.replicate 15 (.background left answers)

theorem inTurn_isSome :
    (exec (guarded (step exampleSetting exampleTimeouts) Orderly) (start "m" sleepingWorld)
      inTurn).isSome := by
  decide +kernel

/-- Both triggers have been answered, and exactly one instance is awake. -/
theorem inTurn_one_wake :
    let s := (exec (guarded (step exampleSetting exampleTimeouts) Orderly)
      (start "m" sleepingWorld) inTurn).get inTurn_isSome
    (s.prog (.inl left)).Settled ∧ (s.prog (.inl right)).Settled ∧ ∃! id, Moved s.world id := by
  have hleft : (((exec (guarded (step exampleSetting exampleTimeouts) Orderly)
      (start "m" sleepingWorld) inTurn).get inTurn_isSome).prog (.inl left)).Settled := by
    decide +kernel
  have hright : (((exec (guarded (step exampleSetting exampleTimeouts) Orderly)
      (start "m" sleepingWorld) inTurn).get inTurn_isSome).prog (.inl right)).Settled := by
    decide +kernel
  obtain ⟨-, -, -, hmoved⟩ := one_wake sleepingWorld_allAsleep (reach_get inTurn_isSome)
  exact ⟨hleft, hright, hmoved right hright⟩

/-- **A lost race is an error.**  Both triggers read the instance as `SLEEPING`.
The claim of the second one is refused, and the proxy takes the answer for a
failure. -/
theorem lost_race_rejected : (exec (step exampleSetting exampleTimeouts) (start "m" sleepingWorld)
      (triggers left 4 ++ triggers right 4 ++ triggers left 5 ++ triggers right 1)).map (fun s =>
        (match s.prog (.inl left), s.prog (.inl right) with
        | .done r, .done r' => some (r, r')
        | _, _ => none)) =
      some (some (.ok (), .error (.other "wake trigger rejected by control plane"))) := by
  decide +kernel

end Wake

end Sardeenz
