/-
# `Sardeenz.Services.Drain` — what the proxy sees of an instance that drains

`sleepModel` and `stopModel` of an `ACTIVE` instance move it to `DRAINING`,
refresh the routing state of the model, wait until no request is active, and
only then remove its endpoint.  While they wait it is the routing state that
keeps the proxy away: requests go to the endpoints of an entry that is `ACTIVE`,
with a positive weight.  But the state is that of the model.

    no other replica is ACTIVE     the refresh writes DRAINING, and nothing is forwarded
    another replica is ACTIVE      the refresh writes ACTIVE; the entry still has the endpoint
                                   of the draining one, and the proxy goes on selecting it,
                                   also while the runner is being put to sleep

**Proved here.**  When a draining instance is not offered (`drain_isolation`), and one
that is while `/sleep` is sent (`sleep_sent_while_offered`).
-/
import Sardeenz.Services.Listing

namespace Sardeenz

open Interleave Option AList World

namespace Drain

/-! ## The contract -/

/-- How far the operation is. -/
inductive Stage where
  | fresh
  | read
  | drained
  | isolated
deriving DecidableEq

def Stage.after : Stage → (c : Call) → Except Failure (Reply c) → Stage
  | .fresh, .getInstance _, _ => .read
  | .read, .transition _ .draining _, .ok _ => .drained
  | .drained, .setModelState _ _, .ok _ | .drained, .removeModel, .ok _ => .isolated
  | m, _, _ => m

variable {c : Call}

theorem Stage.after_write
    (hc : c = .removeModel ∨ ∃ state protocol, c = .setModelState state protocol) (m : Stage)
    (r : Except Failure (Reply c)) :
    m.after c r = m ∨ m = .drained ∧ m.after c r = .isolated ∧ ∃ a, r = .ok a := by
  rcases hc with rfl | ⟨state, protocol, rfl⟩
  all_goals
    cases m with
    | drained =>
      cases r with
      | ok a => exact .inr ⟨rfl, rfl, a, rfl⟩
      | error => exact .inl rfl
    | _ => exact .inl rfl

/-- The transition to `DRAINING` has been made. -/
def Stage.Past (m : Stage) : Prop := m = .drained ∨ m = .isolated

def Allowed (σ : Setting) (k : Listing) (m : Stage) : Call → Prop
  | .getInstance id => m = .fresh → id = σ.instanceId
  | .transition id target _ => m ≠ .fresh ∧ id = σ.instanceId ∧ target ≠ .active ∧
      (target = .draining → k = .unread)
  | .setModelState state _ => ∃ seen, k = .reading [] seen ∧
      (state = .active → HasState (Listing.records seen) .active)
  | .sleepRunner => m = .isolated
  | .removeModel | .removeEndpoint _ _ | .scan | .scanned _ | .getHealth | .aborted => True
  | _ => False

/-- The operation begins with an `ACTIVE` instance. -/
def Expected (m : Stage) : (c : Call) → Except Failure (Reply c) → Prop
  | .getInstance _, .ok (some record) => m = .fresh → record.state = .active
  | _, _ => True

def watched (σ : Setting) : Watched Stage where
  allowed := Allowed σ
  expected _ := Expected
  next _ m c r := m.after c r

/-- The stages `I` are entered after the record has been read, and not left. -/
structure Lasting (I : Stage → Prop) : Prop where
  read : ∀ m, I m → m ≠ .fresh
  after : ∀ m c r, I m → I (m.after c r)

theorem lasting_isolated : Lasting (· = .isolated) where
  read := by
    exact nofun
  after := by
    rintro _ c r rfl
    rfl

theorem lasting_read : Lasting (· ≠ .fresh) where
  read _ h := h
  after m c r h := by
    unfold Stage.after
    split
    · exact nofun
    · exact nofun
    · exact nofun
    · exact nofun
    · exact h

section
variable {σ : Setting} {I : Stage → Prop}

theorem Lasting.keepsCall (hI : Lasting I) (hfollows : ∀ k : Listing, k.Follows c)
    (hallowed : ∀ k m, m ≠ .fresh → I m → Allowed σ k m c) :
    KeepsCall (watched σ).contract (fun l => I l.2) c :=
  fun _ hl => ⟨⟨hfollows _, hallowed _ _ (hI.read _ hl) hl⟩, fun r _ => hI.after _ c r hl⟩

theorem Lasting.reads (hI : Lasting I) : (watched σ).Reads I where
  scan _ _ hm := ⟨trivial, fun r => hI.after _ _ r hm⟩
  scanned _ _ _ hm := ⟨trivial, fun r => hI.after _ _ r hm⟩
  get _ _ _ hm := ⟨fun h => absurd h (hI.read _ hm), fun r => hI.after _ _ r hm⟩

theorem allowed_setModelState (σ : Setting) (m : Stage)
    {seen state protocol}
    (h : refreshDecision (Listing.records seen) = some (state, protocol)) :
    Allowed σ (.reading [] seen) m (.setModelState state protocol) := by
  refine ⟨seen, rfl, ?_⟩
  rintro rfl
  exact hasState_of_refreshDecision h

section
variable (hI : Lasting I)
include hI

theorem Lasting.refresh : Keeps (watched σ).contract (fun l => I l.2) refreshModelRoutingState := by
  rintro ⟨k, m⟩ hm
  refine Watched.obeys_refresh hI.reads k hm ?_ ?_ fun _ _ _ hm _ => hm
  · intro seen m _ _ hm hdecision
    exact ⟨⟨trivial, allowed_setModelState σ m hdecision⟩, fun r _ => hI.after _ _ r hm⟩
  · intro seen m hm _
    exact ⟨⟨trivial, trivial⟩, fun r _ => hI.after _ _ r hm⟩

theorem Lasting.transition {target}
    (htarget : target ≠ .active ∧ target ≠ .draining) (updates : InstanceUpdates) :
    KeepsCall (watched σ).contract (fun l => I l.2) (.transition σ.instanceId target updates) :=
  hI.keepsCall (fun _ => trivial) fun _ _ hm _ =>
    ⟨hm, rfl, htarget.1, fun h => absurd h htarget.2⟩

theorem Lasting.getInstance :
    KeepsCall (watched σ).contract (fun l => I l.2) (.getInstance σ.instanceId) :=
  hI.keepsCall (fun _ => trivial) fun _ _ _ _ _ => rfl

theorem Lasting.transitionToError (errorMessage : String) (ambiguous : Bool) :
    Keeps (watched σ).contract (fun l => I l.2)
      (transitionToError σ.instanceId errorMessage ambiguous) :=
  keeps_transitionToError hI.refresh (fun updates _ => hI.transition (by decide) updates) _ _

theorem Lasting.waitForDrain (timeouts : Timeouts) (modelName : String) (rounds failures : Nat) :
    Keeps (watched σ).contract (fun l => I l.2)
      (waitForDrain timeouts modelName σ.instanceId rounds failures) := by
  refine keeps_waitForDrain ?_ (keeps_pollRunnerHealth ?_ hI.getInstance fun errorMessage =>
    hI.transitionToError errorMessage false) timeouts modelName rounds failures
  all_goals exact hI.keepsCall (fun _ => trivial) fun _ _ _ _ => trivial

theorem Lasting.removeRouted (record : InstanceState) :
    Keeps (watched σ).contract (fun l => I l.2) (removeRouted record) := by
  unfold Sardeenz.removeRouted
  split
  · rename_i address _
    have hcall : KeepsCall (watched σ).contract (fun l => I l.2)
        (.removeEndpoint address.1 address.2) :=
      hI.keepsCall (fun _ => trivial) fun _ _ _ _ => trivial
    exact hcall.perform
  · exact .pure _

end

theorem obeys_toDraining : Obeys (watched σ).contract (fun l r => match r with
      | .ok _ => l = (.unread, .drained)
      | .error _ => l.2 ≠ .fresh) (await (.transition σ.instanceId .draining {}))
      (.unread, .read) := by
  refine ⟨⟨trivial, nofun, rfl, nofun, fun _ => rfl⟩, fun r _ => ?_⟩
  cases r with
  | ok => rfl
  | error => exact nofun

theorem obeys_isolate (k : Listing) : Obeys (watched σ).contract (fun l r => match r with
      | .ok _ => l.2 = .isolated
      | .error _ => l.2 ≠ .fresh) refreshModelRoutingState (k, .drained) := by
  have hreads : (watched σ).Reads (· = .drained) := by
    refine ⟨?_, ?_, ?_⟩
    · rintro k _ rfl
      exact ⟨trivial, fun r => rfl⟩
    · rintro k _ _ rfl
      exact ⟨trivial, fun r => rfl⟩
    · rintro k _ _ rfl
      exact ⟨nofun, fun r => rfl⟩
  refine Watched.obeys_refresh hreads k rfl ?_ ?_ ?_
  · rintro seen _ _ _ rfl hdecision
    refine ⟨⟨trivial, allowed_setModelState σ .drained hdecision⟩, fun r _ => ?_⟩
    cases r with
    | ok => rfl
    | error e => exact nofun
  · rintro seen _ rfl -
    refine ⟨⟨trivial, trivial⟩, fun r _ => ?_⟩
    cases r with
    | ok => rfl
    | error e => exact nofun
  · rintro k _ e rfl -
    exact nofun

variable (timeouts : Timeouts) {record : InstanceState}

theorem obeys_sleepInstance (modelName : String) (hactive : record.state = .active) :
    Obeys (watched σ).contract (fun l _ => l.2 ≠ .fresh)
      (sleepInstance timeouts modelName σ.instanceId record) (.unread, .read) := by
  have hstay : ∀ l : Listing × Stage, l.2 = .isolated → l.2 ≠ .fresh :=
    fun l h => lasting_isolated.read _ h
  have hrest : Keeps (watched σ).contract (fun l => l.2 = .isolated) (do
      waitForDrain timeouts modelName σ.instanceId timeouts.rounds 0
      await .sleepRunner
      removeRouted record
      let _ ← await (.transition σ.instanceId .sleeping {})
      refreshModelRoutingState) := by
    have hsleep : KeepsCall (watched σ).contract (fun l => l.2 = .isolated) .sleepRunner :=
      lasting_isolated.keepsCall (fun _ => trivial) fun _ _ _ h => h
    refine (lasting_isolated.waitForDrain timeouts modelName _ _).bind fun _ => ?_
    refine hsleep.bind fun _ => (lasting_isolated.removeRouted record).bind fun _ => ?_
    exact (lasting_isolated.transition (by decide) {}).bind fun _ => lasting_isolated.refresh
  unfold sleepInstance Service.when
  rw [if_pos hactive]
  refine obeys_bind.mpr (obeys_bind.mpr (obeys_toDraining.mono ?_))
  rintro l (e | _) hl
  · exact hl
  obtain rfl : l = (.unread, .drained) := hl
  refine obeys_bind.mpr ((obeys_isolate .unread).mono ?_)
  rintro l (e | _) hl
  · exact hl
  · exact (hrest l hl).mono fun l _ h => hstay l h

theorem obeys_stopInstance (modelName : String) (hasRunner : Bool) (hactive : record.state = .active) :
    Obeys (watched σ).contract (fun l _ => l.2 ≠ .fresh)
      (stopInstance timeouts modelName σ.instanceId hasRunner record) (.unread, .read) := by
  have hrest : Keeps (watched σ).contract (fun l => l.2 ≠ .fresh) (do
      Service.when (hasRunner ∧ (record.state = .active ∨ record.state = .draining))
        (waitForDrain timeouts modelName σ.instanceId timeouts.rounds 0)
      removeRouted record
      let before ← await (.getInstance σ.instanceId)
      settleStopped σ.instanceId (before.map (·.state))
      refreshModelRoutingState) := by
    refine (keeps_when (lasting_read.waitForDrain timeouts modelName _ _)).bind fun _ => ?_
    refine (lasting_read.removeRouted record).bind fun _ => ?_
    refine lasting_read.getInstance.bind fun before => ?_
    refine (keeps_settleStopped ?_ _).bind fun _ => lasting_read.refresh
    intro _ htarget updates _
    refine lasting_read.transition ?_ updates
    simp only [List.mem_cons, List.not_mem_nil, or_false] at htarget
    rcases htarget with rfl | rfl | rfl
    all_goals decide
  unfold stopInstance Service.when
  rw [if_pos hactive]
  refine Obeys.bind_keeps ?_ fun _ => hrest
  refine obeys_bind.mpr (obeys_toDraining.mono ?_)
  rintro l (e | _) hl
  · exact hl
  obtain rfl : l = (.unread, .drained) := hl
  exact lasting_read.refresh _ nofun

/-! ## The system -/

/-- The two operations. -/
inductive Operation where
  | sleep
  | stop (hasRunner : Bool)
deriving DecidableEq

def Operation.program (σ : Setting) (timeouts : Timeouts) : Operation → Service Unit
  | sleep => sleepModel timeouts σ.modelName σ.instanceId
  | stop hasRunner => stopModel timeouts σ.modelName σ.instanceId hasRunner

theorem obeys_operation {f : Option InstanceState → Service Unit} {e}
    {body : InstanceState → Service Unit} (hnone : f none = Service.throwControlPlane e)
    (hsome : ∀ record, f (some record) = tryCatch (body record) fun err => do
      transitionToError σ.instanceId err.message false
      throw err)
    (hbody : ∀ record : InstanceState, record.state = .active →
      Obeys (watched σ).contract (fun l _ => l.2 ≠ .fresh) (body record) (.unread, .read)) :
    Obeys (watched σ).contract (fun _ _ => True) (await (.getInstance σ.instanceId) >>= f)
      (.unread, .fresh) := by
  refine obeys_bind.mpr ⟨⟨trivial, fun _ => rfl⟩, fun r hr => ?_⟩
  match r, hr with
  | .error e, _ => exact trivial
  | .ok none, _ =>
    change Obeys _ _ (f none) _
    rw [hnone]
    exact trivial
  | .ok (some record), hr =>
    change Obeys _ _ (f (some record)) _
    rw [hsome]
    refine (hbody record (hr rfl)).tryCatch (fun _ _ _ => trivial) fun l e hl => ?_
    exact Obeys.mono (fun _ _ _ => trivial) (((lasting_read.transitionToError _ _).bind
      fun _ => .throw e) l hl)

theorem obeys_program (op : Operation) :
    Obeys (watched σ).contract (fun _ _ => True) (op.program σ timeouts) (.unread, .fresh) := by
  cases op with
  | sleep =>
    exact obeys_operation rfl (fun _ => rfl) fun _ h =>
      obeys_sleepInstance timeouts σ.modelName h
  | stop hasRunner =>
    exact obeys_operation rfl (fun _ => rfl) fun _ h =>
      obeys_stopInstance timeouts σ.modelName hasRunner h

end

/-- One step of the operation, or of another task: on another instance, or on the
routing map. -/
inductive Action where
  | operation (i : Input)
  | other (id : String) (record : Option InstanceState)
  | mutate (mutation : Mutation) (now : Nat)

abbrev State := Threads Call Reply Failure (Listing × Stage) World Unit

def start (σ : Setting) (timeouts : Timeouts) (op : Operation) (w : World) : State where
  world := w
  prog _ := op.program σ timeouts
  loc _ := (.unread, .fresh)

/-- No other task touches the record of the instance, or gives its endpoint a
weight. -/
def step (σ : Setting) (address : String × Nat) (s : State) : Action → Option State
  | .operation i => s.step (watched σ).contract (fun _ i => World.perform σ i) () i
  | .other id record =>
    if id = σ.instanceId then none
    else some { s with world := s.world.setInstance id record }
  | .mutate mutation now =>
    if mutation.weighs σ.modelName address then none
    else some { s with world := { s.world with routing := mutation.apply s.world.routing now } }

def Visible (σ : Setting) (address : String × Nat) (w : World) : Prop :=
  Exposed w.routing σ.modelName address
deriving Decidable

/-- While its endpoint is visible, no other instance becomes `ACTIVE` and no other
task makes the model `ACTIVE`. -/
def Quiet (σ : Setting) (address : String × Nat) (s : State) : Action → Prop
  | .operation _ => True
  | .other _ record => Visible σ address s.world → record.map (·.state) ≠ some .active
  | .mutate mutation _ => Visible σ address s.world → mutation.activates σ.modelName = false

instance (σ : Setting) (address : String × Nat) (s : State) (a : Action) :
    Decidable (Quiet σ address s a) := by
  unfold Quiet
  split <;> infer_instance

/-! ## The invariant -/

/-- No other instance is `ACTIVE`. -/
def NoOtherActive (σ : Setting) (instances : Instances) : Prop :=
  ∀ id, id ≠ σ.instanceId → stateOf instances id ≠ some .active

/-- What is known of the world and of the operation. -/
structure Facts (σ : Setting) (address : String × Nat) (w : World) (k : Listing) (m : Stage) :
    Prop where
  others : Visible σ address w → NoOtherActive σ w.instances
  active : m = .fresh → stateOf w.instances σ.instanceId = some .active
  drained : m.Past → stateOf w.instances σ.instanceId ≠ some .active
  seen : m.Past → Visible σ address w → ∀ x ∈ k.seen, ∀ r ∈ x.2, r.state ≠ .active
  hidden : m = .isolated → ¬ Offers w.routing σ.modelName address

section
variable {σ : Setting} {address : String × Nat} {w w' : World} {k : Listing} {m : Stage}

theorem Facts.lookup_ne_active (h : Facts σ address w k m) (hpast : m.Past)
    (hvisible : Visible σ address w) {id r}
    (hr : w.instances.lookup id = some r) : r.state ≠ .active := by
  have hstate : stateOf w.instances id = some r.state := by rw [stateOf, hr]; rfl
  intro hactive
  rw [hactive] at hstate
  by_cases hid : id = σ.instanceId
  · exact h.drained hpast (hid ▸ hstate)
  · exact h.others hvisible id hid hstate

variable {i : Input} {r : Except Failure (Reply c)}

theorem Facts.look (h : Facts σ address w k m)
    (hw : w.perform σ i c = some (w, r)) (hm : ∀ m', m.after c r = m' → m' = m ∨ m' = .read) :
    Facts σ address w (k.after c r) (m.after c r) := by
  rcases hm _ rfl with hsame | hread
  · rw [hsame]
    refine ⟨h.others, h.active, h.drained, fun hpast hvisible x hx r hr => ?_, h.hidden⟩
    rcases Listing.mem_seen_after hw hx with hold | hnew
    · exact h.seen hpast hvisible x hold r hr
    · exact h.lookup_ne_active hpast hvisible (hnew.symm.trans hr)
  · rw [hread]
    have hpast : ¬ Stage.Past .read := by
      rintro (h | h) <;> exact nomatch h
    exact ⟨h.others, nofun, fun h => absurd h hpast, fun h => absurd h hpast, nofun⟩

theorem Facts.transition (h : Facts σ address w k m) {target updates} {r : Except Failure InstanceState} (hfresh : m ≠ .fresh)
    (htarget : target ≠ .active) (hunread : target = .draining → k = .unread)
    (hw : w.perform σ i (.transition σ.instanceId target updates) = some (w', r)) :
    Facts σ address w' k (m.after (.transition σ.instanceId target updates) r) := by
  have hrouting : w'.routing = w.routing := (perform_sameBut hw).routing nofun
  have hvisible : Visible σ address w' → Visible σ address w := by
    grind [Visible]
  have hothers : ∀ id, id ≠ σ.instanceId → stateOf w'.instances id = stateOf w.instances id := by
    intro id hid
    rcases perform_transition hw with ⟨rfl, -⟩ | ⟨record, -, -, rfl, -⟩
    · rfl
    · rw [stateOf, lookup_insert_ne hid]
      rfl
  have hown : stateOf w'.instances σ.instanceId = stateOf w.instances σ.instanceId ∨
      stateOf w'.instances σ.instanceId ≠ some .active := by
    rcases perform_transition hw with ⟨rfl, -⟩ | ⟨record, -, -, rfl, -⟩
    · exact .inl rfl
    · refine .inr ?_
      rw [stateOf, lookup_insert, map_some, transitioned_state]
      exact fun heq => htarget (Option.some.inj heq)
  -- The stage changes only from `read`, and then nothing has been listed yet.
  have hstage : m.after (.transition σ.instanceId target updates) r = m ∨
      (m.after (.transition σ.instanceId target updates) r = .drained ∧ k = .unread ∧
        ∃ record, r = .ok record) := by
    cases m with
    | read =>
      cases target with
      | draining =>
        cases r with
        | ok record => exact .inr ⟨rfl, hunread rfl, record, rfl⟩
        | error => exact .inl rfl
      | _ => exact .inl rfl
    | _ => exact .inl rfl
  have hquiet : Visible σ address w' → NoOtherActive σ w'.instances := by
    intro hv id hid
    rw [hothers id hid]
    exact h.others (hvisible hv) id hid
  rcases hstage with hsame | ⟨hdrained, rfl, record, rfl⟩
  · rw [hsame]
    refine ⟨hquiet, fun hm => absurd hm hfresh, fun hpast => ?_,
      fun hpast hv => h.seen hpast (hvisible hv), by rw [hrouting]; exact h.hidden⟩
    grind [h.drained]
  · rw [hdrained]
    refine ⟨hquiet, nofun, fun _ => ?_, fun _ _ x hx => absurd hx List.not_mem_nil, nofun⟩
    grind [perform_transition, stateOf, lookup_insert, transitioned_state]

section
variable (h : Facts σ address w k m)
include h

theorem Facts.write {m'} (hsame : w'.instances = w.instances)
    (hvisible : Visible σ address w' → Visible σ address w) (hfresh : m' = .fresh → m = .fresh)
    (hpast : m'.Past → m.Past) (hhidden : m' = .isolated → ¬ Offers w'.routing σ.modelName address) :
    Facts σ address w' k m' where
  others hv := hsame ▸ h.others (hvisible hv)
  active hm := hsame ▸ h.active (hfresh hm)
  drained hm := hsame ▸ h.drained (hpast hm)
  seen hm hv := h.seen (hpast hm) (hvisible hv)
  hidden := hhidden

variable {mutation : Mutation}

theorem Facts.mutate (hm : c.mutation σ = some mutation)
    (hweighs : mutation.weighs σ.modelName address = false)
    (hstage : m.after c r = m ∨ m = .drained ∧ m.after c r = .isolated ∧ ∃ a, r = .ok a)
    (hoffers : m.after c r = .isolated →
      ¬ Offers (mutation.apply w.routing i.now) σ.modelName address)
    (hk : k.after c r = k) (hw : w.perform σ i c = some (w', r)) :
    Facts σ address w' (k.after c r) (m.after c r) := by
  have hsame : w'.instances = w.instances := by
    refine (perform_sameBut hw).instances ?_
    cases c with
    | transition | writeInstance | removeInstance => exact nomatch hm
    | _ => exact nofun
  have hrouting := perform_routing hm hw
  have hvisible : Visible σ address w' → Visible σ address w := by
    intro hv
    rcases hrouting with happly | ⟨heq, -⟩
    · exact Exposed.of_apply (show Exposed (mutation.apply w.routing i.now) _ _ from happly ▸ hv)
        hweighs
    · exact (show Exposed w.routing _ _ from heq ▸ hv)
  have hpast : (m.after c r).Past → m.Past := by
    rcases hstage with hm' | ⟨rfl, -⟩
    · rw [hm']
      exact fun h => h
    · exact fun _ => .inl rfl
  grind [h.write, h.hidden]

theorem Facts.call (hallowed : Allowed σ k m c) (hw : w.perform σ i c = some (w', r)) :
    Expected m c r ∧ Facts σ address w' (k.after c r) (m.after c r) := by
  have hlook : ∀ {α : Type} {a b : Except Failure α}, i.reply w w a = some (w', b) → w' = w :=
    fun h => Input.reply_world h (p := (· = w)) rfl rfl
  cases c with
  | getInstance id =>
    obtain ⟨rfl, hr⟩ := perform_getInstance hw
    refine ⟨?_, h.look hw ?_⟩
    · rcases hr with rfl | ⟨e, rfl⟩
      · cases hlookup : w'.instances.lookup id with
        | none => exact trivial
        | some record =>
          intro hfresh
          have hactive := h.active hfresh
          rw [← hallowed hfresh, stateOf, hlookup] at hactive
          exact Option.some.inj hactive
      · exact trivial
    · rintro _ rfl
      cases m with
      | fresh => exact .inr (by cases r <;> rfl)
      | _ => exact .inl (by cases r <;> rfl)
  | scan | getHealth | sleepRunner =>
    obtain rfl := hlook hw
    exact ⟨trivial, h.look hw fun _ hm => .inl (by rw [← hm]; cases m <;> rfl)⟩
  | scanned =>
    obtain rfl := hlook (ite_none_right_eq_some.mp hw).2
    exact ⟨trivial, h.look hw fun _ hm => .inl (by rw [← hm]; cases m <;> rfl)⟩
  | aborted =>
    obtain rfl : w = w' := (Prod.mk.inj (Option.some.inj hw)).1
    exact ⟨trivial, h.look hw fun _ hm => .inl (by rw [← hm]; cases m <;> rfl)⟩
  | transition id target updates =>
    obtain ⟨hfresh, rfl, _, _⟩ := hallowed
    refine ⟨trivial, ?_⟩
    have hk : k.after (.transition σ.instanceId target updates) r = k := by cases r <;> rfl
    grind [h.transition]
  | setModelState state protocol =>
    obtain ⟨seen, rfl, hactive⟩ := hallowed
    have hstage := m.after_write (.inr ⟨state, protocol, rfl⟩) r
    refine ⟨trivial, h.mutate rfl rfl hstage ?_ (by cases r <;> rfl) hw⟩
    rintro hisolated ⟨hstate, hexposed⟩
    have hpast : m.Past := by
      rcases hstage with hm | ⟨rfl, -⟩
      · exact .inr (hm.symm.trans hisolated)
      · exact .inl rfl
    obtain rfl : state = .active := by
      grind [Mutation.apply, setModelState, lookup_insert]
    obtain ⟨record, hrecord, hne⟩ := hactive rfl
    obtain ⟨x, hx, hxr⟩ := List.mem_filterMap.mp hrecord
    exact h.seen hpast (Exposed.of_apply hexposed rfl) x hx record hxr hne
  | removeModel =>
    have hstage := m.after_write (.inl rfl) r
    refine ⟨trivial, h.mutate rfl rfl hstage ?_ (by cases r <;> rfl) hw⟩
    rintro - ⟨hstate, -⟩
    simp_all [Mutation.apply, removeModel]
  | removeEndpoint host port =>
    have hm : m.after (.removeEndpoint host port) r = m := by cases m <;> rfl
    refine ⟨trivial, h.mutate rfl rfl (.inl hm) ?_ (by cases r <;> rfl) hw⟩
    rintro hisolated ⟨hstate, hexposed⟩
    exact h.hidden (hm.symm.trans hisolated)
      ⟨active_of_apply hstate rfl, Exposed.of_apply hexposed rfl⟩
  | _ => exact absurd hallowed False.elim

theorem Facts.other {id} (hid : id ≠ σ.instanceId) {record}
    (hquiet : Visible σ address w → record.map (·.state) ≠ some .active) :
    Facts σ address (w.setInstance id record) k m := by
  have hown : stateOf (w.setInstance id record).instances σ.instanceId =
      stateOf w.instances σ.instanceId :=
    congrArg (Option.map _) (w.lookup_setInstance_ne hid record)
  refine ⟨fun hv id' hid' => ?_, hown ▸ h.active, hown ▸ h.drained, h.seen, h.hidden⟩
  by_cases heq : id = id'
  · subst heq
    rw [stateOf, lookup_setInstance_self]
    exact hquiet hv
  · rw [stateOf, w.lookup_setInstance_ne heq record]
    exact h.others hv id' hid'

theorem Facts.mutated {now} (hweighs : mutation.weighs σ.modelName address = false)
    (hquiet : Visible σ address w → mutation.activates σ.modelName = false) :
    Facts σ address { w with routing := mutation.apply w.routing now } k m := by
  have hvisible : Visible σ address { w with routing := mutation.apply w.routing now } →
      Visible σ address w := fun hv => Exposed.of_apply hv hweighs
  refine h.write rfl hvisible id id fun hisolated hoffers => ?_
  have hv := hvisible hoffers.2
  exact h.hidden hisolated ⟨active_of_apply hoffers.1 (hquiet hv), hv⟩

end

/-! ### Runs -/

/-- **The invariant.** -/
structure Inv (σ : Setting) (address : String × Nat) (s : State) : Prop where
  obey : s.Obey (watched σ).contract fun _ _ _ => True
  facts : Facts σ address s.world (s.loc ()).1 (s.loc ()).2

variable {timeouts : Timeouts} {op : Operation} {s s' : State}

theorem Inv.start (hactive : stateOf w.instances σ.instanceId = some .active)
    (hothers : Visible σ address w → NoOtherActive σ w.instances) :
    Inv σ address (start σ timeouts op w) where
  obey _ := obeys_program timeouts op
  facts := by
    have hpast : ¬ Stage.Past .fresh := by
      rintro (h | h) <;> exact nomatch h
    exact ⟨hothers, fun _ => hactive, fun h => absurd h hpast, fun h => absurd h hpast, nofun⟩

theorem Inv.step (h : Inv σ address s) {a} (hok : Quiet σ address s a)
    (hs : step σ address s a = some s') : Inv σ address s' := by
  cases a with
  | operation i =>
    have hstep : s'.Obey (watched σ).contract (fun _ _ _ => True) ∧
        Facts σ address s'.world (s'.loc ()).1 (s'.loc ()).2 := by
      refine Threads.step_obey
        (J := fun s' => Facts σ address s'.world (s'.loc ()).1 (s'.loc ()).2) h.obey ?_
        (show s.step _ (fun _ i => World.perform σ i) () i = some s' from hs)
      rintro c w r - hallowed - hw
      obtain ⟨hexpected, hfacts⟩ := h.facts.call hallowed.2 hw
      exact ⟨hexpected, fun p => hfacts⟩
    exact ⟨hstep.1, hstep.2⟩
  | other =>
    obtain ⟨hid, hs⟩ := ite_none_left_eq_some.mp hs
    cases hs
    exact ⟨h.obey, h.facts.other hid hok⟩
  | mutate =>
    obtain ⟨hweighs, hs⟩ := ite_none_left_eq_some.mp hs
    cases hs
    exact ⟨h.obey, h.facts.mutated (Bool.eq_false_iff.mpr hweighs) hok⟩

/-- **Drain isolation.**  `sleepModel` or `stopModel` runs on an `ACTIVE`
instance, whose record nothing else touches.  In every run in which no other
instance is `ACTIVE` and no other task makes the model `ACTIVE` while the
instance's endpoint is in the map with a positive weight, the proxy is not
offered the instance from the end of the refresh after `DRAINING` on; in
particular it is not when `/sleep` is sent. -/
theorem drain_isolation (hactive : stateOf w.instances σ.instanceId = some .active)
    (hothers : Visible σ address w → NoOtherActive σ w.instances)
    (hr : Reach (step σ address) (Quiet σ address) (start σ timeouts op w) s) :
    ((s.loc ()).2 = .isolated → ¬ Offers s.world.routing σ.modelName address) ∧
      ((s.prog ()).awaited = some .sleepRunner → ¬ Offers s.world.routing σ.modelName address) := by
  have hinv : Inv σ address s :=
    hr.inductive_inv (.start hactive hothers) fun h hok hs => Inv.step h hok hs
  refine ⟨hinv.facts.hidden, fun hsleep => hinv.facts.hidden ?_⟩
  have hobey := hinv.obey ()
  cases hp : s.prog () with
  | done =>
    rw [hp] at hsleep
    cases hsleep
  | call c =>
    rw [hp] at hsleep hobey
    obtain rfl : c = .sleepRunner := Option.some.inj hsleep
    exact hobey.1.2

end

/-! ## Two replicas -/

def replica (instanceId : String) (state : ModelLifecycleState) (enginePort : Nat) :
    InstanceState :=
  { newInstance "m" instanceId (some "w") none 0 with
    state
    runnerHost := some "10.0.0.7"
    runnerPort := some 8000
    runnerEnginePort := some enginePort }

def routed (enginePort : Nat) : RunnerEndpoint where
  host := "10.0.0.7"
  port := enginePort
  weight := 1
  healthy := true
  runnerId := none

/-- `i` serves the model, and `j` is in the given state with the given endpoints. -/
def replicas (state : ModelLifecycleState) (endpoints : List RunnerEndpoint) : World where
  instances := AList.insert "i" (replica "i" .active 8001)
    (AList.insert "j" (replica "j" state 9001) ∅)
  routing := AList.insert "m"
    { modelName := "m", state := .active, protocol := .openai, endpoints, updatedAt := 0 } ∅

theorem replicas_noOtherActive {state} (h : state ≠ .active)
    (endpoints : List RunnerEndpoint) :
    NoOtherActive exampleSetting (replicas state endpoints).instances := by
  intro id hid
  change stateOf (AList.insert "i" _ (AList.insert "j" (replica "j" state 9001) ∅)) id ≠ _
  rw [stateOf, lookup_insert_ne (show id ≠ "i" from hid)]
  by_cases hj : id = "j"
  · subst hj
    exact fun heq => h (Option.some.inj heq)
  · rw [lookup_insert_ne hj]
    exact nofun

/-- The operation goes on until it awaits the answer to `/sleep`. -/
def upToSleep : List Action := List.replicate 10 (.operation { keys := ["i", "j"] })

theorem upToSleep_isSome :
    (exec (guarded (step exampleSetting ("10.0.0.7", 8001)) (Quiet exampleSetting ("10.0.0.7", 8001)))
      (start exampleSetting exampleTimeouts .sleep (replicas .sleeping [routed 8001]))
      upToSleep).isSome := by
  decide +kernel

/-- The other replica sleeps: `/sleep` is sent, and the instance is not offered. -/
theorem upToSleep_isolated :
    let s := (exec (guarded (step exampleSetting ("10.0.0.7", 8001))
      (Quiet exampleSetting ("10.0.0.7", 8001)))
      (start exampleSetting exampleTimeouts .sleep (replicas .sleeping [routed 8001]))
      upToSleep).get upToSleep_isSome
    (s.prog ()).awaited = some .sleepRunner ∧ ¬ Offers s.world.routing "m" ("10.0.0.7", 8001) := by
  have hsent : (((exec (guarded (step exampleSetting ("10.0.0.7", 8001))
      (Quiet exampleSetting ("10.0.0.7", 8001)))
      (start exampleSetting exampleTimeouts .sleep (replicas .sleeping [routed 8001]))
      upToSleep).get upToSleep_isSome).prog ()).awaited = some .sleepRunner := by
    decide +kernel
  exact ⟨hsent, (drain_isolation (by decide +kernel)
    (fun _ => replicas_noOtherActive (by decide) _) (reach_get upToSleep_isSome)).2 hsent⟩

/-- **`/sleep` is sent to an instance that is offered.**  Both replicas are
`ACTIVE`.  The refresh leaves the entry `ACTIVE`, and the endpoint of the draining
replica is still in it when its runner is put to sleep. -/
theorem sleep_sent_while_offered : (exec (step exampleSetting ("10.0.0.7", 8001))
      (start exampleSetting exampleTimeouts .sleep (replicas .active [routed 8001, routed 9001]))
      upToSleep).map (fun s =>
        ((s.prog ()).awaited, (s.loc ()).2,
          decide (Offers s.world.routing "m" ("10.0.0.7", 8001)))) =
      some (some .sleepRunner, .isolated, true) := by
  decide +kernel

end Drain

end Sardeenz
