/-
# `Sardeenz.Services.Recovery` — stuck instances

`recoverStuckInstances` (`reconciliation.ts`), as a program.  A pass reads all
instances once.  Those that have been in a transitional state for too long are
then moved to `ERROR` one after the other, taken out of the routing map, and the
model is refreshed.

    STARTING             longer than the deploy timeout
    DRAINING, STOPPING   longer than the sleep timeout

The decision is made from what the pass has read.  The transition only asks
whether there is an edge to `ERROR` from the state the instance is in by then,
and there is one from `ACTIVE`.  So an instance whose runner has passed its
health check in between is demoted, and its endpoint goes.

**Proved here.**  When no step of a pass takes an `ACTIVE` instance out of service
(`recovery_spares_active`), and one that does (`stale_recovery_demotes`).
-/
import Sardeenz.Services.Deploy
import Sardeenz.Services.Listing

namespace Sardeenz

open Interleave List Option AList World Listing

/-! ## The program -/

/-- The timeouts of `TRANSITIONAL_STATES`. -/
inductive TimeoutType where
  | deploy
  | sleep
deriving DecidableEq, Repr

def transitionalStates : ModelLifecycleState → Option TimeoutType
  | .starting => some .deploy
  | .draining | .stopping => some .sleep
  | .pending | .active | .sleeping | .stopped | .error => none

/-- `ReconciliationConfig`, as far as the recovery reads it. -/
structure ReconciliationConfig where
  deployTimeoutSecs : Nat
  sleepTimeoutSecs : Nat
deriving DecidableEq, Repr

def ReconciliationConfig.timeoutSecs (config : ReconciliationConfig) : TimeoutType → Nat
  | .deploy => config.deployTimeoutSecs
  | .sleep => config.sleepTimeoutSecs

def InstanceState.stateAge (r : InstanceState) (now : Nat) : Nat := now - r.stateChangedAt

def exceededTimeout (config : ReconciliationConfig) (now : Nat) (r : InstanceState) :
    Option Nat :=
  match transitionalStates r.state with
  | none => none
  | some timeoutType =>
    let timeoutSecs := config.timeoutSecs timeoutType
    if r.stateAge now ≤ timeoutSecs * 1000 then none else some timeoutSecs

/-- `Math.round(stateAge / 1000)`. -/
def roundedSecs (ms : Nat) : Nat := (ms + 500) / 1000

/-- The updates of the transition to `ERROR`. -/
def stuckUpdates (now timeoutSecs : Nat) (r : InstanceState) : InstanceUpdates where
  errorMessage := some (some
    (s!"Stuck in {r.state.text} for {roundedSecs (r.stateAge now)}s " ++
      s!"(timeout: {timeoutSecs}s)"))

def recoverInstance (config : ReconciliationConfig) (now : Nat) (r : InstanceState) :
    Service Unit :=
  match exceededTimeout config now r with
  | none => pure ()
  | some timeoutSecs =>
    Service.ignoringErrors do
      let _ ← await (.transition r.instanceId .error (stuckUpdates now timeoutSecs r))
      removeRouted r
      refreshModelRoutingState

def recoverInstances (config : ReconciliationConfig) (now : Nat) :
    List InstanceState → Service Unit
  | [] => pure ()
  | r :: rest => do
    recoverInstance config now r
    recoverInstances config now rest

def recoverStuckInstances (config : ReconciliationConfig) : Service Unit := do
  let instances ← getInstancesForModel
  let now ← await .now
  recoverInstances config now instances

def isStuck (config : ReconciliationConfig) (now : Nat) (r : InstanceState) : Bool :=
  (exceededTimeout config now r).isSome

namespace Recovery

/-! ## The contract -/

/-- A task of the instance, or a pass of the recovery. -/
inductive Stage where
  | task (asleep : Bool)
  | pass (stuck : List InstanceState) (demoted : Option InstanceState)
deriving DecidableEq

/-- The record is `SLEEPING`. -/
def isAsleep (record : Option InstanceState) : Bool :=
  decide (record.map (·.state) = some .sleeping)

def Stage.after (σ : Setting) (config : ReconciliationConfig) (k : Listing) :
    Stage → (c : Call) → Except Failure (Reply c) → Stage
  | .task asleep, .getInstance id, .ok record =>
    .task (if id = σ.instanceId then isAsleep record else asleep)
  | .task _, .transition _ _ _, _ => .task false
  | .pass _ _, .now, .ok now => .pass ((Listing.records k.seen).filter (isStuck config now)) none
  | .pass stuck _, .transition _ _ _, .ok _ => .pass stuck.tail stuck.head?
  | .pass stuck _, .transition _ _ _, .error _ => .pass stuck.tail none
  | m, _, _ => m

def Allowed (σ : Setting) (k : Listing) : Stage → Call → Prop
  | .task asleep, .transition id target _ =>
    id = σ.instanceId ∧ (target = .active ∨ target = .error ∨ target = .starting ∧ asleep = true)
  | .task _, .writeInstance id _ => id = σ.instanceId
  | .task _, .removeInstance _ => False
  | .task _, _ => True
  | .pass stuck _, .transition id target _ => target = .error ∧ ∃ r rest, stuck = r :: rest ∧
      id = r.instanceId ∧ (transitionalStates r.state).isSome = true
  | .pass _ demoted, .removeEndpoint host port =>
    ∃ r, demoted = some r ∧ r.endpointAddress = some (host, port)
  | .pass _ _, .removeModel => ∃ seen, k = .reading [] seen ∧
      refreshDecision (Listing.records seen) = none
  | .pass _ _, .scan | .pass _ _, .scanned _ | .pass _ _, .getInstance _
  | .pass _ _, .setModelState _ _ | .pass _ _, .now => True
  | .pass _ _, _ => False

def watched (σ : Setting) (config : ReconciliationConfig) : Watched Stage where
  allowed := Allowed σ
  expected _ _ _ _ := True
  next k m c r := m.after σ config k c r

section
variable {σ : Setting} {config : ReconciliationConfig}

/-! ### The task -/

def IsTask (l : Listing × Stage) : Prop := ∃ asleep, l.2 = .task asleep

variable {l : Listing × Stage}

theorem isTask_next (h : IsTask l) (c : Call) (r : Except Failure (Reply c)) :
    IsTask ((watched σ config).contract.next l c r) := by
  obtain ⟨k, m⟩ := l
  obtain ⟨asleep, rfl⟩ : ∃ asleep, m = .task asleep := h
  cases c with
  | getInstance =>
    cases r with
    | ok record | error e => exact ⟨_, rfl⟩
  | transition => exact ⟨false, by cases r <;> rfl⟩
  | _ => exact ⟨asleep, by cases r <;> rfl⟩

theorem keepsCall_task {c} (hfollows : ∀ k : Listing, k.Follows c)
    (hallowed : ∀ k asleep, Allowed σ k (.task asleep) c) :
    KeepsCall (watched σ config).contract IsTask c := by
  rintro ⟨k, m⟩ ⟨asleep, rfl⟩
  exact ⟨⟨hfollows k, hallowed k asleep⟩, fun r _ => isTask_next ⟨asleep, rfl⟩ c r⟩

theorem reads_task : (watched σ config).Reads fun m => ∃ asleep, m = .task asleep where
  scan k m hm := ⟨by obtain ⟨_, rfl⟩ := hm; trivial, fun r => isTask_next (l := (k, m)) hm _ r⟩
  scanned k m _ hm := ⟨by obtain ⟨_, rfl⟩ := hm; trivial, fun r => isTask_next (l := (k, m)) hm _ r⟩
  get k m _ hm := ⟨by obtain ⟨_, rfl⟩ := hm; trivial, fun r => isTask_next (l := (k, m)) hm _ r⟩

theorem keeps_refresh_task : Keeps (watched σ config).contract IsTask refreshModelRoutingState := by
  rintro ⟨k, m⟩ hm
  refine Watched.obeys_refresh reads_task k hm ?_ ?_ fun _ _ _ hm _ => hm
  · rintro seen _ _ _ ⟨asleep, rfl⟩ -
    exact ⟨⟨trivial, trivial⟩, fun r _ => isTask_next ⟨asleep, rfl⟩ _ r⟩
  · rintro seen _ ⟨asleep, rfl⟩ -
    exact ⟨⟨trivial, trivial⟩, fun r _ => isTask_next ⟨asleep, rfl⟩ _ r⟩

theorem keeps_deployModel {params} (hid : params.instanceId = σ.instanceId)
    (timeouts : Timeouts) :
    Keeps (watched σ config).contract IsTask (deployModel timeouts params) := by
  refine DeployCalls.deployModel ⟨?_, ?_, keeps_refresh_task, ?_, ?_, ?_, ?_, fun _ => ?_, ?_, ?_,
    fun _ _ => ?_, fun _ => ?_, fun _ _ => ?_⟩ timeouts
  case refine_7 => exact keepsCall_task (fun _ => trivial) fun _ _ => hid
  case refine_11 => exact keepsCall_task (fun _ => trivial) fun _ _ => ⟨hid, .inl rfl⟩
  case refine_12 => exact keepsCall_task (fun _ => trivial) fun _ _ => ⟨hid, .inr (.inl rfl)⟩
  all_goals exact keepsCall_task (fun _ => trivial) fun _ _ => trivial

theorem keeps_wakeModel (timeouts : Timeouts) (modelName : String) :
    Keeps (watched σ config).contract IsTask (wakeModel timeouts modelName σ.instanceId) := by
  refine WakeCalls.wakeModel ⟨keeps_refresh_task, ?_, ?_, ?_, ?_, fun _ _ => ?_, ?_,
    fun _ _ => ?_⟩ ?_ timeouts modelName
  case refine_6 => exact keepsCall_task (fun _ => trivial) fun _ _ => ⟨rfl, .inl rfl⟩
  case refine_7 => exact keepsCall_task (fun _ => trivial) fun _ _ => ⟨rfl, .inr (.inl rfl)⟩
  case refine_8 =>
    rintro ⟨k, m⟩ record ⟨asleep, rfl⟩ - hsleeping
    have hasleep : isAsleep (some record) = true :=
      decide_eq_true (congrArg some hsleeping)
    have hallowed : Allowed σ k
        (.task (if σ.instanceId = σ.instanceId then isAsleep (some record) else asleep))
        (.transition σ.instanceId .starting {}) := by
      rw [if_pos rfl]
      exact ⟨rfl, .inr (.inr ⟨rfl, hasleep⟩)⟩
    exact ⟨⟨trivial, hallowed⟩, fun r _ => isTask_next ⟨_, rfl⟩ _ r⟩
  all_goals exact keepsCall_task (fun _ => trivial) fun _ _ => trivial

/-! ### A pass -/

def IsPass (l : Listing × Stage) : Prop := ∃ stuck demoted, l.2 = .pass stuck demoted

theorem isPass_next (h : IsPass l) (c : Call) (r : Except Failure (Reply c)) :
    IsPass ((watched σ config).contract.next l c r) := by
  obtain ⟨k, m⟩ := l
  obtain ⟨stuck, demoted, rfl⟩ : ∃ stuck demoted, m = .pass stuck demoted := h
  cases c with
  | now | transition =>
    cases r with
    | ok _ | error e => exact ⟨_, _, rfl⟩
  | _ => exact ⟨stuck, demoted, by cases r <;> rfl⟩

variable (stuck : List InstanceState) (demoted : Option InstanceState)

theorem reads_pass : (watched σ config).Reads (· = .pass stuck demoted) := by
  refine ⟨?_, ?_, ?_⟩
  · rintro k _ rfl
    exact ⟨trivial, fun r => by cases r <;> rfl⟩
  · rintro k _ _ rfl
    exact ⟨trivial, fun r => by cases r <;> rfl⟩
  · rintro k _ _ rfl
    exact ⟨trivial, fun r => by cases r <;> rfl⟩

theorem keeps_refresh_pass :
    Keeps (watched σ config).contract (·.2 = .pass stuck demoted) refreshModelRoutingState := by
  rintro ⟨k, _⟩ rfl
  refine Watched.obeys_refresh (reads_pass stuck demoted) k rfl ?_ ?_ fun _ _ _ hm _ => hm
  · rintro seen _ _ _ rfl -
    exact ⟨⟨trivial, trivial⟩, fun r _ => by cases r <;> rfl⟩
  · rintro seen _ rfl hdecision
    exact ⟨⟨trivial, seen, rfl, hdecision⟩, fun r _ => by cases r <;> rfl⟩

def At (config : ReconciliationConfig) (now : Nat) (rest : List InstanceState)
    (l : Listing × Stage) : Prop :=
  ∃ demoted, l.2 = .pass (rest.filter (isStuck config now)) demoted

theorem obeys_recoverInstance {now} (r : InstanceState) (rest : List InstanceState)
    (hl : At config now (r :: rest) l) :
    Obeys (watched σ config).contract (fun l _ => At config now rest l)
      (recoverInstance config now r) l := by
  obtain ⟨k, m⟩ := l
  obtain ⟨demoted, rfl⟩ : ∃ demoted, m = _ := hl
  unfold recoverInstance
  split
  · rename_i hnone
    have hnot : isStuck config now r ≠ true := by simp [isStuck, hnone]
    rw [filter_cons_of_neg hnot]
    exact ⟨demoted, rfl⟩
  · rename_i timeoutSecs hsome
    have hstuck : isStuck config now r = true := by simp [isStuck, hsome]
    rw [filter_cons_of_pos hstuck]
    refine Obeys.tryCatch (S := fun l _ => At config now rest l) ?_ (fun _ _ h => h) fun _ _ h => h
    refine obeys_bind.mpr ⟨⟨trivial, rfl, r, _, rfl, rfl, by grind [exceededTimeout]⟩,
      fun answer _ => ?_⟩
    match answer with
    | .error e => exact ⟨none, rfl⟩
    | .ok record =>
      have hat : ∀ l : Listing × Stage,
          l.2 = .pass (rest.filter (isStuck config now)) (some r) → At config now rest l :=
        fun l h => ⟨some r, h⟩
      have hremove : Obeys (watched σ config).contract
          (fun l _ => l.2 = .pass (rest.filter (isStuck config now)) (some r)) (removeRouted r)
          (k, .pass (rest.filter (isStuck config now)) (some r)) := by
        unfold removeRouted
        split
        · rename_i address haddress
          refine ⟨⟨trivial, r, rfl, haddress⟩, fun answer _ => ?_⟩
          cases answer <;> rfl
        · exact rfl
      exact (hremove.bind_keeps fun _ => keeps_refresh_pass _ _).mono fun l _ h => hat l h

theorem obeys_recoverInstances {now} : ∀ (rest : List InstanceState) (l : Listing × Stage),
    At config now rest l → Obeys (watched σ config).contract (fun _ _ => True)
      (recoverInstances config now rest) l
  | [], _, _ => trivial
  | r :: rest, l, hl => by
    refine obeys_bind.mpr ((obeys_recoverInstance r rest hl).mono ?_)
    rintro l (e | u) hl
    · exact trivial
    · exact obeys_recoverInstances rest l hl

theorem obeys_recoverStuckInstances :
    Obeys (watched σ config).contract (fun _ _ => True) (recoverStuckInstances config)
      (.unread, .pass [] none) := by
  refine obeys_bind.mpr ((Watched.obeys_getInstancesForModel
    (reads_pass [] none) .unread rfl).mono ?_)
  rintro l (e | _) hl
  · exact trivial
  obtain ⟨_, _, rfl, rfl, rfl⟩ := hl
  refine obeys_bind.mpr ⟨⟨trivial, trivial⟩, fun answer _ => ?_⟩
  match answer with
  | .error e => exact trivial
  | .ok now => exact obeys_recoverInstances _ _ ⟨none, rfl⟩

end

/-! ## The system -/

/-- The task that brings the instance up. -/
inductive Task where
  | deploy (workerId : String) (protocol : Protocol) (fenced : Bool)
  | wake
deriving DecidableEq

def Task.program (σ : Setting) (timeouts : Timeouts) : Task → Service Unit
  | deploy workerId protocol fenced =>
    deployModel timeouts ⟨σ.modelName, σ.instanceId, workerId, protocol, fenced⟩
  | wake => wakeModel timeouts σ.modelName σ.instanceId

/-- One step of the task, of a pass, of the worker, or of whatever changes other
instances. -/
inductive Action (T : Type) where
  | task (i : Input)
  | pass (t : T) (i : Input)
  | worker (a : WorkerAction)
  | other (id : String) (record : Option InstanceState)

/-- The task (`none`) and the passes. -/
abbrev State (T : Type) := Threads Call Reply Failure (Listing × Stage) World (Option T)

def start {T : Type} (σ : Setting) (config : ReconciliationConfig) (timeouts : Timeouts)
    (task : Task) (w : World) : State T where
  world := w
  prog t := match t with
    | none => task.program σ timeouts
    | some _ => recoverStuckInstances config
  loc t := match t with
    | none => (.unread, .task false)
    | some _ => (.unread, .pass [] none)

def step {T : Type} [DecidableEq T] (σ : Setting) (config : ReconciliationConfig) (s : State T) :
    Action T → Option (State T)
  | .task i => s.step (watched σ config).contract (fun _ i => World.perform σ i) none i
  | .pass t i => s.step (watched σ config).contract (fun _ i => World.perform σ i) (some t) i
  | .worker a => (s.world.worker.step a).map fun worker =>
    { s with world := { s.world with worker } }
  | .other id record =>
    if id = σ.instanceId then none
    else some { s with world := s.world.setInstance id record }

def demotion : Stage → Call → Option (String × InstanceState)
  | .pass (r :: _) _, .transition id _ _ => some (id, r)
  | _, _ => none

def removal : Stage → Call → Option ((String × Nat) × InstanceState)
  | .pass _ (some r), .removeEndpoint host port => some ((host, port), r)
  | _, _ => none

/-- What the `SET` of `setRunnerEndpoint` is about to write. -/
def overwrite : Stage → Call → Option (String × InstanceState)
  | .task _, .writeInstance id record => some (id, record)
  | _, _ => none

/-- The call is made on what was read.  A pass demotes the instance only if its
persisted state is the one it has read, and removes no endpoint of it on behalf
of another instance; the `SET` of `setRunnerEndpoint` does not change the
persisted state. -/
@[mk_iff]
structure Timely (σ : Setting) (w : World) (m : Stage) (c : Call) : Prop where
  demotion : ∀ x ∈ demotion m c, x.1 = σ.instanceId → stateOf w.instances x.1 = some x.2.state
  removal : ∀ x ∈ removal m c, x.2.instanceId ≠ σ.instanceId →
    (w.instances.lookup σ.instanceId).bind (·.endpointAddress) ≠ some x.1
  overwrite : ∀ x ∈ overwrite m c, stateOf w.instances x.1 = some x.2.state

instance (σ : Setting) (w : World) (m : Stage) (c : Call) : Decidable (Timely σ w m c) :=
  decidable_of_iff' _ (timely_iff ..)

def Orderly {T : Type} (σ : Setting) (s : State T) : Action T → Prop
  | .task _ => ∀ c ∈ (s.prog none).awaited, Timely σ s.world (s.loc none).2 c
  | .pass t _ => ∀ c ∈ (s.prog (some t)).awaited, Timely σ s.world (s.loc (some t)).2 c
  | .worker _ | .other _ _ => True

instance {T : Type} (σ : Setting) (s : State T) (a : Action T) : Decidable (Orderly σ s a) := by
  unfold Orderly
  split <;> infer_instance

/-- The instance is `ACTIVE`, and its endpoint is in the routing map. -/
def Serving (σ : Setting) (w : World) : Prop :=
  ∃ r address, w.instances.lookup σ.instanceId = some r ∧ r.state = .active ∧
    r.endpointAddress = some address ∧ RoutedAt w.routing σ.modelName address

instance (σ : Setting) (w : World) : Decidable (Serving σ w) :=
  decidable_of_iff
    (∃ r ∈ w.instances.lookup σ.instanceId, r.state = .active ∧
      ∃ address ∈ r.endpointAddress, RoutedAt w.routing σ.modelName address)
    ⟨fun ⟨r, hr, hstate, address, haddress, hrouted⟩ =>
        ⟨r, address, hr, hstate, haddress, hrouted⟩,
      fun ⟨r, address, hr, hstate, haddress, hrouted⟩ =>
        ⟨r, hr, hstate, address, haddress, hrouted⟩⟩

/-! ## The invariant -/

/-- A state from which a deployment or a wake leads to `ACTIVE`. -/
def Alive (q : ModelLifecycleState) : Prop := q = .starting ∨ q = .sleeping ∨ q = .active

/-- The instance will not be `ACTIVE` again. -/
def Dead (σ : Setting) (instances : Instances) : Prop :=
  ∀ q, stateOf instances σ.instanceId = some q → ¬ Alive q

/-- What is known of a pass. -/
structure OfPass (σ : Setting) (instances : Instances) (k : Listing)
    (demoted : Option InstanceState) : Prop where
  covers : σ.instanceId ∈ instances → k.Covers σ.instanceId
  present : ∀ record, (σ.instanceId, record) ∈ k.seen → σ.instanceId ∈ instances →
    record.isSome = true
  seen : ∀ r, (σ.instanceId, some r) ∈ k.seen → ¬ Alive r.state → Dead σ instances
  demoted : ∀ r ∈ demoted, r.instanceId = σ.instanceId → Dead σ instances

def OfThread (σ : Setting) (instances : Instances) : Listing × Stage → Prop
  | (_, .task asleep) => asleep = true → stateOf instances σ.instanceId = some .sleeping
  | (k, .pass _ demoted) => OfPass σ instances k demoted

/-- A change of the records after which a dead instance is still dead. -/
structure Onward (σ : Setting) (before after : Instances) : Prop where
  mem : σ.instanceId ∈ after ↔ σ.instanceId ∈ before
  dead : Dead σ before → Dead σ after

section
variable {σ : Setting} {config : ReconciliationConfig} {instances instances' : Instances}
  {k : Listing}

theorem Onward.refl (σ : Setting) (instances : Instances) : Onward σ instances instances :=
  ⟨Iff.rfl, fun h => h⟩

theorem Onward.of_lookup (h : instances'.lookup σ.instanceId = instances.lookup σ.instanceId) :
    Onward σ instances instances' := by
  refine ⟨by rw [← lookup_isSome, ← lookup_isSome, h], fun hdead q _ => hdead q ?_⟩
  rwa [stateOf, ← h]

theorem Onward.insert {old new}
    (hold : instances.lookup σ.instanceId = some old) (h : Alive new.state → Alive old.state) :
    Onward σ instances (instances.insert σ.instanceId new) := by
  refine ⟨?_, fun hdead q hq => ?_⟩
  · grind [mem_insert, lookup_isSome]
  · rw [stateOf, lookup_insert] at hq
    cases hq
    exact fun halive => hdead old.state (by rw [stateOf, hold]; rfl) (h halive)

variable {demoted : Option InstanceState}

theorem OfPass.onward (h : OfPass σ instances k demoted) (ho : Onward σ instances instances') :
    OfPass σ instances' k demoted where
  covers hid := h.covers (ho.mem.mp hid)
  present record hr hid := h.present record hr (ho.mem.mp hid)
  seen r hr hnot := ho.dead (h.seen r hr hnot)
  demoted r hr hid := ho.dead (h.demoted r hr hid)

theorem OfPass.dead_of_decision {seen}
    (h : OfPass σ instances (.reading [] seen) demoted)
    (hdecision : refreshDecision (records seen) = none) : Dead σ instances := by
  by_cases hid : σ.instanceId ∈ instances
  · rcases h.covers hid with hleft | ⟨record, hseen⟩
    · exact absurd hleft not_mem_nil
    · obtain ⟨r, rfl⟩ := isSome_iff_exists.mp (h.present record hseen hid)
      refine h.seen r hseen fun halive => ?_
      have hmem : r ∈ records seen := mem_filterMap.mpr ⟨_, hseen, rfl⟩
      have hprecedence : r.state ∈ aggregateStatePrecedence.take 4 := by
        rcases halive with h | h | h
        all_goals rw [h]; decide
      have hsome := toRoutingState_isSome hprecedence ⟨r, hmem, rfl⟩
      rw [map_eq_none_iff.mp hdecision] at hsome
      cases hsome
  · intro q hq
    rw [stateOf, lookup_eq_none.mpr hid] at hq
    cases hq

/-! ### The calls -/

variable {w w' : World} {i : Input} {c : Call} {r : Except Failure (Reply c)}

section
variable {asleep : Bool} (hl : OfThread σ w.instances (k, .task asleep))
  (hallowed : Allowed σ k (.task asleep) c) (htimely : Timely σ w (.task asleep) c)
  (hw : w.perform σ i c = some (w', r))
include hl hallowed htimely hw

/-- **What the task does to the record.** -/
theorem onward_of_task : Onward σ w.instances w'.instances := by
  cases c with
  | transition id =>
    obtain ⟨rfl, htarget⟩ := hallowed
    rcases perform_transition hw with ⟨rfl, -⟩ | ⟨record, hrecord, hvalid, rfl, -⟩
    · exact .refl σ _
    · refine .insert hrecord ?_
      intro halive
      rcases htarget with rfl | rfl | ⟨rfl, hasleep⟩
      · cases hstate : record.state with
        | starting => exact .inl rfl
        | _ => exact absurd hvalid (by rw [hstate]; decide)
      · exact absurd halive (by rintro (h | h | h) <;> exact nomatch h)
      · have hsleeping := hl hasleep
        rw [stateOf, hrecord] at hsleeping
        exact .inr (.inl (Option.some.inj hsleeping))
  | writeInstance id record =>
    obtain rfl : id = σ.instanceId := hallowed
    have hsame := htimely.overwrite (σ.instanceId, record) rfl
    obtain ⟨_, hold, hstate⟩ := map_eq_some_iff.mp hsame
    refine Input.reply_world hw (p := fun w' => Onward σ w.instances w'.instances) (.refl σ _) ?_
    exact .insert hold fun halive => hstate ▸ halive
  | removeInstance id => exact absurd hallowed False.elim
  | _ =>
    have hsame : w'.instances = w.instances := (perform_sameBut hw).instances nofun
    rw [hsame]
    exact .refl σ _

theorem ofThread_task :
    OfThread σ w'.instances ((watched σ config).contract.next (k, .task asleep) c r) := by
  cases c with
  | transition id =>
    exact nofun
  | getInstance id =>
    obtain ⟨rfl, hr⟩ := perform_getInstance hw
    rcases hr with rfl | ⟨e, rfl⟩
    · intro hasleep
      by_cases hid : id = σ.instanceId
      · subst hid
        rw [if_pos rfl] at hasleep
        exact of_decide_eq_true hasleep
      · rw [if_neg hid] at hasleep
        exact hl hasleep
    · exact hl
  | writeInstance id record =>
    obtain rfl : id = σ.instanceId := hallowed
    have hsame := htimely.overwrite (σ.instanceId, record) rfl
    intro hasleep
    refine Input.reply_world hw
      (p := fun w' => stateOf w'.instances σ.instanceId = some .sleeping) (hl hasleep) ?_
    rw [stateOf, lookup_insert]
    exact hsame.symm.trans (hl hasleep)
  | removeInstance id => exact absurd hallowed False.elim
  | _ =>
    have hsame : w'.instances = w.instances := (perform_sameBut hw).instances nofun
    rw [hsame]
    cases r <;> exact hl

end

variable {stuck : List InstanceState}

/-- **What a pass does to the record**: nothing, unless it demotes an instance
that it has found in a transitional state and that still is in it. -/
theorem lookup_of_pass (hallowed : Allowed σ k (.pass stuck demoted) c)
    (htimely : Timely σ w (.pass stuck demoted) c) (hw : w.perform σ i c = some (w', r)) :
    w'.instances.lookup σ.instanceId = w.instances.lookup σ.instanceId ∨
      stateOf w'.instances σ.instanceId = some .error ∧
        ∃ q, stateOf w.instances σ.instanceId = some q ∧ (transitionalStates q).isSome = true := by
  cases c with
  | transition =>
    obtain ⟨rfl, record, _, rfl, rfl, hstuck⟩ := hallowed
    rcases perform_transition hw with ⟨rfl, -⟩ | ⟨_, _, -, rfl, -⟩
    · exact .inl rfl
    · by_cases hid : record.instanceId = σ.instanceId
      · refine .inr ⟨?_, record.state, ?_, hstuck⟩
        · rw [stateOf, hid]
          simp
        · rw [← hid]
          exact htimely.demotion (record.instanceId, record) rfl hid
      · exact .inl (lookup_insert_ne (Ne.symm hid))
  | writeInstance | removeInstance => exact absurd hallowed False.elim
  | _ =>
    have hsame : w'.instances = w.instances := (perform_sameBut hw).instances nofun
    exact .inl (by rw [hsame])

theorem onward_of_pass {before after}
    (h : after.lookup σ.instanceId = before.lookup σ.instanceId ∨
      stateOf after σ.instanceId = some .error ∧
        ∃ q, stateOf before σ.instanceId = some q ∧ (transitionalStates q).isSome = true) :
    Onward σ before after := by
  rcases h with hsame | ⟨herror, q, hq, -⟩
  · exact .of_lookup hsame
  · refine ⟨?_, fun _ q hq => ?_⟩
    · have hsome : ∀ {instances : Instances} {q : ModelLifecycleState},
          stateOf instances σ.instanceId = some q → σ.instanceId ∈ instances := by
        intro instances q hq
        obtain ⟨r, hr, -⟩ := map_eq_some_iff.mp hq
        exact lookup_isSome.mp (by rw [hr]; rfl)
      exact iff_of_true (hsome herror) (hsome hq)
    · obtain rfl := Option.some.inj (herror.symm.trans hq)
      rintro (h | h | h) <;> exact nomatch h

theorem ofThread_pass (hl : OfThread σ w.instances (k, .pass stuck demoted))
    (hfollows : k.Follows c) (hallowed : Allowed σ k (.pass stuck demoted) c)
    (htimely : Timely σ w (.pass stuck demoted) c) (hw : w.perform σ i c = some (w', r)) :
    OfThread σ w'.instances ((watched σ config).contract.next (k, .pass stuck demoted) c r) := by
  have honward := onward_of_pass (lookup_of_pass hallowed htimely hw)
  have hread : ∀ demoted' : Option InstanceState,
      (∀ r ∈ demoted', r.instanceId = σ.instanceId → Dead σ w'.instances) →
      OfPass σ w'.instances (k.after c r) demoted' := by
    intro demoted' hdemoted
    refine ⟨fun hid => ?_, fun record hrecord hid => ?_, fun record hrecord hnot => ?_, hdemoted⟩
    · exact (hl.covers (honward.mem.mp hid)).after hfollows (honward.mem.mp hid) hw
    · rcases mem_seen_after hw hrecord with hold | hnew
      · exact hl.present record hold (honward.mem.mp hid)
      · rw [show record = _ from hnew]
        exact lookup_isSome.mpr (honward.mem.mp hid)
    · refine honward.dead ?_
      rcases mem_seen_after hw hrecord with hold | hnew
      · exact hl.seen record hold hnot
      · intro q hq
        rw [stateOf, ← show some record = _ from hnew] at hq
        cases hq
        exact hnot
  have hnone : OfPass σ w'.instances (k.after c r) none :=
    hread none fun r hr => absurd hr (not_mem_none r)
  have hkept : ∀ r ∈ demoted, r.instanceId = σ.instanceId → Dead σ w'.instances :=
    fun r hr hid => honward.dead (hl.demoted r hr hid)
  cases c with
  | transition =>
    obtain ⟨rfl, record, _, rfl, rfl, -⟩ := hallowed
    cases r with
    | error e => exact hnone
    | ok =>
      refine hread (some record) fun r hr hid => ?_
      obtain rfl : record = r := mem_some_iff.mp hr
      rcases perform_transition hw with ⟨-, e, he⟩ | ⟨_, -, -, rfl, -⟩
      · cases he
      · intro q hq
        rw [stateOf, ← hid, lookup_insert, map_some] at hq
        cases hq
        rintro (h | h | h) <;> exact nomatch h
  | now =>
    cases r with
    | error e => exact absurd hw nofun
    | ok now => exact hnone
  | scan | scanned | getInstance | setModelState | removeEndpoint | removeModel =>
    cases r <;> exact hread demoted hkept
  | _ => exact absurd hallowed False.elim

/-- **A pass spares an instance that serves**: what it demotes is in a
transitional state, and what it unroutes is dead. -/
theorem Serving.of_pass (h : Serving σ w) (hl : OfThread σ w.instances (k, .pass stuck demoted))
    (hallowed : Allowed σ k (.pass stuck demoted) c) (htimely : Timely σ w (.pass stuck demoted) c)
    (hw : w.perform σ i c = some (w', r)) :
    Serving σ w' := by
  obtain ⟨record, address, hrecord, hstate, haddress, hrouted⟩ := h
  have hactive : stateOf w.instances σ.instanceId = some .active := by
    rw [stateOf, hrecord, ← hstate]
    rfl
  have halive : ¬ Dead σ w.instances := fun hdead => hdead .active hactive (.inr (.inr rfl))
  have hlookup : w'.instances.lookup σ.instanceId = some record := by
    rcases lookup_of_pass hallowed htimely hw with hsame | ⟨-, q, hq, htransitional⟩
    · rw [hsame, hrecord]
    · obtain rfl := Option.some.inj (hactive.symm.trans hq)
      exact absurd htransitional (by decide)
  refine ⟨record, address, hlookup, hstate, haddress, ?_⟩
  cases c with
  | setModelState =>
    refine Input.reply_world hw (p := fun w' => RoutedAt w'.routing σ.modelName address) hrouted ?_
    rw [RoutedAt, endpointsOf_setModelState]
    exact hrouted
  | removeModel =>
    obtain ⟨_, rfl, hdecision⟩ := hallowed
    exact absurd (hl.dead_of_decision hdecision) halive
  | removeEndpoint host port =>
    obtain ⟨gone, rfl, _⟩ := hallowed
    have hother : gone.instanceId ≠ σ.instanceId := fun hid =>
      halive (hl.demoted gone rfl hid)
    have hne := htimely.removal ((host, port), gone) rfl hother
    refine Input.reply_world hw (p := fun w' => RoutedAt w'.routing σ.modelName address) hrouted ?_
    obtain ⟨e, _, hea⟩ := hrouted
    refine ⟨e, ?_, hea⟩
    grind [endpointsOf_removeEndpoint_self]
  | addEndpoint | updateEndpointWeight | cutoverEndpointAndWait =>
    exact absurd hallowed False.elim
  | _ =>
    have hsame : w'.routing = w.routing := (perform_sameBut hw).routing nofun
    rw [hsame]
    exact hrouted

end

/-! ### Runs -/

section
variable {T : Type} {σ : Setting} {config : ReconciliationConfig}

def Role : Option T → Stage → Prop
  | none, .task _ => True
  | some _, .pass _ _ => True
  | none, .pass _ _ | some _, .task _ => False

/-- What is known of all threads. -/
structure Facts (σ : Setting) (instances : Instances) (loc : Option T → Listing × Stage) :
    Prop where
  role : ∀ t, Role t (loc t).2
  thread : ∀ t, OfThread σ instances (loc t)

variable {t : Option T} {l : Listing × Stage}

theorem role_next (h : Role t l.2) (c : Call) (r : Except Failure (Reply c)) :
    Role t ((watched σ config).contract.next l c r).2 := by
  obtain ⟨k, m⟩ := l
  cases t with
  | none =>
    cases m with
    | pass => exact absurd h False.elim
    | task asleep =>
      obtain ⟨_, hnext⟩ : IsTask ((watched σ config).contract.next
        (k, .task asleep) c r) := isTask_next ⟨asleep, rfl⟩ c r
      rw [hnext]
      exact trivial
  | some t =>
    cases m with
    | task => exact absurd h False.elim
    | pass stuck demoted =>
      obtain ⟨_, _, hnext⟩ : IsPass ((watched σ config).contract.next
        (k, .pass stuck demoted) c r) := isPass_next ⟨stuck, demoted, rfl⟩ c r
      rw [hnext]
      exact trivial

variable [DecidableEq T] {before after : Instances} {loc : Option T → Listing × Stage}

theorem Facts.put (h : Facts σ before loc) (honward : Onward σ before after)
    (hasleep : t ≠ none → stateOf before σ.instanceId = some .sleeping →
      stateOf after σ.instanceId = some .sleeping)
    (hrole : Role t l.2) (hl : OfThread σ after l) : Facts σ after (Function.update loc t l) := by
  refine ⟨(Function.forall_update_iff _ fun t (l : Listing × Stage) => Role t l.2).mpr
    ⟨hrole, fun t' _ => h.role t'⟩, (Function.forall_update_iff _ _).mpr ⟨hl, fun t' ht => ?_⟩⟩
  have hother := h.thread t'
  have hrole' := h.role t'
  rcases hl' : loc t' with ⟨k, m⟩
  rw [hl'] at hother hrole'
  cases m with
  | pass => exact OfPass.onward hother honward
  | task =>
    cases t' with
    | none => exact fun ha => hasleep (Ne.symm ht) (hother ha)
    | some t' => exact absurd hrole' False.elim

variable {i : Input}

theorem Facts.call {w w'} (h : Facts σ w.instances loc) {c r} (hallowed : (watched σ config).contract.allowed (loc t) c)
    (htimely : Timely σ w (loc t).2 c) (hw : w.perform σ i c = some (w', r)) :
    Facts σ w'.instances
      (Function.update loc t ((watched σ config).contract.next (loc t) c r)) := by
  have hrole := h.role t
  have hthread := h.thread t
  have hnext : Role t ((watched σ config).contract.next (loc t) c r).2 := role_next hrole c r
  rcases hl : loc t with ⟨k, m⟩
  rw [hl] at hallowed htimely hrole hthread hnext
  cases m with
  | task =>
    have ht : t = none := by
      cases t with
      | none => rfl
      | some t => exact absurd hrole False.elim
    exact h.put (onward_of_task hthread hallowed.2 htimely hw) (fun hne => absurd ht hne)
      hnext (ofThread_task hthread hallowed.2 htimely hw)
  | pass =>
    have hlookup := lookup_of_pass hallowed.2 htimely hw
    refine h.put (onward_of_pass hlookup) (fun _ hsleeping => ?_) hnext
      (ofThread_pass hthread hallowed.1 hallowed.2 htimely hw)
    rcases hlookup with hsame | ⟨-, q, hq, htransitional⟩
    · rwa [stateOf, hsame]
    · obtain rfl := Option.some.inj (hsleeping.symm.trans hq)
      exact absurd htransitional (by decide)

/-- **The invariant.** -/
structure Inv (σ : Setting) (config : ReconciliationConfig) (s : State T) : Prop where
  obey : s.Obey (watched σ config).contract fun _ _ _ => True
  facts : Facts σ s.world.instances s.loc

omit [DecidableEq T] in
theorem Inv.start (timeouts : Timeouts) (task : Task) (w : World) :
    Inv σ config (start σ config timeouts task w : State T) where
  obey t := by
    cases t with
    | some t => exact obeys_recoverStuckInstances
    | none =>
      cases task with
      | deploy workerId protocol fenced =>
        exact (keeps_deployModel rfl timeouts _ ⟨false, rfl⟩).mono fun _ _ _ => trivial
      | wake => exact (keeps_wakeModel timeouts _ _ ⟨false, rfl⟩).mono fun _ _ _ => trivial
  facts := by
    refine ⟨fun t => by cases t <;> exact trivial, fun t => ?_⟩
    cases t with
    | none => exact nofun
    | some t =>
      refine ⟨fun _ => trivial, fun _ h => ?_, fun _ h => ?_, fun r hr => ?_⟩
      · exact absurd h List.not_mem_nil
      · exact absurd h List.not_mem_nil
      · exact absurd hr (Option.not_mem_none r)

variable {s s' : State T}

theorem Inv.thread (h : Inv σ config s)
    (hok : ∀ c ∈ (s.prog t).awaited, Timely σ s.world (s.loc t).2 c)
    (hs : s.step (watched σ config).contract (fun _ i => World.perform σ i) t i = some s') :
    Inv σ config s' := by
  have hstep : s'.Obey (watched σ config).contract (fun _ _ _ => True) ∧
      Facts σ s'.world.instances s'.loc := by
    refine Threads.step_obey (J := fun s' => Facts σ s'.world.instances s'.loc) h.obey ?_ hs
    rintro c w r - hallowed ⟨k, hk⟩ hw
    exact ⟨trivial, fun p => h.facts.call hallowed (hok c (by rw [hk]; rfl)) hw⟩
  exact ⟨hstep.1, hstep.2⟩

theorem Inv.step (h : Inv σ config s) {a} (hok : Orderly σ s a)
    (hs : step σ config s a = some s') : Inv σ config s' := by
  cases a with
  | task i | pass t i => exact h.thread hok hs
  | worker a =>
    obtain ⟨worker, -, rfl⟩ := map_eq_some_iff.mp hs
    exact ⟨h.obey, h.facts⟩
  | other _ record =>
    obtain ⟨hne, hs⟩ := ite_none_left_eq_some.mp hs
    cases hs
    have hsame := s.world.lookup_setInstance_ne hne record
    refine ⟨h.obey, h.facts.role, fun t => ?_⟩
    have hthread := h.facts.thread t
    rcases hl : s.loc t with ⟨k, m⟩
    rw [hl] at hthread
    cases m with
    | task => exact fun ha => by rw [stateOf, hsame]; exact hthread ha
    | pass => exact OfPass.onward hthread (.of_lookup hsame)

end

/-! ## A deployment and a pass -/

def exampleConfig : ReconciliationConfig := ⟨600, 300⟩

/-- A plain deployment on worker `w`. -/
def exampleTask : Task := .deploy "w" .openai false

variable (keys : List String)

def late : Input := { keys, now := 640000 }

def taskSteps (n : Nat) : List (Action (Fin 1)) :=
  List.replicate n (.task (late keys))

def passSteps (n : Nat) : List (Action (Fin 1)) :=
  List.replicate n (.pass lone (late keys))

def placed : List (Action (Fin 1)) :=
  taskSteps keys (keys.length + 6) ++ [.worker .deliver, .worker .reserve, .worker .launched] ++
    taskSteps keys 3

/-- Beside the instance there is another one, which has been `DRAINING` from the
beginning. -/
def drainingWorld : World :=
  startingWorld.setInstance "j" (some { newInstance "m" "j" (some "w") none 0 with
    state := .draining
    runnerHost := some "10.0.0.7"
    runnerPort := some 9000
    runnerEnginePort := some 9001 })

/-- The deployment makes the instance `ACTIVE`; then a pass reads the instances
and demotes the other one. -/
def activeBeforePass : List (Action (Fin 1)) :=
  placed ["i", "j"] ++ taskSteps ["i", "j"] 4 ++ passSteps ["i", "j"] 6

theorem activeBeforePass_isSome :
    (exec (guarded (step exampleSetting exampleConfig) (Orderly exampleSetting))
      (start exampleSetting exampleConfig exampleTimeouts exampleTask drainingWorld)
      activeBeforePass).isSome := by
  decide +kernel

theorem removesOther_isSome : (step exampleSetting exampleConfig
      ((exec (guarded (step exampleSetting exampleConfig) (Orderly exampleSetting))
        (start exampleSetting exampleConfig exampleTimeouts exampleTask drainingWorld)
        activeBeforePass).get activeBeforePass_isSome)
      (.pass lone (late ["i", "j"]))).isSome := by
  decide +kernel

end Recovery

end Sardeenz
