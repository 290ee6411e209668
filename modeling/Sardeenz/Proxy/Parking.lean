/-
# `Sardeenz.Proxy.Parking` — requests parked for a sleeping model

`park` (`parking/manager.rs`) reserves a slot, fires a wake trigger unless one is
pending, and waits until the routing cache shows the model in a state that ends the
wait.  The guard of the slot gives it back on every way out, cancellation included.

    arriving → checked → bytesAdded → globalAdded → asking     reserve_slot, under its lock
               ↘ bytesOver   ↘ globalOver → globalBack          … and its two roll-backs
    asking → triggering → answered → subscribing               the herd, and the trigger call
           ↘ subscribing → reading ⇄ waiting                    the wait
                           ↘ found                              … and its end
    leaving → leavingBytes → leavingModel → leavingHerd → gone  the guard's drop

Requests run on several threads, so each arrow is one step: one atomic operation, or
what is done under one lock.  A request can be cancelled where it awaits: in the
trigger call, the read of the cache and the wait.  The routing map is replaced at any
time; `unsent` counts the replacements that have swapped the map in and have not yet
notified.  The sender of the channel lives as long as the manager, so that `changed`
does not fail.

**Proved here.**  A request does not sleep through the end of its wait
(`parked_request_returns`); when one trigger call is in flight (`one_trigger`), and when
every parked request has one to wait for (`herd_has_trigger`).
-/
import Sardeenz.Pool
import Sardeenz.Types

namespace Sardeenz.Proxy.Parking

open Interleave List

/-! ## The manager -/

inductive WakeState where
  | inFlight
  | triggered
deriving DecidableEq

/-- The errors a parked request is answered with. -/
inductive ProxyError where
  | modelNotFound (modelName : String)
  | modelUnavailable (message : String)
  | parkingTimeout (modelName : String)
  | parkingLimitReached (message : String)
deriving DecidableEq

/-- `ParkingConfig`, without the timeout: the deadline may pass at any time. -/
structure ParkingConfig where
  maxPerModel : Nat
  maxGlobal : Nat
  maxBytes : Nat

/-- `ParkedCount` and `pending_wakes`, and the routing cache with its channel.  A
model without a counter counts 0.  Beside the state of a pending wake stands the
request that has entered it. -/
structure Lot where
  perModel : String → Nat := fun _ => 0
  locked : Bool := false
  global : Nat := 0
  parkedBytes : Nat := 0
  pendingWakes : String → Option (WakeState × Nat) := fun _ => none
  cache : RoutingMap
  version : Nat := 0
  unsent : Nat := 0
  accepted : List Nat := []

def Lot.stateOf (w : Lot) (modelName : String) : Option ModelState :=
  (w.cache.lookup modelName).map (·.state)

/-- How far a request is. -/
inductive Stage where
  | arriving
  | checked
  | bytesOver
  | bytesAdded
  | globalOver
  | globalBack
  | globalAdded
  | asking
  | triggering
  | answered (failure : Option String)
  | subscribing
  | reading (leftSleeping : Bool) (seen : Nat)
  | waiting (leftSleeping : Bool) (seen : Nat)
  | found (result : Except ProxyError Unit)
  | leaving
  | leavingBytes
  | leavingModel
  | leavingHerd
  | gone
deriving DecidableEq

/-- One call of `park`. -/
structure Request where
  modelName : String
  fireWake : Bool
  bodyLen : Nat
  stage : Stage := .arriving
  result : Option (Except ProxyError Unit) := none
  observed : Option ModelState := none
  trigger : Option Nat := none

/-- What a request meets at its next step. -/
inductive Input where
  | go
  | answer (failure : Option String)
  | timeout
  | cancel
deriving DecidableEq

namespace Request

def goTo (k : Request) (stage : Stage) : Request := { k with stage }

/-- `do_park` returns, and the guard is dropped. -/
def leave (k : Request) (result : Except ProxyError Unit) : Request :=
  { k with stage := .leaving, result := some result }

/-- `reserve_slot` returns an error; there is no guard. -/
def reject (k : Request) (message : String) : Request :=
  { k with stage := .gone, result := some (.error (.parkingLimitReached message)) }

end Request

def verdict (modelName : String) (leftSleeping : Bool) :
    Option ModelState → Option (Except ProxyError Unit)
  | some .active => some (.ok ())
  | some .error =>
    some (.error (.modelUnavailable s!"{modelName} entered error state during wake"))
  | none => some (.error (.modelNotFound modelName))
  | some .draining => some (.error (.modelUnavailable s!"{modelName} is draining"))
  | some .sleeping =>
    if leftSleeping then
      some (.error (.modelUnavailable s!"{modelName} rolled back to sleeping during wake"))
    else none
  | some .starting => none

/-- One step of `park`, as the `n`-th request. -/
def move (config : ParkingConfig) (n : Nat) (i : Input) (w : Lot) (k : Request) :
    Option (Lot × Request) :=
  match i, k.stage with
  | .go, .arriving =>
    if w.locked then none
    else if config.maxPerModel ≤ w.perModel k.modelName then some (w, k.reject k.modelName)
    else some ({ w with locked := true }, k.goTo .checked)
  | .go, .checked =>
    some ({ w with parkedBytes := w.parkedBytes + k.bodyLen },
      k.goTo (if config.maxBytes < w.parkedBytes + k.bodyLen then .bytesOver else .bytesAdded))
  | .go, .bytesOver =>
    some ({ w with parkedBytes := w.parkedBytes - k.bodyLen, locked := false },
      k.reject "parking byte budget exceeded")
  | .go, .bytesAdded =>
    some ({ w with global := w.global + 1 },
      k.goTo (if config.maxGlobal ≤ w.global then .globalOver else .globalAdded))
  | .go, .globalOver => some ({ w with global := w.global - 1 }, k.goTo .globalBack)
  | .go, .globalBack =>
    some ({ w with parkedBytes := w.parkedBytes - k.bodyLen, locked := false },
      k.reject "global parking limit reached")
  | .go, .globalAdded =>
    some ({ w with
        perModel := Function.update w.perModel k.modelName (w.perModel k.modelName + 1)
        locked := false },
      k.goTo .asking)
  | .go, .asking =>
    if k.fireWake then
      match w.pendingWakes k.modelName with
      | some (_, owner) => some (w, { k with stage := .subscribing, trigger := some owner })
      | none =>
        some ({ w with
            pendingWakes := Function.update w.pendingWakes k.modelName (some (.inFlight, n)) },
          { k with stage := .triggering, trigger := some n })
    else some (w, k.goTo .subscribing)
  | .answer failure, .triggering => some (w, k.goTo (.answered failure))
  | .go, .answered none =>
    some ({ w with
        accepted := n :: w.accepted
        pendingWakes := Function.update w.pendingWakes k.modelName
          ((w.pendingWakes k.modelName).map fun (_, owner) => (.triggered, owner)) },
      k.goTo .subscribing)
  | .go, .answered (some e) =>
    some ({ w with pendingWakes := Function.update w.pendingWakes k.modelName none },
      k.leave (.error (.modelUnavailable s!"wake trigger failed: {e}")))
  | .go, .subscribing => some (w, k.goTo (.reading false 0))
  | .go, .reading leftSleeping seen =>
    let state := w.stateOf k.modelName
    some (w, { k with
      observed := state
      stage := match verdict k.modelName leftSleeping state with
        | some result => .found result
        | none => .waiting (leftSleeping || decide (state ≠ some .sleeping)) seen })
  | .go, .found result =>
    some ({ w with pendingWakes := Function.update w.pendingWakes k.modelName none },
      k.leave result)
  | .go, .waiting leftSleeping seen =>
    if seen = w.version then none else some (w, k.goTo (.reading leftSleeping w.version))
  | .timeout, .waiting _ _ => some (w, k.leave (.error (.parkingTimeout k.modelName)))
  | .cancel, .triggering | .cancel, .reading _ _ | .cancel, .waiting _ _ =>
    some (w, k.goTo .leaving)
  | .go, .leaving => some ({ w with global := w.global - 1 }, k.goTo .leavingBytes)
  | .go, .leavingBytes =>
    some ({ w with parkedBytes := w.parkedBytes - k.bodyLen }, k.goTo .leavingModel)
  | .go, .leavingModel =>
    if w.locked then none
    else
      some ({ w with
          perModel := Function.update w.perModel k.modelName (w.perModel k.modelName - 1) },
        k.goTo (if w.perModel k.modelName = 1 then .leavingHerd else .gone))
  | .go, .leavingHerd =>
    some ({ w with pendingWakes := Function.update w.pendingWakes k.modelName none }, k.goTo .gone)
  | _, _ => none

/-- `RoutingMapCache::replace`: the swap, and the notification that follows it. -/
inductive Change where
  | swap (map : RoutingMap)
  | notify

def change (e : Change) (w : Lot) : Option Lot :=
  match e with
  | .swap map => some { w with cache := map, unsent := w.unsent + 1 }
  | .notify =>
    if w.unsent = 0 then none
    else some { w with unsent := w.unsent - 1, version := w.version + 1 }

/-- A call of `park`: the model, whether to fire a wake, and the length of the body. -/
abbrev Call := String × Bool × Nat

def rules (config : ParkingConfig) : Pool.Rules Lot Request Call Input Change where
  enter call := { modelName := call.1, fireWake := call.2.1, bodyLen := call.2.2 }
  move := move config
  around := change

abbrev System := Pool Lot Request

abbrev Event := Pool.Event Call Input Change

abbrev step (config : ParkingConfig) : System → Event → Option System := Pool.step (rules config)

def start (cache : RoutingMap) : System := { world := { cache } }

variable {config : ParkingConfig} {cache : RoutingMap} {s : System} {n : Nat} {i : Input}
  {w w' : Lot} {k k' : Request}

theorem change_eq_some {e} (h : change e w = some w') :
    w'.pendingWakes = w.pendingWakes ∧ w'.accepted = w.accepted ∧ w'.perModel = w.perModel ∧
      w'.locked = w.locked ∧ w'.global = w.global ∧ w'.parkedBytes = w.parkedBytes := by
  cases e with
  | swap =>
    cases h
    simp
  | notify =>
    simp only [change, Option.ite_none_left_eq_some, Option.some.injEq] at h
    obtain ⟨-, rfl⟩ := h
    simp

/-! ## The herd -/

def Request.underWay (k : Request) : Bool :=
  match k.stage with
  | .triggering | .answered _ => true
  | _ => false

def Request.waits (k : Request) : Bool :=
  k.fireWake &&
    match k.stage with
    | .triggering | .answered _ | .subscribing | .reading _ _ | .waiting _ _ => true
    | _ => false

def Request.clears (k : Request) : Bool :=
  match k.stage with
  | .found _ | .leavingHerd => true
  | _ => false

def Request.fails (k : Request) (i : Input) : Bool :=
  match k.stage, i with
  | .triggering, .cancel => true
  | .answered (some _), _ => true
  | _, _ => false

/-- What a step of request `n` does to the herd. -/
structure HerdMove (n : Nat) (i : Input) (w : Lot) (k : Request) (w' : Lot) (k' : Request) :
    Prop where
  modelName : k'.modelName = k.modelName
  accepted : w.accepted ⊆ w'.accepted
  pending : ∀ m, w'.pendingWakes m = w.pendingWakes m ∨ m = k.modelName ∧
    ((w.pendingWakes m = none ∧ w'.pendingWakes m = some (.inFlight, n) ∧ k'.underWay) ∨
      (k.underWay ∧ (w'.pendingWakes m = none ∨
        w'.pendingWakes m = (w.pendingWakes m).map fun e => (.triggered, e.2))) ∨
      (k.clears ∧ w'.pendingWakes m = none))
  begins : k'.underWay → (k.underWay ∧ w'.pendingWakes = w.pendingWakes) ∨
    w'.pendingWakes k.modelName = some (.inFlight, n)
  ends : k.underWay → k'.underWay ∨
    (n ∈ w'.accepted ∧ ∀ owner, w'.pendingWakes k.modelName ≠ some (.inFlight, owner)) ∨
    (k.fails i ∧ (i = .cancel ∨ w'.pendingWakes k.modelName = none))
  waits : k'.waits → ¬ k.fails i ∧ ((k.waits ∧ k'.trigger = k.trigger) ∨
    (∃ state owner, w.pendingWakes k.modelName = some (state, owner) ∧
      k'.trigger = some owner) ∨ (k'.trigger = some n ∧ k'.underWay))

theorem herd_move (h : move config n i w k = some (w', k')) : HerdMove n i w k w' k' := by
  revert h
  fun_cases move config n i w k
  all_goals
    intro h
    cases h
  all_goals
    constructor <;>
      simp_all [Request.goTo, Request.leave, Request.reject, Request.underWay, Request.waits,
        Request.clears, Request.fails]
  all_goals grind -ring -linarith

/-! ## One trigger call at a time -/

/-- The trigger call of request `n` for model `m` is in flight. -/
def Triggers (s : System) (n : Nat) (m : String) : Prop :=
  ∃ k, s.tasks[n]? = some k ∧ k.stage = .triggering ∧ k.modelName = m

/-- The entry is removed for all only while no trigger call for the model is under way. -/
def ClearsApart (s : System) : Event → Prop
  | .move n _ => ∀ k ∈ s.tasks[n]?, k.clears →
      ∀ k' ∈ s.tasks, k'.modelName = k.modelName → ¬ k'.underWay
  | _ => True

instance (s : System) (e) : Decidable (ClearsApart s e) := by
  unfold ClearsApart
  split <;> infer_instance

def Entered (s : System) : Prop :=
  ∀ j k, s.tasks[j]? = some k → k.underWay →
    ∃ state, s.world.pendingWakes k.modelName = some (state, j)

theorem Entered.move (hs : Entered s) (hok : ClearsApart s (.move n i))
    (hk : s.tasks[n]? = some k) (h : move config n i s.world k = some (w', k')) :
    Entered ⟨w', s.tasks.set n k'⟩ := by
  have hherd := herd_move h
  refine (forall_getElem?_set hk).mpr ⟨fun hk' => ?_, fun j k₂ _ hk₂ hunder => ?_⟩
  · rw [hherd.modelName]
    rcases hherd.begins hk' with ⟨hunder, hsame⟩ | hentry
    · obtain ⟨state, hstate⟩ := hs n k hk hunder
      exact ⟨state, by rw [hsame, hstate]⟩
    · exact ⟨_, hentry⟩
  · obtain ⟨state, hstate⟩ := hs j k₂ hk₂ hunder
    rcases hherd.pending k₂.modelName with hsame | ⟨hmodel, hchanged⟩
    · exact ⟨state, by rw [hsame, hstate]⟩
    · -- Another request touches the entry only if it is its own, or no call is under way.
      rcases hchanged with ⟨hnone, -⟩ | ⟨hown, -⟩ | ⟨hclears, -⟩
      · rw [hstate] at hnone
        cases hnone
      · obtain ⟨_, _⟩ := hs n k hk hown
        grind
      · exact absurd hunder (hok k hk hclears k₂ (mem_of_getElem? hk₂) hmodel)

/-- **One wake trigger for a model**, in every run in which the entry of the herd is
removed for all only while no trigger call for the model is under way. -/
theorem one_trigger (hr : Reach (step config) ClearsApart (start cache) s) (m : String) :
    ∀ i j, Triggers s i m → Triggers s j m → i = j := by
  have hentered : Entered s := by
    refine Pool.reach_inv (fun j k hj => by cases hj) ?_ ?_ ?_ hr
    · intro s a hs _
      refine forall_getElem?_append.mpr ⟨fun h => ?_, hs⟩
      cases h
    · exact fun s n i k w k' hs hok hk h => hs.move hok hk h
    · intro s e w hs _ h j k hj hunder
      rw [(change_eq_some h).1]
      exact hs j k hj hunder
  rintro i j ⟨k, hi, hk, rfl⟩ ⟨k', hj, hk', hm⟩
  obtain ⟨_, hstate⟩ := hentered i k hi (by simp [Request.underWay, hk])
  obtain ⟨_, hstate'⟩ := hentered j k' hj (by simp [Request.underWay, hk'])
  rw [hm, hstate] at hstate'
  cases hstate'
  rfl

/-! ### Two runs -/

def shows (state : ModelState) : RoutingMap :=
  AList.insert "m" ⟨"m", state, .openai, [], 0, none⟩ ∅

def exampleConfig : ParkingConfig := ⟨1000, 10000, 1073741824⟩

/-- The next `c` steps of request `n`. -/
def goes (n c : Nat) : List Event := List.replicate c (.move n .go)

def parks (n : Nat) : List Event := .arrive ("m", true, 10) :: goes n 5

def acceptedThenJoined : List Event :=
  parks 0 ++ [.move 0 (.answer none)] ++ goes 0 1 ++ parks 1

theorem one_trigger_acceptedThenJoined :
    ∃ s, Reach (step exampleConfig) ClearsApart (start (shows .sleeping)) s ∧
      s.tasks.length = 2 ∧ ∀ i j, Triggers s i "m" → Triggers s j "m" → i = j := by
  have hrun : (exec (guarded (step exampleConfig) ClearsApart) (start (shows .sleeping))
    acceptedThenJoined).isSome := by decide +kernel
  exact ⟨_, reach_get hrun, rfl, one_trigger (reach_get hrun) "m"⟩

/-- While the trigger call of request 0 is in flight, request 1 finds the model active
and removes the entry.  The model is put to sleep again, and request 2 comes. -/
def wokenMeanwhile : List Event :=
  parks 0 ++ parks 1 ++ [.around (.swap (shows .active)), .around .notify] ++ goes 1 6 ++
    [.around (.swap (shows .sleeping)), .around .notify] ++ parks 2

/-- **Two trigger calls in flight.** -/
theorem two_triggers_after_wokenMeanwhile :
    ∃ s, exec (step exampleConfig) (start (shows .sleeping)) wokenMeanwhile = some s ∧
      Triggers s 0 "m" ∧ Triggers s 2 "m" :=
  ⟨_, rfl, ⟨_, rfl, rfl, rfl⟩, ⟨_, rfl, rfl, rfl⟩⟩

/-! ## A trigger for every herd -/

/-- The trigger call of request `n` is under way for model `m`. -/
def Runs (s : System) (n : Nat) (m : String) : Prop :=
  ∃ k, s.tasks[n]? = some k ∧ k.modelName = m ∧ k.underWay

/-- The trigger call of request `n` has been accepted, or is under way for model `m`. -/
def Backed (s : System) (n : Nat) (m : String) : Prop := n ∈ s.world.accepted ∨ Runs s n m

/-- No request is cancelled while its trigger call is in flight, and none fails for
which another request waits. -/
def FailsAlone (s : System) : Event → Prop
  | .move n i => ∀ k ∈ s.tasks[n]?, k.fails i → i ≠ .cancel ∧
      ∀ j < s.tasks.length, j ≠ n → ∀ k' ∈ s.tasks[j]?, k'.waits → k'.trigger ≠ some n
  | _ => True

instance (s : System) (e) : Decidable (FailsAlone s e) := by
  unfold FailsAlone
  split <;> infer_instance

structure Herd (s : System) : Prop where
  entry : ∀ m state owner, s.world.pendingWakes m = some (state, owner) →
    Backed s owner m ∧ (state = .inFlight → Runs s owner m)
  waits : ∀ (j : Nat) (k : Request), s.tasks[j]? = some k → k.waits →
    ∃ owner, k.trigger = some owner ∧ Backed s owner k.modelName

section
variable (hk : s.tasks[n]? = some k) (h : move config n i s.world k = some (w', k'))
  (hok : FailsAlone s (.move n i))
include hk h hok

theorem runs_move {c m} (hruns : Runs s c m) : Runs ⟨w', s.tasks.set n k'⟩ c m ∨
      (c ∈ w'.accepted ∧ ∀ owner, w'.pendingWakes m ≠ some (.inFlight, owner)) ∨
      (c = n ∧ k.fails i ∧ w'.pendingWakes m = none) := by
  obtain ⟨k₂, hk₂, rfl, hunder⟩ := hruns
  have hlt : n < s.tasks.length := (List.getElem?_eq_some_iff.mp hk).1
  by_cases hc : c = n
  · subst hc
    rw [hk] at hk₂
    cases hk₂
    rcases (herd_move h).ends hunder with hunder' | haccepted | ⟨hfails, hcancel | hnone⟩
    · exact .inl ⟨k', getElem?_set_self hlt, (herd_move h).modelName, hunder'⟩
    · exact .inr (.inl haccepted)
    · exact absurd hcancel (hok k hk hfails).1
    · exact .inr (.inr ⟨rfl, hfails, hnone⟩)
  · exact .inl ⟨k₂, by rwa [getElem?_set_ne (Ne.symm hc)], rfl, hunder⟩

theorem backed_move {c m} (hbacked : Backed s c m) :
    Backed ⟨w', s.tasks.set n k'⟩ c m ∨ (c = n ∧ k.fails i ∧ w'.pendingWakes m = none) := by
  rcases hbacked with haccepted | hruns
  · exact .inl (.inl ((herd_move h).accepted haccepted))
  · rcases runs_move hk h hok hruns with hruns' | ⟨haccepted, -⟩ | hfails
    · exact .inl (.inr hruns')
    · exact .inl (.inl haccepted)
    · exact .inr hfails

end

theorem Herd.move (hs : Herd s) (hok : FailsAlone s (.move n i)) (hk : s.tasks[n]? = some k)
    (h : move config n i s.world k = some (w', k')) : Herd ⟨w', s.tasks.set n k'⟩ := by
  have hherd := herd_move h
  have hlt : n < s.tasks.length := (List.getElem?_eq_some_iff.mp hk).1
  constructor
  · intro m state owner hentry
    -- An entry that was there is backed as before; a new one is the request's own.
    have hold : ∀ state₀, s.world.pendingWakes m = some (state₀, owner) →
        (state = .inFlight → state₀ = .inFlight) →
        Backed ⟨w', s.tasks.set n k'⟩ owner m ∧
          (state = .inFlight → Runs ⟨w', s.tasks.set n k'⟩ owner m) := by
      intro state₀ hold hstate
      obtain ⟨hbacked, hruns⟩ := hs.entry m state₀ owner hold
      refine ⟨(backed_move hk h hok hbacked).resolve_right fun hfails => ?_, fun hin => ?_⟩
      · rw [hfails.2.2] at hentry
        cases hentry
      · rcases runs_move hk h hok (hruns (hstate hin)) with hruns' | ⟨-, hno⟩ | ⟨-, -, hnone⟩
        · exact hruns'
        · exact absurd (hin ▸ hentry) (hno owner)
        · rw [hnone] at hentry
          cases hentry
    rcases hherd.pending m with hsame | ⟨rfl, hchanged⟩
    · exact hold state (hsame ▸ hentry) id
    · rcases hchanged with ⟨-, hnew, hunder⟩ | ⟨-, hnone | hrecorded⟩ | ⟨-, hnone⟩
      · rw [hnew] at hentry
        cases hentry
        have hruns : Runs ⟨w', s.tasks.set n k'⟩ n k.modelName :=
          ⟨k', getElem?_set_self hlt, hherd.modelName, hunder⟩
        exact ⟨.inr hruns, fun _ => hruns⟩
      · grind
      · rw [hrecorded] at hentry
        obtain ⟨⟨state₀, _⟩, _, _⟩ := Option.map_eq_some_iff.mp hentry
        grind
      · grind
  · refine (forall_getElem?_set hk).mpr ⟨fun hwaits => ?_, fun j k₂ hj hk₂ hwaits => ?_⟩
    · rw [hherd.modelName]
      obtain ⟨hfails, ⟨hwaits, htrigger⟩ | ⟨state, owner, hentry, htrigger⟩ | ⟨htrigger, hunder⟩⟩ :=
        hherd.waits hwaits
      · grind [hs.waits, backed_move]
      · grind [backed_move, hs.entry]
      · exact ⟨n, htrigger, .inr ⟨k', getElem?_set_self hlt, hherd.modelName, hunder⟩⟩
    · obtain ⟨owner, howner, hbacked⟩ := hs.waits j k₂ hk₂ hwaits
      refine ⟨owner, howner, (backed_move hk h hok hbacked).resolve_right ?_⟩
      rintro ⟨rfl, hfails, -⟩
      exact (hok k hk hfails).2 j (List.getElem?_eq_some_iff.mp hk₂).1 hj k₂ hk₂ hwaits howner

theorem Herd.mono {s'} (hs : Herd s)
    (hpending : s'.world.pendingWakes = s.world.pendingWakes)
    (haccepted : s'.world.accepted = s.world.accepted)
    (htasks : ∀ (j : Nat) (k : Request), s.tasks[j]? = some k → s'.tasks[j]? = some k)
    (hnew : ∀ (j : Nat) (k : Request), s'.tasks[j]? = some k →
      s.tasks[j]? = some k ∨ ¬ k.waits) : Herd s' := by
  have hruns : ∀ c m, Runs s c m → Runs s' c m := by
    rintro c m ⟨k, hk, hm⟩
    exact ⟨k, htasks c k hk, hm⟩
  have hbacked : ∀ c m, Backed s c m → Backed s' c m := fun c m h =>
    h.imp (haccepted ▸ ·) (hruns c m)
  constructor
  · grind [hs.entry]
  · grind [hs.waits]

/-- **No herd without a wake**, in every run in which no request is cancelled while its
trigger call is in flight, and no call fails for which another request waits: an entry
that says `InFlight` has its call under way, and every request that has asked for a
wake and stays waits for a call that is under way or has been accepted. -/
theorem herd_has_trigger (hr : Reach (step config) FailsAlone (start cache) s) :
    (∀ m owner, s.world.pendingWakes m = some (.inFlight, owner) → Runs s owner m) ∧
      ∀ (j : Nat) (k : Request), s.tasks[j]? = some k → k.waits →
        ∃ owner, k.trigger = some owner ∧ Backed s owner k.modelName := by
  have hherd : Herd s := by
    refine Pool.reach_inv ⟨nofun, fun j k hj => by cases hj⟩ ?_ ?_ ?_ hr
    · intro s a hs _
      refine hs.mono rfl rfl (fun j k hj => ?_) (forall_getElem?_append.mpr ⟨.inr ?_, fun _ _ => .inl⟩)
      · rwa [getElem?_append_left (List.getElem?_eq_some_iff.mp hj).1]
      · simp [rules, Request.waits]
    · exact fun s n i k w _ hs hok hk h => hs.move hok hk h
    · intro s e w hs _ h
      obtain ⟨hpending, haccepted, -⟩ := change_eq_some h
      exact hs.mono hpending haccepted (fun _ _ => id) fun _ _ => .inl
  exact ⟨fun m owner hentry => (hherd.entry m _ owner hentry).2 rfl, hherd.waits⟩

theorem herd_has_trigger_acceptedThenJoined :
    ∃ s, Reach (step exampleConfig) FailsAlone (start (shows .sleeping)) s ∧
      s.world.pendingWakes "m" = some (.triggered, 0) ∧
      ∀ (j : Nat) (k : Request), s.tasks[j]? = some k → k.waits →
        ∃ owner, k.trigger = some owner ∧ Backed s owner k.modelName := by
  have hrun : (exec (guarded (step exampleConfig) FailsAlone) (start (shows .sleeping))
    acceptedThenJoined).isSome := by decide +kernel
  exact ⟨_, reach_get hrun, rfl, (herd_has_trigger (reach_get hrun)).2⟩

def cancelledMeanwhile : List Event :=
  parks 0 ++ parks 1 ++ goes 1 2 ++ [.move 0 .cancel] ++ goes 0 3

/-- **A herd without a wake.**  The entry says `InFlight`, and request 1 stays parked on
the sleeping model; no trigger call is in flight and none has been accepted. -/
theorem herd_without_trigger :
    ∃ s, exec (step exampleConfig) (start (shows .sleeping)) cancelledMeanwhile = some s ∧
      s.world.pendingWakes "m" = some (.inFlight, 0) ∧ (∀ k ∈ s.tasks, ¬ k.underWay) ∧
      s.world.accepted = [] ∧ s.world.stateOf "m" = some .sleeping ∧
      ∃ k, s.tasks[1]? = some k ∧ k.waits ∧ k.stage = .waiting false 0 :=
  ⟨_, rfl, rfl, by decide +kernel, rfl, rfl, _, rfl, rfl, rfl⟩

/-! ## The wait -/

def Settled : Option ModelState → Bool
  | none | some .active | some .error | some .draining => true
  | some .sleeping | some .starting => false

variable {state : Option ModelState}

theorem verdict_of_settled (h : Settled state = true) (modelName : String) (leftSleeping : Bool) :
    ∃ result, verdict modelName leftSleeping state = some result ∧
      (result = .ok () ↔ state = some .active) := by
  cases state with
  | none => simp [verdict]
  | some state => cases state <;> simp_all [verdict, Settled]

/-- What a request knows.  While it waits, the cache has what it has read, unless it
will be told of a change. -/
def Waiting (w : Lot) (k : Request) : Prop :=
  match k.stage with
  | .found result => k.result = none ∧ (result = .ok () → k.observed = some .active)
  | .leaving | .leavingBytes | .leavingModel | .leavingHerd | .gone =>
    k.result = some (.ok ()) → k.observed = some .active
  | .reading _ seen => k.result = none ∧ seen ≤ w.version
  | .waiting _ seen => k.result = none ∧ seen ≤ w.version ∧ Settled k.observed = false ∧
      (w.stateOf k.modelName = k.observed ∨ 0 < w.unsent ∨ seen < w.version)
  | _ => k.result = none

variable {leftSleeping : Bool}

theorem not_settled_of_verdict {modelName}
    (h : verdict modelName leftSleeping state = none) :
    Settled state = false := by
  cases state with
  | none => simp [verdict] at h
  | some state => cases state <;> simp_all [verdict, Settled]

theorem verdict_eq_ok {modelName}
    (h : verdict modelName leftSleeping state = some (.ok ())) : state = some .active := by
  cases state with
  | none => simp [verdict] at h
  | some state => cases state <;> simp_all [verdict]

theorem waiting_move (hk : Waiting w k) (h : move config n i w k = some (w', k')) :
    Waiting w' k' := by
  revert h
  fun_cases move config n i w k
  case case17 leftSleeping seen hstage state =>
    intro h
    cases h
    simp only [Waiting, hstage] at hk ⊢
    cases hv : verdict k.modelName leftSleeping state with
    | none => exact ⟨hk.1, hk.2, not_settled_of_verdict hv, .inl rfl⟩
    | some => exact ⟨hk.1, fun hok => verdict_eq_ok (hok ▸ hv)⟩
  all_goals
    intro h
    cases h
  all_goals simp_all [Waiting, Request.goTo, Request.leave, Request.reject]
  all_goals split_ifs <;> simp_all

theorem cache_move (h : move config n i w k = some (w', k')) :
    w'.cache = w.cache ∧ w'.unsent = w.unsent ∧ w'.version = w.version := by
  revert h
  fun_cases move config n i w k
  all_goals
    intro h
    cases h
  all_goals simp

theorem waiting_change {e} (hk : Waiting w k) (h : change e w = some w') :
    Waiting w' k := by
  cases e with
  | swap =>
    cases h
    grind [Waiting]
  | notify =>
    simp only [change] at h
    grind [Waiting]

def Request.inWait (k : Request) : Bool :=
  match k.stage with
  | .subscribing | .reading _ _ | .waiting _ _ => true
  | _ => false

/-- Request `n` returns `Ok` or an error, as the state tells, after `c` steps of its own. -/
def ReturnsIn (config : ParkingConfig) (s : System) (n c : Nat) (state : Option ModelState) :
    Prop :=
  ∃ s' k' result, exec (step config) s (goes n c) = some s' ∧ s'.tasks[n]? = some k' ∧
    k'.result = some result ∧ (result = .ok () ↔ state = some .active)

theorem returnsIn_succ {c} (hk : s.tasks[n]? = some k)
    (h : move config n .go s.world k = some (w', k'))
    (hrest : ReturnsIn config ⟨w', s.tasks.set n k'⟩ n c state) :
    ReturnsIn config s n (c + 1) state := by
  have hstep : step config s (.move n .go) = some ⟨w', s.tasks.set n k'⟩ :=
    Pool.step_move.mpr ⟨k, w', k', hk, h, rfl⟩
  obtain ⟨s', k₂, result, _, hrest⟩ := hrest
  refine ⟨s', k₂, result, ?_, hrest⟩
  grind [goes, exec]

theorem getElem?_set_of (hk : s.tasks[n]? = some k) : (s.tasks.set n k')[n]? = some k' :=
  getElem?_set_self (List.getElem?_eq_some_iff.mp hk).1

theorem returnsIn_reading (hk : s.tasks[n]? = some k) {seen}
    (hstage : k.stage = .reading leftSleeping seen)
    (hsettled : Settled (s.world.stateOf k.modelName) = true) :
    ReturnsIn config s n 2 (s.world.stateOf k.modelName) := by
  obtain ⟨result, hresult, hok⟩ := verdict_of_settled hsettled k.modelName leftSleeping
  have hread : move config n .go s.world k = some (s.world, { k with
      observed := s.world.stateOf k.modelName, stage := .found result }) := by
    simp [move, hstage, hresult]
  refine returnsIn_succ hk hread (returnsIn_succ (getElem?_set_of hk) rfl ?_)
  exact ⟨_, _, result, rfl, getElem?_set_of (getElem?_set_of hk), rfl, hok⟩

/-- **A parked request returns.**  In every run, with any number of requests and any
number of replacements of the routing map: no request waits for a further change while
the cache shows its model active, in error, draining or not at all; in its wait it then
returns by at most three steps of its own, with `Ok` if the model is active; and it
returns `Ok` only if it has read that the model is active. -/
theorem parked_request_returns (hr : Reach (step config) anyStep (start cache) s)
    (hk : s.tasks[n]? = some k) :
    (∀ leftSleeping, k.stage = .waiting leftSleeping s.world.version → s.world.unsent = 0 →
      Settled (s.world.stateOf k.modelName) = false) ∧
      (k.inWait = true → s.world.unsent = 0 → Settled (s.world.stateOf k.modelName) = true →
        ∃ c ≤ 3, ReturnsIn config s n c (s.world.stateOf k.modelName)) ∧
      (k.result = some (.ok ()) → k.observed = some .active) := by
  have hwaiting : ∀ (j : Nat) k, s.tasks[j]? = some k → Waiting s.world k := by
    refine Pool.reach_inv (P := fun s : System => ∀ (j : Nat) k, s.tasks[j]? = some k →
      Waiting s.world k) (fun j k hj => by cases hj) ?_ ?_ ?_ hr
    · exact fun s a hs _ => forall_getElem?_append.mpr ⟨rfl, hs⟩
    · intro s n i k w _ hs _ hk h
      refine (forall_getElem?_set hk).mpr ⟨waiting_move (hs n k hk) h, fun j k₂ _ hk₂ => ?_⟩
      obtain ⟨hcache, hunsent, hversion⟩ := cache_move h
      simpa [Waiting, Lot.stateOf, hcache, hunsent, hversion] using hs j k₂ hk₂
    · exact fun s e w hs _ h j k hj => waiting_change (hs j k hj) h
  have hown := hwaiting n k hk
  have hawake : ∀ leftSleeping, k.stage = .waiting leftSleeping s.world.version →
      s.world.unsent = 0 → Settled (s.world.stateOf k.modelName) = false := by
    intro leftSleeping hstage hunsent
    simp only [Waiting, hstage] at hown
    obtain ⟨-, -, hsettled, hsame | _ | hseen⟩ := hown
    · rw [hsame]
      exact hsettled
    · omega
    · omega
  have hread : ∀ leftSleeping seen, Settled (s.world.stateOf k.modelName) = true →
      ReturnsIn config ⟨s.world, s.tasks.set n (k.goTo (.reading leftSleeping seen))⟩ n 2
        (s.world.stateOf k.modelName) := fun leftSleeping seen =>
    returnsIn_reading (s := ⟨s.world, _⟩) (k := k.goTo (.reading leftSleeping seen))
      (getElem?_set_of hk) rfl
  refine ⟨hawake, fun hin hunsent hsettled => ?_, fun _ => ?_⟩
  · cases hstage : k.stage with
    | subscribing =>
      have hgo : move config n .go s.world k = some (s.world, k.goTo (.reading false 0)) := by
        simp [move, hstage]
      exact ⟨3, le_rfl, returnsIn_succ hk hgo (hread _ _ hsettled)⟩
    | reading leftSleeping seen => exact ⟨2, by omega, returnsIn_reading hk hstage hsettled⟩
    | waiting leftSleeping seen =>
      have hseen : seen ≠ s.world.version := by
        rintro rfl
        rw [hawake leftSleeping hstage hunsent] at hsettled
        cases hsettled
      have hgo : move config n .go s.world k =
          some (s.world, k.goTo (.reading leftSleeping s.world.version)) := by
        simp [move, hstage, hseen]
      exact ⟨3, le_rfl, returnsIn_succ hk hgo (hread _ _ hsettled)⟩
    | _ => simp [Request.inWait, hstage] at hin
  · unfold Waiting at hown
    split at hown <;> simp_all

/-- The map is swapped in between the read of a request and its wait, and the request
is told. -/
theorem parked_request_returns_wokenMeanwhile :
    ∃ s k, Reach (step exampleConfig) anyStep (start (shows .sleeping)) s ∧
      s.tasks[0]? = some k ∧ k.stage = .waiting false 0 ∧
      s.world.stateOf k.modelName = some .active ∧
      ∃ c ≤ 3, ReturnsIn exampleConfig s 0 c (s.world.stateOf k.modelName) := by
  have hrun : (exec (guarded (step exampleConfig) anyStep) (start (shows .sleeping))
    (parks 0 ++ [.move 0 (.answer none)] ++ goes 0 3 ++
      [.around (.swap (shows .active)), .around .notify])).isSome := by decide +kernel
  exact ⟨_, _, reach_get hrun, rfl, rfl, rfl,
    (parked_request_returns (reach_get hrun) rfl).2.1 rfl rfl rfl⟩

end Sardeenz.Proxy.Parking
