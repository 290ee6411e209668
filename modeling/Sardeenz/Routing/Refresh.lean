/-
# `Sardeenz.Routing.Refresh` — refreshModelRoutingState under concurrency

After every transition or removal of an instance its caller recomputes the
model's routing state from all instances and writes it.  The recomputation is
not atomic:

    SCAN …           the keys of the model's instances, over several replies
    GET, GET, …      one for each key, in a pipeline
    setModelState    or `removeModel`, when nothing of the aggregate is routed

so the write can be based on records that have changed since.  This module
runs any number of such callers on one model.  A counter of the changes dates
every refresh by the change it began after (`began`), and the entry by the
refresh that wrote it last (`written`).

**Proved here.**  When the entry shows the aggregate of the instances once no call is in
progress (`routing_agrees_at_quiescence`), and a slow refresh (`stale_refresh_wins`).
-/
import Sardeenz.Run
import Sardeenz.Lifecycle.Store
import Sardeenz.Routing.Map

namespace Sardeenz

open Function

/-! ## The function -/

def toRoutingState : ModelLifecycleState → Option ModelState
  | .starting => some .starting
  | .active => some .active
  | .draining => some .draining
  | .sleeping => some .sleeping
  | .error => some .error
  | .pending | .stopping | .stopped => none

/-- What `refreshModelRoutingState` decides to write, from the instances it
has read: a state and a protocol, or nothing, and then the entry goes. -/
def refreshDecision (instances : List InstanceState) : Option (ModelState × Protocol) :=
  (toRoutingState (deriveAggregateState instances)).map fun state =>
    (state, ((instances.find? fun i => i.protocol.isSome).bind (·.protocol)).getD .openai)

/-- The write that ends `refreshModelRoutingState`. -/
def writeDecision (m : RoutingMap) (modelName : String) (now : Nat) :
    Option (ModelState × Protocol) → RoutingMap
  | some (state, protocol) => setModelState m modelName state (some protocol) now
  | none => removeModel m modelName

theorem lookup_writeDecision (m : RoutingMap) (modelName : String) (now : Nat)
    (d : Option (ModelState × Protocol)) :
    ((writeDecision m modelName now d).lookup modelName).map (·.state) = d.map (·.1) := by
  cases d with
  | none => simp [writeDecision, removeModel]
  | some => simp [writeDecision, setModelState]

theorem refreshDecision_map_fst (instances : List InstanceState) :
    (refreshDecision instances).map (·.1) = toRoutingState (deriveAggregateState instances) := by
  simp [refreshDecision, comp_def]

theorem toRoutingState_isSome {instances q}
    (hq : q ∈ aggregateStatePrecedence.take 4) (h : HasState instances q) :
    (toRoutingState (deriveAggregateState instances)).isSome = true := by
  have hne : q ≠ .stopped := by
    rintro rfl
    exact absurd hq (by decide)
  have hmem := mem_relevant.mpr ⟨hne, h⟩
  unfold deriveAggregateState
  generalize (instances.filter fun i => i.state ≠ .stopped).map (·.state) = relevant at hmem
  -- The first state of the list that occurs comes no later than `q`.
  have hfind : ((aggregateStatePrecedence.take 4).find? fun c => relevant.contains c).isSome := by
    grind
  obtain ⟨c, hc⟩ := Option.isSome_iff_exists.mp hfind
  have hall : (aggregateStatePrecedence.find? fun c => relevant.contains c) = some c := by
    rw [← List.take_append_drop 4 aggregateStatePrecedence, List.find?_append, hc]
    rfl
  have hrouted : ∀ c ∈ aggregateStatePrecedence.take 4, (toRoutingState c).isSome = true := by
    decide
  grind [List.mem_of_find?_eq_some]

theorem hasState_of_refreshDecision {instances protocol}
    (h : refreshDecision instances = some (.active, protocol)) : HasState instances .active := by
  have hagg : deriveAggregateState instances = .active := by
    have hrouted := refreshDecision_map_fst instances
    rw [h] at hrouted
    cases hd : deriveAggregateState instances with
    | active => rfl
    | _ =>
      rw [hd] at hrouted
      cases hrouted
  by_contra hnone
  have hstopped : ∀ q, q ≠ .stopped → ¬ HasState instances q := fun q hq hs =>
    hnone (hagg ▸ hasState_deriveAggregateState hq hs)
  have hempty : deriveAggregateState instances = deriveAggregateState [] := by
    refine deriveAggregateState_congr fun q hq => iff_of_false (hstopped q hq) ?_
    rintro ⟨i, hi, -⟩
    exact absurd hi List.not_mem_nil
  exact nomatch hagg.symm.trans hempty

/-! ## The instance records of one model -/

abbrev Instances := AList (fun _ : String => InstanceState)

def allInstances (instances : Instances) : List InstanceState :=
  instances.entries.map (·.snd)

theorem mem_allInstances {instances i} :
    i ∈ allInstances instances ↔ ∃ id, instances.lookup id = some i := by
  simp only [allInstances, ← Option.mem_def, AList.mem_lookup_iff]
  grind

/-- The routing entry shows the aggregate: it is absent exactly when the
aggregate is not routed, and otherwise has the aggregate's state. -/
def Agrees (modelName : String) (instances : Instances) (routing : RoutingMap) : Prop :=
  (routing.lookup modelName).map (·.state) =
    toRoutingState (deriveAggregateState (allInstances instances))
deriving Decidable

namespace Refresh

open Interleave

/-! ## The system -/

/-- Where a caller is: it changes an instance, then refreshes. -/
inductive Pc where
  | idle
  | changed
  | scanning (startIds : List String)
  | reading (remaining : List String) (collected : List InstanceState)
deriving DecidableEq

/-- One model, and `n` callers. -/
structure State (n : Nat) where
  instances : Instances
  routing : RoutingMap
  tasks : Fin n → Pc
  version : Nat := 0
  began : Fin n → Nat := fun _ => 0
  written : Nat := 0
  lost : List String := []

/-- One Redis command, by the caller it belongs to. -/
inductive Action (n : Nat) where
  | transition (t : Fin n) (id : String) (target : ModelLifecycleState)
      (updates : InstanceUpdates) (now : Nat)
  | removeInstance (t : Fin n) (id : String)
  | scan (t : Fin n)
  | scanned (t : Fin n) (keys : List String)
  | get (t : Fin n)
  | write (t : Fin n) (now : Nat)

/-- What Redis promises of a full `SCAN`: every key that was there throughout
is returned, perhaps more than once, and no key that never was. -/
def ScanReply (startIds : List String) (instances : Instances) (keys : List String) : Prop :=
  (∀ id ∈ startIds, id ∈ instances → id ∈ keys) ∧ ∀ id ∈ keys, id ∈ startIds
deriving Decidable

/-- The ids of the `ACTIVE` instances whose endpoint is in the entry. -/
def routedActive (modelName : String) (instances : Instances) (routing : RoutingMap) :
    List String :=
  match routing.lookup modelName with
  | none => []
  | some entry =>
    ((allInstances instances).filter fun i =>
      decide (i.state = .active) && entry.endpoints.any fun e =>
        some e.host == i.runnerHost && some e.port == i.runnerEnginePort).map (·.instanceId)

variable {n : Nat} (modelName : String)

def step (s : State n) : Action n → Option (State n)
  | .transition t id target updates now =>
    match s.tasks t with
    | .idle =>
      match transition (s.instances.lookup id) modelName id target updates now with
      | .ok r =>
        some { s with
          instances := s.instances.insert id r
          tasks := Function.update s.tasks t .changed
          version := s.version + 1 }
      | .error _ => none
    | _ => none
  | .removeInstance t id =>
    match s.tasks t with
    | .idle =>
      some { s with
        instances := s.instances.erase id
        tasks := Function.update s.tasks t .changed
        version := s.version + 1 }
    | _ => none
  | .scan t =>
    match s.tasks t with
    | .changed =>
      some { s with
        tasks := Function.update s.tasks t (.scanning s.instances.keys)
        began := Function.update s.began t s.version }
    | _ => none
  | .scanned t keys =>
    match s.tasks t with
    | .scanning startIds =>
      if ScanReply startIds s.instances keys then
        some { s with tasks := Function.update s.tasks t (.reading keys []) }
      else none
    | _ => none
  | .get t =>
    match s.tasks t with
    | .reading (id :: rest) collected =>
      some { s with
        tasks := Function.update s.tasks t
          (.reading rest (collected ++ (s.instances.lookup id).toList)) }
    | _ => none
  | .write t now =>
    match s.tasks t with
    | .reading [] collected =>
      some { s with
        routing := writeDecision s.routing modelName now (refreshDecision collected)
        tasks := Function.update s.tasks t .idle
        written := max s.written (s.began t)
        lost :=
          if refreshDecision collected = none then
            s.lost ++ routedActive modelName s.instances s.routing
          else s.lost }
    | _ => none

/-- The write of caller `t` would remove the model. -/
def removes (s : State n) (t : Fin n) : Bool :=
  match s.tasks t with
  | .reading [] collected => (refreshDecision collected).isNone
  | _ => false

/-- The condition on a write, in the state it is taken in: no refresh that
began after a later change has written already, and if the write removes the
model then no instance has changed since the refresh began. -/
def NotOvertaken (s : State n) : Action n → Prop
  | .write t _ => s.written ≤ s.began t ∧ (removes s t = true → s.began t = s.version)
  | _ => True

instance (s : State n) (a) : Decidable (NotOvertaken s a) := by
  unfold NotOvertaken
  split <;> infer_instance

/-! ## The invariant -/

def Fresh (s : State n) (t : Fin n) : Prop :=
  s.tasks t = .changed ∨ (s.tasks t ≠ .idle ∧ s.began t = s.version)

/-- What the caller has read and is going to read are the states of the
current records. -/
def Current (instances : Instances) : Pc → Prop
  | .scanning startIds => startIds = instances.keys
  | .reading remaining collected =>
    ∀ q, HasState (allInstances instances) q ↔
      HasState collected q ∨ ∃ id ∈ remaining, ∃ i, instances.lookup id = some i ∧ i.state = q
  | _ => True

/-- What holds in every reached state. -/
structure Inv (s : State n) : Prop where
  written_le : s.written ≤ s.version
  began_le : ∀ t, s.began t ≤ s.version
  /-- The last change has been written, or a refresh that will write it is on
  its way. -/
  fresh : s.written = s.version ∨ ∃ t, Fresh s t
  agrees : s.written = s.version → Agrees modelName s.instances s.routing
  current : ∀ t, s.began t = s.version → Current s.instances (s.tasks t)
  lost : s.lost = []

variable {modelName} {s : State n}

theorem Inv.progress (hi : Inv modelName s) {t pc} (hidle : pc ≠ .idle)
    (hpc : s.tasks t ≠ .changed) (hcur : s.began t = s.version → Current s.instances pc) :
    Inv modelName { s with tasks := update s.tasks t pc } where
  written_le := hi.written_le
  began_le := hi.began_le
  fresh := by
    rcases hi.fresh with h | ⟨t', ht'⟩
    · exact .inl h
    · refine .inr ⟨t', ?_⟩
      by_cases htt : t' = t
      · subst htt
        rcases ht' with h | ⟨_, h⟩
        · exact absurd h hpc
        · exact .inr ⟨by simpa using hidle, h⟩
      · simpa [Fresh, htt] using ht'
  agrees := hi.agrees
  current := by
    intro t' hb
    by_cases htt : t' = t
    · subst htt
      simpa using hcur hb
    · simpa [htt] using hi.current t' hb
  lost := hi.lost

theorem Inv.change (hi : Inv modelName s) (t : Fin n) (instances : Instances) :
    Inv modelName { s with
      instances, tasks := update s.tasks t .changed, version := s.version + 1 } where
  written_le := Nat.le_succ_of_le hi.written_le
  began_le := fun t' => Nat.le_succ_of_le (hi.began_le t')
  fresh := .inr ⟨t, .inl (by simp)⟩
  agrees := fun h => absurd h (Nat.ne_of_lt (Nat.lt_succ_of_le hi.written_le))
  current := fun t' h => absurd h (Nat.ne_of_lt (Nat.lt_succ_of_le (hi.began_le t')))
  lost := hi.lost

theorem Inv.scan (hi : Inv modelName s) (t : Fin n) : Inv modelName { s with
      tasks := update s.tasks t (.scanning s.instances.keys)
      began := update s.began t s.version } where
  written_le := hi.written_le
  began_le := by
    intro t'
    by_cases htt : t' = t
    · subst htt; simp
    · simpa [htt] using hi.began_le t'
  fresh := .inr ⟨t, .inr (by simp)⟩
  agrees := hi.agrees
  current := by
    intro t' hb
    by_cases htt : t' = t
    · subst htt; simp [Current]
    · simp only [update_of_ne htt] at hb ⊢
      exact hi.current t' hb
  lost := hi.lost

variable {instances : Instances}

theorem current_of_scanReply {keys} (h : ScanReply instances.keys instances keys) :
    Current instances (.reading keys []) := by
  intro q
  constructor
  · rintro ⟨i, hi, rfl⟩
    obtain ⟨id, hid⟩ := mem_allInstances.mp hi
    have hmem : id ∈ instances := AList.lookup_isSome.mp (by rw [hid]; rfl)
    exact .inr ⟨id, h.1 id (AList.mem_keys.mp hmem) hmem, i, hid, rfl⟩
  · rintro (⟨i, hi, _⟩ | ⟨id, _, i, hid, rfl⟩)
    · exact absurd hi List.not_mem_nil
    · exact ⟨i, mem_allInstances.mpr ⟨id, hid⟩, rfl⟩

variable {collected : List InstanceState}

theorem current_get {id rest}
    (h : Current instances (.reading (id :: rest) collected)) :
    Current instances (.reading rest (collected ++ (instances.lookup id).toList)) := by
  intro q
  rw [h q]
  grind [HasState]

theorem derive_of_current (h : Current instances (.reading [] collected)) :
    deriveAggregateState collected = deriveAggregateState (allInstances instances) := by
  refine deriveAggregateState_congr fun q _ => ?_
  rw [h q]
  simp

theorem routedActive_eq_nil {routing}
    (h : toRoutingState (deriveAggregateState (allInstances instances)) = none) :
    routedActive modelName instances routing = [] := by
  have hno : ∀ i ∈ allInstances instances, i.state ≠ .active := by
    intro i hi hact
    rw [deriveAggregateState_active ⟨i, hi, hact⟩] at h
    cases h
  grind [routedActive, List.filter_eq_nil_iff]

theorem Inv.write (hi : Inv modelName s) {t} (hpc : s.tasks t = .reading [] collected)
    (now : Nat) (hle : s.written ≤ s.began t)
    (hrem : refreshDecision collected = none → s.began t = s.version) :
    Inv modelName { s with
      routing := writeDecision s.routing modelName now (refreshDecision collected)
      tasks := update s.tasks t .idle
      written := max s.written (s.began t)
      lost :=
        if refreshDecision collected = none then
          s.lost ++ routedActive modelName s.instances s.routing
        else s.lost } where
  written_le := Nat.max_le.mpr ⟨hi.written_le, hi.began_le t⟩
  began_le := hi.began_le
  fresh := by
    rw [Nat.max_eq_right hle]
    by_cases hb : s.began t = s.version
    · exact .inl hb
    · -- the writer was not fresh, so another caller is
      have hlt : s.written ≠ s.version := fun h => hb (Nat.le_antisymm (hi.began_le t) (h ▸ hle))
      obtain ⟨t', ht'⟩ := hi.fresh.resolve_left hlt
      have htt : t' ≠ t := by
        rintro rfl
        rcases ht' with h | ⟨_, h⟩
        · rw [hpc] at h
          cases h
        · exact hb h
      exact .inr ⟨t', by simpa [Fresh, htt] using ht'⟩
  agrees := by
    intro hw
    have hb : s.began t = s.version := by
      rwa [Nat.max_eq_right hle] at hw
    have hcur := hi.current t hb
    rw [hpc] at hcur
    rw [Agrees, lookup_writeDecision, refreshDecision_map_fst, derive_of_current hcur]
  current := by
    intro t' hb
    by_cases htt : t' = t
    · subst htt
      simp [Current]
    · simpa [htt] using hi.current t' hb
  lost := by
    by_cases hd : refreshDecision collected = none
    · have hcur := hi.current t (hrem hd)
      rw [hpc] at hcur
      have hnone : toRoutingState (deriveAggregateState (allInstances s.instances)) = none := by
        rw [← derive_of_current hcur, ← refreshDecision_map_fst, hd]
        rfl
      simp [hi.lost, routedActive_eq_nil hnone]
    · simp [hd, hi.lost]

theorem Inv.step {s' a} (hi : Inv modelName s) (hok : NotOvertaken s a)
    (h : Refresh.step modelName s a = some s') : Inv modelName s' := by
  cases a with
  | transition t id _ _ now =>
    grind [Refresh.step, hi.change]
  | removeInstance t id =>
    grind [Refresh.step, hi.change]
  | scan t =>
    grind [Refresh.step, hi.scan]
  | scanned t =>
    simp only [Refresh.step] at h
    split at h
    · rename_i startIds hpc
      split at h
      · rename_i hreply
        cases h
        refine hi.progress (by simp) (by simp [hpc]) fun hb => ?_
        have hcur := hi.current t hb
        rw [hpc] at hcur
        exact current_of_scanReply (hcur ▸ hreply)
      · cases h
    · cases h
  | get t =>
    grind [Refresh.step, hi.progress, hi.current, current_get]
  | write t now =>
    simp only [Refresh.step] at h
    split at h
    · rename_i collected hpc
      cases h
      refine hi.write hpc now hok.1 fun hd => hok.2 ?_
      simp [removes, hpc, hd]
    · cases h

/-- A start: no call in progress, nothing counted yet, and the entry shows the
aggregate. -/
structure Start (modelName : String) (s : State n) : Prop where
  idle : ∀ t, s.tasks t = .idle
  version : s.version = 0
  written : s.written = 0
  began : ∀ t, s.began t = 0
  lost : s.lost = []
  agrees : Agrees modelName s.instances s.routing

theorem Start.inv (h : Start modelName s) : Inv modelName s where
  written_le := by rw [h.written, h.version]
  began_le := fun t => by rw [h.began t, h.version]
  fresh := .inl (by rw [h.written, h.version])
  agrees := fun _ => h.agrees
  current := fun t _ => by rw [h.idle t]; exact trivial
  lost := h.lost

def startingModel : State 2 where
  instances := AList.singleton "m-1"
    { newInstance "m" "m-1" (some "w1") none 0 with
      state := .starting, runnerHost := some "10.0.0.7", runnerEnginePort := some 8000 }
  routing := AList.singleton "m"
    { modelName := "m", state := .starting, protocol := .openai, updatedAt := 0
      endpoints := [⟨"10.0.0.7", 8000, 1, true, some "r1"⟩] }
  tasks := fun _ => .idle

theorem startingModel_start : Start "m" startingModel where
  idle := fun _ => rfl
  version := rfl
  written := rfl
  began := fun _ => rfl
  lost := rfl
  agrees := by decide

/-- The instance becomes `ACTIVE`, then `DRAINING`; the two refreshes overlap,
and the first to begin is the first to write. -/
def refreshesInOrder : List (Action 2) :=
  [.transition left "m-1" .active {} 1, .scan left, .scanned left ["m-1"], .get left,
    .transition right "m-1" .draining {} 2, .scan right, .write left 3,
    .scanned right ["m-1", "m-1"], .get right, .get right, .write right 4]

/-- The same calls, but the refresh that read `ACTIVE` writes last. -/
def staleRefresh : List (Action 2) :=
  [.transition left "m-1" .active {} 1, .scan left, .scanned left ["m-1"], .get left,
    .transition right "m-1" .draining {} 2, .scan right, .scanned right ["m-1"], .get right,
    .write right 3, .write left 4]

end Refresh

end Sardeenz
