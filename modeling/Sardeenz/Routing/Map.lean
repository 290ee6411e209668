/-
# `Sardeenz.Routing.Map` — the routing map and its mutators

`RoutingMapService` changes the shared `routing-map` hash only through Lua
scripts and one `MULTI`, so each mutator is one function on the map:

    setModelState           the model's state; its endpoints stay as they are
    removeModel             the whole entry, endpoints included
    addEndpoint             one endpoint; an older one at the same address goes
    removeEndpoint          every endpoint at the address
    updateEndpointHealth    the first endpoint at the address
    updateEndpointWeight    the first endpoint at the address
    cutoverEndpoint         the first endpoint at the address, weight 0

"The first endpoint at the address" is every endpoint at it, because no
mutator puts two endpoints of one entry at one address.  `RoutingTable` is the
map with this fact; the mutators act on it.
-/
import Sardeenz.Types

namespace Sardeenz

open Option AList

/-! ## Endpoints -/

def RunnerEndpoint.address (e : RunnerEndpoint) : String × Nat := (e.host, e.port)

def RunnerEndpoint.selectable (e : RunnerEndpoint) : Bool := e.healthy && decide (0 < e.weight)

/-- The scripts' loop over `endpoints` that changes the first match and
breaks; `none` when nothing matches. -/
def updateFirst (address : String × Nat) (f : RunnerEndpoint → RunnerEndpoint) :
    List RunnerEndpoint → Option (List RunnerEndpoint)
  | [] => none
  | e :: es =>
    if e.address = address then some (f e :: es)
    else (updateFirst address f es).map (e :: ·)

variable {address : String × Nat} {f : RunnerEndpoint → RunnerEndpoint}

/-- **Inversion of the loop**: what comes before the first endpoint at the address, the
endpoint, and what comes after it. -/
theorem updateFirst_eq_some :
    ∀ {es es' : List RunnerEndpoint}, updateFirst address f es = some es' →
      ∃ before e after, es = before ++ e :: after ∧ es' = before ++ f e :: after ∧
        e.address = address ∧ ∀ x ∈ before, x.address ≠ address
  | e :: es, es', h => by
    unfold updateFirst at h
    split at h
    · rename_i haddr
      cases h
      exact ⟨[], e, es, rfl, rfl, haddr, nofun⟩
    · rename_i haddr
      obtain ⟨_, hrest, rfl⟩ := map_eq_some_iff.mp h
      obtain ⟨before, x, after, rfl, rfl, hx, hbefore⟩ := updateFirst_eq_some hrest
      exact ⟨e :: before, x, after, rfl, rfl, hx, List.forall_mem_cons.mpr ⟨haddr, hbefore⟩⟩

theorem updateFirst_isSome :
    ∀ {es : List RunnerEndpoint}, (updateFirst address f es).isSome = true ↔
      ∃ e ∈ es, e.address = address
  | [] => ⟨nofun, nofun⟩
  | e :: es => by
    unfold updateFirst
    by_cases h : e.address = address
    · simp [h]
    · rw [if_neg h, isSome_map, updateFirst_isSome, List.exists_mem_cons_iff]
      exact ⟨.inr, fun h' => h'.resolve_left h⟩

section
variable {es es' : List RunnerEndpoint} (h : updateFirst address f es = some es')
include h

theorem updateFirst_map_address (hf : ∀ e, (f e).address = e.address) :
    es'.map (·.address) = es.map (·.address) := by
  obtain ⟨_, e, _, rfl, rfl, -, -⟩ := updateFirst_eq_some h
  simp [hf]

variable {e' : RunnerEndpoint}

theorem mem_of_updateFirst (he' : e' ∈ es') :
    e' ∈ es ∨ ∃ e ∈ es, e.address = address ∧ e' = f e := by
  obtain ⟨_, e, _, rfl, rfl, _, -⟩ := updateFirst_eq_some h
  grind

/-- Where addresses are distinct, the first match is the only one: afterwards
every endpoint is an old one at another address or the changed one. -/
theorem mem_updateFirst (hnd : (es.map (·.address)).Nodup) (he' : e' ∈ es') :
    (e' ∈ es ∧ e'.address ≠ address) ∨ ∃ e ∈ es, e.address = address ∧ e' = f e := by
  obtain ⟨_, e, _, rfl, rfl, _, _⟩ := updateFirst_eq_some h
  grind

theorem mem_or_mem_updateFirst {e} (he : e ∈ es) :
    e ∈ es' ∨ (e.address = address ∧ f e ∈ es') := by
  obtain ⟨_, x, _, rfl, rfl, _, -⟩ := updateFirst_eq_some h
  grind

theorem exists_mem_updateFirst : ∃ e, e.address = address ∧ f e ∈ es' := by
  obtain ⟨_, e, _, rfl, rfl, haddr, -⟩ := updateFirst_eq_some h
  exact ⟨e, haddr, by simp⟩

end

/-! ## The mutators -/

def setModelState (m : RoutingMap) (modelName : String) (state : ModelState)
    (protocol : Option Protocol) (now : Nat) : RoutingMap :=
  let entry := (m.lookup modelName).getD
    { modelName, state, protocol := protocol.getD .openai, endpoints := [], updatedAt := now }
  m.insert modelName { entry with state, protocol := protocol.getD .openai, updatedAt := now }

def removeModel (m : RoutingMap) (modelName : String) : RoutingMap := m.erase modelName

/-- `addEndpoint`: replaces whatever was at the address, creates a missing
entry in state `STARTING`. -/
def addEndpoint (m : RoutingMap) (modelName : String) (endpoint : RunnerEndpoint)
    (protocol : Option Protocol) (now : Nat) : RoutingMap :=
  let entry := (m.lookup modelName).getD
    { modelName, state := .starting, protocol := protocol.getD .openai, endpoints := [],
      updatedAt := now }
  m.insert modelName
    { entry with
      endpoints := (entry.endpoints.filter fun e => e.address ≠ endpoint.address) ++ [endpoint]
      protocol := protocol.getD .openai
      updatedAt := now }

def removeEndpoint (m : RoutingMap) (modelName host : String) (port now : Nat) : RoutingMap :=
  match m.lookup modelName with
  | none => m
  | some entry =>
    m.insert modelName
      { entry with
        endpoints := entry.endpoints.filter fun e => e.address ≠ (host, port)
        updatedAt := now }

/-- The script shared by `updateEndpointHealth`, `updateEndpointWeight` and
the cutover: change the first endpoint at the address, or report that the
entry or the endpoint is missing. -/
def updateEndpoint (m : RoutingMap) (modelName host : String) (port now : Nat)
    (f : RunnerEndpoint → RunnerEndpoint) : Option RoutingMap :=
  match m.lookup modelName with
  | none => none
  | some entry =>
    (updateFirst (host, port) f entry.endpoints).map fun endpoints =>
      m.insert modelName { entry with endpoints, updatedAt := now }

def updateEndpointHealth (m : RoutingMap) (modelName host : String) (port : Nat) (healthy : Bool)
    (now : Nat) : RoutingMap :=
  (updateEndpoint m modelName host port now fun e => { e with healthy }).getD m

def updateEndpointWeight (m : RoutingMap) (modelName host : String) (port weight now : Nat) :
    Except ControlPlaneError (RoutingMap × Bool) :=
  if 100 < weight then
    .error (.invalidRequest "weight must be an integer between 0 and 100")
  else
    match updateEndpoint m modelName host port now fun e => { e with weight } with
    | some m' => .ok (m', true)
    | none => .ok (m, false)

def cutoverEndpoint (m : RoutingMap) (modelName host : String) (port now : Nat) :
    Option RoutingMap :=
  updateEndpoint m modelName host port now fun e => { e with weight := 0 }

/-- A mutator call, without the time of the call. -/
inductive Mutation where
  | setModelState (modelName : String) (state : ModelState) (protocol : Option Protocol)
  | removeModel (modelName : String)
  | addEndpoint (modelName : String) (endpoint : RunnerEndpoint) (protocol : Option Protocol)
  | removeEndpoint (modelName host : String) (port : Nat)
  | updateEndpointHealth (modelName host : String) (port : Nat) (healthy : Bool)
  | updateEndpointWeight (modelName host : String) (port weight : Nat)
  | cutoverEndpoint (modelName host : String) (port : Nat)

/-- The map after a mutator call at time `now`; a refused call changes
nothing. -/
def Mutation.apply (m : RoutingMap) (now : Nat) : Mutation → RoutingMap
  | .setModelState modelName state protocol => Sardeenz.setModelState m modelName state protocol now
  | .removeModel modelName => Sardeenz.removeModel m modelName
  | .addEndpoint modelName endpoint protocol =>
    Sardeenz.addEndpoint m modelName endpoint protocol now
  | .removeEndpoint modelName host port => Sardeenz.removeEndpoint m modelName host port now
  | .updateEndpointHealth modelName host port healthy =>
    Sardeenz.updateEndpointHealth m modelName host port healthy now
  | .updateEndpointWeight modelName host port weight =>
    match Sardeenz.updateEndpointWeight m modelName host port weight now with
    | .ok (m', _) => m'
    | .error _ => m
  | .cutoverEndpoint modelName host port =>
    (Sardeenz.cutoverEndpoint m modelName host port now).getD m

section
variable {m : RoutingMap} {now : Nat} {modelName host : String} {port : Nat}
  {P : RoutingMap → Prop} (hm : P m)
include hm

theorem of_getD_updateEndpoint
    (h : ∀ m', updateEndpoint m modelName host port now f = some m' → P m') :
    P ((updateEndpoint m modelName host port now f).getD m) := by
  cases hu : updateEndpoint m modelName host port now f with
  | none => exact hm
  | some m' => exact h m' hu

theorem of_apply_updateEndpointWeight {weight}
    (h : ∀ m', updateEndpoint m modelName host port now (fun e => { e with weight }) = some m' →
      P m') :
    P ((Mutation.updateEndpointWeight modelName host port weight).apply m now) := by
  simp only [Mutation.apply, Sardeenz.updateEndpointWeight]
  grind

end

/-! ## Distinct addresses -/

def RoutingEntry.UniqueAddresses (entry : RoutingEntry) : Prop :=
  (entry.endpoints.map (·.address)).Nodup

def UniqueAddresses (m : RoutingMap) : Prop :=
  ∀ name entry, m.lookup name = some entry → entry.UniqueAddresses

variable {m : RoutingMap} {modelName : String} {entry : RoutingEntry}

theorem UniqueAddresses.insert (hm : UniqueAddresses m) (he : entry.UniqueAddresses) :
    UniqueAddresses (m.insert modelName entry) := by
  intro name entry' h
  by_cases hn : name = modelName
  · grind [lookup_insert]
  · rw [lookup_insert_ne hn] at h
    exact hm name entry' h

theorem UniqueAddresses.erase (hm : UniqueAddresses m) (modelName : String) :
    UniqueAddresses (m.erase modelName) := by
  intro name entry h
  by_cases hn : name = modelName
  · subst hn
    simp_all
  · rw [lookup_erase_ne hn] at h
    exact hm name entry h

theorem UniqueAddresses.getD (hm : UniqueAddresses m) (modelName : String)
    {fresh} (hfresh : fresh.endpoints = []) :
    ((m.lookup modelName).getD fresh).UniqueAddresses := by
  cases h : m.lookup modelName with
  | none => simp [RoutingEntry.UniqueAddresses, hfresh]
  | some entry => exact hm modelName entry h

variable {now : Nat} {host : String} {port : Nat} {m' : RoutingMap}

theorem UniqueAddresses.updateEndpoint (hm : UniqueAddresses m)
    (h : Sardeenz.updateEndpoint m modelName host port now f = some m')
    (hf : ∀ e, (f e).address = e.address) : UniqueAddresses m' := by
  unfold Sardeenz.updateEndpoint at h
  split at h
  · cases h
  · rename_i entry hentry
    obtain ⟨_, hup, rfl⟩ := map_eq_some_iff.mp h
    refine hm.insert ?_
    rw [RoutingEntry.UniqueAddresses, updateFirst_map_address hup hf]
    exact hm modelName entry hentry

theorem UniqueAddresses.apply (hm : UniqueAddresses m) (now : Nat)
    (mutation : Mutation) : UniqueAddresses (mutation.apply m now) := by
  cases mutation with
  | setModelState modelName _ protocol => exact hm.insert (hm.getD modelName rfl)
  | removeModel modelName => exact hm.erase modelName
  | addEndpoint modelName _ protocol =>
    refine hm.insert ?_
    have haddresses := fun fresh => @hm.getD _ modelName fresh
    grind [RoutingEntry.UniqueAddresses]
  | removeEndpoint modelName host port =>
    simp only [Mutation.apply, Sardeenz.removeEndpoint]
    split
    · exact hm
    · rename_i entry hentry
      exact hm.insert ((hm modelName entry hentry).sublist (List.filter_sublist.map _))
  | updateEndpointHealth modelName host port healthy | cutoverEndpoint modelName host port =>
    exact of_getD_updateEndpoint hm fun m' h => hm.updateEndpoint h fun _ => rfl
  | updateEndpointWeight modelName host port =>
    exact of_apply_updateEndpointWeight hm fun m' h => hm.updateEndpoint h fun _ => rfl

/-- The routing map as the mutators keep it: addresses within an entry are
distinct. -/
structure RoutingTable where
  map : RoutingMap
  unique : UniqueAddresses map

def RoutingTable.mutate (t : RoutingTable) (now : Nat) (mutation : Mutation) : RoutingTable :=
  ⟨mutation.apply t.map now, t.unique.apply now mutation⟩

def RoutingTable.empty : RoutingTable := ⟨∅, fun _ _ h => nomatch h⟩

/-! ## The endpoints of a model -/

def endpointsOf (m : RoutingMap) (modelName : String) : List RunnerEndpoint :=
  ((m.lookup modelName).map (·.endpoints)).getD []

def RoutedAt (m : RoutingMap) (modelName : String) (address : String × Nat) : Prop :=
  ∃ e ∈ endpointsOf m modelName, e.address = address
deriving Decidable

@[simp] theorem endpointsOf_insert_self (m : RoutingMap) (modelName : String)
    (entry : RoutingEntry) : endpointsOf (m.insert modelName entry) modelName = entry.endpoints := by
  simp [endpointsOf]

variable {name : String}

theorem endpointsOf_insert_ne
    (h : name ≠ modelName) : endpointsOf (m.insert modelName entry) name = endpointsOf m name := by
  simp [endpointsOf, lookup_insert_ne h]

theorem endpointsOf_getD (m : RoutingMap) (modelName : String) {fresh}
    (h : fresh.endpoints = []) :
    ((m.lookup modelName).getD fresh).endpoints = endpointsOf m modelName := by
  cases hm : m.lookup modelName with
  | none => simp [endpointsOf, hm, h]
  | some => simp [endpointsOf, hm]

theorem endpointsOf_setModelState (m : RoutingMap) (modelName name : String) (state : ModelState)
    (protocol : Option Protocol) (now : Nat) :
    endpointsOf (setModelState m modelName state protocol now) name = endpointsOf m name := by
  by_cases h : name = modelName
  · grind [setModelState, endpointsOf_insert_self, endpointsOf_getD]
  · exact endpointsOf_insert_ne h

theorem endpointsOf_removeModel_ne
    (h : name ≠ modelName) : endpointsOf (removeModel m modelName) name = endpointsOf m name := by
  simp [removeModel, endpointsOf, lookup_erase_ne h]

theorem endpointsOf_addEndpoint_self (m : RoutingMap) (modelName : String)
    (endpoint : RunnerEndpoint) (protocol : Option Protocol) (now : Nat) :
    endpointsOf (addEndpoint m modelName endpoint protocol now) modelName =
      ((endpointsOf m modelName).filter fun e => e.address ≠ endpoint.address) ++ [endpoint] := by
  simp only [addEndpoint, endpointsOf_insert_self]
  rw [endpointsOf_getD m modelName rfl]

theorem endpointsOf_removeEndpoint_self (m : RoutingMap) (modelName host : String)
    (port now : Nat) :
    endpointsOf (removeEndpoint m modelName host port now) modelName =
      (endpointsOf m modelName).filter fun e => e.address ≠ (host, port) := by
  unfold removeEndpoint
  cases hm : m.lookup modelName with
  | none => simp [endpointsOf, hm]
  | some =>
    simp_all [endpointsOf]

theorem endpointsOf_removeEndpoint_ne (h : name ≠ modelName) (host : String) (port now : Nat) :
    endpointsOf (removeEndpoint m modelName host port now) name = endpointsOf m name := by
  unfold removeEndpoint
  cases m.lookup modelName with
  | none => rfl
  | some => exact endpointsOf_insert_ne h

theorem endpointsOf_updateEndpoint (h : updateEndpoint m modelName host port now f = some m') :
    updateFirst (host, port) f (endpointsOf m modelName) = some (endpointsOf m' modelName) ∧
      ∀ name ≠ modelName, endpointsOf m' name = endpointsOf m name := by
  unfold updateEndpoint at h
  split at h
  · cases h
  · rename_i entry hentry
    obtain ⟨_, _, rfl⟩ := map_eq_some_iff.mp h
    grind [endpointsOf_insert_ne, endpointsOf_insert_self, endpointsOf]

theorem updateEndpoint_isSome : (updateEndpoint m modelName host port now f).isSome = true ↔
      RoutedAt m modelName (host, port) := by
  unfold updateEndpoint RoutedAt endpointsOf
  cases m.lookup modelName with
  | none => exact ⟨nofun, nofun⟩
  | some => rw [isSome_map, updateFirst_isSome]; rfl

theorem cutoverEndpoint_isSome :
    (cutoverEndpoint m modelName host port now).isSome = true ↔ RoutedAt m modelName (host, port) :=
  updateEndpoint_isSome

theorem updateEndpointWeight_found {weight} (hweight : weight ≤ 100) :
    ∃ m', updateEndpointWeight m modelName host port weight now =
      .ok (m', decide (RoutedAt m modelName (host, port))) := by
  unfold updateEndpointWeight
  rw [if_neg (Nat.not_lt.mpr hweight)]
  split
  · rename_i m' hupdate
    refine ⟨m', ?_⟩
    rw [decide_eq_true (updateEndpoint_isSome.mp (isSome_of_eq_some hupdate))]
  · rename_i hupdate
    have hnone : ¬ RoutedAt m modelName (host, port) := fun h =>
      absurd hupdate (isSome_iff_ne_none.mp (updateEndpoint_isSome.mpr h))
    simp_all

theorem exists_mem_updateEndpointWeight {weight}
    (h : updateEndpointWeight m modelName host port weight now = .ok (m', true)) :
    ∃ e ∈ endpointsOf m' modelName, e.address = (host, port) ∧ e.weight = weight := by
  unfold updateEndpointWeight at h
  split at h
  · cases h
  · split at h
    · rename_i m'' hupd
      obtain ⟨rfl, -⟩ := Prod.mk.inj (Except.ok.inj h)
      obtain ⟨e, hea, he⟩ := exists_mem_updateFirst (endpointsOf_updateEndpoint hupd).1
      exact ⟨_, he, hea, rfl⟩
    · exact nomatch (Prod.mk.inj (Except.ok.inj h)).2

/-! ## What a mutator leaves of the endpoints -/

theorem mem_of_updateEndpoint
    {e'} (h : updateEndpoint m modelName host port now f = some m')
    (he' : e' ∈ endpointsOf m' name) :
    e' ∈ endpointsOf m name ∨
      modelName = name ∧ ∃ e ∈ endpointsOf m name, e.address = (host, port) ∧ e' = f e := by
  obtain ⟨_, hne⟩ := endpointsOf_updateEndpoint h
  by_cases hn : name = modelName
  · grind [mem_of_updateFirst]
  · exact .inl (hne name hn ▸ he')

/-- Where an endpoint of the model comes from after a mutator. -/
inductive Came (m : RoutingMap) (name : String) : Mutation → RunnerEndpoint → Prop
  | kept {mutation : Mutation} {e : RunnerEndpoint} : e ∈ endpointsOf m name →
      Came m name mutation e
  | added {endpoint : RunnerEndpoint} {protocol : Option Protocol} :
      Came m name (.addEndpoint name endpoint protocol) endpoint
  | health {e : RunnerEndpoint} {host : String} {port : Nat} {healthy : Bool} :
      e ∈ endpointsOf m name →
        Came m name (.updateEndpointHealth name host port healthy) { e with healthy }
  | weight {e : RunnerEndpoint} {host : String} {port weight : Nat} :
      e ∈ endpointsOf m name → e.address = (host, port) →
        Came m name (.updateEndpointWeight name host port weight) { e with weight }
  | cutover {e : RunnerEndpoint} {host : String} {port : Nat} :
      e ∈ endpointsOf m name → Came m name (.cutoverEndpoint name host port) { e with weight := 0 }

variable {mutation : Mutation} {name : String}

/-- **Inversion of the mutators.** -/
theorem came_of_apply {e'} (he' : e' ∈ endpointsOf (mutation.apply m now) name) :
    Came m name mutation e' := by
  cases mutation with
  | setModelState modelName state protocol =>
    exact .kept (endpointsOf_setModelState m modelName name state protocol now ▸ he')
  | removeModel modelName =>
    by_cases hn : name = modelName
    · subst hn
      simp [removeModel, Mutation.apply, endpointsOf] at he'
    · exact .kept (endpointsOf_removeModel_ne hn ▸ he')
  | addEndpoint modelName endpoint protocol =>
    by_cases hn : name = modelName
    · subst hn
      replace he' : e' ∈ ((endpointsOf m name).filter fun e => e.address ≠ endpoint.address) ++
          [endpoint] := endpointsOf_addEndpoint_self m name endpoint protocol now ▸ he'
      rcases List.mem_append.mp he' with he' | he'
      · exact .kept (List.mem_of_mem_filter he')
      · obtain rfl := List.mem_singleton.mp he'
        exact .added
    · exact .kept (endpointsOf_insert_ne hn ▸ he')
  | removeEndpoint modelName host port =>
    by_cases hn : name = modelName
    · subst hn
      replace he' : e' ∈ (endpointsOf m name).filter fun e => e.address ≠ (host, port) :=
        endpointsOf_removeEndpoint_self m name host port now ▸ he'
      exact .kept (List.mem_of_mem_filter he')
    · exact .kept (endpointsOf_removeEndpoint_ne hn host port now ▸ he')
  | updateEndpointHealth modelName host port =>
    refine of_getD_updateEndpoint (P := fun m' => e' ∈ endpointsOf m' name → _) .kept
      (fun m' h he' => ?_) he'
    rcases mem_of_updateEndpoint h he' with he | ⟨rfl, e, he, -, rfl⟩
    · exact .kept he
    · exact .health he
  | updateEndpointWeight modelName host port weight =>
    refine of_apply_updateEndpointWeight (P := fun m' => e' ∈ endpointsOf m' name → _) .kept
      (fun m' h he' => ?_) he'
    rcases mem_of_updateEndpoint h he' with he | ⟨rfl, e, he, hea, rfl⟩
    · exact .kept he
    · exact .weight he hea
  | cutoverEndpoint modelName host port =>
    refine of_getD_updateEndpoint (P := fun m' => e' ∈ endpointsOf m' name → _) .kept
      (fun m' h he' => ?_) he'
    rcases mem_of_updateEndpoint h he' with he | ⟨rfl, e, he, -, rfl⟩
    · exact .kept he
    · exact .cutover he

theorem RoutedAt.of_apply (hr : RoutedAt (mutation.apply m now) name address) :
    RoutedAt m name address ∨ ∃ endpoint protocol, mutation = .addEndpoint name endpoint protocol ∧
        endpoint.address = address := by
  obtain ⟨_, he', rfl⟩ := hr
  cases came_of_apply he' with
  | kept he | health he | weight he | cutover he => exact .inl ⟨_, he, rfl⟩
  | added => exact .inr ⟨_, _, rfl, rfl⟩

theorem not_routedAt_removeEndpoint (m : RoutingMap) (modelName : String) (address : String × Nat)
    (now : Nat) :
    ¬ RoutedAt (removeEndpoint m modelName address.1 address.2 now) modelName address := by
  rintro ⟨e, _, _⟩
  grind [endpointsOf_removeEndpoint_self]

/-- The mutator neither removes a model's endpoint at the address nor changes
its weight. -/
def Mutation.spares (name : String) (address : String × Nat) : Mutation → Bool
  | .setModelState _ _ _ | .updateEndpointHealth _ _ _ _ => true
  | .removeModel modelName => modelName ≠ name
  | .addEndpoint modelName endpoint _ => modelName ≠ name || endpoint.address ≠ address
  | .removeEndpoint modelName host port | .updateEndpointWeight modelName host port _
  | .cutoverEndpoint modelName host port => modelName ≠ name || (host, port) ≠ address

theorem exists_mem_updateEndpoint {e}
    (h : updateEndpoint m modelName host port now f = some m') (he : e ∈ endpointsOf m name)
    (hf : modelName = name → e.address = (host, port) →
      (f e).address = e.address ∧ (f e).weight = e.weight) :
    ∃ e' ∈ endpointsOf m' name, e'.address = e.address ∧ e'.weight = e.weight := by
  obtain ⟨_, hne⟩ := endpointsOf_updateEndpoint h
  by_cases hn : name = modelName
  · grind [mem_or_mem_updateFirst]
  · exact ⟨e, by rwa [hne name hn], rfl, rfl⟩

/-- **A spared endpoint keeps its address and its weight.** -/
theorem exists_mem_apply {e} (now : Nat)
    (he : e ∈ endpointsOf m name) (hs : mutation.spares name e.address = true) :
    ∃ e' ∈ endpointsOf (mutation.apply m now) name,
      e'.address = e.address ∧ e'.weight = e.weight := by
  have hsame : ∀ m', endpointsOf m' name = endpointsOf m name →
      ∃ e' ∈ endpointsOf m' name, e'.address = e.address ∧ e'.weight = e.weight :=
    fun m' h => ⟨e, by rwa [h], rfl, rfl⟩
  cases mutation with
  | setModelState modelName state protocol =>
    exact hsame _ (endpointsOf_setModelState m modelName name state protocol now)
  | removeModel modelName =>
    have hne : modelName ≠ name := by simpa [Mutation.spares] using hs
    exact hsame _ (endpointsOf_removeModel_ne (Ne.symm hne))
  | addEndpoint modelName endpoint protocol =>
    by_cases hn : name = modelName
    · subst hn
      have haddr : endpoint.address ≠ e.address := by simpa [Mutation.spares] using hs
      refine ⟨e, ?_, rfl, rfl⟩
      show e ∈ endpointsOf (addEndpoint m name endpoint protocol now) name
      grind [endpointsOf_addEndpoint_self]
    · exact hsame _ (endpointsOf_insert_ne hn)
  | removeEndpoint modelName host port =>
    by_cases hn : name = modelName
    · subst hn
      have haddr : (host, port) ≠ e.address := by simpa [Mutation.spares] using hs
      refine ⟨e, ?_, rfl, rfl⟩
      show e ∈ endpointsOf (removeEndpoint m name host port now) name
      grind [endpointsOf_removeEndpoint_self]
    · exact hsame _ (endpointsOf_removeEndpoint_ne hn host port now)
  | updateEndpointHealth modelName host port =>
    exact of_getD_updateEndpoint (hsame m rfl) fun m' h =>
      exists_mem_updateEndpoint h he fun _ _ => ⟨rfl, rfl⟩
  | updateEndpointWeight modelName host port weight =>
    exact of_apply_updateEndpointWeight (hsame m rfl) fun m' h =>
      exists_mem_updateEndpoint h he fun hn haddr => by
        simp [Mutation.spares, hn, haddr] at hs
  | cutoverEndpoint modelName host port =>
    exact of_getD_updateEndpoint (hsame m rfl) fun m' h =>
      exists_mem_updateEndpoint h he fun hn haddr => by
        simp [Mutation.spares, hn, haddr] at hs

/-! ## What the proxy may select -/

def Exposed (m : RoutingMap) (modelName : String) (address : String × Nat) : Prop :=
  ∃ e ∈ endpointsOf m modelName, e.address = address ∧ 0 < e.weight
deriving Decidable

/-- The proxy may forward a request to the address: the entry is `ACTIVE` and has
it with a positive weight. -/
def Offers (m : RoutingMap) (modelName : String) (address : String × Nat) : Prop :=
  (m.lookup modelName).map (·.state) = some .active ∧ Exposed m modelName address
deriving Decidable

def Mutation.weighs (name : String) (address : String × Nat) : Mutation → Bool
  | .addEndpoint modelName endpoint _ => modelName = name && endpoint.address = address
  | .updateEndpointWeight modelName host port _ => modelName = name && (host, port) = address
  | .setModelState _ _ _ | .removeModel _ | .removeEndpoint _ _ _ | .updateEndpointHealth _ _ _ _
  | .cutoverEndpoint _ _ _ => false

/-- The mutator makes the model `ACTIVE`. -/
def Mutation.activates (name : String) : Mutation → Bool
  | .setModelState modelName state _ => modelName = name && state = .active
  | _ => false

theorem Exposed.of_apply (he : Exposed (mutation.apply m now) name address)
    (hnot : mutation.weighs name address = false) : Exposed m name address := by
  obtain ⟨_, he', haddr, hweight⟩ := he
  cases came_of_apply he' with
  | kept he | health he => exact ⟨_, he, haddr, hweight⟩
  | added => simp [Mutation.weighs, haddr] at hnot
  | weight he hea =>
    have haddress := hea.symm.trans haddr
    simp [Mutation.weighs, haddress] at hnot
  | cutover => exact absurd hweight (Nat.lt_irrefl 0)

theorem state_updateEndpoint
    (h : updateEndpoint m modelName host port now f = some m') (name : String) :
    (m'.lookup name).map (·.state) = (m.lookup name).map (·.state) := by
  unfold updateEndpoint at h
  split at h
  · cases h
  · rename_i entry hentry
    obtain ⟨_, -, rfl⟩ := map_eq_some_iff.mp h
    by_cases hn : name = modelName
    · subst hn
      simp [hentry]
    · rw [lookup_insert_ne hn]

theorem active_of_apply (h : ((mutation.apply m now).lookup name).map (·.state) = some .active)
    (hnot : mutation.activates name = false) :
    (m.lookup name).map (·.state) = some .active := by
  cases mutation with
  | setModelState modelName state protocol =>
    simp only [Mutation.apply, Sardeenz.setModelState] at h
    by_cases hn : name = modelName
    · subst hn
      simp_all [Mutation.activates]
    · rwa [lookup_insert_ne hn] at h
  | removeModel modelName =>
    simp only [Mutation.apply, Sardeenz.removeModel] at h
    by_cases hn : name = modelName
    · subst hn
      simp at h
    · rwa [lookup_erase_ne hn] at h
  | addEndpoint modelName _ protocol =>
    simp only [Mutation.apply, Sardeenz.addEndpoint] at h
    by_cases hn : name = modelName
    · subst hn
      cases hm : m.lookup name <;> simp_all
    · rwa [lookup_insert_ne hn] at h
  | removeEndpoint modelName host port =>
    simp only [Mutation.apply, Sardeenz.removeEndpoint] at h
    split at h
    · exact h
    · by_cases hn : name = modelName
      · subst hn
        simp_all
      · rwa [lookup_insert_ne hn] at h
  | updateEndpointHealth modelName host port healthy | cutoverEndpoint modelName host port =>
    exact of_getD_updateEndpoint
      id
      (fun m' hu h => (state_updateEndpoint hu name).symm.trans h) h
  | updateEndpointWeight modelName host port =>
    exact of_apply_updateEndpointWeight
      id
      (fun m' hu h => (state_updateEndpoint hu name).symm.trans h) h

end Sardeenz
