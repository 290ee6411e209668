/-
# `Sardeenz.Proxy.Decode` — the routing map as the proxy reads it

`parse_routing_map` (`state/redis_sync.rs`) decodes every field of the hash
`routing-map` on its own.  A text that does not decode leaves the previous entry
of its model in place, or drops the model.

The decoder is what `serde` derives for `RoutingEntry` and `RunnerEndpoint`:

    a required field      is there once
    an optional field     is there once, or not at all, or `null`
    an unknown field      is passed over
    host, port            are checked as well: `validate_host`, `validate_port`

**Proved here.**  The texts that the mutators store decode to the routing map
(`parseRoutingMap_of_mutators`), but for an empty host
(`parseRoutingMap_drops_empty_host`).
-/
import Mathlib.Algebra.Group.Nat.Defs
import Sardeenz.Routing.Stored

namespace Sardeenz.Proxy

open JsonText List

/-! ## What serde derives -/

/-- The fields of a struct: an object has them by name, an array in the order of
their declaration. -/
def structFields (names : List String) : Json → Option (List (String × Json))
  | .obj fields => some fields
  | .arr items => if items.length = names.length then some (names.zip items) else none
  | _ => none

section
variable {α : Type} (read : Json → Option α) (key : String) (fields : List (String × Json))

def required : Option α :=
  match valuesOf key fields with
  | [v] => read v
  | _ => none

/-- A field with a `default`. -/
def withDefault (default : α) : Option α :=
  match valuesOf key fields with
  | [] => some default
  | [v] => read v
  | _ => none

/-- A field of type `Option`. -/
def optional : Option (Option α) :=
  match valuesOf key fields with
  | [] => some none
  | [.null] => some none
  | [v] => (read v).map some
  | _ => none

end

def readString : Json → Option String
  | .str s => some s
  | _ => none

def readBool : Json → Option Bool
  | .bool b => some b
  | _ => none

def readUnsigned (width : Nat) : Json → Option Nat
  | .num n => if n < 2 ^ width then some n else none
  | _ => none

/-- A `Vec`. -/
def readVec {α : Type} (read : Json → Option α) : Json → Option (List α)
  | .arr items => items.mapM read
  | _ => none

/-- An enumeration: the name of a variant, or an object that has it as its only
key. -/
def readVariant {α : Type} (variant : String → Option α) : Json → Option α
  | .str s => variant s
  | .obj [(s, .null)] => variant s
  | _ => none

/-! ## The types of `proxy_control_plane.rs` -/

def modelState (s : String) : Option ModelState :=
  if s = "ACTIVE" then some .active
  else if s = "SLEEPING" then some .sleeping
  else if s = "STARTING" then some .starting
  else if s = "DRAINING" then some .draining
  else if s = "ERROR" then some .error
  else none

def protocol (s : String) : Option Protocol :=
  if s = "openai" then some .openai
  else if s = "oip" then some .oip
  else none

def isWhitespace (c : Char) : Bool :=
  let n := c.toNat
  decide (9 ≤ n ∧ n ≤ 13) || n == 0x20 || n == 0x85 || n == 0xA0 || n == 0x1680 ||
    decide (0x2000 ≤ n ∧ n ≤ 0x200A) || n == 0x2028 || n == 0x2029 || n == 0x202F ||
    n == 0x205F || n == 0x3000

/-- The hosts that `validate_host` lets through. -/
def hostAllowed (host : String) : Bool :=
  !host.toList.isEmpty &&
    !host.toList.any fun c => c == '/' || c == '@' || c == '?' || c == '#' || isWhitespace c

variable (v : Json)

def validateHost : Option String := do
  let host ← readString v
  if hostAllowed host then some host else none

def validatePort : Option Nat := do
  let port ← readUnsigned 16 v
  if port = 0 then none else some port

/-- `RunnerEndpoint`. -/
def decodeEndpoint : Option RunnerEndpoint := do
  let fields ← structFields ["host", "port", "weight", "healthy", "runnerId"] v
  let host ← required validateHost "host" fields
  let port ← required validatePort "port" fields
  let weight ← withDefault (readUnsigned 32) "weight" fields 1
  let healthy ← required readBool "healthy" fields
  let runnerId ← optional readString "runnerId" fields
  some { host, port, weight, healthy, runnerId }

/-- `RoutingEntryMetadata`, with the fields that are `flatten`ed into it. -/
structure WireMetadata where
  ownedBy : Option String
  maxModelLen : Option Nat
  extra : List (String × Json)

def decodeMetadata : Json → Option WireMetadata
  | .obj fields => do
    let ownedBy ← optional readString "ownedBy" fields
    let maxModelLen ← optional (readUnsigned 64) "maxModelLen" fields
    some
      { ownedBy, maxModelLen
        extra := removeKey "ownedBy" (removeKey "maxModelLen" fields) }
  | _ => none

/-- `RoutingEntry` of the proxy, which keeps the time of the update as it is
written. -/
structure WireEntry where
  modelName : String
  state : ModelState
  protocol : Protocol
  endpoints : List RunnerEndpoint
  updatedAt : String
  metadata : Option WireMetadata

/-- `RoutingEntry`. -/
def decodeEntry : Option WireEntry := do
  let fields ← structFields
    ["modelName", "state", "protocol", "endpoints", "updatedAt", "metadata"] v
  let modelName ← required readString "modelName" fields
  let state ← required (readVariant modelState) "state" fields
  let protocol ← required (readVariant Proxy.protocol) "protocol" fields
  let endpoints ← required (readVec decodeEndpoint) "endpoints" fields
  let updatedAt ← required readString "updatedAt" fields
  let metadata ← optional decodeMetadata "metadata" fields
  some { modelName, state, protocol, endpoints, updatedAt, metadata }

def fromStr (text : Text) : Option WireEntry := (parse text).bind decodeEntry

abbrev WireMap := AList (fun _ : String => WireEntry)

/-- What `parse_routing_map` keeps for one field of the hash. -/
def kept (previous : WireMap) (name : String) (text : Text) : Option WireEntry :=
  match fromStr text with
  | some entry => some entry
  | none => previous.lookup name

/-- One round of the loop in `parse_routing_map`. -/
def keep (previous routingMap : WireMap) (name : String) (text : Text) : WireMap :=
  match kept previous name text with
  | some entry => routingMap.insert name entry
  | none => routingMap

def parseRoutingMap (raw : RoutingHash) (previous : WireMap) : WireMap :=
  raw.foldl (keep previous) ∅

/-! ## Reading the map -/

theorem lookup_keep_self (previous routingMap : WireMap) (name : String) (text : Text) :
    (keep previous routingMap name text).lookup name =
      (kept previous name text).or (routingMap.lookup name) := by
  unfold keep
  cases kept previous name text with
  | none => rfl
  | some => simp

theorem lookup_keep_ne {name name'} (hne : name ≠ name') (previous routingMap : WireMap)
    (text : Text) :
    (keep previous routingMap name' text).lookup name = routingMap.lookup name := by
  unfold keep
  cases kept previous name' text with
  | none => rfl
  | some => simp [AList.lookup_insert_ne hne]

theorem lookup_foldl_keep (previous : WireMap) (name : String) :
    ∀ (fields : List (Sigma fun _ : String => Text)) (acc : WireMap), fields.NodupKeys →
      (fields.foldl (fun routingMap field => keep previous routingMap field.1 field.2)
        acc).lookup name =
        ((fields.dlookup name).bind (kept previous name)).or (acc.lookup name)
  | [], acc, _ => by simp
  | ⟨name', text⟩ :: fields, acc, hnd => by
    rw [nodupKeys_cons] at hnd
    rw [foldl_cons, lookup_foldl_keep previous name fields _ hnd.2]
    by_cases hn : name = name'
    · subst hn
      rw [dlookup_eq_none.mpr hnd.1, dlookup_cons_eq, lookup_keep_self]
      rfl
    · rw [dlookup_cons_ne _ _ hn, lookup_keep_ne hn]

theorem lookup_parseRoutingMap (raw : RoutingHash) (previous : WireMap) (name : String) :
    (parseRoutingMap raw previous).lookup name = (raw.lookup name).bind (kept previous name) := by
  have h := lookup_foldl_keep previous name raw.entries ∅ raw.nodupKeys
  rw [AList.lookup_empty, Option.or_none] at h
  exact h

/-! ## Reading what the scripts have written -/

/-- The endpoint is one that the proxy takes. -/
structure Acceptable (e : RunnerEndpoint) : Prop where
  host : hostAllowed e.host = true
  port : 1 ≤ e.port ∧ e.port ≤ 65535
  weight : e.weight ≤ 100

variable (toISOString : Nat → String)

def wire (entry : RoutingEntry) : WireEntry :=
  { modelName := entry.modelName
    state := entry.state
    protocol := entry.protocol
    endpoints := entry.endpoints
    updatedAt := toISOString entry.updatedAt
    metadata := none }

section
variable {α : Type} {read : Json → Option α} {key : String} {fields : List (String × Json)}
  {f : String → Option Json}

theorem required_of_denotes (h : Denotes fields f) {v} (hv : f key = some v) :
    required read key fields = read v := by
  rw [required, h key, hv]
  rfl

theorem withDefault_of_denotes (h : Denotes fields f) {v} (hv : f key = some v)
    (default : α) : withDefault read key fields default = read v := by
  rw [withDefault, h key, hv]
  rfl

end

theorem decodeEndpoint_of_represents {item e} (h : Represents item e)
    (he : Acceptable e) : decodeEndpoint item = some e := by
  obtain ⟨fields, rfl, hfields⟩ := h
  have hhost : required validateHost "host" fields = some e.host := by
    rw [required_of_denotes hfields (show endpointTable e "host" = some _ from rfl)]
    simp [validateHost, readString, he.host]
  have hport : required validatePort "port" fields = some e.port := by
    rw [required_of_denotes hfields (show endpointTable e "port" = some _ from rfl)]
    grind [he.port, validatePort, readUnsigned]
  have hweight : withDefault (readUnsigned 32) "weight" fields 1 = some e.weight := by
    rw [withDefault_of_denotes hfields (show endpointTable e "weight" = some _ from rfl)]
    grind [he.weight, readUnsigned]
  have hhealthy : required readBool "healthy" fields = some e.healthy := by
    rw [required_of_denotes hfields (show endpointTable e "healthy" = some _ from rfl)]
    rfl
  have hid : optional readString "runnerId" fields = some e.runnerId := by
    rw [optional, hfields "runnerId"]
    cases hid : e.runnerId <;> simp [endpointTable, hid] <;> rfl
  simp [decodeEndpoint, structFields, hhost, hport, hweight, hhealthy, hid]

theorem mapM_decodeEndpoint {items es}
    (h : List.Forall₂ Represents items es) (hes : ∀ e ∈ es, Acceptable e) :
    items.mapM decodeEndpoint = some es := by
  induction h with
  | nil => rfl
  | cons hitem _ ih =>
    rw [mapM_cons, decodeEndpoint_of_represents hitem (hes _ mem_cons_self),
      ih fun e he => hes e (mem_cons_of_mem _ he)]
    rfl

/-- The text is an object with one field `endpoints`: an array, which decodes to
the endpoints of the entry one by one. -/
def EndpointsArray (text : Text) (entry : WireEntry) : Prop :=
  ∃ fields items, parse text = some (.obj fields) ∧ valuesOf "endpoints" fields = [.arr items] ∧
    items.mapM decodeEndpoint = some entry.endpoints

/-- **A text that the scripts have written decodes** to the entry it stands
for. -/
theorem fromStr_of_encodes {toISOString text entry}
    (h : Encodes toISOString text entry) (hes : ∀ e ∈ entry.endpoints, Acceptable e) :
    fromStr text = some (wire toISOString entry) ∧
      EndpointsArray text (wire toISOString entry) := by
  obtain ⟨fields, items, hparse, hfields, hitems⟩ := h.parse
  have hdecoded := mapM_decodeEndpoint hitems hes
  refine ⟨?_, fields, items, hparse, hfields "endpoints", hdecoded⟩
  have hname : required readString "modelName" fields = readString (.str entry.modelName) :=
    required_of_denotes hfields rfl
  have hstate : required (readVariant modelState) "state" fields = some entry.state :=
    (required_of_denotes hfields rfl).trans (by cases entry.state <;> rfl)
  have hprotocol : required (readVariant protocol) "protocol" fields = some entry.protocol :=
    (required_of_denotes hfields rfl).trans (by cases entry.protocol <;> rfl)
  have hendpoints : required (readVec decodeEndpoint) "endpoints" fields =
      readVec decodeEndpoint (.arr items) := required_of_denotes hfields rfl
  have hupdated : required readString "updatedAt" fields =
      readString (.str (toISOString entry.updatedAt)) := required_of_denotes hfields rfl
  have hmetadata : optional decodeMetadata "metadata" fields = some none := by
    rw [optional, hfields "metadata"]
    rfl
  simp_all [fromStr, decodeEntry, structFields, readString, readVec, wire]

/-! ## Whole histories -/

/-- A mutator call: its time, and the order in which its script encodes the
fields. -/
structure MutatorCall where
  mutation : Mutation
  now : Nat
  order : FieldOrder

def MutatorCall.run (hash : RoutingHash) (call : MutatorCall) :
    RoutingHash :=
  (call.mutation.script toISOString hash call.now call.order).getD hash

def storedAfter (calls : List MutatorCall) : RoutingHash :=
  calls.foldl (MutatorCall.run toISOString) ∅

variable (calls : List MutatorCall)

def mapAfter : RoutingMap :=
  calls.foldl (fun m call => call.mutation.apply m call.now) ∅

/-- An endpoint that the call adds is one that the proxy takes.  States and
protocols are valid by their types, and a weight above 100 is refused. -/
def MutatorCall.Valid (call : MutatorCall) : Prop :=
  ∀ modelName endpoint protocol, call.mutation = .addEndpoint modelName endpoint protocol →
    Acceptable endpoint

/-- The texts stand for the map, whose endpoints are all acceptable and at
different addresses. -/
structure InStep (toISOString : Nat → String) (hash : RoutingHash) (m : RoutingMap) : Prop where
  encodes : HashEncodes toISOString hash m
  acceptable : ∀ name, ∀ e ∈ endpointsOf m name, Acceptable e
  unique : UniqueAddresses m

theorem InStep.run {toISOString hash m}
    (h : InStep toISOString hash m) {call : MutatorCall} (hvalid : call.Valid) :
    InStep toISOString (call.run toISOString hash) (call.mutation.apply m call.now) := by
  obtain ⟨_, hscript, _⟩ := exists_script h.encodes call.now call.order call.mutation
  refine ⟨?_, ?_, h.unique.apply call.now call.mutation⟩
  · rwa [MutatorCall.run, hscript]
  · intro name e he
    obtain ⟨mutation, now, order⟩ := call
    cases came_of_apply he with
    | kept hmem => exact h.acceptable name e hmem
    | added => exact hvalid name e _ rfl
    | health hmem => exact ⟨(h.acceptable name _ hmem).host, (h.acceptable name _ hmem).port,
        (h.acceptable name _ hmem).weight⟩
    | @weight e host port weight hmem =>
      by_cases hweight : 100 < weight
      · grind [Mutation.apply, updateEndpointWeight, h.acceptable]
      · exact ⟨(h.acceptable name _ hmem).host, (h.acceptable name _ hmem).port,
          Nat.le_of_not_lt hweight⟩
    | cutover hmem => exact ⟨(h.acceptable name _ hmem).host, (h.acceptable name _ hmem).port,
        Nat.zero_le _⟩

theorem inStep_after {calls} (hvalid : ∀ call ∈ calls, call.Valid) :
    InStep toISOString (storedAfter toISOString calls) (mapAfter calls) := by
  -- The calls are followed from any two that are in step.
  have hrun : ∀ (calls : List MutatorCall), (∀ call ∈ calls, call.Valid) →
      ∀ (hash : RoutingHash) (m : RoutingMap), InStep toISOString hash m →
        InStep toISOString (calls.foldl (MutatorCall.run toISOString) hash)
          (calls.foldl (fun m call => call.mutation.apply m call.now) m) := by
    intro calls
    induction calls with
    | nil => exact fun _ _ _ h => h
    | cons call calls ih =>
      intro hvalid hash m h
      exact ih (fun c hc => hvalid c (mem_cons_of_mem _ hc)) _ _
        (h.run (hvalid call mem_cons_self))
  refine hrun calls hvalid ∅ ∅ ⟨fun name => ?_, fun name e he => ?_, RoutingTable.empty.unique⟩
  · simp_all
  · simp [endpointsOf] at he

/-- **The proxy reads what the mutators store.**  After any calls whose endpoints
the proxy takes, each text of the hash decodes, its endpoints are an array of
different addresses, and the proxy's map has the entry of every model and no other,
whatever it had before. -/
theorem parseRoutingMap_of_mutators (hvalid : ∀ call ∈ calls, call.Valid) (previous : WireMap) :
    (∀ name text, (storedAfter toISOString calls).lookup name = some text →
      ∃ entry, fromStr text = some entry ∧ EndpointsArray text entry ∧
        (entry.endpoints.map (·.address)).Nodup) ∧
      ∀ name, (parseRoutingMap (storedAfter toISOString calls) previous).lookup name =
            ((storedAfter toISOString calls).lookup name).bind fromStr ∧
          (parseRoutingMap (storedAfter toISOString calls) previous).lookup name =
            ((mapAfter calls).lookup name).map (wire toISOString) := by
  have hstep := inStep_after toISOString hvalid
  have hboth : ∀ name,
      ((storedAfter toISOString calls).lookup name = none ∧ (mapAfter calls).lookup name = none) ∨
      ∃ text entry, (storedAfter toISOString calls).lookup name = some text ∧
        (mapAfter calls).lookup name = some entry ∧
        fromStr text = some (wire toISOString entry) ∧
        EndpointsArray text (wire toISOString entry) ∧
        entry.UniqueAddresses := by
    intro name
    rcases hstep.encodes.lookup name with ⟨hhash, hm⟩ | ⟨text, entry, -, hhash, hm, -, -⟩
    · exact .inl ⟨hhash, hm⟩
    · have hencodes := hstep.encodes name
      rw [hhash, hm, Option.rel_some_some] at hencodes
      have hacceptable : ∀ e ∈ entry.endpoints, Acceptable e := fun e he =>
        hstep.acceptable name e (by simpa [endpointsOf, hm] using he)
      have hread := fromStr_of_encodes hencodes hacceptable
      exact .inr ⟨text, entry, hhash, hm, hread.1, hread.2, hstep.unique name entry hm⟩
  refine ⟨fun name text htext => ?_, fun name => ?_⟩
  · rcases hboth name with ⟨hhash, -⟩ | ⟨_, entry, hhash, -, hread, harray, hunique⟩
    · rw [hhash] at htext
      cases htext
    · obtain rfl := Option.some.inj (hhash.symm.trans htext)
      exact ⟨_, hread, harray, hunique⟩
  · rw [lookup_parseRoutingMap]
    rcases hboth name with ⟨hhash, hm⟩ | ⟨text, entry, hhash, hm, hread, -, -⟩
    · rw [hhash, hm]
      exact ⟨rfl, rfl⟩
    · rw [hhash, hm, Option.bind_some, Option.bind_some, kept, hread]
      exact ⟨rfl, rfl⟩

def asWritten : FieldOrder := ⟨id, fun _ => .refl _⟩

def comeAndGone : List MutatorCall :=
  [⟨.setModelState "m" .active none, 1, asWritten⟩,
    ⟨.addEndpoint "m" { host := "w1", port := 8000, weight := 100, healthy := true } none, 2,
      asWritten⟩,
    ⟨.removeEndpoint "m" "w1" 8000, 3, asWritten⟩]

theorem valid_comeAndGone : ∀ call ∈ comeAndGone, call.Valid := by
  intro call hcall _ _ _ hadd
  simp only [comeAndGone, mem_cons, not_mem_nil, or_false] at hcall
  rcases hcall with rfl | rfl | rfl
  · cases hadd
  · cases hadd
    exact ⟨by decide, by decide, by decide⟩
  · cases hadd

theorem parseRoutingMap_comeAndGone :
    (parseRoutingMap (storedAfter (fun _ => "now") comeAndGone) ∅).lookup "m" = some
        { modelName := "m", state := .active, protocol := .openai, endpoints := []
          updatedAt := "now", metadata := none } :=
  ((parseRoutingMap_of_mutators (fun _ => "now") comeAndGone valid_comeAndGone ∅).2 "m").2

def unhosted : List MutatorCall :=
  [⟨.addEndpoint "m" { host := "", port := 8000, weight := 100, healthy := true } none, 1,
    asWritten⟩]

/-- The endpoint is stored, and the proxy drops its model. -/
theorem parseRoutingMap_drops_empty_host :
    ((storedAfter (fun _ => "now") unhosted).lookup "m").isSome = true ∧
      (((storedAfter (fun _ => "now") unhosted).lookup "m").bind fromStr).isNone = true ∧
      ((parseRoutingMap (storedAfter (fun _ => "now") unhosted) ∅).lookup "m").isNone = true := by
  decide +kernel

end Sardeenz.Proxy
