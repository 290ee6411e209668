/-
# `Sardeenz.Routing.Stored` — the routing map as the texts that Redis keeps

The mutators of `Routing.Map` are Lua scripts that run in Redis.  A script reads
the text of an entry, decodes it to a Lua table, changes the table and writes it
back as a text.  Two things are lost on that way:

    the order of the fields      Lua does not say in which order a table is encoded
    an empty array               an empty table is encoded as an empty object

The second would make the field `endpoints` unreadable for the proxy, which
expects an array (#79).  So `encode_routing_entry` encodes the entry without its
endpoints, cuts off the closing brace and splices the array in.

Here are the scripts on the texts, and that they do what the mutators of
`Routing.Map` do on the entries: `Encodes text entry` is that the text is one of
those that may stand for the entry, and every script keeps it
(`exists_script`).
-/
import Sardeenz.Json
import Sardeenz.Routing.Map

namespace Sardeenz

open JsonText Option Function

/-! ## cjson -/

abbrev Text := List Char

/-- The hash `routing-map`. -/
abbrev RoutingHash := AList (fun _ : String => Text)

/-- `cjson.encode` escapes the solidus and the character 127 as well. -/
def cjsonEscape : Escaping := escape true true

/-- The escaping of `JSON.stringify`. -/
def stringifyEscape : Escaping := escape false false

/-- The order in which a run of `cjson.encode` comes upon the fields of a table:
any order, and another one the next time. -/
structure FieldOrder where
  arrange : List (String × Json) → List (String × Json)
  perm : ∀ fields, (arrange fields).Perm fields

mutual

/-- A decoded value.  A Lua table without entries is neither array nor object; it
stands here as the object. -/
def toLua : Json → Json
  | .arr [] => .obj []
  | .arr (v :: vs) => .arr (toLua v :: toLuaItems vs)
  | .obj fields => .obj (toLuaFields fields)
  | .null => .null
  | .bool b => .bool b
  | .num n => .num n
  | .str s => .str s

def toLuaItems : List Json → List Json
  | [] => []
  | v :: vs => toLua v :: toLuaItems vs

def toLuaFields : List (String × Json) → List (String × Json)
  | [] => []
  | (key, v) :: fields =>
    if valuesOf key fields = [] then (key, toLua v) :: toLuaFields fields
    else toLuaFields fields

end

mutual

def reorder (order : FieldOrder) : Json → Json
  | .arr items => .arr (reorderItems order items)
  | .obj fields => .obj (order.arrange (reorderFields order fields))
  | .null => .null
  | .bool b => .bool b
  | .num n => .num n
  | .str s => .str s

def reorderItems (order : FieldOrder) : List Json → List Json
  | [] => []
  | v :: vs => reorder order v :: reorderItems order vs

def reorderFields (order : FieldOrder) : List (String × Json) → List (String × Json)
  | [] => []
  | (key, v) :: fields => (key, reorder order v) :: reorderFields order fields

end

/-- `cjson.decode`; `none` is an error. -/
def cjsonDecode (text : Text) : Option Json := (parse text).map toLua

/-- `cjson.encode`.  The numbers of a routing entry have few digits, and are
written in full. -/
def cjsonEncode (order : FieldOrder) (v : Json) : Text := render cjsonEscape (reorder order v)

/-! ## The scripts -/

/-- `t[key]`, `none` being `nil`. -/
def index (key : String) (fields : List (String × Json)) : Option Json :=
  (valuesOf key fields).head?

/-- `"endpoints":`. -/
def endpointsKey : Text := ['"', 'e', 'n', 'd', 'p', 'o', 'i', 'n', 't', 's', '"', ':']

/-- The encoded endpoints of `encode_routing_entry`: an array also when there are
none. -/
def encodeEndpoints (order : FieldOrder) : Option Json → Text
  | some (.arr (v :: vs)) => cjsonEncode order (.arr (v :: vs))
  | _ => ['[', ']']

def encodeRoutingEntry (order : FieldOrder) (entry : List (String × Json)) : Text :=
  let encodedEps := encodeEndpoints order (index "endpoints" entry)
  let body := cjsonEncode order (.obj (removeKey "endpoints" entry))
  if body = ['{', '}'] then '{' :: (endpointsKey ++ (encodedEps ++ ['}']))
  else body.dropLast ++ ',' :: (endpointsKey ++ (encodedEps ++ ['}']))

def decodeTable (raw : Text) : Option (List (String × Json)) :=
  match cjsonDecode raw with
  | some (.obj fields) => some fields
  | _ => none

/-- The entry of a model that a script goes on with: what is stored, or a new
one. -/
def entryOr (hash : RoutingHash) (modelName : String) (fresh : List (String × Json)) :
    Option (List (String × Json)) :=
  match hash.lookup modelName with
  | some raw => decodeTable raw
  | none => some fresh

def ipairs : Option Json → Option (List Json)
  | some (.arr items) => some items
  | some (.obj _) => some []
  | _ => none

/-- `a == b`; two tables are not the same one. -/
def luaEq : Option Json → Option Json → Bool
  | none, none => true
  | some (.str s), some (.str s') => s = s'
  | some (.num n), some (.num n') => n = n'
  | some (.bool b), some (.bool b') => b = b'
  | some .null, some .null => true
  | _, _ => false

/-- `e[key]`, where only a table has fields. -/
def fieldOf (key : String) : Json → Option (Option Json)
  | .obj fields => some (index key fields)
  | .arr _ | .str _ => some none
  | .null | .bool _ | .num _ => none

/-- `e.host == host and e.port == port`. -/
def atAddress (host port : Option Json) (e : Json) : Option Bool := do
  if luaEq (← fieldOf "host" e) host then
    let p ← fieldOf "port" e
    some (luaEq p port)
  else some false

def withoutAddress (host port : Option Json) : List Json → Option (List Json)
  | [] => some []
  | e :: es => do
    let here ← atAddress host port e
    let filtered ← withoutAddress host port es
    some (if here then filtered else e :: filtered)

/-- `e[key] = v`. -/
def assign (key : String) (v : Json) : Json → Option Json
  | .obj fields => some (.obj (setKey key v fields))
  | _ => none

/-- The loop that changes the first endpoint at the address; `some none` when
there is none. -/
def assignFirst (host port : Option Json) (key : String) (v : Json) :
    List Json → Option (Option (List Json))
  | [] => some none
  | e :: es => do
    if ← atAddress host port e then
      let e ← assign key v e
      some (some (e :: es))
    else
      let changed ← assignFirst host port key v es
      some (changed.map (e :: ·))

def luaArray : List Json → Json
  | [] => .obj []
  | v :: vs => .arr (v :: vs)

def ModelState.text : ModelState → String
  | .active => "ACTIVE"
  | .sleeping => "SLEEPING"
  | .starting => "STARTING"
  | .draining => "DRAINING"
  | .error => "ERROR"

def Protocol.text : Protocol → String
  | .openai => "openai"
  | .oip => "oip"

def RunnerEndpoint.stringify (e : RunnerEndpoint) : Text :=
  render stringifyEscape (.obj
    ([("host", .str e.host), ("port", .num e.port), ("weight", .num e.weight),
      ("healthy", .bool e.healthy)] ++ (e.runnerId.map fun id => ("runnerId", .str id)).toList))

section
variable (toISOString : Nat → String) (hash : RoutingHash) (now : Nat) (order : FieldOrder)

variable (modelName : String)

/-- The script of `setModelState`. -/
def setModelStateScript (state : ModelState) (protocol : Option Protocol) :
    Option RoutingHash := do
  let argv3 := (protocol.getD .openai).text
  let entry ← entryOr hash modelName
    [("modelName", .str modelName), ("protocol", .str argv3), ("endpoints", luaArray [])]
  let entry := setKey "state" (.str state.text) entry
  let entry := if argv3 ≠ "" then setKey "protocol" (.str argv3) entry else entry
  let entry := setKey "updatedAt" (.str (toISOString now)) entry
  some (hash.insert modelName (encodeRoutingEntry order entry))

/-- The script of `addEndpoint`. -/
def addEndpointScript (endpoint : RunnerEndpoint)
    (protocol : Option Protocol) : Option RoutingHash := do
  let argv5 := (protocol.getD .openai).text
  let entry ← entryOr hash modelName
    [("modelName", .str modelName), ("state", .str ModelState.starting.text),
      ("protocol", .str argv5), ("endpoints", luaArray []), ("updatedAt", .str (toISOString now))]
  let ep ← cjsonDecode endpoint.stringify
  let endpoints ← ipairs (index "endpoints" entry)
  let filtered ← withoutAddress (← fieldOf "host" ep) (← fieldOf "port" ep) endpoints
  let entry := setKey "endpoints" (luaArray (filtered ++ [ep])) entry
  let entry := setKey "protocol" (.str argv5) entry
  let entry := setKey "updatedAt" (.str (toISOString now)) entry
  some (hash.insert modelName (encodeRoutingEntry order entry))

/-- The script of `removeEndpoint`. -/
def removeEndpointScript (host : String) (port : Nat) : Option RoutingHash :=
  match hash.lookup modelName with
  | none => some hash
  | some raw => do
    let entry ← decodeTable raw
    let endpoints ← ipairs (index "endpoints" entry)
    let filtered ← withoutAddress (some (.str host)) (some (.num port)) endpoints
    let entry := setKey "endpoints" (luaArray filtered) entry
    let entry := setKey "updatedAt" (.str (toISOString now)) entry
    some (hash.insert modelName (encodeRoutingEntry order entry))

/-- The script that `updateEndpointHealth`, `updateEndpointWeight` and the cutover
share: `e[key] = v` on the first endpoint at the address. -/
def updateEndpointScript (host : String) (port : Nat) (key : String) (v : Json) :
    Option RoutingHash :=
  match hash.lookup modelName with
  | none => some hash
  | some raw => do
    let entry ← decodeTable raw
    let endpoints ← ipairs (index "endpoints" entry)
    match ← assignFirst (some (.str host)) (some (.num port)) key v endpoints with
    | none => some hash
    | some changed =>
      let entry := setKey "endpoints" (luaArray changed) entry
      let entry := setKey "updatedAt" (.str (toISOString now)) entry
      some (hash.insert modelName (encodeRoutingEntry order entry))

def Mutation.script : Mutation → Option RoutingHash
  | .setModelState modelName state protocol =>
    setModelStateScript toISOString hash now order modelName state protocol
  | .removeModel modelName => some (hash.erase modelName)
  | .addEndpoint modelName endpoint protocol =>
    addEndpointScript toISOString hash now order modelName endpoint protocol
  | .removeEndpoint modelName host port =>
    removeEndpointScript toISOString hash now order modelName host port
  | .updateEndpointHealth modelName host port healthy =>
    updateEndpointScript toISOString hash now order modelName host port "healthy" (.bool healthy)
  | .updateEndpointWeight modelName host port weight =>
    -- The range is checked before the script is sent.
    if 100 < weight then some hash
    else updateEndpointScript toISOString hash now order modelName host port "weight" (.num weight)
  | .cutoverEndpoint modelName host port =>
    updateEndpointScript toISOString hash now order modelName host port "weight" (.num 0)

end

/-! ## What a table stands for -/

def endpointTable (e : RunnerEndpoint) (key : String) : Option Json :=
  if key = "host" then some (.str e.host)
  else if key = "port" then some (.num e.port)
  else if key = "weight" then some (.num e.weight)
  else if key = "healthy" then some (.bool e.healthy)
  else if key = "runnerId" then e.runnerId.map .str
  else none

def entryTable (toISOString : Nat → String) (entry : RoutingEntry) (key : String) : Option Json :=
  if key = "modelName" then some (.str entry.modelName)
  else if key = "state" then some (.str entry.state.text)
  else if key = "protocol" then some (.str entry.protocol.text)
  else if key = "updatedAt" then some (.str (toISOString entry.updatedAt))
  else none

def Represents (item : Json) (e : RunnerEndpoint) : Prop :=
  ∃ fields, item = .obj fields ∧ Denotes fields (endpointTable e)

def Table (toISOString : Nat → String) (fields : List (String × Json)) (entry : RoutingEntry) :
    Prop :=
  entry.metadata = none ∧ ∃ items, List.Forall₂ Represents items entry.endpoints ∧
    Denotes fields
      (Function.update (entryTable toISOString entry) "endpoints" (some (luaArray items)))

/-- The text stands for the entry: it has the fields of the entry in some order,
and last of all the array of its endpoints. -/
def Encodes (toISOString : Nat → String) (text : Text) (entry : RoutingEntry) : Prop :=
  entry.metadata = none ∧ ∃ fields items,
    parse text = some (.obj (fields ++ [("endpoints", .arr items)])) ∧
    Denotes fields (entryTable toISOString entry) ∧
    List.Forall₂ Represents items entry.endpoints

/-- Neither a string nor a number nor a truth value has parts that a table could
lose. -/
def Json.Scalar : Json → Prop
  | .arr _ | .obj _ => False
  | _ => True

variable {e : RunnerEndpoint} {v : Json} {key : String}

theorem scalar_endpointTable (h : endpointTable e key = some v) : Json.Scalar v := by
  unfold endpointTable at h
  split_ifs at h
  · cases h
    trivial
  · cases h
    trivial
  · cases h
    trivial
  · cases h
    trivial
  · obtain ⟨_, -, rfl⟩ := map_eq_some_iff.mp h
    trivial

theorem scalar_entryTable {toISOString entry}
    (h : entryTable toISOString entry key = some v) : Json.Scalar v := by
  unfold entryTable at h
  split_ifs at h
  all_goals
    cases h
    trivial

theorem toLua_of_scalar (h : Json.Scalar v) : toLua v = v := by
  cases v with
  | arr items | obj fields => exact h.elim
  | _ => rw [toLua]

theorem reorder_of_scalar (order : FieldOrder) (h : Json.Scalar v) : reorder order v = v := by
  cases v with
  | arr items | obj fields => exact h.elim
  | _ => rw [reorder]

/-! ## Decoding and encoding -/

theorem valuesOf_toLuaFields (key : String) (fields : List (String × Json)) :
    valuesOf key (toLuaFields fields) = ((valuesOf key fields).getLast?.map toLua).toList := by
  induction fields with
  | nil => rfl
  | cons field fields =>
    obtain ⟨key', v⟩ := field
    rw [toLuaFields]
    by_cases hk : key' = key
    · grind [valuesOf_cons]
    · grind [valuesOf_cons]

theorem valuesOf_reorderFields (order : FieldOrder) (key : String) (fields : List (String × Json)) :
    valuesOf key (reorderFields order fields) = (valuesOf key fields).map (reorder order) := by
  induction fields with
  | nil => rfl
  | cons _ fields =>
    rw [reorderFields, valuesOf_cons, valuesOf_cons]
    grind

section
variable {fields : List (String × Json)} {f : String → Option Json}

theorem denotes_toLuaFields (h : Denotes fields f) :
    Denotes (toLuaFields fields) fun key => (f key).map toLua := by
  intro key
  simp only [valuesOf_toLuaFields, h key]
  cases f key with
  | none | some v => rfl

theorem denotes_reorderFields (h : Denotes fields f) (order : FieldOrder) :
    Denotes (order.arrange (reorderFields order fields)) fun key =>
      (f key).map (reorder order) := by
  refine Denotes.perm ?_ (order.perm _)
  intro key
  simp only [valuesOf_reorderFields, h key]
  cases f key with
  | none | some v => rfl

theorem index_of_denotes (h : Denotes fields f) (key : String) : index key fields = f key := by
  rw [index, h key]
  grind

end

theorem map_of_scalar {g} (hg : ∀ v, Json.Scalar v → g v = v)
    {f : String → Option Json} (hf : ∀ key v, f key = some v → Json.Scalar v) :
    (fun key => (f key).map g) = f := by
  funext key
  cases h : f key with
  | none => rfl
  | some v => rw [map_some, hg v (hf key v h)]

variable {item : Json}

theorem Represents.toLua (h : Represents item e) : Represents (toLua item) e := by
  obtain ⟨fields, rfl, hfields⟩ := h
  refine ⟨toLuaFields fields, by rw [Sardeenz.toLua], ?_⟩
  have hlua := denotes_toLuaFields hfields
  rwa [map_of_scalar (fun _ => toLua_of_scalar) fun _ _ => scalar_endpointTable] at hlua

theorem Represents.reorder (h : Represents item e) (order : FieldOrder) :
    Represents (reorder order item) e := by
  obtain ⟨fields, rfl, hfields⟩ := h
  refine ⟨order.arrange (reorderFields order fields), by rw [Sardeenz.reorder], ?_⟩
  have horder := denotes_reorderFields hfields order
  rwa [map_of_scalar (fun _ => reorder_of_scalar order) fun _ _ => scalar_endpointTable] at horder

section
variable {items : List Json} {es : List RunnerEndpoint} (h : List.Forall₂ Represents items es)
include h

theorem represents_toLuaItems : List.Forall₂ Represents (toLuaItems items) es := by
  induction h with
  | nil => exact .nil
  | cons hitem _ ih => exact .cons hitem.toLua ih

theorem represents_reorderItems (order : FieldOrder) :
    List.Forall₂ Represents (reorderItems order items) es := by
  induction h with
  | nil => exact .nil
  | cons hitem _ ih => exact .cons (hitem.reorder order) ih

end

theorem toLua_arr (items : List Json) : toLua (.arr items) = luaArray (toLuaItems items) := by
  cases items with
  | nil | cons v vs => rw [toLua, toLuaItems, luaArray]

@[simp] theorem ipairs_luaArray (items : List Json) : ipairs (some (luaArray items)) = some items := by
  cases items with
  | nil | cons v vs => rfl

theorem encodeEndpoints_luaArray (order : FieldOrder) (items : List Json) :
    encodeEndpoints order (some (luaArray items)) =
      render cjsonEscape (.arr (reorderItems order items)) := by
  cases items with
  | nil => rfl
  | cons => rw [luaArray, encodeEndpoints, cjsonEncode, reorder]

section
variable {toISOString : Nat → String} {text : Text} {fields : List (String × Json)}
  {entry : RoutingEntry}

theorem entryTable_endpoints : entryTable toISOString entry "endpoints" = none := rfl

theorem Encodes.parse (h : Encodes toISOString text entry) :
    ∃ fields items, parse text = some (.obj fields) ∧ Denotes fields
        (update (entryTable toISOString entry) "endpoints" (some (.arr items))) ∧
      List.Forall₂ Represents items entry.endpoints := by
  obtain ⟨-, fields, items, hparse, hfields, hitems⟩ := h
  exact ⟨_, items, hparse,
    (hfields.cons _ entryTable_endpoints _).perm (List.perm_append_singleton _ _), hitems⟩

/-- **A stored text decodes** to a table of its entry. -/
theorem Encodes.decodeTable (h : Encodes toISOString text entry) :
    ∃ fields, decodeTable text = some fields ∧ Table toISOString fields entry := by
  obtain ⟨fields, items, hparse, hall, hitems⟩ := h.parse
  refine ⟨toLuaFields fields, ?_, h.1, toLuaItems items, represents_toLuaItems hitems, ?_⟩
  · rw [Sardeenz.decodeTable, cjsonDecode, hparse, map_some, toLua]
  · have hlua := denotes_toLuaFields hall
    have hmap : (fun key => (update (entryTable toISOString entry) "endpoints"
        (some (Json.arr items)) key).map toLua) =
        update (entryTable toISOString entry) "endpoints"
          (some (luaArray (toLuaItems items))) := by
      rw [← toLua_arr]
      funext key
      by_cases hk : key = "endpoints"
      · subst hk
        rw [update_self, update_self, map_some]
      · rw [update_of_ne hk, update_of_ne hk]
        exact congrFun (map_of_scalar (fun _ => toLua_of_scalar) fun _ _ => scalar_entryTable) key
    rwa [hmap] at hlua

/-- **A table is encoded** to a text that holds its entry, with the endpoints as an
array. -/
theorem Table.encodeRoutingEntry (h : Table toISOString fields entry) (order : FieldOrder) :
    Encodes toISOString (encodeRoutingEntry order fields) entry := by
  obtain ⟨hmeta, items, hitems, hfields⟩ := h
  have hrest : Denotes (removeKey "endpoints" fields) (entryTable toISOString entry) := by
    have := hfields.removeKey "endpoints"
    rwa [update_idem, ← entryTable_endpoints, update_eq_self] at this
  have hbody := denotes_reorderFields hrest order
  rw [map_of_scalar (fun _ => reorder_of_scalar order) fun _ _ => scalar_entryTable] at hbody
  have hne : order.arrange (reorderFields order (removeKey "endpoints" fields)) ≠ [] :=
    hbody.ne_nil (show entryTable toISOString entry "modelName" = some _ from rfl)
  refine ⟨hmeta, order.arrange (reorderFields order (removeKey "endpoints" fields)),
    reorderItems order items, ?_, hbody, represents_reorderItems hitems order⟩
  rw [← parse_render (readable_escape true true), render_obj_append _ hne]
  rw [Sardeenz.encodeRoutingEntry, index_of_denotes hfields, update_self,
    encodeEndpoints_luaArray, cjsonEncode, reorder, if_neg (render_obj_ne _ hne)]
  rfl

/-! ## Changing a table -/

theorem Table.setKey {entry' v}
    (h : Table toISOString fields entry) (hkey : key ≠ "endpoints")
    (hmeta : entry'.metadata = entry.metadata) (hendpoints : entry'.endpoints = entry.endpoints)
    (htable : update (entryTable toISOString entry) key (some v) =
      entryTable toISOString entry') :
    Table toISOString (setKey key v fields) entry' := by
  obtain ⟨hnone, items, hitems, hfields⟩ := h
  refine ⟨hmeta.trans hnone, items, hendpoints ▸ hitems, ?_⟩
  have hset := hfields.setKey key v
  rwa [update_comm (Ne.symm hkey), htable] at hset

section
variable (h : Table toISOString fields entry)
include h

theorem Table.setState (state : ModelState) :
    Table toISOString (JsonText.setKey "state" (.str state.text) fields) { entry with state } := by
  refine h.setKey (by decide) rfl rfl (update_eq_iff.mpr ⟨rfl, fun _ hk => ?_⟩)
  simp [entryTable, hk]

theorem Table.setProtocol (protocol : Protocol) :
    Table toISOString (JsonText.setKey "protocol" (.str protocol.text) fields)
      { entry with protocol } := by
  refine h.setKey (by decide) rfl rfl (update_eq_iff.mpr ⟨rfl, fun _ hk => ?_⟩)
  simp [entryTable, hk]

theorem Table.setUpdatedAt (now : Nat) :
    Table toISOString (JsonText.setKey "updatedAt" (.str (toISOString now)) fields)
      { entry with updatedAt := now } := by
  refine h.setKey (by decide) rfl rfl (update_eq_iff.mpr ⟨rfl, fun _ hk => ?_⟩)
  simp [entryTable, hk]

theorem Table.ipairs_endpoints : ∃ items, ipairs (index "endpoints" fields) = some items ∧
      List.Forall₂ Represents items entry.endpoints := by
  obtain ⟨-, items, _, _⟩ := h
  grind [index_of_denotes, ipairs_luaArray]

end

variable {items : List Json}

theorem Table.setEndpoints (h : Table toISOString fields entry) {endpoints}
    (hitems : List.Forall₂ Represents items endpoints) :
    Table toISOString (JsonText.setKey "endpoints" (luaArray items) fields)
      { entry with endpoints } := by
  obtain ⟨hmeta, _, -, hfields⟩ := h
  refine ⟨hmeta, items, hitems, ?_⟩
  have hset := hfields.setKey "endpoints" (luaArray items)
  rw [update_idem] at hset
  exact hset

theorem table_of_denotes (hmeta : entry.metadata = none) (hendpoints : entry.endpoints = [])
    (h : Denotes fields
      (update (entryTable toISOString entry) "endpoints" (some (luaArray [])))) :
    Table toISOString fields entry :=
  ⟨hmeta, [], hendpoints ▸ .nil, h⟩

/-! ## The loops over the endpoints -/

theorem Represents.fieldOf {e} (h : Represents item e)
    (key : String) : fieldOf key item = some (endpointTable e key) := by
  obtain ⟨_, rfl, hfields⟩ := h
  rw [Sardeenz.fieldOf, index_of_denotes hfields]

theorem Represents.atAddress {e} (h : Represents item e)
    (host : String) (port : Nat) :
    atAddress (some (.str host)) (some (.num port)) item =
      some (decide (e.address = (host, port))) := by
  have hhost : Sardeenz.fieldOf "host" item = some (some (.str e.host)) := h.fieldOf "host"
  have hport : Sardeenz.fieldOf "port" item = some (some (.num e.port)) := h.fieldOf "port"
  by_cases hh : e.host = host
  · by_cases hp : e.port = port
    all_goals simp [Sardeenz.atAddress, hhost, hport, luaEq, RunnerEndpoint.address, hh]
  · simp [Sardeenz.atAddress, hhost, luaEq, RunnerEndpoint.address, hh]

variable {es : List RunnerEndpoint}

theorem exists_withoutAddress (h : List.Forall₂ Represents items es) (host : String) (port : Nat) :
    ∃ filtered, withoutAddress (some (.str host)) (some (.num port)) items = some filtered ∧
      List.Forall₂ Represents filtered (es.filter fun e => e.address ≠ (host, port)) := by
  induction h with
  | nil => exact ⟨[], rfl, .nil⟩
  | @cons _ e items es hitem _ ih =>
    obtain ⟨filtered, _, _⟩ := ih
    have hat := hitem.atAddress host port
    by_cases haddress : e.address = (host, port)
    · simp_all [withoutAddress]
    · simp_all [withoutAddress]

theorem exists_assignFirst {v change}
    (hchange : ∀ e, update (endpointTable e) key (some v) = endpointTable (change e)) (h : List.Forall₂ Represents items es) (host : String) (port : Nat) :
    ∃ changed, assignFirst (some (.str host)) (some (.num port)) key v items = some changed ∧
      Option.Rel (List.Forall₂ Represents) changed (updateFirst (host, port) change es) := by
  induction h with
  | nil => exact ⟨none, rfl, .none⟩
  | @cons item e items es hitem hitems ih =>
    obtain ⟨changed, hchanged, hrep⟩ := ih
    have hat := hitem.atAddress host port
    by_cases haddress : e.address = (host, port)
    · obtain ⟨fields, rfl, hfields⟩ := hitem
      refine ⟨some (.obj (JsonText.setKey key v fields) :: items), ?_, ?_⟩
      · simp [assignFirst, hat, haddress, assign]
      · have hset := hfields.setKey key v
        rw [hchange e] at hset
        rw [updateFirst, if_pos haddress]
        exact .some (.cons ⟨_, rfl, hset⟩ hitems)
    · refine ⟨changed.map (item :: ·), ?_, ?_⟩
      · simp [assignFirst, hat, haddress, hchanged]
      · rw [updateFirst, if_neg haddress]
        generalize updateFirst (host, port) change es = es' at hrep ⊢
        cases hrep with
        | none => exact .none
        | some hrest => exact .some (.cons hitem hrest)

theorem update_healthy (e : RunnerEndpoint) (healthy : Bool) :
    update (endpointTable e) "healthy" (some (.bool healthy)) =
      endpointTable { e with healthy } := by
  refine update_eq_iff.mpr ⟨rfl, fun _ hk => ?_⟩
  simp [endpointTable, hk]

theorem update_weight (e : RunnerEndpoint) (weight : Nat) :
    update (endpointTable e) "weight" (some (.num weight)) =
      endpointTable { e with weight } := by
  refine update_eq_iff.mpr ⟨rfl, fun _ hk => ?_⟩
  simp [endpointTable, hk]

theorem exists_decode_stringify (e : RunnerEndpoint) :
    ∃ ep, cjsonDecode e.stringify = some ep ∧ Represents ep e := by
  have hparse : parse e.stringify = some _ := parse_render (readable_escape false false) _
  refine ⟨_, by rw [cjsonDecode, hparse, map_some], Represents.toLua ⟨_, rfl, ?_⟩⟩
  have hid : Denotes (e.runnerId.map fun id => ("runnerId", Json.str id)).toList
      (update (fun _ => none) "runnerId" (e.runnerId.map .str)) := by
    cases e.runnerId with
    | none => simpa using denotes_nil
    | some id => exact denotes_nil.cons _ rfl _
  have hall := (((hid.cons "healthy" rfl (.bool e.healthy)).cons "weight" rfl (.num e.weight)).cons
    "port" rfl (.num e.port)).cons "host" rfl (.str e.host)
  intro key
  have hkey := hall key
  simp only [update_apply] at hkey
  exact hkey

end

/-! ## The scripts keep the texts in step with the entries -/

def HashEncodes (toISOString : Nat → String) (hash : RoutingHash) (m : RoutingMap) : Prop :=
  ∀ name, Option.Rel (Encodes toISOString) (hash.lookup name) (m.lookup name)

section
variable {toISOString : Nat → String} {hash : RoutingHash} {m : RoutingMap}

section
variable (h : HashEncodes toISOString hash m)
include h

theorem HashEncodes.insert {modelName text entry}
    (htext : Encodes toISOString text entry) :
    HashEncodes toISOString (hash.insert modelName text) (m.insert modelName entry) := by
  intro name
  by_cases hn : name = modelName
  · subst hn
    simp_all
  · rw [AList.lookup_insert_ne hn, AList.lookup_insert_ne hn]
    exact h name

theorem HashEncodes.erase (modelName : String) :
    HashEncodes toISOString (hash.erase modelName) (m.erase modelName) := by
  intro name
  by_cases hn : name = modelName
  · subst hn
    simp_all
  · rw [AList.lookup_erase_ne hn, AList.lookup_erase_ne hn]
    exact h name

theorem HashEncodes.lookup (modelName : String) :
    (hash.lookup modelName = none ∧ m.lookup modelName = none) ∨
      ∃ text entry fields, hash.lookup modelName = some text ∧ m.lookup modelName = some entry ∧
        decodeTable text = some fields ∧ Table toISOString fields entry := by
  have hname := h modelName
  generalize hash.lookup modelName = text at hname ⊢
  generalize m.lookup modelName = entry at hname ⊢
  cases hname with
  | none => exact .inl ⟨rfl, rfl⟩
  | @some text entry htext =>
    obtain ⟨fields, hfields, htable⟩ := htext.decodeTable
    exact .inr ⟨text, entry, fields, rfl, rfl, hfields, htable⟩

end

theorem Protocol.text_ne (protocol : Protocol) : protocol.text ≠ "" := by
  cases protocol with
  | openai | oip => decide

theorem exists_setModelStateScript (h : HashEncodes toISOString hash m) (now : Nat)
    (order : FieldOrder) (modelName : String) (state : ModelState) (protocol : Option Protocol) :
    ∃ hash', setModelStateScript toISOString hash now order modelName state protocol = some hash' ∧
      HashEncodes toISOString hash' (setModelState m modelName state protocol now) := by
  simp only [setModelStateScript, setModelState, entryOr, ne_eq, Protocol.text_ne,
    not_false_eq_true, if_true]
  rcases h.lookup modelName with ⟨hhash, hm⟩ | ⟨text, _, _, hhash, hm, hfields, htable⟩
  · rw [hhash, hm]
    refine ⟨_, rfl, h.insert (Table.encodeRoutingEntry (table_of_denotes rfl rfl ?_) order)⟩
    have hnew := (((((denotes_nil.cons "endpoints" rfl (luaArray [])).cons "protocol" rfl
      (.str (protocol.getD .openai).text)).cons "modelName" rfl (.str modelName)).setKey "state"
      (.str state.text)).setKey "protocol" (.str (protocol.getD .openai).text)).setKey "updatedAt"
      (.str (toISOString now))
    intro key
    rw [hnew key]
    grind [entryTable]
  · rw [hhash, hm]
    simp only [hfields]
    exact ⟨_, rfl, h.insert ((((htable.setState state).setProtocol
      (protocol.getD .openai)).setUpdatedAt now).encodeRoutingEntry order)⟩

theorem HashEncodes.entryOr (h : HashEncodes toISOString hash m) (modelName : String)
    {fresh freshEntry}
    (hfresh : Table toISOString fresh freshEntry) :
    ∃ fields, entryOr hash modelName fresh = some fields ∧
      Table toISOString fields ((m.lookup modelName).getD freshEntry) := by
  rcases h.lookup modelName with ⟨hhash, hm⟩ | ⟨_, _, fields, hhash, hm, _, _⟩
  · rw [Sardeenz.entryOr, hhash, hm]
    exact ⟨fresh, rfl, hfresh⟩
  · grind [Sardeenz.entryOr]

section
variable (h : HashEncodes toISOString hash m)
include h

section
variable (now : Nat) (order : FieldOrder)
include now order

theorem exists_addEndpointScript (modelName : String) (endpoint : RunnerEndpoint)
    (protocol : Option Protocol) :
    ∃ hash', addEndpointScript toISOString hash now order modelName endpoint protocol = some hash' ∧
      HashEncodes toISOString hash' (addEndpoint m modelName endpoint protocol now) := by
  have hfresh : Table toISOString
      [("modelName", .str modelName), ("state", .str ModelState.starting.text),
        ("protocol", .str (protocol.getD .openai).text), ("endpoints", luaArray []),
        ("updatedAt", .str (toISOString now))]
      { modelName, state := .starting, protocol := protocol.getD .openai, endpoints := [],
        updatedAt := now } := by
    refine table_of_denotes rfl rfl ?_
    have hnew := ((((denotes_nil.cons "updatedAt" rfl (.str (toISOString now))).cons "endpoints"
      rfl (luaArray [])).cons "protocol" rfl (.str (protocol.getD .openai).text)).cons "state" rfl
      (.str ModelState.starting.text)).cons "modelName" rfl (.str modelName)
    intro key
    rw [hnew key]
    simp only [update_apply, entryTable]
    grind
  obtain ⟨_, _, htable⟩ := h.entryOr modelName hfresh
  obtain ⟨ep, _, hrep⟩ := exists_decode_stringify endpoint
  obtain ⟨endpoints, _, hitems⟩ := htable.ipairs_endpoints
  obtain ⟨_, _, hkept⟩ := exists_withoutAddress hitems endpoint.host endpoint.port
  have hhost : fieldOf "host" ep = some (some (.str endpoint.host)) := hrep.fieldOf "host"
  have hport : fieldOf "port" ep = some (some (.num endpoint.port)) := hrep.fieldOf "port"
  have hadded := htable.setEndpoints (List.rel_append hkept (.cons hrep .nil))
  refine ⟨_, ?_, h.insert (((hadded.setProtocol (protocol.getD .openai)).setUpdatedAt
    now).encodeRoutingEntry order)⟩
  simp_all [addEndpointScript]

theorem exists_removeEndpointScript (modelName host : String) (port : Nat) :
    ∃ hash', removeEndpointScript toISOString hash now order modelName host port = some hash' ∧
      HashEncodes toISOString hash' (removeEndpoint m modelName host port now) := by
  simp only [removeEndpointScript, removeEndpoint]
  rcases h.lookup modelName with ⟨hhash, hm⟩ | ⟨_, _, _, hhash, hm, hfields, htable⟩
  · grind
  · obtain ⟨_, hendpoints, hitems⟩ := htable.ipairs_endpoints
    obtain ⟨_, hfiltered, hkept⟩ := exists_withoutAddress hitems host port
    rw [hhash, hm]
    simp only [hfields, bind_eq_bind, bind_some, hendpoints, hfiltered]
    exact ⟨_, rfl, h.insert (((htable.setEndpoints hkept).setUpdatedAt now).encodeRoutingEntry
      order)⟩

theorem exists_updateEndpointScript (modelName host : String) (port : Nat) {v change}
    (hchange : ∀ e, update (endpointTable e) key (some v) = endpointTable (change e)) :
    ∃ hash', updateEndpointScript toISOString hash now order modelName host port key v =
        some hash' ∧
      HashEncodes toISOString hash' ((updateEndpoint m modelName host port now change).getD m) := by
  simp only [updateEndpointScript, updateEndpoint]
  rcases h.lookup modelName with ⟨hhash, hm⟩ | ⟨_, entry, _, hhash, hm, hfields, htable⟩
  · grind
  · obtain ⟨endpoints, hendpoints, hitems⟩ := htable.ipairs_endpoints
    obtain ⟨_, hchanged, hrel⟩ := exists_assignFirst hchange hitems host port
    rw [hhash, hm]
    simp only [hfields, bind_eq_bind, bind_some, hendpoints, hchanged]
    generalize updateFirst (host, port) change entry.endpoints = es at hrel ⊢
    cases hrel with
    | none => exact ⟨hash, rfl, h⟩
    | some hrest =>
      exact ⟨_, rfl, h.insert (((htable.setEndpoints hrest).setUpdatedAt
        now).encodeRoutingEntry order)⟩

/-- **The scripts do what the mutators say.**  None of them fails on a hash that
stands for a routing map, and what they leave stands for the map after the call. -/
theorem exists_script (mutation : Mutation) :
    ∃ hash', mutation.script toISOString hash now order = some hash' ∧
      HashEncodes toISOString hash' (mutation.apply m now) := by
  cases mutation with
  | setModelState modelName state protocol =>
    exact exists_setModelStateScript h now order modelName state protocol
  | removeModel modelName => exact ⟨_, rfl, h.erase modelName⟩
  | addEndpoint modelName endpoint protocol =>
    exact exists_addEndpointScript h now order modelName endpoint protocol
  | removeEndpoint modelName host port =>
    exact exists_removeEndpointScript h now order modelName host port
  | updateEndpointHealth modelName host port healthy =>
    exact exists_updateEndpointScript h now order modelName host port
      fun e => update_healthy e healthy
  | updateEndpointWeight modelName host port weight =>
    simp only [Mutation.script, Mutation.apply, updateEndpointWeight]
    by_cases hweight : 100 < weight
    · grind
    · simp only [if_neg hweight]
      obtain ⟨hash', _, _⟩ := exists_updateEndpointScript h now order modelName host
        port fun e => update_weight e weight
      grind
  | cutoverEndpoint modelName host port =>
    exact exists_updateEndpointScript h now order modelName host port fun e => update_weight e 0

end

end

end

end Sardeenz
