/-
# `Sardeenz.Json` — JSON values, the texts of them, and reading them back

The part of JSON that records travel in: `null`, booleans, natural numbers,
strings, arrays and objects.  A text is the list of its characters, without white
space between the tokens, which is how machines write it.

    render escape v     the text of `v`, its strings written with `escape`
    parse text          the value of a text; `none` where it is not one

Writers differ in the characters they escape, and all of them may be read, so the
escaping is a parameter: `Readable escape` is that each character comes back.

**Proved here.**  A value that was written is read back (`parse_render`), whatever
readable escaping the writer has used.  The module knows nothing about the records
it is used for.
-/
import Mathlib.Data.List.TakeWhile
import Mathlib.Data.List.Perm.Basic

namespace JsonText

open Function

/-- A JSON value; an object keeps the order of its members. -/
inductive Json where
  | null
  | bool (b : Bool)
  | num (n : Nat)
  | str (s : String)
  | arr (items : List Json)
  | obj (members : List (String × Json))

variable (key : String)

/-- The values that a key has among the members of an object. -/
def valuesOf (members : List (String × Json)) : List Json :=
  members.filterMap fun m => if m.1 = key then some m.2 else none

@[simp] theorem valuesOf_cons (m : String × Json) (ms : List (String × Json)) :
    valuesOf key (m :: ms) = if m.1 = key then m.2 :: valuesOf key ms else valuesOf key ms := by
  by_cases h : m.1 = key
  all_goals simp [valuesOf, h]

/-- The order of the members does not matter to a key that stands there once or
not at all. -/
theorem valuesOf_perm {key ms ms'} (h : ms.Perm ms')
    (hone : (valuesOf key ms').length ≤ 1) : valuesOf key ms = valuesOf key ms' := by
  have hperm : (valuesOf key ms).Perm (valuesOf key ms') := h.filterMap _
  cases hvalues : valuesOf key ms' with
  | nil => exact List.perm_nil.mp (hvalues ▸ hperm)
  | cons v vs =>
    cases vs with
    | nil => exact List.perm_singleton.mp (hvalues ▸ hperm)
    | cons _ vs =>
      grind

/-- The members of an object that stands for a partial function of its keys. -/
def Denotes (members : List (String × Json)) (f : String → Option Json) : Prop :=
  ∀ key, valuesOf key members = (f key).toList

def removeKey (members : List (String × Json)) : List (String × Json) :=
  members.filter fun m => m.1 ≠ key

/-- The members with a new value for a key. -/
def setKey (v : Json) (members : List (String × Json)) : List (String × Json) :=
  (key, v) :: removeKey key members

@[simp] theorem removeKey_cons (m : String × Json) (ms : List (String × Json)) :
    removeKey key (m :: ms) = if m.1 = key then removeKey key ms else m :: removeKey key ms := by
  by_cases h : m.1 = key
  all_goals simp [removeKey, h]

theorem valuesOf_removeKey_self (ms : List (String × Json)) :
    valuesOf key (removeKey key ms) = [] := by
  induction ms with
  | nil => rfl
  | cons m ms ih =>
    by_cases h : m.1 = key
    all_goals simpa [h] using ih

theorem valuesOf_removeKey_ne {key key'} (hne : key' ≠ key) (ms : List (String × Json)) :
    valuesOf key' (removeKey key ms) = valuesOf key' ms := by
  induction ms with
  | nil => rfl
  | cons m ms ih =>
    by_cases h : m.1 = key
    · simp [h, hne.symm, ih]
    · simp [h, ih]

section
variable {ms ms' : List (String × Json)} {f : String → Option Json}

theorem Denotes.perm (h : Denotes ms f) (hperm : ms'.Perm ms) : Denotes ms' f := by
  intro key
  rw [valuesOf_perm hperm, h key]
  rw [h key]
  grind

theorem Denotes.removeKey (h : Denotes ms f) (key : String) :
    Denotes (removeKey key ms) (update f key none) := by
  intro key'
  by_cases hk : key' = key
  · grind [valuesOf_removeKey_self]
  · rw [valuesOf_removeKey_ne hk, update_of_ne hk, h key']

theorem Denotes.setKey (h : Denotes ms f) (key : String) (v : Json) :
    Denotes (setKey key v ms) (update f key (some v)) := by
  intro key'
  rw [JsonText.setKey, valuesOf_cons]
  by_cases hk : key' = key
  · grind [valuesOf_removeKey_self]
  · rw [if_neg (Ne.symm hk), valuesOf_removeKey_ne hk, update_of_ne hk, h key']

theorem denotes_nil : Denotes [] fun _ => none := fun _ => rfl

theorem Denotes.cons (h : Denotes ms f) (key : String) (hkey : f key = none) (v : Json) :
    Denotes ((key, v) :: ms) (update f key (some v)) := by
  intro key'
  rw [valuesOf_cons]
  by_cases hk : key = key'
  · subst hk
    rw [if_pos rfl, h key, hkey, update_self]
    rfl
  · rw [if_neg hk, h key', update_of_ne (Ne.symm hk)]

theorem Denotes.ne_nil (h : Denotes ms f) {key v} (hv : f key = some v) :
    ms ≠ [] := by
  rintro rfl
  have hkey := h key
  rw [hv] at hkey
  cases hkey

end

/-! ## Writing -/

/-- How a writer puts one character of a string. -/
abbrev Escaping := Char → List Char

/-- The usual escaping.  `solidus` writers also escape `/`, `delete` writers the
character 127. -/
def escape (solidus delete : Bool) : Escaping := fun c =>
  if c = '"' then ['\\', '"']
  else if c = '\\' then ['\\', '\\']
  else if c = '\n' then ['\\', 'n']
  else if c = '\r' then ['\\', 'r']
  else if c = '\t' then ['\\', 't']
  else if c.toNat = 8 then ['\\', 'b']
  else if c.toNat = 12 then ['\\', 'f']
  else if c = '/' ∧ solidus = true then ['\\', '/']
  else if c.toNat < 32 ∨ (c.toNat = 127 ∧ delete = true) then
    ['\\', 'u', '0', '0', Nat.digitChar (c.toNat / 16), Nat.digitChar (c.toNat % 16)]
  else [c]

section
variable (escape : Escaping)

def quote (s : String) : List Char := '"' :: (s.toList.flatMap escape ++ ['"'])

mutual

def render : Json → List Char
  | .null => ['n', 'u', 'l', 'l']
  | .bool true => ['t', 'r', 'u', 'e']
  | .bool false => ['f', 'a', 'l', 's', 'e']
  | .num n => Nat.toDigits 10 n
  | .str s => quote escape s
  | .arr items => '[' :: (renderItems items ++ [']'])
  | .obj members => '{' :: (renderMembers members ++ ['}'])

/-- The items of an array, with commas between them. -/
def renderItems : List Json → List Char
  | [] => []
  | v :: vs => render v ++ renderMoreItems vs

/-- The items after the first, each with its comma. -/
def renderMoreItems : List Json → List Char
  | [] => []
  | v :: vs => ',' :: (render v ++ renderMoreItems vs)

/-- The members of an object, with commas between them. -/
def renderMembers : List (String × Json) → List Char
  | [] => []
  | (key, v) :: ms => quote escape key ++ ':' :: (render v ++ renderMoreMembers ms)

/-- The members after the first, each with its comma. -/
def renderMoreMembers : List (String × Json) → List Char
  | [] => []
  | (key, v) :: ms => ',' :: (quote escape key ++ ':' :: (render v ++ renderMoreMembers ms))

end

theorem renderMoreMembers_append (ms : List (String × Json)) (key : String) (v : Json) :
    renderMoreMembers escape (ms ++ [(key, v)]) =
      renderMoreMembers escape ms ++ ',' :: (quote escape key ++ ':' :: render escape v) := by
  induction ms with
  | nil => simp [renderMoreMembers]
  | cons m ms =>
    grind [renderMoreMembers]

/-- **The splice.**  A member is added to the text of an object that has some by
cutting off its closing brace. -/
theorem render_obj_append {ms} (hms : ms ≠ []) (key : String) (v : Json) :
    render escape (.obj (ms ++ [(key, v)])) = (render escape (.obj ms)).dropLast ++
        ',' :: (quote escape key ++ ':' :: (render escape v ++ ['}'])) := by
  cases ms with
  | nil => exact absurd rfl hms
  | cons m ms =>
    grind [render, renderMembers, renderMoreMembers_append]

theorem render_obj_ne {ms} (hms : ms ≠ []) :
    render escape (.obj ms) ≠ ['{', '}'] := by
  cases ms with
  | nil => exact absurd rfl hms
  | cons m ms =>
    intro h
    cases h

end

/-! ## Reading -/

variable (c : Char)

def hexValue : Option Nat :=
  if '0' ≤ c ∧ c ≤ '9' then some (c.toNat - 48)
  else if 'a' ≤ c ∧ c ≤ 'f' then some (c.toNat - 87)
  else if 'A' ≤ c ∧ c ≤ 'F' then some (c.toNat - 55)
  else none

/-- The character that a letter stands for after a backslash. -/
def unescape : Option Char :=
  if c = '"' ∨ c = '\\' ∨ c = '/' then some c
  else if c = 'n' then some '\n'
  else if c = 'r' then some '\r'
  else if c = 't' then some '\t'
  else if c = 'b' then some (Char.ofNat 8)
  else if c = 'f' then some (Char.ofNat 12)
  else none

/-- The four digits after `\u`.  The halves of a surrogate pair are no characters
and are not read. -/
def readHex : List Char → Option (Char × List Char)
  | a :: b :: c :: d :: rest => do
    let a ← hexValue a
    let b ← hexValue b
    let c ← hexValue c
    let d ← hexValue d
    let n := ((a * 16 + b) * 16 + c) * 16 + d
    if n.isValidChar then some (Char.ofNat n, rest) else none
  | _ => none

def readChar : List Char → Option (Char × List Char)
  | [] => none
  | c :: rest =>
    if c = '\\' then
      match rest with
      | [] => none
      | e :: rest => if e = 'u' then readHex rest else (unescape e).map (·, rest)
    else if c = '"' ∨ c.toNat < 32 then none
    else some (c, rest)

/-- The characters up to the closing quote. -/
def readChars : Nat → List Char → Option (List Char × List Char)
  | 0, _ => none
  | _ + 1, [] => none
  | fuel + 1, c :: rest =>
    if c = '"' then some ([], rest)
    else do
      let (ch, rest) ← readChar (c :: rest)
      let (cs, rest) ← readChars fuel rest
      some (ch :: cs, rest)

/-- A string, from its opening quote on. -/
def readString (fuel : Nat) : List Char → Option (String × List Char)
  | [] => none
  | c :: rest =>
    if c = '"' then (readChars fuel rest).map fun (cs, rest) => (String.ofList cs, rest)
    else none

/-- A fixed word, and the value it stands for. -/
def readWord (word : List Char) (v : Json) (text : List Char) : Option (Json × List Char) :=
  if word.isPrefixOf text then some (v, text.drop word.length) else none

/-- The text goes on with `c`. -/
def expect : List Char → Option (List Char)
  | [] => none
  | c' :: rest => if c' = c then some rest else none

mutual

/-- One value; `fuel` bounds the depth of the recursion. -/
def readValue : Nat → List Char → Option (Json × List Char)
  | 0, _ => none
  | _ + 1, [] => none
  | fuel + 1, c :: rest =>
    if c = '"' then (readString fuel (c :: rest)).map fun (s, rest) => (.str s, rest)
    else if c = '[' then
      match expect ']' rest with
      | some rest => some (.arr [], rest)
      | none => (readItems fuel rest).map fun (items, rest) => (.arr items, rest)
    else if c = '{' then
      match expect '}' rest with
      | some rest => some (.obj [], rest)
      | none => (readMembers fuel rest).map fun (members, rest) => (.obj members, rest)
    else if c.isDigit then
      some (.num (Nat.ofDigitChars 10 ((c :: rest).takeWhile Char.isDigit) 0),
        (c :: rest).dropWhile Char.isDigit)
    else if c = 'n' then readWord ['n', 'u', 'l', 'l'] .null (c :: rest)
    else if c = 't' then readWord ['t', 'r', 'u', 'e'] (.bool true) (c :: rest)
    else readWord ['f', 'a', 'l', 's', 'e'] (.bool false) (c :: rest)

/-- The items of an array, up to its closing bracket. -/
def readItems : Nat → List Char → Option (List Json × List Char)
  | 0, _ => none
  | fuel + 1, text => do
    let (v, rest) ← readValue fuel text
    match expect ',' rest with
    | some rest => do
      let (vs, rest) ← readItems fuel rest
      some (v :: vs, rest)
    | none => do
      let rest ← expect ']' rest
      some ([v], rest)

/-- The members of an object, up to its closing brace. -/
def readMembers : Nat → List Char → Option (List (String × Json) × List Char)
  | 0, _ => none
  | fuel + 1, text => do
    let (key, rest) ← readString fuel text
    let rest ← expect ':' rest
    let (v, rest) ← readValue fuel rest
    match expect ',' rest with
    | some rest => do
      let (ms, rest) ← readMembers fuel rest
      some ((key, v) :: ms, rest)
    | none => do
      let rest ← expect '}' rest
      some ([(key, v)], rest)

end

def parse (text : List Char) : Option Json :=
  match readValue (2 * text.length + 1) text with
  | some (v, []) => some v
  | _ => none

/-! ## Strings -/

/-- Every character of a string comes back. -/
def Readable (escape : Escaping) : Prop :=
  ∀ c rest, readChar (escape c ++ rest) = some (c, rest)

theorem hexValue_digitChar : ∀ n < 16, hexValue (Nat.digitChar n) = some n := by decide

theorem readHex_digits {c : Char} (hc : c.toNat < 128) (rest : List Char) :
    readHex ('0' :: '0' :: Nat.digitChar (c.toNat / 16) :: Nat.digitChar (c.toNat % 16) :: rest) =
      some (c, rest) := by
  have hzero : hexValue '0' = some 0 := by decide
  have hhigh := hexValue_digitChar (c.toNat / 16) (by omega)
  have hlow := hexValue_digitChar (c.toNat % 16) (by omega)
  have hvalue : ((0 * 16 + 0) * 16 + c.toNat / 16) * 16 + c.toNat % 16 = c.toNat := by omega
  have hvalid : c.toNat.isValidChar := .inl (by omega)
  simp_all [readHex]

/-- **The usual escapings are readable.** -/
theorem readable_escape (solidus delete : Bool) : Readable (escape solidus delete) := by
  intro c rest
  unfold escape
  split
  · rename_i h
    subst h
    rfl
  split
  · rename_i h
    subst h
    rfl
  split
  · rename_i h
    subst h
    rfl
  split
  · rename_i h
    subst h
    rfl
  split
  · rename_i h
    subst h
    rfl
  split
  · rename_i h
    have hc : c = Char.ofNat 8 := by rw [← Char.ofNat_toNat c, h]
    subst hc
    rfl
  split
  · rename_i h
    have hc : c = Char.ofNat 12 := by rw [← Char.ofNat_toNat c, h]
    subst hc
    rfl
  split
  · rename_i h
    obtain ⟨rfl, -⟩ := h
    rfl
  split
  · rename_i h
    exact readHex_digits (by omega) rest
  · simp_all [readChar]

section
variable {escape : Escaping} (hescape : Readable escape)
include hescape

theorem exists_escape_cons (c : Char) : ∃ d ds, escape c = d :: ds ∧ d ≠ '"' := by
  have hread := hescape c []
  cases hc : escape c with
  | nil =>
    rw [hc] at hread
    cases hread
  | cons d ds =>
    refine ⟨d, ds, rfl, ?_⟩
    rintro rfl
    rw [hc] at hread
    cases hread

theorem readChars_flatMap (rest : List Char) : ∀ (cs : List Char) (fuel : Nat), cs.length < fuel →
      readChars fuel (cs.flatMap escape ++ '"' :: rest) = some (cs, rest)
  | [], fuel + 1, _ => rfl
  | c :: cs, fuel + 1, hfuel => by
    obtain ⟨d, ds, hd, hne⟩ := exists_escape_cons hescape c
    have hc := hescape c (cs.flatMap escape ++ '"' :: rest)
    have hcs := readChars_flatMap rest cs fuel (Nat.lt_of_succ_lt_succ hfuel)
    simp_all [readChars]

theorem length_le_flatMap : ∀ cs : List Char, cs.length ≤ (cs.flatMap escape).length
  | [] => Nat.le_refl _
  | c :: cs => by
    obtain ⟨d, _, _, -⟩ := exists_escape_cons hescape c
    have hcs := length_le_flatMap cs
    grind

theorem readString_quote (s : String) (fuel : Nat) (hfuel : (quote escape s).length ≤ fuel)
    (rest : List Char) : readString fuel (quote escape s ++ rest) = some (s, rest) := by
  have hlength := length_le_flatMap hescape s.toList
  simp only [quote, List.length_cons, List.length_append] at hfuel
  have hread := readChars_flatMap hescape rest s.toList fuel (by omega)
  simp_all [quote, readString]

end

/-! ## Values -/

/-- A number ends where the text goes on. -/
def EndsNumber (rest : List Char) : Prop := ∀ c ∈ rest.head?, c.isDigit = false

theorem isDigit_of_mem_toDigits {n c} (h : c ∈ Nat.toDigits 10 n) :
    c.isDigit = true :=
  Nat.isDigit_of_mem_toDigits (by decide) (by decide) h

theorem exists_render_cons (escape : Escaping) (v : Json) :
    ∃ c cs, render escape v = c :: cs ∧ c ≠ ']' ∧ c ≠ '}' := by
  cases v with
  | num n =>
    cases hn : Nat.toDigits 10 n with
    | nil => exact absurd hn Nat.toDigits_ne_nil
    | cons c cs =>
      have hdigit : c.isDigit = true := isDigit_of_mem_toDigits (n := n) (by simp [hn])
      refine ⟨c, cs, by rw [render, hn], ?_, ?_⟩
      all_goals
        rintro rfl
        cases hdigit
  | bool b =>
    cases b with
    | true | false => exact ⟨_, _, rfl, by decide, by decide⟩
  | null | arr items | obj members => exact ⟨_, _, by rw [render], by decide, by decide⟩
  | str s => exact ⟨_, _, by rw [render, quote], by decide, by decide⟩

theorem length_render_pos (escape : Escaping) (v : Json) : 0 < (render escape v).length := by
  obtain ⟨c, _, hv, -⟩ := exists_render_cons escape v
  rw [hv]
  exact Nat.succ_pos _

theorem readValue_num (n fuel : Nat) {rest} (hrest : EndsNumber rest) :
    readValue (fuel + 1) (Nat.toDigits 10 n ++ rest) = some (.num n, rest) := by
  have hall : ∀ c ∈ Nat.toDigits 10 n, c.isDigit = true := fun c => isDigit_of_mem_toDigits
  have htake : (Nat.toDigits 10 n ++ rest).takeWhile Char.isDigit = Nat.toDigits 10 n := by
    rw [List.takeWhile_append_of_pos hall]
    cases rest with
    | nil => simp
    | cons c cs => simp [hrest c rfl]
  have hdrop : (Nat.toDigits 10 n ++ rest).dropWhile Char.isDigit = rest := by
    rw [List.dropWhile_append_of_pos hall]
    cases rest with
    | nil => simp
    | cons c cs => simp [hrest c rfl]
  cases hn : Nat.toDigits 10 n with
  | nil => exact absurd hn Nat.toDigits_ne_nil
  | cons c cs =>
    have hdigit : c.isDigit = true := isDigit_of_mem_toDigits (n := n) (by simp [hn])
    have hquote : c ≠ '"' := by
      rintro rfl
      cases hdigit
    have hbracket : c ≠ '[' := by
      rintro rfl
      cases hdigit
    have hbrace : c ≠ '{' := by
      rintro rfl
      cases hdigit
    rw [hn, List.cons_append] at htake hdrop
    simp only [List.cons_append, readValue, if_neg hquote, if_neg hbracket, if_neg hbrace,
      hdigit, if_true, htake, hdrop]
    rw [← hn, Nat.ofDigitChars_ten_toDigits]

section
variable {escape : Escaping}

theorem endsNumber_moreItems (vs : List Json) (rest : List Char) :
    EndsNumber (renderMoreItems escape vs ++ ']' :: rest) := by
  cases vs with
  | nil =>
    rintro c ⟨⟩
    rfl
  | cons v vs =>
    rintro c ⟨⟩
    rfl

theorem endsNumber_moreMembers (ms : List (String × Json)) (rest : List Char) :
    EndsNumber (renderMoreMembers escape ms ++ '}' :: rest) := by
  cases ms with
  | nil =>
    rintro c ⟨⟩
    rfl
  | cons m ms =>
    rintro c ⟨⟩
    rfl

mutual

/-- **A value is read back**, whatever the text goes on with that does not make a
number longer. -/
theorem readValue_render (hescape : Readable escape) :
    ∀ (v : Json) (fuel : Nat) (rest : List Char), 2 * (render escape v).length ≤ fuel →
      EndsNumber rest → readValue fuel (render escape v ++ rest) = some (v, rest)
  | v, 0, _, hfuel, _ => by
    have := length_render_pos escape v
    omega
  | .null, fuel + 1, rest, _, _ => by simp [render, readValue, readWord]
  | .bool true, fuel + 1, rest, _, _ => by simp [render, readValue, readWord]
  | .bool false, fuel + 1, rest, _, _ => by simp [render, readValue, readWord]
  | .num n, fuel + 1, rest, _, hrest => by
    rw [render]
    exact readValue_num n fuel hrest
  | .str s, fuel + 1, rest, hfuel, _ => by
    grind [render, readString_quote, quote, readValue]
  | .arr [], fuel + 1, rest, _, _ => by simp [render, renderItems, readValue, expect]
  | .arr (v :: vs), fuel + 1, rest, hfuel, _ => by
    rw [render] at hfuel ⊢
    simp only [List.length_cons, List.length_append] at hfuel
    obtain ⟨c, cs, hv, hne, -⟩ := exists_render_cons escape v
    have hread := readItems_render hescape (v :: vs) fuel rest (List.cons_ne_nil _ _) (by omega)
    grind [renderItems, List.cons_append, List.append_assoc, List.nil_append, readValue, expect]
  | .obj [], fuel + 1, rest, _, _ => by simp [render, renderMembers, readValue, expect]
  | .obj ((key, v) :: ms), fuel + 1, rest, hfuel, _ => by
    rw [render] at hfuel ⊢
    simp only [List.length_cons, List.length_append] at hfuel
    have hread := readMembers_render hescape ((key, v) :: ms) fuel rest (List.cons_ne_nil _ _)
      (by omega)
    grind [renderMembers, quote, readValue, expect]

theorem readItems_render (hescape : Readable escape) :
    ∀ (vs : List Json) (fuel : Nat) (rest : List Char), vs ≠ [] →
      2 * (renderItems escape vs).length + 1 ≤ fuel →
      readItems fuel (renderItems escape vs ++ ']' :: rest) = some (vs, rest)
  | [], _, _, hvs, _ => absurd rfl hvs
  | _ :: _, 0, _, _, hfuel => by omega
  | v :: vs, fuel + 1, rest, _, hfuel => by
    rw [renderItems, List.length_append] at hfuel
    rw [renderItems, List.append_assoc]
    have hread := readValue_render hescape v fuel (renderMoreItems escape vs ++ ']' :: rest)
      (by omega) (endsNumber_moreItems vs rest)
    have hpos := length_render_pos escape v
    cases vs with
    | nil =>
      simp only [renderMoreItems, List.nil_append] at hread ⊢
      simp [readItems, hread, expect]
    | cons v' vs =>
      simp only [renderMoreItems, List.length_cons] at hfuel
      have hmore := readItems_render hescape (v' :: vs) fuel rest (List.cons_ne_nil _ _)
        (by rw [renderItems]; omega)
      rw [renderItems] at hmore
      simp only [renderMoreItems, List.cons_append, List.append_assoc] at hread hmore ⊢
      simp [readItems, hread, expect, hmore]

theorem readMembers_render (hescape : Readable escape) :
    ∀ (ms : List (String × Json)) (fuel : Nat) (rest : List Char), ms ≠ [] →
      2 * (renderMembers escape ms).length + 1 ≤ fuel →
      readMembers fuel (renderMembers escape ms ++ '}' :: rest) = some (ms, rest)
  | [], _, _, hms, _ => absurd rfl hms
  | _ :: _, 0, _, _, hfuel => by omega
  | (key, v) :: ms, fuel + 1, rest, _, hfuel => by
    rw [renderMembers, List.length_append, List.length_cons, List.length_append] at hfuel
    rw [renderMembers, List.append_assoc, List.cons_append, List.append_assoc]
    have hkey := readString_quote hescape key fuel (by omega)
      (':' :: (render escape v ++ (renderMoreMembers escape ms ++ '}' :: rest)))
    have hread := readValue_render hescape v fuel (renderMoreMembers escape ms ++ '}' :: rest)
      (by omega) (endsNumber_moreMembers ms rest)
    have hpos := length_render_pos escape v
    cases ms with
    | nil =>
      simp only [renderMoreMembers, List.nil_append] at hkey hread ⊢
      simp [readMembers, hkey, hread, expect]
    | cons m ms =>
      obtain ⟨key', v'⟩ := m
      simp only [renderMoreMembers, List.length_cons] at hfuel
      have hmore := readMembers_render hescape ((key', v') :: ms) fuel rest
        (List.cons_ne_nil _ _) (by rw [renderMembers]; omega)
      rw [renderMembers] at hmore
      simp only [renderMoreMembers, List.cons_append, List.append_assoc] at hkey hread hmore ⊢
      simp [readMembers, hkey, hread, expect, hmore]

end

/-- **The round trip.** -/
theorem parse_render (hescape : Readable escape) (v : Json) : parse (render escape v) = some v := by
  have hread := readValue_render hescape v (2 * (render escape v).length + 1) [] (by omega)
    (fun _ h => by cases h)
  grind [parse]

end

end JsonText
