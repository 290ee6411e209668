/-
# `Sardeenz.Proxy.Cache` — the proxy's routing cache and its leases

`RoutingMapCache` (`routing/map.rs`) keeps, beside each cached entry, a gate:
a read-write lock that names the generation of the entry.  A request holds the
read side from the choice of its endpoint to the end of the response; a
replacement that takes something selectable away takes the write side first.

    get_with_lease    look up → read-lock the gate → look up again → lease, or start over
    replace           collect the gates → write-lock them one by one → swap → drop them
    quiesce_all       collect every gate → write-lock them one by one → drop them

Each arrow is one step here.  There is one writer (the Redis sync task) and any
number of readers; a reader, and a writer that waits for a lock, may be
cancelled.  A gate is written as the number of the swap that made it and the
name it was made for, which is the identity `Arc::ptr_eq` compares.

**Proved here.**  What a lease protects, and when a replacement returns
(`lease_invariant`).
-/
import Mathlib.Data.List.Sort
import Mathlib.Data.String.Basic
import Sardeenz.Run
import Sardeenz.Routing.Map

namespace Sardeenz.Proxy

open Interleave List Option

/-! ## Which replacements have to wait -/

def requiresQuiescence (old : RoutingEntry) (new : Option RoutingEntry) : Bool :=
  (decide (old.state = .active) && (new.all fun entry => decide (entry.state ≠ .active))) ||
    old.endpoints.any fun oldEndpoint =>
      oldEndpoint.healthy && decide (0 < oldEndpoint.weight) && new.all fun entry =>
        !entry.endpoints.any fun newEndpoint =>
          newEndpoint.host == oldEndpoint.host && newEndpoint.port == oldEndpoint.port &&
            newEndpoint.healthy && decide (0 < newEndpoint.weight)

def Selectable (entry : RoutingEntry) (address : String × Nat) : Prop :=
  ∃ e ∈ entry.endpoints, e.address = address ∧ e.selectable = true

/-- Nothing the old entry offers is missing from the new one. -/
structure Covers (old new : RoutingEntry) : Prop where
  active : old.state = .active → new.state = .active
  selectable : ∀ address, Selectable old address → Selectable new address

/-- The entry offers nothing. -/
structure Unroutable (entry : RoutingEntry) : Prop where
  inactive : entry.state ≠ .active
  nothing : ∀ address, ¬ Selectable entry address

theorem Covers.trans {a b c} (hab : Covers a b) (hbc : Covers b c) : Covers a c :=
  ⟨hbc.active ∘ hab.active, fun address => hbc.selectable address ∘ hab.selectable address⟩

theorem Covers.unroutable {a b} (hab : Covers a b) (hb : Unroutable b) :
    Unroutable a :=
  ⟨fun h => hb.inactive (hab.active h), fun address h => hb.nothing address (hab.selectable address h)⟩

theorem covers_of_not_requiresQuiescence {old new}
    (h : requiresQuiescence old (some new) = false) : Covers old new := by
  simp only [requiresQuiescence, all_some, Bool.or_eq_false_iff, Bool.and_eq_false_imp,
    decide_eq_true_eq, decide_eq_false_iff_not, not_not, List.any_eq_false, Bool.and_eq_true,
    Bool.not_eq_true', not_and, and_imp, beq_iff_eq] at h
  refine ⟨h.1, ?_⟩
  rintro address ⟨e, he, rfl, hsel⟩
  simp only [RunnerEndpoint.selectable, Bool.and_eq_true, decide_eq_true_eq] at hsel
  have hany := h.2 e he hsel.1 hsel.2
  push Not at hany
  obtain ⟨x, hx, hhost, hport, hhealthy, hweight⟩ := hany
  refine ⟨x, hx, ?_, ?_⟩
  · rw [RunnerEndpoint.address, RunnerEndpoint.address, hhost, hport]
  · simp [RunnerEndpoint.selectable, hhealthy, hweight]

theorem unroutable_of_not_requiresQuiescence {old}
    (h : requiresQuiescence old none = false) : Unroutable old := by
  simp only [requiresQuiescence, all_none, Bool.and_true, Bool.or_eq_false_iff,
    decide_eq_false_iff_not, List.any_eq_false] at h
  refine ⟨h.1, ?_⟩
  rintro _ ⟨e, he, _, hsel⟩
  exact h.2 e he hsel

/-! ## The cache -/

/-- A gate: the swap that made it, and for which model. -/
structure Gate where
  generation : Nat
  name : String
deriving DecidableEq

structure CachedEntry where
  value : RoutingEntry
  gate : Gate
deriving DecidableEq

/-- The map behind the cache's `inner` lock. -/
abbrev Cached := AList (fun _ : String => CachedEntry)

/-- A task inside `get_with_lease`, or holding what it returned. -/
inductive Reader where
  | idle
  | looking (name : String)
  | waiting (name : String) (snapshot : CachedEntry)
  | comparing (name : String) (snapshot : CachedEntry)
  | leased (name : String) (lease : CachedEntry)
deriving DecidableEq

def Reader.seen : Reader → Option (String × CachedEntry)
  | .waiting name e | .comparing name e | .leased name e => some (name, e)
  | .idle | .looking _ => none

def Reader.holds : Reader → Option Gate
  | .comparing _ e | .leased _ e => some e.gate
  | .idle | .looking _ | .waiting _ _ => none

/-- The task inside `replace` or `quiesce_all`. -/
inductive Writer where
  | idle
  | acquiring (map : RoutingMap) (todo held : List Gate)
  /-- `replace` has swapped and is about to return; `changed` are the gates of
  the entries it changed destructively. -/
  | published (changed held : List Gate)
  | quiescing (todo held : List Gate)

def Writer.held : Writer → List Gate
  | .idle => []
  | .acquiring _ _ held | .published _ held | .quiescing _ held => held

/-- The cache and the tasks at work on it. -/
structure Cache (n : Nat) where
  inner : Cached
  generation : Nat
  writer : Writer
  readers : Fin n → Reader

def Cache.new (n : Nat) : Cache n := ⟨∅, 0, .idle, fun _ => .idle⟩

/-- The gates of the entries that satisfy `p`, in the order of their names. -/
def gatesOf (inner : Cached) (p : String → CachedEntry → Bool) : List Gate :=
  ((inner.entries.filter fun x => p x.1 x.2).insertionSort fun a b => a.1 ≤ b.1).map (·.2.gate)

/-- The entry put in the cache for `value`: it keeps the gate unless something
selectable was taken away. -/
def cachedEntry (inner : Cached) (generation : Nat) (name : String) (value : RoutingEntry) :
    CachedEntry :=
  match inner.lookup name with
  | some old =>
    if requiresQuiescence old.value (some value) then ⟨value, ⟨generation, name⟩⟩
    else ⟨value, old.gate⟩
  | none => ⟨value, ⟨generation, name⟩⟩

/-- The map `replace` swaps in. -/
def nextCached (inner : Cached) (generation : Nat) (map : RoutingMap) : Cached :=
  ⟨map.entries.map (Sigma.map id (cachedEntry inner generation)),
    List.NodupKeys.map₂ _ _ map.nodupKeys⟩

/-- What a reader does next. -/
inductive ReaderAction where
  | look (name : String)
  | lookup
  | readLock
  | recheck
  | drop
  | cancel

/-- One step of `get_with_lease`, given the map and the write-locked gates. -/
def readerStep (inner : Cached) (writeLocked : List Gate) : Reader → ReaderAction → Option Reader
  | .idle, .look name => some (.looking name)
  | .looking name, .lookup =>
    match inner.lookup name with
    | some e => some (.waiting name e)
    | none => some .idle
  | .waiting name e, .readLock => if e.gate ∈ writeLocked then none else some (.comparing name e)
  | .comparing name e, .recheck =>
    if (inner.lookup name).map (·.gate) = some e.gate then some (.leased name e)
    else some (.looking name)
  | .leased _ _, .drop => some .idle
  | .idle, .cancel => none
  | _, .cancel => some .idle
  | _, _ => none

/-- A step of one of the tasks. -/
inductive CacheAction (n : Nat) where
  | reader (r : Fin n) (a : ReaderAction)
  | beginReplace (map : RoutingMap)
  | beginQuiesce
  | acquire
  | publish
  | finishReplace
  | finishQuiesce
  | cancelWriter

def Cache.free {n : Nat} (s : Cache n) (g : Gate) : Prop := ∀ r, (s.readers r).holds ≠ some g
deriving Decidable

def Cache.step {n : Nat} (s : Cache n) : CacheAction n → Option (Cache n)
  | .reader r a =>
    (readerStep s.inner s.writer.held (s.readers r) a).map fun rd =>
      { s with readers := Function.update s.readers r rd }
  | .beginReplace map =>
    match s.writer with
    | .idle =>
      some { s with
        writer := .acquiring map
          (gatesOf s.inner fun name old => requiresQuiescence old.value (map.lookup name)) [] }
    | _ => none
  | .beginQuiesce =>
    match s.writer with
    | .idle => some { s with writer := .quiescing (gatesOf s.inner fun _ _ => true) [] }
    | _ => none
  | .acquire =>
    match s.writer with
    | .acquiring map (g :: todo) held =>
      if s.free g then some { s with writer := .acquiring map todo (held ++ [g]) } else none
    | .quiescing (g :: todo) held =>
      if s.free g then some { s with writer := .quiescing todo (held ++ [g]) } else none
    | _ => none
  | .publish =>
    match s.writer with
    | .acquiring map [] held =>
      some { s with
        inner := nextCached s.inner s.generation map
        generation := s.generation + 1
        writer := .published
          (gatesOf s.inner fun name old => requiresQuiescence old.value (map.lookup name))
          held }
    | _ => none
  | .finishReplace =>
    match s.writer with
    | .published _ _ => some { s with writer := .idle }
    | _ => none
  | .finishQuiesce =>
    match s.writer with
    | .quiescing [] _ => some { s with writer := .idle }
    | _ => none
  | .cancelWriter =>
    match s.writer with
    | .acquiring .. | .quiescing .. => some { s with writer := .idle }
    | _ => none

/-! ## What a step can be -/

section
variable {n : Nat} {s s' : Cache n}

theorem Cache.step_beginReplace {map} (h : s.step (.beginReplace map) = some s') :
    s' = { s with
      writer := .acquiring map
        (gatesOf s.inner fun name old => requiresQuiescence old.value (map.lookup name)) [] } := by
  grind [Cache.step]

theorem Cache.step_beginQuiesce (h : s.step .beginQuiesce = some s') :
    s' = { s with writer := .quiescing (gatesOf s.inner fun _ _ => true) [] } := by
  grind [Cache.step]

theorem Cache.step_acquire (h : s.step .acquire = some s') :
    (∃ map g todo held, s.writer = .acquiring map (g :: todo) held ∧ s.free g ∧
      s' = { s with writer := .acquiring map todo (held ++ [g]) }) ∨
    ∃ g todo held, s.writer = .quiescing (g :: todo) held ∧ s.free g ∧
      s' = { s with writer := .quiescing todo (held ++ [g]) } := by
  simp only [Cache.step] at h
  grind

theorem Cache.step_publish (h : s.step .publish = some s') :
    ∃ map held, s.writer = .acquiring map [] held ∧ s' = { s with
        inner := nextCached s.inner s.generation map
        generation := s.generation + 1
        writer := .published
          (gatesOf s.inner fun name old => requiresQuiescence old.value (map.lookup name)) held } := by
  grind [Cache.step]

theorem Cache.step_finishReplace (h : s.step .finishReplace = some s') :
    ∃ changed held, s.writer = .published changed held ∧ s' = { s with writer := .idle } := by
  grind [Cache.step]

theorem Cache.step_finishQuiesce (h : s.step .finishQuiesce = some s') :
    ∃ held, s.writer = .quiescing [] held ∧ s' = { s with writer := .idle } := by
  grind [Cache.step]

theorem Cache.step_cancelWriter (h : s.step .cancelWriter = some s') :
    s' = { s with writer := .idle } := by
  grind [Cache.step]

theorem Cache.step_reader_of_ne {r r' a}
    (h : s.step (.reader r a) = some s') (hr : r' ≠ r) : s'.readers r' = s.readers r' := by
  obtain ⟨rd, _, rfl⟩ := map_eq_some_iff.mp h
  exact Function.update_of_ne hr rd s.readers

theorem Cache.step_reader_frame {r a}
    (h : s.step (.reader r a) = some s') : s'.inner = s.inner ∧ s'.writer = s.writer := by
  obtain ⟨_, _, rfl⟩ := map_eq_some_iff.mp h
  exact ⟨rfl, rfl⟩

theorem Cache.step_readers {a} (h : s.step a = some s')
    (ha : ∀ r b, a ≠ .reader r b) : s'.readers = s.readers := by
  cases a with
  | reader r b => exact absurd rfl (ha r b)
  | beginReplace => rw [Cache.step_beginReplace h]
  | beginQuiesce => rw [Cache.step_beginQuiesce h]
  | acquire =>
    grind [Cache.step_acquire]
  | publish =>
    obtain ⟨_, _, _, rfl⟩ := Cache.step_publish h
    rfl
  | finishReplace =>
    obtain ⟨_, _, _, rfl⟩ := Cache.step_finishReplace h
    rfl
  | finishQuiesce =>
    obtain ⟨_, _, rfl⟩ := Cache.step_finishQuiesce h
    rfl
  | cancelWriter => rw [Cache.step_cancelWriter h]

end

/-! ## Lookups in what a swap puts in place -/

theorem mem_gatesOf {inner p g} :
    g ∈ gatesOf inner p ↔ ∃ name e, inner.lookup name = some e ∧ p name e = true ∧ e.gate = g := by
  simp only [gatesOf, List.mem_map, mem_insertionSort, mem_filter, ← mem_def,
    AList.mem_lookup_iff]
  grind

theorem lookup_nextCached (inner : Cached) (generation : Nat) (map : RoutingMap) (name : String) :
    (nextCached inner generation map).lookup name =
      (map.lookup name).map (cachedEntry inner generation name) :=
  dlookup_map₂ name

variable {map : RoutingMap}

theorem nextCached_cases {inner generation name c} (h : (nextCached inner generation map).lookup name = some c) :
    c.gate = ⟨generation, name⟩ ∨
      ∃ old, inner.lookup name = some old ∧ c.gate = old.gate ∧ Covers old.value c.value := by
  rw [lookup_nextCached] at h
  obtain ⟨value, _, rfl⟩ := map_eq_some_iff.mp h
  grind [cachedEntry, covers_of_not_requiresQuiescence]

theorem nextCached_of_not_requiresQuiescence {inner} (generation : Nat)
    {name old} (hold : inner.lookup name = some old)
    (hq : requiresQuiescence old.value (map.lookup name) = false) :
    (∃ c, (nextCached inner generation map).lookup name = some c ∧ c.gate = old.gate) ∨
      Unroutable old.value := by
  cases hm : map.lookup name with
  | none =>
    rw [hm] at hq
    exact .inr (unroutable_of_not_requiresQuiescence hq)
  | some value =>
    grind [cachedEntry, lookup_nextCached]

/-! ## The invariant -/

/-- What holds of one reader, given the map, the number of swaps and the
write-locked gates. -/
structure ReaderInv (inner : Cached) (generation : Nat) (writeLocked : List Gate) (rd : Reader) :
    Prop where
  covers : ∀ name e, rd.seen = some (name, e) → ∀ c, inner.lookup name = some c →
    c.gate = e.gate → Covers e.value c.value
  current : ∀ name e, rd = .leased name e →
    (∃ c, inner.lookup name = some c ∧ c.gate = e.gate) ∨ Unroutable e.value
  excluded : ∀ g ∈ writeLocked, rd.holds ≠ some g
  old : ∀ name e, rd.seen = some (name, e) → e.gate.generation < generation

def Writer.Complete (inner : Cached) : Writer → Prop
  | .idle => True
  | .acquiring map todo held => ∀ name e, inner.lookup name = some e →
      requiresQuiescence e.value (map.lookup name) = true → e.gate ∈ todo ∨ e.gate ∈ held
  | .published changed held => ∀ g ∈ changed, g ∈ held
  | .quiescing todo held => ∀ name e, inner.lookup name = some e → e.gate ∈ todo ∨ e.gate ∈ held

/-- What holds of the cache in every reached state. -/
structure Cache.Inv {n : Nat} (s : Cache n) : Prop where
  reader : ∀ r, ReaderInv s.inner s.generation s.writer.held (s.readers r)
  old : ∀ name c, s.inner.lookup name = some c → c.gate.generation < s.generation
  complete : s.writer.Complete s.inner

section
variable {inner : Cached} {generation : Nat} {writeLocked : List Gate} {rd rd' : Reader}

theorem ReaderInv.of_seen_none (hseen : rd.seen = none) (hholds : rd.holds = none) :
    ReaderInv inner generation writeLocked rd where
  covers := fun name e h => nomatch hseen.symm.trans h
  current := by
    rintro name e rfl
    cases hseen
  excluded := fun g _ h => nomatch hholds.symm.trans h
  old := fun name e h => nomatch hseen.symm.trans h

theorem ReaderInv.step (h : ReaderInv inner generation writeLocked rd)
    (hold : ∀ name c, inner.lookup name = some c → c.gate.generation < generation)
    {a} (hs : readerStep inner writeLocked rd a = some rd') :
    ReaderInv inner generation writeLocked rd' := by
  unfold readerStep at hs
  split at hs
  · cases hs
    exact .of_seen_none rfl rfl
  · rename_i name
    split at hs
    · rename_i e he
      cases hs
      constructor
      · rintro name' e' hseen c hc _
        cases hseen
        cases he.symm.trans hc
        exact ⟨id, fun _ => id⟩
      · exact fun _ _ h' => nomatch h'
      · exact fun _ _ h' => nomatch h'
      · rintro name' e' hseen
        cases hseen
        exact hold _ _ he
    · cases hs
      exact .of_seen_none rfl rfl
  · rename_i name e
    split at hs
    · cases hs
    · rename_i hfree
      cases hs
      refine ⟨h.covers, (fun _ _ h' => nomatch h'), ?_, h.old⟩
      intro g hg h'
      exact hfree (Option.some.inj h' ▸ hg)
  · rename_i name e
    split at hs
    · rename_i hgate
      cases hs
      refine ⟨h.covers, ?_, h.excluded, h.old⟩
      simp_all
    · cases hs
      exact .of_seen_none rfl rfl
  · cases hs
    exact .of_seen_none rfl rfl
  · cases hs
  · cases hs
    exact .of_seen_none rfl rfl
  · cases hs

/-- A swap that holds the gates of everything it changes destructively keeps
the reader's part: what the reader saw through a gate that stays current is
still covered, and a lease whose gate goes offered nothing. -/
theorem ReaderInv.swap (h : ReaderInv inner generation writeLocked rd)
    (hlocked : ∀ name e, inner.lookup name = some e →
      requiresQuiescence e.value (map.lookup name) = true → e.gate ∈ writeLocked) :
    ReaderInv (nextCached inner generation map) (generation + 1) writeLocked rd where
  covers := by
    intro name e hseen c hc hgate
    rcases nextCached_cases hc with hfresh | ⟨old, hold, hkept, hcov⟩
    · have hlt := h.old name e hseen
      rw [← hgate, hfresh] at hlt
      exact absurd hlt (Nat.lt_irrefl _)
    · exact (h.covers name e hseen old hold (hkept ▸ hgate)).trans hcov
  current := by
    intro name e hrd
    rcases h.current name e hrd with ⟨c, hc, hgate⟩ | hun
    · have hholds : rd.holds = some c.gate := by rw [hrd, hgate]; rfl
      cases hq : requiresQuiescence c.value (map.lookup name) with
      | true => exact absurd hholds (h.excluded c.gate (hlocked name c hc hq))
      | false =>
        rcases nextCached_of_not_requiresQuiescence generation hc hq with
          ⟨c', hc', hgate'⟩ | hun
        · exact .inl ⟨c', hc', hgate'.trans hgate⟩
        · exact .inr ((h.covers name e (by rw [hrd]; rfl) c hc hgate).unroutable hun)
    · exact .inr hun
  excluded := h.excluded
  old := fun name e hseen => Nat.lt_succ_of_lt (h.old name e hseen)

end

section
variable {n : Nat} {s s' : Cache n} {r : Fin n}

theorem Cache.Inv.reader_step (hi : s.Inv) {a rd}
    (hs : readerStep s.inner s.writer.held (s.readers r) a = some rd) :
    Cache.Inv { s with readers := Function.update s.readers r rd } where
  reader := by
    intro r'
    by_cases hr : r' = r
    · subst hr
      simpa using (hi.reader r').step hi.old hs
    · simpa [hr] using hi.reader r'
  old := hi.old
  complete := hi.complete

theorem Cache.Inv.writer_step (hi : s.Inv) {w}
    (hheld : ∀ g ∈ w.held, g ∈ s.writer.held ∨ s.free g) (hcomplete : w.Complete s.inner) :
    Cache.Inv { s with writer := w } where
  reader := by
    intro r
    refine ⟨(hi.reader r).covers, (hi.reader r).current, ?_, (hi.reader r).old⟩
    intro g hg
    rcases hheld g hg with hg | hfree
    · exact (hi.reader r).excluded g hg
    · exact hfree r
  old := hi.old
  complete := hcomplete

theorem Cache.Inv.writer_idle (hi : s.Inv) : Cache.Inv { s with writer := .idle } :=
  hi.writer_step (fun _ hg => absurd hg not_mem_nil) trivial

theorem Cache.Inv.publish (hi : s.Inv) {held} (hw : s.writer = .acquiring map [] held) :
    Cache.Inv { s with
      inner := nextCached s.inner s.generation map
      generation := s.generation + 1
      writer := .published
        (gatesOf s.inner fun name old => requiresQuiescence old.value (map.lookup name)) held } := by
  have hlocked : ∀ name e, s.inner.lookup name = some e →
      requiresQuiescence e.value (map.lookup name) = true → e.gate ∈ held := by
    intro name e he hq
    have hc := hi.complete
    rw [hw] at hc
    exact (hc name e he hq).resolve_left not_mem_nil
  have hheld : s.writer.held = held := by rw [hw]; rfl
  refine ⟨fun r => (hheld ▸ hi.reader r).swap hlocked, ?_, ?_⟩
  · intro name c hc
    rcases nextCached_cases hc with _ | ⟨old, hold, hkept, _⟩
    · grind
    · rw [hkept]
      exact Nat.lt_succ_of_lt (hi.old name old hold)
  · intro g hg
    obtain ⟨name, e, he, hq, rfl⟩ := mem_gatesOf.mp hg
    exact hlocked name e he hq

theorem mem_cons_or_mem {g g'} {todo held : List Gate}
    (h : g' ∈ g :: todo ∨ g' ∈ held) : g' ∈ todo ∨ g' ∈ held ++ [g] := by
  grind [mem_append_left]

/-- **The step lemma.**  Every step of every task keeps the invariant. -/
theorem Cache.Inv.step (hi : s.Inv) {a} (h : s.step a = some s') : s'.Inv := by
  cases a with
  | reader r a =>
    obtain ⟨_, hrd, rfl⟩ := map_eq_some_iff.mp h
    exact hi.reader_step hrd
  | beginReplace map =>
    obtain rfl := Cache.step_beginReplace h
    refine hi.writer_step (fun g hg => absurd hg not_mem_nil) ?_
    intro name e he hq
    exact .inl (mem_gatesOf.mpr ⟨name, e, he, hq, rfl⟩)
  | beginQuiesce =>
    obtain rfl := Cache.step_beginQuiesce h
    refine hi.writer_step (fun g hg => absurd hg not_mem_nil) ?_
    intro name e he
    exact .inl (mem_gatesOf.mpr ⟨name, e, he, rfl, rfl⟩)
  | acquire =>
    have hc := hi.complete
    rcases Cache.step_acquire h with ⟨map, g, todo, held, hw, hfree, rfl⟩ |
      ⟨g, todo, held, hw, hfree, rfl⟩
    · rw [hw] at hc
      refine hi.writer_step ?_ fun name e he hq => mem_cons_or_mem (hc name e he hq)
      intro g' hg'
      rcases mem_append.mp hg' with hg' | hg'
      · exact .inl (by rw [hw]; exact hg')
      · exact .inr (mem_singleton.mp hg' ▸ hfree)
    · rw [hw] at hc
      refine hi.writer_step ?_ fun name e he => mem_cons_or_mem (hc name e he)
      intro g' hg'
      rcases mem_append.mp hg' with hg' | hg'
      · exact .inl (by rw [hw]; exact hg')
      · exact .inr (mem_singleton.mp hg' ▸ hfree)
  | publish =>
    grind [Cache.step_publish, hi.publish]
  | finishReplace =>
    grind [Cache.step_finishReplace, hi.writer_idle]
  | finishQuiesce =>
    obtain ⟨_, _, rfl⟩ := Cache.step_finishQuiesce h
    exact hi.writer_idle
  | cancelWriter =>
    obtain rfl := Cache.step_cancelWriter h
    exact hi.writer_idle

theorem Cache.new_inv (n : Nat) : (Cache.new n).Inv where
  reader := fun _ => .of_seen_none rfl rfl
  old := fun _ _ h => nomatch h
  complete := trivial

section
variable {name : String} {lease : CachedEntry} (hi : s.Inv) (hl : s.readers r = .leased name lease)
include hi hl

theorem Cache.Inv.lease_selectable {address} (hsel : Selectable lease.value address) :
    ∃ c, s.inner.lookup name = some c ∧ Selectable c.value address := by
  rcases (hi.reader r).current name lease hl with ⟨c, hc, hgate⟩ | hun
  · have hcov := (hi.reader r).covers name lease (by rw [hl]; rfl) c hc hgate
    exact ⟨c, hc, hcov.selectable address hsel⟩
  · exact absurd hsel (hun.nothing address)

theorem Cache.Inv.lease_active (hactive : lease.value.state = .active) :
    ∃ c, s.inner.lookup name = some c ∧ c.value.state = .active := by
  rcases (hi.reader r).current name lease hl with ⟨c, hc, hgate⟩ | hun
  · have hcov := (hi.reader r).covers name lease (by rw [hl]; rfl) c hc hgate
    exact ⟨c, hc, hcov.active hactive⟩
  · exact absurd hactive hun.inactive

end

end

/-- **The lease invariant.**  For any number of readers and every interleaving
of `replace`, `quiesce_all`, `get_with_lease` and lease drops: while a lease is
held, every endpoint that is selectable in its entry is selectable in the
cached entry of the model, and the cached entry is `Active` if the leased one
was; and `replace` returns only when no reader holds a lease on an entry it
changed destructively. -/
theorem lease_invariant {n : Nat} {s : Cache n} (hr : Reach Cache.step anyStep (Cache.new n) s) :
    (∀ r name lease, s.readers r = .leased name lease → (∀ address, Selectable lease.value address →
        ∃ c, s.inner.lookup name = some c ∧ Selectable c.value address) ∧
      (lease.value.state = .active → ∃ c, s.inner.lookup name = some c ∧ c.value.state = .active)) ∧
    ∀ s', s.step .finishReplace = some s' → ∃ changed held, s.writer = .published changed held ∧
        ∀ r name lease, s'.readers r = .leased name lease → lease.gate ∉ changed := by
  have hi : s.Inv := hr.inductive_inv (Cache.new_inv n) fun hi _ hs => hi.step hs
  refine ⟨?_, ?_⟩
  · intro r name lease hl
    exact ⟨fun address h => hi.lease_selectable hl h, hi.lease_active hl⟩
  · intro s' h
    obtain ⟨changed, held, hw, rfl⟩ := Cache.step_finishReplace h
    refine ⟨changed, held, hw, ?_⟩
    intro r name lease hl hg
    have hc := hi.complete
    rw [hw] at hc
    refine (hi.reader r).excluded lease.gate ?_ (by rw [hl]; rfl)
    rw [hw]
    exact hc _ hg

/-- A routing map with one `ACTIVE` model on one endpoint of the given weight. -/
def oneModel (weight : Nat) : RoutingMap :=
  AList.singleton "m"
    { modelName := "m", state := .active, protocol := .openai, updatedAt := 0
      endpoints := [⟨"10.0.0.7", 8000, weight, true, some "r1"⟩] }

/-- A reader takes a lease, and the replacement that sets the weight to zero
waits for it. -/
def cutoverWaits : List (CacheAction 1) :=
  [.beginReplace (oneModel 1), .publish, .finishReplace, .reader lone (.look "m"),
    .reader lone .lookup, .reader lone .readLock, .reader lone .recheck,
    .beginReplace (oneModel 0)]

/-- In the run of `cutoverWaits` the lease is held, the writer cannot get the
gate, and what the lease offers is still in the cache. -/
theorem cutoverWaits_lease :
    let s := (exec (guarded Cache.step anyStep) (Cache.new 1) cutoverWaits).get (by decide)
    (s.readers 0).holds = some ⟨0, "m"⟩ ∧ (s.step .acquire).isNone ∧
    ∃ c, s.inner.lookup "m" = some c ∧ c.value.state = .active :=
  ⟨by decide, by decide,
    ((lease_invariant (reach_get (by decide))).1 0 "m"
      ⟨{ modelName := "m", state := .active, protocol := .openai, updatedAt := 0
         endpoints := [⟨"10.0.0.7", 8000, 1, true, some "r1"⟩] }, ⟨0, "m"⟩⟩ (by decide)).2 rfl⟩

end Sardeenz.Proxy
