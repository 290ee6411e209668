/-
# `Sardeenz.Services.Listing` — what a program has read of the instances

`getInstancesForModel` is a `SCAN` and one `GET` for each key it named, and
other tasks run in between.  Several functions decide by what they have read:
the refresh of the routing state, the wake route, the recovery of stuck
instances.  A `Listing` is how far such a reading is:

    unread → scanning startIds → reading left seen          left = []: complete

A contract that watches listings (`Watched`) says what is allowed by how far the
reading is and by a state of its own.  The lemmas of this module are about any
such contract.

**Proved here.**  A reading ends with the records it has seen
(`obeys_getInstancesForModel`), and a refresh writes what it decides from them
(`obeys_refresh`).  An instance that exists all along is among them
(`Listing.Covers.after`).
-/
import Sardeenz.Services.World

namespace Sardeenz

open Interleave

/-! ## Readings -/

/-- How far a program is with reading the instances. -/
inductive Listing where
  | unread
  | scanning (startIds : List String)
  | reading (left : List String) (seen : List (String × Option InstanceState))
deriving DecidableEq

namespace Listing

/-- A `GET` of the next key. -/
def read (k : Listing) (id : String) (record : Option InstanceState) : Listing :=
  match k with
  | .reading (id' :: left) seen => if id = id' then .reading left (seen ++ [(id, record)]) else k
  | .reading [] _ | .unread | .scanning _ => k

def after (k : Listing) : (c : Call) → Except Failure (Reply c) → Listing
  | .scan, .ok startIds => .scanning startIds
  | .scanned _, .ok keys => .reading keys []
  | .getInstance id, .ok record => k.read id record
  | _, _ => k

def records (seen : List (String × Option InstanceState)) : List InstanceState :=
  seen.filterMap (·.2)

def Covers (id : String) : Listing → Prop
  | .unread => True
  | .scanning startIds => id ∈ startIds
  | .reading left seen => id ∈ left ∨ ∃ record, (id, record) ∈ seen

def seen : Listing → List (String × Option InstanceState)
  | .reading _ seen => seen
  | .unread | .scanning _ => []

variable {k : Listing} {id : String} {x : String × Option InstanceState}

theorem mem_seen_read {record} (h : x ∈ (k.read id record).seen) :
    x ∈ k.seen ∨ x = (id, record) := by
  match k with
  | .unread | .scanning _ | .reading [] _ => exact .inl h
  | .reading (id' :: left) seen =>
    grind [Listing.read, Listing.seen]

theorem Covers.read (h : Covers id k) (id' : String) (record : Option InstanceState) :
    Covers id (k.read id' record) := by
  match k with
  | .unread | .scanning _ | .reading [] _ => exact h
  | .reading (id'' :: left) seen =>
    by_cases hid : id' = id''
    · subst hid
      simp only [Listing.read]
      rcases h with h | ⟨r, h⟩
      · rcases List.mem_cons.mp h with rfl | h
        · exact .inr ⟨record, List.mem_append_right _ (List.mem_singleton_self _)⟩
        · exact .inl h
      · exact .inr ⟨r, List.mem_append_left _ h⟩
    · simp only [Listing.read, if_neg hid]
      exact h

/-- A `SCAN` is answered for the ids it began with. -/
def Follows (k : Listing) : Call → Prop
  | .scanned startIds => k = .scanning startIds
  | _ => True

/-- **A reading comes by every instance that is there all along.** -/
theorem Covers.after {σ i} {w w' : World} {c r} (h : Covers id k) (hc : k.Follows c) (hid : id ∈ w.instances)
    (hw : w.perform σ i c = some (w', r)) : Covers id (k.after c r) := by
  cases c with
  | scan =>
    rcases Input.reply_eq_some hw with ⟨-, rfl⟩ | ⟨-, rfl⟩
    · exact AList.mem_keys.mp hid
    · exact h
  | scanned startIds =>
    obtain rfl : k = .scanning startIds := hc
    obtain ⟨⟨hall, -⟩, hw⟩ := Option.ite_none_right_eq_some.mp hw
    rcases Input.reply_eq_some hw with ⟨-, rfl⟩ | ⟨-, rfl⟩
    · exact .inl (hall id h hid)
    · exact h
  | getInstance id' =>
    match r with
    | .ok record => exact h.read id' record
    | .error _ => exact h
  | _ => cases r <;> exact h

theorem mem_seen_after {σ i} {w w' : World} {c r} (hw : w.perform σ i c = some (w', r)) (hx : x ∈ (k.after c r).seen) :
    x ∈ k.seen ∨ x.2 = w.instances.lookup x.1 := by
  cases c with
  | scan =>
    rcases Input.reply_eq_some hw with ⟨-, rfl⟩ | ⟨-, rfl⟩
    · exact absurd hx List.not_mem_nil
    · exact .inl hx
  | scanned =>
    match r with
    | .error _ => exact .inl hx
  | getInstance =>
    rcases Input.reply_eq_some hw with ⟨-, rfl⟩ | ⟨-, rfl⟩
    · rcases mem_seen_read hx with hx | rfl
      · exact .inl hx
      · exact .inr rfl
    · exact .inl hx
  | _ => cases r <;> exact .inl hx

end Listing

/-! ## Contracts that watch a reading -/

/-- What a program in state `M` may call, by how far its reading is. -/
structure Watched (M : Type) where
  allowed : Listing → M → Call → Prop
  expected : Listing → M → (c : Call) → Except Failure (Reply c) → Prop
  next : Listing → M → (c : Call) → Except Failure (Reply c) → M

namespace Watched

variable {M : Type}

def contract (P : Watched M) : Contract Call Reply Failure (Listing × M) where
  allowed l c := l.1.Follows c ∧ P.allowed l.1 l.2 c
  expected l c r := P.expected l.1 l.2 c r
  next l c r := (l.1.after c r, P.next l.1 l.2 c r)

/-- In the states `J` the instances may be read, which stays within them. -/
structure Reads (P : Watched M) (J : M → Prop) : Prop where
  scan : ∀ k m, J m → P.allowed k m .scan ∧ ∀ r, J (P.next k m .scan r)
  scanned : ∀ k m ids, J m → P.allowed k m (.scanned ids) ∧ ∀ r, J (P.next k m (.scanned ids) r)
  get : ∀ k m id, J m → P.allowed k m (.getInstance id) ∧ ∀ r, J (P.next k m (.getInstance id) r)

def MayFail (P : Watched M) (J : M → Prop) : Prop :=
  ∃ k m e, J m ∧ (P.expected k m .scan (.error e) ∨
    (∃ ids, P.expected k m (.scanned ids) (.error e)) ∨
    ∃ id, P.expected k m (.getInstance id) (.error e))

def HasRead (P : Watched M) (J : M → Prop) (l : Listing × M) :
    Except Failure (List InstanceState) → Prop
  | .ok instances => ∃ seen m, l = (.reading [] seen, m) ∧ J m ∧
      instances = Listing.records seen
  | .error _ => J l.2 ∧ P.MayFail J

variable {P : Watched M} {J : M → Prop}

theorem obeys_readInstances (h : P.Reads J) :
    ∀ (left : List String) (seen : List (String × Option InstanceState)) (m : M), J m →
      Obeys P.contract (fun l r => match r with
        | .ok instances => ∃ more m, l = (.reading [] (seen ++ more), m) ∧ J m ∧
            instances = Listing.records more
        | .error _ => J l.2 ∧ P.MayFail J) (readInstances left) (.reading left seen, m)
  | [], seen, m, hm => ⟨[], m, by rw [List.append_nil], hm, rfl⟩
  | id :: left, seen, m, hm => by
    refine obeys_bind.mpr ⟨⟨trivial, (h.get _ m id hm).1⟩, fun r hr => ?_⟩
    match r with
    | .error e => exact ⟨(h.get _ m id hm).2 _, _, m, e, hm, .inr (.inr ⟨id, hr⟩)⟩
    | .ok record =>
      have hnext : (Listing.reading (id :: left) seen).after (.getInstance id) (.ok record) =
          .reading left (seen ++ [(id, record)]) := by
        simp [Listing.after, Listing.read]
      change Obeys P.contract _ _ (Listing.after _ _ _, _)
      rw [hnext]
      refine obeys_bind.mpr ((obeys_readInstances h left (seen ++ [(id, record)]) _
        ((h.get _ m id hm).2 _)).mono ?_)
      rintro l (e | records) hl
      · exact hl
      · obtain ⟨more, m, rfl, hm, rfl⟩ := hl
        refine ⟨(id, record) :: more, m, by rw [List.append_assoc]; rfl, hm, ?_⟩
        cases record with
        | none | some record => rfl

/-- **A reading of the instances.** -/
theorem obeys_getInstancesForModel (h : P.Reads J) (k : Listing) {m} (hm : J m) :
    Obeys P.contract (P.HasRead J) getInstancesForModel (k, m) := by
  refine obeys_bind.mpr ⟨⟨trivial, (h.scan k m hm).1⟩, fun r hr => ?_⟩
  match r with
  | .error e => exact ⟨(h.scan k m hm).2 _, k, m, e, hm, .inl hr⟩
  | .ok startIds =>
    have hm := (h.scan k m hm).2 (.ok startIds)
    refine obeys_bind.mpr ⟨⟨rfl, (h.scanned _ _ startIds hm).1⟩, fun r hr => ?_⟩
    match r with
    | .error e =>
      exact ⟨(h.scanned _ _ startIds hm).2 _, _, _, e, hm, .inr (.inl ⟨startIds, hr⟩)⟩
    | .ok keys =>
      refine (obeys_readInstances h keys [] _ ((h.scanned _ _ startIds hm).2 _)).mono ?_
      rintro l (e | _) hl
      · exact hl
      · exact hl

/-- **A refresh** writes what it decides from a complete reading. -/
theorem obeys_refresh (h : P.Reads J) (k : Listing) {m} (hm : J m)
    {Q : Listing × M → Except Failure Unit → Prop}
    (hset : ∀ seen m state protocol, J m →
      refreshDecision (Listing.records seen) = some (state, protocol) →
      Obeys P.contract Q (await (.setModelState state protocol)) (.reading [] seen, m))
    (hremove : ∀ seen m, J m → refreshDecision (Listing.records seen) = none →
      Obeys P.contract Q (await .removeModel) (.reading [] seen, m))
    (herr : ∀ k m e, J m → P.MayFail J → Q (k, m) (.error e)) :
    Obeys P.contract Q refreshModelRoutingState (k, m) := by
  refine obeys_bind.mpr ((obeys_getInstancesForModel h k hm).mono ?_)
  rintro ⟨k, m⟩ (e | _) hl
  · exact herr k m e hl.1 hl.2
  · obtain ⟨seen, _, hl, hm, rfl⟩ := hl
    grind

end Watched

end Sardeenz
