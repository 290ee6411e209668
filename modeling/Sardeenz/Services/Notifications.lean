/-
# `Sardeenz.Services.Notifications` — the list of notifications under concurrent callers

`NotificationService` (`notification.ts`) keeps the notifications in one Redis list, the newest
first.  Marking and removing read the whole list and then write:

    markAsRead, markAllAsRead     LSET at the index the notification was read at
    removeNotification            LREM of the text that was read

A notification that is created in between moves all others by one, and the `LSET` then
overwrites another one than it names.

**Proved here.**  When the list is what has been created and not removed
(`notifications_kept`), and one that is lost (`mark_overwrites_notification`).
-/
import Mathlib.Data.List.Nodup
import Sardeenz.Pool

namespace Sardeenz.Notifications

open Interleave List

variable {α : Type}

/-- A stored notification; `content` is all that never changes. -/
structure Notification (α : Type) where
  id : Nat
  content : α
  isRead : Bool := false
deriving DecidableEq

variable (n : Notification α)

def Notification.key : Nat × α := (n.id, n.content)

/-- The list, and what callers have done: the notifications they have created, and the ids
they have named in a removal or a mark that was performed. -/
structure Store (α : Type) where
  list : List (Notification α) := []
  created : List (Nat × α) := []
  removed : List Nat := []
  marked : List Nat := []

inductive Call where
  | markAsRead (id : Nat)
  | markAllAsRead
  | removeNotification (id : Nat)

/-- The id by which a call names a notification of the list. -/
def Call.names : Call → Nat
  | .markAsRead id | .removeNotification id => id
  | .markAllAsRead => n.id

inductive Stage (α : Type) where
  | called
  | marking (todo : List (Notification α × Nat))
  | removing (raw : Notification α)
  | returned

structure Task (α : Type) where
  call : Call
  stage : Stage α := .called

/-- `createNotification`: `LPUSH` of a notification with an id of its own, and `LTRIM`. -/
def create (n : Nat × α) (w : Store α) : Option (Store α) :=
  if n.1 ∈ w.created.map (·.1) then none
  else some { w with
    list := (({ id := n.1, content := n.2 } : Notification α) :: w.list).take 200
    created := n :: w.created }

variable [DecidableEq α]

/-- One command of a call. -/
def move (_ : Nat) (_ : Unit) (w : Store α) (k : Task α) : Option (Store α × Task α) :=
  match k.stage with
  | .called => some (w, { k with stage :=
      match k.call with
      | .markAsRead id => .marking (w.list.zipIdx.find? (·.1.id = id)).toList
      | .markAllAsRead => .marking w.list.zipIdx
      | .removeNotification id => (w.list.find? (·.id = id)).elim .returned .removing })
  | .marking ((n, i) :: todo) => some ({ w with
      list := w.list.set i { n with isRead := true }
      marked := k.call.names n :: w.marked }, { k with stage := .marking todo })
  | .removing raw => some ({ w with
      list := w.list.erase raw
      removed := if raw ∈ w.list then k.call.names raw :: w.removed else w.removed },
      { k with stage := .returned })
  | _ => none

def rules : Pool.Rules (Store α) (Task α) Call Unit (Nat × α) where
  enter call := { call }
  move := move
  around := create

/-- The list still has the notification where it is to be marked. -/
def Stage.inPlace (list : List (Notification α)) : Stage α → Bool
  | .marking ((n, i) :: _) => list[i]?.any (·.id = n.id)
  | _ => true

/-- Every mark finds its notification in its place, and the list is below its cap. -/
def undisturbed (s : Pool (Store α) (Task α)) : Pool.Event Call Unit (Nat × α) → Prop
  | .around _ => s.world.list.length < 200
  | .move n _ => ∀ k ∈ s.tasks[n]?, k.stage.inPlace s.world.list = true
  | _ => True

instance (s : Pool (Store α) (Task α)) (e : Pool.Event Call Unit (Nat × α)) :
    Decidable (undisturbed s e) := by
  unfold undisturbed
  split <;> infer_instance

/-- What a caller has read it has read of the list. -/
def Task.Sound (created : List (Nat × α)) (k : Task α) : Prop :=
  match k.stage with
  | .marking todo => ∀ p ∈ todo, p.1.key ∈ created ∧ k.call.names p.1 = p.1.id
  | .removing raw => raw.key ∈ created ∧ k.call.names raw = raw.id
  | _ => True

/-- The list has each notification that is not removed, once and with its own content. -/
structure Store.Inv (w : Store α) : Prop where
  own : ∀ n ∈ w.list, n.key ∈ w.created
  once : (w.list.map (·.id)).Nodup
  kept : ∀ c ∈ w.created, c.1 ∉ w.removed → ∃ n ∈ w.list, n.key = c
  marked : ∀ n ∈ w.list, n.isRead = true → n.id ∈ w.marked
  fresh : (w.created.map (·.1)).Nodup

variable {w w' : Store α} {k k' : Task α}

omit [DecidableEq α] in
theorem Store.Inv.create (hw : w.Inv) {c : Nat × α} (hlen : w.list.length < 200)
    (h : create c w = some w') : w'.Inv := by
  simp only [Notifications.create] at h
  split at h <;> cases h
  rename_i hfresh
  have hnew : c.1 ∉ w.list.map (·.id) := fun h => by
    obtain ⟨n, hn, hid⟩ := List.mem_map.mp h
    exact hfresh (hid ▸ List.mem_map_of_mem (hw.own n hn))
  rw [List.take_of_length_le (Nat.succ_le_of_lt hlen)]
  refine ⟨?_, List.nodup_cons.mpr ⟨hnew, hw.once⟩, ?_, ?_, List.nodup_cons.mpr ⟨hfresh, hw.fresh⟩⟩
  · exact List.forall_mem_cons.mpr ⟨List.mem_cons_self, fun n hn => .tail _ (hw.own n hn)⟩
  · refine List.forall_mem_cons.mpr ⟨fun _ => ⟨_, List.mem_cons_self, rfl⟩, fun c hc hr => ?_⟩
    obtain ⟨n, hn, hkey⟩ := hw.kept c hc hr
    exact ⟨n, .tail _ hn, hkey⟩
  · exact List.forall_mem_cons.mpr ⟨nofun, hw.marked⟩

omit [DecidableEq α] in
theorem Store.Inv.mark (hw : w.Inv) {n : Notification α} {i : Nat} (hn : n.key ∈ w.created)
    (hplace : w.list[i]?.any (·.id = n.id) = true) :
    ({ w with list := w.list.set i { n with isRead := true }, marked := n.id :: w.marked } :
      Store α).Inv := by
  obtain ⟨m, hm, hid⟩ : ∃ m, w.list[i]? = some m ∧ m.id = n.id := by
    cases h : w.list[i]? <;> simp_all
  -- An id belongs to one notification, so what is written over has the same content.
  have hkey : m.key = n.key :=
    List.inj_on_of_nodup_map hw.fresh (hw.own m (List.mem_of_getElem? hm)) hn hid
  have hids : (w.list.set i { n with isRead := true }).map (·.id) = w.list.map (·.id) := by
    refine List.ext_getElem? fun j => ?_
    grind
  refine ⟨fun a ha => ?_, hids ▸ hw.once, fun c hc hr => ?_, fun a ha hread => ?_, hw.fresh⟩
  · rcases List.mem_or_eq_of_mem_set ha with ha | rfl
    · exact hw.own a ha
    · exact hn
  · obtain ⟨a, ha, rfl⟩ := hw.kept c hc hr
    obtain ⟨j, hj⟩ := List.mem_iff_getElem?.mp ha
    by_cases hij : i = j
    · subst hij
      cases hm.symm.trans hj
      exact ⟨_, List.mem_set (List.getElem?_eq_some_iff.mp hm).1 _, hkey.symm⟩
    · exact ⟨a, List.mem_of_getElem? ((List.getElem?_set_ne hij).trans hj), rfl⟩
  · rcases List.mem_or_eq_of_mem_set ha with ha | rfl
    · exact List.mem_cons_of_mem _ (hw.marked a ha hread)
    · exact List.mem_cons_self

theorem Store.Inv.remove (hw : w.Inv) (raw : Notification α) : ({ w with
      list := w.list.erase raw
      removed := if raw ∈ w.list then raw.id :: w.removed else w.removed } : Store α).Inv := by
  refine ⟨fun n hn => hw.own n (mem_of_mem_erase hn),
    hw.once.sublist (erase_sublist.map _), fun c hc hr => ?_,
    fun n hn => hw.marked n (mem_of_mem_erase hn), hw.fresh⟩
  obtain ⟨n, hn, rfl⟩ := hw.kept c hc (by grind)
  refine ⟨n, (mem_erase_of_ne ?_).mpr hn, rfl⟩
  rintro rfl
  simp [hn, Notification.key] at hr

/-- One command: the store and the caller stay sound. -/
theorem Store.Inv.move (hw : w.Inv) (hk : k.Sound w.created)
    (hplace : k.stage.inPlace w.list = true) {n i}
    (h : rules.move n i w k = some (w', k')) :
    w'.Inv ∧ w'.created = w.created ∧ k'.Sound w.created := by
  obtain ⟨call, stage⟩ := k
  cases stage with
  | called =>
    cases h
    refine ⟨hw, rfl, ?_⟩
    cases call with
    | markAsRead id =>
      intro p hp
      have hfound := Option.mem_toList.mp hp
      have hmem := mem_of_find?_eq_some hfound
      refine ⟨hw.own _ (fst_mem_of_mem_zipIdx hmem), ?_⟩
      simpa [eq_comm, Call.names] using find?_some hfound
    | markAllAsRead => exact fun p hp => ⟨hw.own _ (fst_mem_of_mem_zipIdx hp), rfl⟩
    | removeNotification id =>
      cases hfound : w.list.find? (·.id = id) with
      | none => simp [Task.Sound, hfound]
      | some raw =>
        simp only [hfound]
        refine ⟨hw.own _ (mem_of_find?_eq_some hfound), ?_⟩
        simpa [eq_comm, Call.names] using find?_some hfound
  | marking todo =>
    cases todo with
    | nil => cases h
    | cons p todo =>
      cases h
      obtain ⟨hp, htodo⟩ := forall_mem_cons.mp hk
      exact ⟨hp.2 ▸ hw.mark hp.1 hplace, rfl, htodo⟩
  | removing raw =>
    cases h
    exact ⟨hk.2 ▸ hw.remove raw, rfl, trivial⟩
  | returned => cases h

/-- **No notification is lost or changed**: in every run in which the list stays below its cap
and each mark finds its notification in its place, every notification that was created and
not removed is in the list once, with its own content, and is read only if a mark named it. -/
theorem notifications_kept {s : Pool (Store α) (Task α)}
    (hr : Reach (Pool.step rules) undisturbed ⟨{}, []⟩ s) : s.world.Inv := by
  refine (Pool.reach_inv (P := fun s => s.world.Inv ∧ ∀ k ∈ s.tasks, k.Sound s.world.created)
    ⟨⟨nofun, .nil, nofun, nofun, .nil⟩, nofun⟩ ?_ ?_ ?_ hr).1
  · intro s call hs _
    refine ⟨hs.1, fun k hk => ?_⟩
    rcases mem_append.mp hk with hk | hk
    · exact hs.2 k hk
    · rw [mem_singleton.mp hk]
      trivial
  · intro s n i k w _ hs hok hk hmove
    obtain ⟨hw, hcreated, hk'⟩ := hs.1.move (hs.2 k (mem_of_getElem? hk)) (hok k hk) hmove
    refine ⟨hw, fun j hj => ?_⟩
    rcases mem_or_eq_of_mem_set hj with hj | rfl
    · exact hcreated ▸ hs.2 j hj
    · exact hcreated ▸ hk'
  · intro s c w hs hok hc
    refine ⟨hs.1.create hok hc, fun k hk => ?_⟩
    have hsound := hs.2 k hk
    simp only [rules, Notifications.create] at hc
    split at hc <;> cases hc
    obtain ⟨call, stage⟩ := k
    cases stage with
    | called | returned => trivial
    | marking => exact fun p hp => ⟨.tail _ (hsound p hp).1, (hsound p hp).2⟩
    | removing => exact ⟨.tail _ hsound.1, hsound.2⟩

/-- Two notifications are created, one is marked and the other removed. -/
def markAndRemove : List (Pool.Event Call Unit (Nat × Nat)) :=
  [.around (1, 10), .around (2, 20), .arrive (.markAsRead 1), .move 0 (), .move 0 (),
    .arrive (.removeNotification 2), .move 1 (), .move 1 ()]

theorem kept_markAndRemove :
    ((exec (guarded (Pool.step rules) undisturbed) ⟨{}, []⟩ markAndRemove).get
      (by decide)).world.Inv :=
  notifications_kept (reach_get (by decide))

/-- A notification that is created between the two commands of a mark is overwritten: it is
lost, and the one that was marked is in the list twice. -/
theorem mark_overwrites_notification :
    (exec (Pool.step rules) ⟨{}, []⟩ [.around (1, 10), .arrive (.markAsRead 1), .move 0 (),
      .around (2, 20), .move 0 ()]).map (fun s => (s.world.list, s.world.created, s.world.removed)) =
      some ([⟨1, 10, true⟩, ⟨1, 10, false⟩], [(2, 20), (1, 10)], []) := by
  decide

end Sardeenz.Notifications
