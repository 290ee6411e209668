/-
# `Sardeenz.Routes.Sleep` — a sleep request that fails

`POST /api/v1/models/:modelName/sleep` takes the instances of the model from
`ACTIVE` to `DRAINING` one after the other, "atomically … for every active
instance", and refreshes the routing state; only then does it answer 202.  If one
of these calls fails it answers with the error, and what it has drained by then
stays `DRAINING`: there is no way back to `ACTIVE`.

The request runs alone here.  Instances may still change by themselves, so that a
transition finds another state than the one that was read; what they would be
without the request is kept along with what they are.

**Proved here.**  When a request that answers with an error leaves every instance as it
would be without it (`failed_sleep_restores_iff`).
-/
import Sardeenz.Routes.Stores

namespace Sardeenz

open Interleave Handling Handler RouteWorld

/-! ## A request alone -/

/-- What comes from outside when a call is performed. -/
structure SleepInput extends RouteInput where
  meanwhile : Option (String × ModelLifecycleState) := none

/-- The stores, and what has been made of them. -/
structure SleepRun where
  world : RouteWorld
  untouched : String → Option ModelLifecycleState
  drained : Finset String := ∅
  late : Bool := false

namespace SleepRun

variable (w : RouteWorld)

def start : SleepRun where
  world := w
  untouched := stateOf w.records

/-- An instance goes to another state by itself; nobody else touches one that the
request has drained. -/
def elapse (s : SleepRun) : Option (String × ModelLifecycleState) → SleepRun
  | none => s
  | some (id, state) =>
    match s.world.records.lookup id with
    | none => s
    | some record =>
      if id ∈ s.drained then s
      else
        { s with
          world := s.world.setRecord id { record with state }
          untouched := Function.update s.untouched id (some state) }

def drainedAfter (s : SleepRun) (w : RouteWorld) : RouteCall → Finset String
  | .service _ (.transition id _ _) =>
    if stateOf w.records id = stateOf s.world.records id then s.drained
    else insert id s.drained
  | _ => s.drained

def note (s : SleepRun) (c : RouteCall) (w : RouteWorld) (failed : Bool) : SleepRun :=
  { s with
    world := w
    drained := s.drainedAfter w c
    late := s.late || (failed && decide (s.drainedAfter w c).Nonempty) }

def perform (modelName : String) (i : SleepInput) (s : SleepRun) (c : RouteCall) :
    Option (SleepRun × Except Failure (RouteReply c)) :=
  let s := s.elapse i.meanwhile
  (s.world.perform modelName i.toRouteInput c).map fun x => (s.note c x.1 (!x.2.isOk), x.2)

/-! ## The invariant -/

/-- What is drained is `DRAINING` and would not be; everything else is as it would be. -/
structure Inv (s : SleepRun) : Prop where
  kept : ∀ id, id ∉ s.drained → stateOf s.world.records id = s.untouched id
  draining : ∀ id ∈ s.drained, stateOf s.world.records id = some .draining ∧
    s.untouched id ≠ some .draining
  late : s.late = true → s.drained.Nonempty

variable {s s' : SleepRun} {modelName : String}

theorem Inv.start : (SleepRun.start w).Inv where
  kept _ _ := rfl
  draining id h := absurd h (Finset.notMem_empty id)
  late h := by cases h

theorem stateOf_setRecord_self (id : String) (record : InstanceState) :
    stateOf (w.setRecord id record).records id = some record.state := by
  simp [stateOf, setRecord]

theorem stateOf_setRecord_ne {id id'} (h : id' ≠ id) (record : InstanceState) :
    stateOf (w.setRecord id record).records id' = stateOf w.records id' := by
  simp [stateOf, setRecord, AList.lookup_insert_ne h]

theorem elapse_same (s : SleepRun) (meanwhile : Option (String × ModelLifecycleState)) :
    (s.elapse meanwhile).drained = s.drained ∧ (s.elapse meanwhile).late = s.late := by
  unfold elapse
  grind

theorem Inv.elapse (hs : s.Inv) (meanwhile : Option (String × ModelLifecycleState)) :
    (s.elapse meanwhile).Inv := by
  unfold SleepRun.elapse
  split
  · exact hs
  · rename_i id state
    split
    · exact hs
    · rename_i record _
      split
      · exact hs
      · rename_i hid
        refine ⟨fun id' hid' => ?_, fun id' hid' => ?_, hs.late⟩
        · grind [stateOf_setRecord_self, stateOf_setRecord_ne, hs.kept]
        · grind [stateOf_setRecord_ne, hs.draining]

def KeepsRecords (c : RouteCall) : Prop := c.writesRecord = false

/-- The calls of a sleep request: it writes no record but by a transition to
`DRAINING`. -/
def OfSleep (modelName : String) (c : RouteCall) : Prop :=
  KeepsRecords c ∨ ∃ id, c = .service modelName (.transition id .draining {})

theorem Inv.note_of_records {c w} (hs : s.Inv) (b : Bool)
    (hdrained : s.drainedAfter w c = s.drained) (hw : w.records = s.world.records) :
    (s.note c w b).Inv := by
  refine ⟨fun id hid => ?_, fun id hid => ?_, fun _ => ?_⟩
  · grind [note, hs.kept]
  · grind [note, hs.draining]
  · grind [note, hs.late]

theorem transition_cases {i} {w w' : RouteWorld} {id}
    {r : Except Failure InstanceState}
    (h : w.service modelName i (.transition id .draining {}) = some (w', r)) :
    w' = w ∨ ∃ record, w' = w.setRecord id record ∧ record.state = .draining ∧
      stateOf w.records id ≠ some .draining := by
  simp only [service] at h
  split at h
  · rename_i record htransition
    obtain ⟨_, hbefore, hvalid, rfl⟩ := transition_eq_ok.mp htransition
    have hne : stateOf w.records id ≠ some .draining := by
      simp only [stateOf, hbefore, Option.map_some]
      intro h
      rw [Option.some.inj h] at hvalid
      cases hvalid
    grind [reply_eq_some, transitioned_state]
  · grind [reply_eq_some]

theorem Inv.note_drained {id record} (hs : s.Inv) (b : Bool)
    (hrecord : record.state = .draining) (hne : stateOf s.world.records id ≠ some .draining) :
    (s.note (.service modelName (.transition id .draining {}))
      (s.world.setRecord id record) b).Inv := by
  have hchanged : s.drainedAfter (s.world.setRecord id record)
      (.service modelName (.transition id .draining {})) = insert id s.drained := by
    refine if_neg fun h => hne ?_
    rw [← h, stateOf_setRecord_self, hrecord]
  refine ⟨fun id' hid' => ?_, fun id' hid' => ?_, fun _ => ?_⟩
  · grind [note, stateOf_setRecord_ne, hs.kept]
  · grind [note, stateOf_setRecord_self, hs.kept, stateOf_setRecord_ne, hs.draining]
  · simp_all [note]

/-- **One call** of the request: the invariant is kept, and a failure is noted. -/
theorem Inv.perform {i c r}
    (hs : s.Inv) (hc : OfSleep modelName c) (h : s.perform modelName i c = some (s', r)) :
    s'.Inv ∧ (∀ err, r = .error err → s'.drained.Nonempty → s'.late = true) ∧
      (c.writesRecord = false → s'.drained = s.drained) ∧ (s.late = true → s'.late = true) := by
  obtain ⟨⟨w, _⟩, hw, hx⟩ := Option.map_eq_some_iff.mp h
  cases hx
  have he := hs.elapse i.meanwhile
  refine ⟨?_, ?_, ?_, ?_⟩
  · rcases hc with hc | ⟨_, rfl⟩
    · refine he.note_of_records _ ?_ (records_perform hc hw)
      unfold drainedAfter
      split
      · cases hc
      · rfl
    · simp only [RouteWorld.perform, RouteCall.model, Option.all_some] at hw
      rcases transition_cases hw with rfl | ⟨_, rfl, hrecord, hne⟩
      · exact he.note_of_records _ (if_pos rfl) rfl
      · exact he.note_drained _ hrecord hne
  · rintro err rfl hne
    simp only [note] at hne ⊢
    simp [hne, Except.toBool]
  · intro hc
    rw [← (elapse_same s i.meanwhile).1]
    simp only [note]
    unfold drainedAfter
    split
    · cases hc
    · rfl
  · intro hlate
    simp [note, elapse_same, hlate]

/-! ## The request -/

def Fresh (s : SleepRun) : Prop := s.Inv ∧ s.drained = ∅

/-- How the request ends: what has failed after an instance was drained has been
noted. -/
def Told {α : Type} (s : SleepRun) (r : Except Failure α) : Prop :=
  s.Inv ∧ ∀ err, r = .error err → s.drained.Nonempty → s.late = true

def anyInput (_ : SleepInput) : Prop := True

variable {α : Type}

theorem Fresh.told (hs : s.Fresh) (r : Except Failure α) : s.Told r := by
  refine ⟨hs.1, fun _ _ hne => ?_⟩
  rw [hs.2] at hne
  exact absurd hne Finset.not_nonempty_empty

theorem alone_checks {p : Handling α} (hp : Only KeepsRecords p) (hs : s.Fresh) :
    Alone (perform modelName) anyInput (fun s _ => s.Fresh) p s := by
  refine alone_of_only (fun i s c _ r hc _ hs h => ?_) hp hs
  obtain ⟨hinv, -, hdrained, -⟩ := hs.1.perform (.inl hc) h
  exact ⟨hinv, (hdrained hc).trans hs.2⟩

theorem straight_ofService {A} :
    ∀ {p : Service α}, Straight (fun c => A (.service modelName c)) p →
      Straight A (ofService modelName p)
  | .done _, hp => hp
  | .call _ k, hp => by
    refine ⟨hp.1, fun a => straight_ofService (hp.2.1 a), fun e => ?_⟩
    change ofService modelName (k (.error e)) = .done (.error e)
    rw [hp.2.2 e]
    rfl

variable {A : Call → Prop}

theorem straight_readInstances (hget : ∀ id, A (.getInstance id)) :
    ∀ ids, Straight A (readInstances ids)
  | [] => straight_pure _
  | id :: ids => (straight_perform (hget id)).bind fun _ =>
    (straight_readInstances hget ids).bind fun _ => straight_pure _

theorem straight_refresh (hA : ∀ c : Call, c.writesRecord = false → A c) :
    Straight A refreshModelRoutingState := by
  refine Straight.bind (fun instances => ?_) ?_
  · cases refreshDecision instances with
    | some d | none => exact straight_perform (hA _ rfl)
  · refine (straight_perform (hA .scan rfl)).bind fun startIds => ?_
    refine (straight_perform (hA (.scanned startIds) rfl)).bind fun keys => ?_
    exact straight_readInstances (fun id => hA (.getInstance id) rfl) keys

theorem only_getInstancesForModel (hA : ∀ c : Call, c.writesRecord = false → A c) :
    Only A getInstancesForModel := by
  refine only_then (hA .scan rfl) fun startIds => ?_
  refine only_then (hA (.scanned startIds) rfl) fun keys => ?_
  exact keeps_readInstances (fun id => only_call (hA (.getInstance id) rfl)) keys

variable (active : List InstanceState)

theorem straight_drainAll : Straight (OfSleep modelName) (drainAll modelName active) := by
  refine (Straight.each (fun i => ?_) active).bind fun _ => ?_
  · exact (straight_ofService (straight_perform (.inr ⟨i.instanceId, rfl⟩))).bind fun _ =>
      straight_pure _
  · exact straight_ofService (straight_refresh fun c hc => .inl hc)

theorem alone_drainAll (hs : s.Inv) :
    Alone (perform modelName) anyInput (fun s r => s.Told r) (drainAll modelName active) s := by
  refine alone_of_straight
    (fun i s c _ r hc _ hs h => ?_) (straight_drainAll active) hs
  obtain ⟨hinv, hnoted, -⟩ := hs.perform hc h
  exact ⟨hinv, hnoted⟩

theorem alone_claimed (hs : s.Fresh) : Alone (perform modelName) anyInput (fun s r => s.Told r) (do
        tryCatch (drainAll modelName active) fun err => do
          ask (.release modelName .sleep)
          throw err
        pure active) s := by
  refine Alone.bind (Q := fun s r => s.Told r) ?_ (fun s _ h => ⟨h.1, fun _ he => by cases he⟩)
    fun s err h => ⟨h.1, fun _ _ => h.2 err rfl⟩
  refine (alone_drainAll active hs.1).tryCatch (fun s a h => h) fun s err h => ?_
  intro i s' r _ hrelease
  have hkeeps : KeepsRecords (.release modelName .sleep) := rfl
  obtain ⟨hinv, _, hdrained, hlate⟩ := h.1.perform (.inl hkeeps) hrelease
  have htold : s'.drained.Nonempty → s'.late = true := fun hne =>
    hlate (h.2 err rfl (hdrained rfl ▸ hne))
  rcases r with _ | u
  all_goals exact ⟨hinv, fun _ _ => htold⟩

theorem alone_sleepRequest (config : RouteConfig) (hs : s.Fresh) :
    Alone (perform modelName) anyInput (fun s r => s.Told r) (sleepRequest config modelName) s := by
  have hmove : Only KeepsRecords (assertNoMove modelName "sleep") :=
    only_assertNoMove (A := KeepsRecords) rfl rfl _
  have hthrow : ∀ {α : Type} (s : SleepRun) (error : ControlPlaneError), s.Fresh →
      Alone (perform modelName) anyInput (fun s r => s.Told r)
        (throwControlPlane error : Handling α) s := fun s error hs => hs.told _
  refine (alone_checks (only_admission rfl) hs).bind (fun s _ hs => ?_) fun s err hs => hs.told _
  refine (alone_checks hmove hs).bind (fun s _ hs => ?_) fun s err hs => hs.told _
  refine (alone_checks (only_ofService (only_getInstancesForModel fun c hc => hc)) hs).bind
    (fun s _ hs => ?_) fun s err hs => hs.told _
  split
  · exact hthrow s _ hs
  dsimp only
  split
  · exact hthrow s _ hs
  split
  · exact hthrow s _ hs
  refine (alone_checks hmove hs).bind (fun s _ hs => ?_) fun s err hs => hs.told _
  have hclaim : KeepsRecords (.claim modelName .sleep) := rfl
  refine (alone_checks (only_perform hclaim) hs).bind (fun s refused hs => ?_)
    fun s err hs => hs.told _
  cases refused with
  | some => exact hthrow s _ hs
  | none => exact alone_claimed _ hs

end SleepRun

/-- **A failed sleep** leaves every instance in the state it would be in without
the request exactly if no call has failed after an instance was drained. -/
theorem failed_sleep_restores_iff (config : RouteConfig) (modelName : String) (w : RouteWorld) :
    Alone (SleepRun.perform modelName) SleepRun.anyInput (fun s r => ∀ err, r = .error err →
        ((∀ id, stateOf s.world.records id = s.untouched id) ↔ s.late = false))
      (sleepRequest config modelName) (SleepRun.start w) := by
  have hfresh : (SleepRun.start w).Fresh := ⟨.start w, rfl⟩
  refine (SleepRun.alone_sleepRequest config hfresh).mono fun s r hs err hr => ?_
  obtain ⟨hinv, htold⟩ := hs
  constructor
  · intro hall
    -- a drained instance would tell
    by_contra hlate
    obtain ⟨id, hid⟩ := hinv.late (by simpa using hlate)
    exact (hinv.draining id hid).2 ((hall id).symm.trans (hinv.draining id hid).1)
  · intro hlate id
    refine hinv.kept id fun hid => ?_
    rw [htold err hr ⟨id, hid⟩] at hlate
    cases hlate

/-! ### Two instances -/

namespace SleepRun

def serving (id : String) : InstanceState :=
  { newInstance "m" id (some "w") none 0 with
    state := .active, runnerHost := some "host", runnerPort := some 1 }

def twoServing : RouteWorld where
  records := (AList.insert "a" (serving "a") ∅).insert "b" (serving "b")

/-- The checks pass, the claim is taken, the first transition succeeds, the second
one fails; the claim is released. -/
def secondFails : List SleepInput :=
  List.replicate 4 { answer := RouteInput.undisturbed } ++
    [{ answer := RouteInput.undisturbed, keys := ["a", "b"] }] ++
    List.replicate 6 { answer := RouteInput.undisturbed } ++
    [{ answer := RouteInput.undisturbed, outcome := .failed }, { answer := RouteInput.undisturbed }]

end SleepRun

theorem failed_sleep_leaves_draining :
    ∃ s, (sleepRequest RouteConfig.permissive "m").feed (SleepRun.perform "m") SleepRun.secondFails
        (SleepRun.start SleepRun.twoServing) = some (s, .error (.other "connection lost")) ∧
      s.untouched "a" = some .active ∧ stateOf s.world.records "a" = some .draining :=
  ⟨_, rfl, rfl, rfl⟩

end Sardeenz
