/-
# `Sardeenz.Routes.Update` — launches and updates of the configuration

`PUT /api/v1/models/:modelName` writes the row of a stopped model, under a claim
that refuses launches, and is refused by the claim of a launch.  But a launch reads
the row before it adds its claim, and looks at the claim of the update only when it
begins to launch; a deployment adds no claim at all.  So an update may come in
between, answer, and release its claim, and the runner is dispatched with the record
from before.

    idle       the launch has read nothing
    holding    it has read, or inserted, the record
    spent      the runner has been dispatched, or an error answered
    updating   an update

The writes of the row by updates are counted.  A dispatch is noted with the record,
with what the launch has read after how many writes, and with the last write whose
update has answered.

**Proved here.**  When every runner is dispatched with a record read after all answered
updates (`dispatched_after_updates`).
-/
import Mathlib.Data.Fintype.Basic
import Sardeenz.Routes.Start

namespace Sardeenz

open Interleave Handling Function RouteWorld Obeys

/-! ## Where a request is -/

/-- Where a request is. -/
inductive LaunchPlace where
  | idle
  | holding (record : ModelRecord)
  | spent
  | updating
deriving DecidableEq

def RouteCall.updates : RouteCall → Bool
  | .updateModel _ => true
  | _ => false

namespace LaunchPlace

variable (l : LaunchPlace)

def hold (record : ModelRecord) : LaunchPlace :=
  match l with
  | idle => holding record
  | _ => l

def isHolding : LaunchPlace → Bool
  | holding _ => true
  | _ => false

def fail : LaunchPlace :=
  match l with
  | holding _ => spent
  | _ => l

theorem fail_ne_holding (record : ModelRecord) : l.fail ≠ holding record := by
  intro h
  cases l with
  | holding record' | idle | spent | updating => cases h

def after : (c : RouteCall) → Except Failure (RouteReply c) → LaunchPlace
  | .findByName _, r =>
    match r with
    | .ok (some record) => l.hold record
    | _ => l
  | .createModel record, r =>
    match r with
    | .ok _ => l.hold record
    | .error _ => l
  | .launch _ _ (.service .sendStart), r =>
    match r with
    | .ok true => spent
    | _ => l
  | .answer (.error _), _ => l.fail
  | _, _ => l

/-- What a request calls where: a record is read or inserted once, and the runner is
dispatched with it. -/
def Allows (modelName : String) (l : LaunchPlace) : RouteCall → Prop
  | .findByName n => n = modelName ∧ (l = idle ∨ l = updating)
  | .createModel record => record.name = modelName ∧ l = idle
  | .updateModel _ => l = updating
  | .launch record _ (.service .sendStart) => l = holding record
  | _ => True

def contract (modelName : String) : Contract RouteCall RouteReply Failure LaunchPlace where
  allowed := Allows modelName
  expected _ _ _ := True
  next := after

end LaunchPlace

/-! ## The system -/

/-- The requests: updates, and those that launch an instance. -/
inductive LaunchRequest where
  | update (body : ModelBody)
  | start
  | addInstance
  | deploy (body : ModelBody)

def LaunchRequest.request : LaunchRequest → Request
  | update body => .update body
  | start => .start
  | addInstance => .addInstance
  | deploy body => .deploy body

def LaunchRequest.place : LaunchRequest → LaunchPlace
  | update _ => .updating
  | start | addInstance | deploy _ => .idle

/-- A runner is dispatched. -/
structure Dispatch where
  record : ModelRecord
  read : Option (ModelRecord × Nat)
  answered : Nat

/-- The stores, and what has been written, read, answered and dispatched. -/
structure UpdateWorld (T : Type) where
  stores : RouteWorld
  writes : Nat := 0
  wrote : T → Nat := fun _ => 0
  read : T → Option (ModelRecord × Nat) := fun _ => none
  answered : Nat := 0
  dispatched : List Dispatch := []

abbrev UpdateSystem (T : Type) :=
  Threads RouteCall RouteReply Failure LaunchPlace (UpdateWorld T) T

section
variable {T : Type} [DecidableEq T]

namespace UpdateWorld

variable (w : UpdateWorld T) (t : T)

def finds : UpdateWorld T :=
  { w with read := Function.update w.read t (w.stores.row.map (·, w.writes)) }

def note : (c : RouteCall) → Except Failure (RouteReply c) → UpdateWorld T
  | .findByName _, r =>
    match r with
    | .ok (some _) => w.finds t
    | _ => w
  | .createModel _, r =>
    match r with
    | .ok _ => w.finds t
    | .error _ => w
  | .updateModel _, _ =>
    { w with writes := w.writes + 1, wrote := Function.update w.wrote t (w.writes + 1) }
  | .answer (.ok _), _ => { w with answered := max w.answered (w.wrote t) }
  | .launch record _ (.service .sendStart), r =>
    match r with
    | .ok true => { w with dispatched := ⟨record, w.read t, w.answered⟩ :: w.dispatched }
    | _ => w
  | _, _ => w

end UpdateWorld

def UpdateWorld.perform (modelName : String) (t : T) (i : RouteInput) (w : UpdateWorld T)
    (c : RouteCall) : Option (UpdateWorld T × Except Failure (RouteReply c)) :=
  (w.stores.perform modelName i c).map fun x => ({ w with stores := x.1 }.note t c x.2, x.2)

namespace UpdateSystem

def start (config : RouteConfig) (modelName : String) (stores : RouteWorld)
    (requests : T → LaunchRequest) : UpdateSystem T where
  world := { stores }
  prog t := serve ((requests t).request.handler config modelName)
  loc t := (requests t).place

def step (modelName : String) (s : UpdateSystem T) (a : T × RouteInput) :
    Option (UpdateSystem T) :=
  Threads.step (LaunchPlace.contract modelName) (UpdateWorld.perform modelName) s a.1 a.2

def Holding (s : UpdateSystem T) (t : T) : Prop :=
  ¬ (s.prog t).Settled ∧ (s.loc t).isHolding = true
deriving Decidable

def writesApart (s : UpdateSystem T) (a : T × RouteInput) : Prop :=
  (s.prog a.1).awaited.any RouteCall.updates = true → ∀ t, ¬ Holding s t

instance [Fintype T] (s : UpdateSystem T) (a : T × RouteInput) : Decidable (writesApart s a) :=
  inferInstanceAs (Decidable (_ → _))

end UpdateSystem

end

/-! ## The invariant -/

namespace UpdateSystem

section
variable {T : Type} {modelName : String}

open LaunchPlace

/-- The invariant: a launch holds what is in the table, and every dispatch was of a
record read after the updates that had answered. -/
structure Inv (s : UpdateSystem T) : Prop where
  holds : ∀ t record, s.loc t = .holding record → ¬ (s.prog t).Settled →
    s.world.read t = some (record, s.world.writes)
  wrote : ∀ t, s.world.wrote t ≤ s.world.writes
  answered : s.world.answered ≤ s.world.writes
  justified : ∀ d ∈ s.world.dispatched, ∃ n, d.read = some (d.record, n) ∧ d.answered ≤ n

/-- What a call of request `t` leads to, from `s` to the world `w` and the place `l`. -/
structure Leads (s : UpdateSystem T) (t : T) (w : UpdateWorld T) (l : LaunchPlace) : Prop where
  holds : ∀ record, l = .holding record → w.read t = some (record, w.writes)
  others : ∀ t', t' ≠ t → w.read t' = s.world.read t'
  writes : w.writes = s.world.writes ∨ ∀ t', ¬ Holding s t'
  wrote : ∀ t', w.wrote t' ≤ w.writes
  answered : w.answered ≤ w.writes
  justified : ∀ d ∈ w.dispatched, ∃ n, d.read = some (d.record, n) ∧ d.answered ≤ n

section
variable {s : UpdateSystem T} {t : T} {w : UpdateWorld T} {l : LaunchPlace}

section
variable (hs : Inv s) (hmoves : ¬ (s.prog t).Settled) (stores : RouteWorld)
include hs hmoves stores

theorem Inv.leads (hl : ∀ record, l = .holding record → s.loc t = .holding record) :
    Leads s t { s.world with stores } l where
  holds record h := hs.holds t record (hl record h) hmoves
  others _ _ := rfl
  writes := .inl rfl
  wrote := hs.wrote
  answered := hs.answered
  justified := hs.justified

theorem Inv.leads_dispatch {record} (hl : s.loc t = .holding record) :
    Leads s t { s.world with
        stores
        dispatched := ⟨record, s.world.read t, s.world.answered⟩ :: s.world.dispatched }
      .spent where
  holds record h := by cases h
  others _ _ := rfl
  writes := .inl rfl
  wrote := hs.wrote
  answered := hs.answered
  justified d hd := by
    rcases List.mem_cons.mp hd with rfl | hd
    · exact ⟨s.world.writes, hs.holds t record hl hmoves, hs.answered⟩
    · exact hs.justified d hd

theorem Inv.leads_answer : Leads s t
      { s.world with stores, answered := max s.world.answered (s.world.wrote t) } (s.loc t) where
  holds record hl := hs.holds t record hl hmoves
  others _ _ := rfl
  writes := .inl rfl
  wrote := hs.wrote
  answered := max_le hs.answered (hs.wrote t)
  justified := hs.justified

end

variable [DecidableEq T]

theorem Inv.put (hs : Inv s) (h : Leads s t w l) (p : Handling Unit) : Inv (s.put w t p l) := by
  refine ⟨fun t' record hl hmoves => ?_, h.wrote, h.answered, h.justified⟩
  by_cases ht : t' = t
  · subst ht
    refine h.holds record ?_
    simpa [Threads.put] using hl
  · have hl' : s.loc t' = .holding record := by
      simpa [Threads.put, ht] using hl
    have hmoves' : ¬ (s.prog t').Settled := by
      simpa [Threads.put, ht] using hmoves
    change w.read t' = some (record, w.writes)
    rcases h.writes with hwrites | hnone
    · rw [h.others t' ht, hwrites]
      exact hs.holds t' record hl' hmoves'
    · exact absurd ⟨hmoves', by rw [hl']; rfl⟩ (hnone t')

theorem Inv.leads_finds (hs : Inv s) {stores record}
    (hrow : stores.row = some record) (hl : s.loc t = .idle ∨ s.loc t = .updating) :
    Leads s t ({ s.world with stores }.finds t) ((s.loc t).hold record) where
  holds record' h := by
    have hread : ({ s.world with stores }.finds t).read t = some (record, s.world.writes) := by
      simp [UpdateWorld.finds, hrow]
    rw [hread]
    rcases hl with hl | hl
    · rw [hl] at h
      cases h
      rfl
    · rw [hl] at h
      cases h
  others t' ht := update_of_ne ht _ _
  writes := .inl rfl
  wrote := hs.wrote
  answered := hs.answered
  justified := hs.justified

theorem Inv.leads_update (hs : Inv s) (stores : RouteWorld) (hl : s.loc t = .updating)
    (hnone : ∀ t', ¬ Holding s t') :
    Leads s t { s.world with
        stores
        writes := s.world.writes + 1
        wrote := update s.world.wrote t (s.world.writes + 1) } (s.loc t) where
  holds record h := by
    rw [hl] at h
    cases h
  others _ _ := rfl
  writes := .inr hnone
  wrote t' := by
    by_cases ht : t' = t
    · subst ht
      simp
    · have := hs.wrote t'
      simp only [update_of_ne ht]
      omega
  answered := Nat.le_succ_of_le hs.answered
  justified := hs.justified

theorem Inv.call {i c r}
    (hs : Inv s) (hmoves : ¬ (s.prog t).Settled)
    (hallowed : (contract modelName).allowed (s.loc t) c)
    (hapart : c.updates = true → ∀ t', ¬ Holding s t')
    (h : s.world.perform modelName t i c = some (w, r)) :
    Leads s t w ((contract modelName).next (s.loc t) c r) := by
  obtain ⟨⟨stores, reply⟩, hw, hx⟩ := Option.map_eq_some_iff.mp h
  cases hx
  have hsame : Leads s t { s.world with stores } (s.loc t) :=
    hs.leads hmoves stores fun _ hl => hl
  cases c with
  | findByName =>
    obtain ⟨rfl, hl⟩ := hallowed
    rw [perform_own rfl] at hw
    rcases reply with err | _ | record
    · exact hsame
    · exact hsame
    · refine hs.leads_finds ?_ hl
      rcases reply_eq_some hw with ⟨rfl, hreply⟩ | ⟨-, err, hreply⟩
      · exact (Except.ok.inj hreply).symm
      · cases hreply
  | createModel record =>
    obtain ⟨rfl, hl⟩ := hallowed
    rw [perform_own rfl] at hw
    cases reply with
    | error err => exact hsame
    | ok =>
      refine hs.leads_finds ?_ (.inl hl)
      grind [performOwn, reply_eq_some]
  | updateModel record => exact hs.leads_update stores hallowed (hapart rfl)
  | answer response =>
    cases response with
    | error err =>
      refine hs.leads hmoves stores fun record hl => ?_
      exact absurd hl (fail_ne_holding (s.loc t) record)
    | ok response => exact hs.leads_answer hmoves stores
  | launch record _ c =>
    cases c with
    | service c =>
      cases c with
      | sendStart =>
        rcases reply with err | _ | _
        · exact hsame
        · exact hsame
        · exact hs.leads_dispatch hmoves stores hallowed
      | _ => exact hsame
    | _ => exact hsame
  | _ => exact hsame

end

end

end UpdateSystem

/-! ## The handlers -/

namespace LaunchPlace

section
variable {modelName : String} {α : Type} {record : ModelRecord} {id : String}

open Handler

variable {c : RouteCall}

section
variable (hallowed : ∀ l : LaunchPlace, l.Allows modelName c)
  (hafter : ∀ (l : LaunchPlace) r, l.after c r = l)
include hallowed hafter

theorem still : Still (contract modelName) c :=
  fun l => ⟨hallowed l, hafter l⟩

theorem only_still : Only (Still (contract modelName)) (ask c) :=
  only_perform (still hallowed hafter)

end

theorem only_still_ofService (p : Service α) :
    Only (Still (contract modelName)) (ofService modelName p) :=
  only_ofService (only_true.mono fun c _ =>
    still (c := .service modelName c) (fun _ => trivial) fun _ _ => rfl)

theorem plainStill (record : ModelRecord) (id : String) :
    PlainStill (onLaunch (contract modelName) record id) := by
  intro c hc l
  cases c with
  | service c =>
    cases c with
    | sendStart => cases hc
    | _ => exact ⟨trivial, fun _ => rfl⟩
  | _ => exact ⟨trivial, fun _ => rfl⟩

theorem only_still_launch (record : ModelRecord) (id : String) (params : LaunchParams) :
    Only (Still (contract modelName)) (ofLaunch record id params.launch) := by
  refine only_ofLaunch (params.only_launch (fun c hc => ?_) (fun _ => ?_) ?_)
  · exact fun l => plainStill record id c hc l
  all_goals exact still (fun _ => trivial) fun _ _ => rfl

/-! ### Launches -/

def Ends (modelName : String) (l : LaunchPlace) (r : Except Failure Answer) : Prop :=
  Obeys (contract modelName) (fun _ _ => True) (serve (.done r)) l

theorem Ends.error (l : LaunchPlace) (err : Failure) : Ends modelName l (.error err) :=
  ⟨trivial, fun _ _ => trivial⟩

theorem Ends.ok {l} {background : Handling Unit} (response : RouteResponse)
    (h : Obeys (contract modelName) (fun _ _ => True) background l) :
    Ends modelName l (.ok (response, background)) :=
  still_bind (only_still (fun _ => trivial) fun _ _ => rfl) (fun _ => h) fun _ => trivial

variable (config : RouteConfig)

theorem obeys_background_task (requiredMemory : Nat) (protocol : Protocol)
    (task : LaunchParams.Background) :
    Obeys (contract modelName) (fun _ _ => True)
      (ofLaunch record id ((record.launchParams config id).background config.timeouts
        requiredMemory protocol task)).attempt (holding record) := by
  have hsend : MaySend (onLaunch (contract modelName) record id) (fun _ => True)
      (holding record) := by
    refine ⟨rfl, fun r hr => ?_, trivial, trivial⟩
    rcases r with e | _ | _
    · rfl
    · rfl
    · exact absurd rfl hr
  exact obeys_handle.mpr ((obeys_ofLaunch (obeys_background (plainStill record id) hsend
    (record.launchParams config id) config.timeouts requiredMemory protocol task)).mono
      fun _ _ _ => trivial)

theorem obeys_launchHeld (o : Routes.Operation) : Obeys (contract modelName)
      (fun l r => ∀ task background, r = .ok (task, background) →
        Obeys (contract modelName) (fun _ _ => True) background l)
      (launchHeld config modelName o record id) (holding record) := by
  have hrelease : Only (Still (contract modelName)) (ask (.release modelName o)) :=
    only_still (fun _ => trivial) fun _ _ => rfl
  refine still_bind (.tryCatch (only_still_launch record id _) fun err =>
    hrelease.bind fun _ => .throw err) (fun launched => ?_)
    (fun _ _ _ h => by cases h)
  rintro task background ⟨⟩
  refine obeys_bind.mpr ((obeys_background_task config launched.1 launched.2.1
    launched.2.2).mono ?_)
  grind [of_still]

theorem obeys_launched {config o}
    {f : LaunchParams.Background × Handling Unit → Handling Answer}
    (response : LaunchParams.Background → RouteResponse)
    (hf : ∀ task background, f (task, background) = pure (response task, background)) :
    Obeys (contract modelName) (Ends modelName)
      (launchHeld config modelName o record id >>= f) (holding record) := by
  refine obeys_bind.mpr ((obeys_launchHeld config o).mono ?_)
  rintro l (err | ⟨task, background⟩) hbackground
  · exact Ends.error l err
  · simp only [hf]
    exact Ends.ok _ (hbackground task background rfl)

theorem only_still_admission : Only (Still (contract modelName)) (admission config modelName) :=
  only_admission (still (fun _ => trivial) fun _ _ => rfl)

theorem only_still_assertNoMove (action : String) :
    Only (Still (contract modelName)) (assertNoMove modelName action) :=
  only_assertNoMove (still (fun _ => trivial) fun _ _ => rfl)
    (still (fun _ => trivial) fun _ _ => rfl) action

theorem obeys_addInstance :
    Obeys (contract modelName) (Ends modelName) (Handler.addInstance config modelName) idle := by
  refine still_bind (only_still_admission config) (fun _ => ?_) (Ends.error _)
  refine obeys_bind.mpr ⟨⟨rfl, .inl rfl⟩, fun r _ => ?_⟩
  rcases r with err | _ | _
  · exact Ends.error _ err
  · exact Ends.error _ _
  · refine still_bind (only_still_assertNoMove _) (fun _ => ?_) (Ends.error _)
    refine still_bind (only_still (fun _ => trivial) fun _ _ => rfl) (fun _ => ?_)
      (Ends.error _)
    refine still_bind (only_still (fun _ => trivial) fun _ _ => rfl) (fun _ => ?_)
      (Ends.error _)
    exact obeys_launched _ fun _ _ => rfl

theorem obeys_start :
    Obeys (contract modelName) (Ends modelName) (Handler.start config modelName) idle := by
  refine still_bind (only_still_admission config) (fun _ => ?_) (Ends.error _)
  have hturn : Still (contract modelName) .turn := still (fun _ => trivial) fun _ _ => rfl
  refine obeys_bind.mpr (obeys_bind.mpr (par_right hturn (only_still_ofService _)
    ⟨⟨rfl, .inl rfl⟩, fun read _ listed => ?_⟩))
  rcases listed with err | _
  · exact Ends.error _ err
  rcases read with err | _ | record
  · exact Ends.error _ err
  · exact Ends.error _ _
  · change Obeys (contract modelName) (Ends modelName) (ite _ _ _) (holding record)
    split
    · refine still_bind (only_still_assertNoMove _) (fun _ => ?_) (Ends.error _)
      refine still_bind (only_still (fun _ => trivial) fun _ _ => rfl) (fun instanceId => ?_)
        (Ends.error _)
      refine still_bind (only_still (fun _ => trivial) fun _ _ => rfl) (fun _ => ?_)
        (Ends.error _)
      exact obeys_launched (fun task =>
        { modelName, instanceId := some instanceId, state := some (launchState task).1
          previousState := some .stopped, message := some (launchState task).2 }) fun _ _ => rfl
    · exact Ends.error _ _

theorem obeys_deploy (body : ModelBody) :
    Obeys (contract modelName) (Ends modelName) (Handler.deploy config modelName body) idle := by
  refine still_bind (only_still_ofService _) (fun _ => ?_) (Ends.error _)
  split
  · split
    · exact Ends.error _ _
    · refine obeys_bind.mpr (obeys_tryCatch.mpr ⟨⟨rfl, rfl⟩, fun r _ => ?_⟩)
      cases r with
      | error err =>
        change Obeys (contract modelName) _ (ite _ _ _) idle
        split
        all_goals exact Ends.error _ _
      | ok =>
        refine still_bind (only_still (fun _ => trivial) fun _ _ => rfl)
          (fun _ => ?_) (Ends.error _)
        refine still_bind (.tryCatch (only_still_launch _ _ _) fun err => ?_)
          (fun _ => ?_) (Ends.error _)
        · exact .bind (.attempt (only_still (fun _ => trivial) fun _ _ => rfl)) fun _ => .throw err
        · exact Ends.ok _ (obeys_background_task config _ _ _)
  · exact Ends.error _ _

/-! ### Updates -/

theorem only_updating (hallowed : updating.Allows modelName c)
    (hafter : ∀ r, updating.after c r = updating) :
    Only (KeepsCall (contract modelName) (· = updating)) (ask c) := by
  refine (only_perform (?_))
  rintro _ rfl
  exact ⟨hallowed, fun r _ => hafter r⟩

theorem obeys_update (body : ModelBody) :
    Obeys (contract modelName) (Ends modelName) (Handler.update config modelName body)
      updating := by
  have hread : Keeps (contract modelName) (· = updating)
      (both (ask (.findByName modelName)) (ofService modelName getInstancesForModel)) := by
    refine keeps_of_only (only_both (fun _ h => ⟨trivial, fun _ _ => h⟩) ?_ ?_)
    · refine only_updating ⟨rfl, .inr rfl⟩ fun r => ?_
      rcases r with err | _ | record
      all_goals rfl
    · exact (only_still_ofService _).mono fun _ hc => hc.keepsCall _
  have hwrite : Keeps (contract modelName) (· = updating) (Program.andFinally
      (do
        if ← ask (.updateModel (body.record config modelName)) then pure ()
        else throwControlPlane (.modelNotFound modelName))
      (ask (.release modelName .update))) := by
    have hrelease : Only (KeepsCall (contract modelName) (· = updating))
        (ask (.release modelName .update)) := only_updating trivial fun _ => rfl
    refine .handle (keeps_of_only ?_) fun r => (keeps_of_only hrelease).bind fun _ => ?_
    · refine .bind (only_updating rfl fun _ => rfl) fun _ => ?_
      exact .ite (.pure _) (.throw _)
    · exact fun _ h => h
  refine still_bind (only_still_admission config) (fun _ => ?_) (Ends.error _)
  refine still_bind (only_still_assertNoMove _) (fun _ => ?_) (Ends.error _)
  refine hread.obeys_bind rfl ?_ fun l err _ => Ends.error l err
  rintro _ ⟨record, _⟩ rfl
  dsimp only
  split
  · exact Ends.error _ _
  split
  · split
    · refine still_bind (only_still (fun _ => trivial) fun _ _ => rfl) (fun claims => ?_)
        (Ends.error _)
      split
      all_goals exact Ends.error _ _
    · refine still_bind (only_still (fun _ => trivial) fun _ _ => rfl) (fun refused => ?_)
        (Ends.error _)
      cases refused with
      | some claims => exact Ends.error _ _
      | none =>
        refine hwrite.obeys_bind rfl (fun l _ _ => ?_) fun l err _ => Ends.error l err
        exact Ends.ok _ trivial
  · exact Ends.error _ _

theorem obeys_request (request : LaunchRequest) :
    Obeys (contract modelName) (fun _ _ => True) (serve (request.request.handler config modelName))
      request.place := by
  refine obeys_handle.mpr ?_
  cases request with
  | update body => exact obeys_update config body
  | start => exact obeys_start config
  | addInstance => exact obeys_addInstance config
  | deploy body => exact obeys_deploy config body

end

end LaunchPlace

/-! ## Runs -/

namespace UpdateSystem

section
variable {T : Type} {modelName : String}

open LaunchPlace

variable (config : RouteConfig)

theorem inv_start (modelName : String) (stores : RouteWorld) (requests : T → LaunchRequest) :
    (start config modelName stores requests).Obey (contract modelName) (fun _ _ _ => True) ∧
      Inv (start config modelName stores requests) := by
  refine ⟨fun t => obeys_request config (requests t), fun t record hl => ?_, fun _ => le_rfl,
    le_rfl, fun d hd => absurd hd List.not_mem_nil⟩
  have hplace : (requests t).place = .holding record := hl
  cases hrequest : requests t with
  | update body | start | addInstance | deploy body =>
    rw [hrequest] at hplace
    cases hplace

variable [DecidableEq T]

theorem inv_step {s s'} {a : T × RouteInput}
    (hs : s.Obey (contract modelName) (fun _ _ _ => True) ∧ Inv s) (hapart : writesApart s a)
    (h : step modelName s a = some s') :
    s'.Obey (contract modelName) (fun _ _ _ => True) ∧ Inv s' := by
  obtain ⟨hobey, hinv⟩ := hs
  refine Threads.step_obey hobey (fun c w r hmoves hallowed hprog hsem => ⟨trivial, fun p => ?_⟩) h
  obtain ⟨k, hprog⟩ := hprog
  refine hinv.put (hinv.call hmoves hallowed (fun hc => hapart ?_) hsem) p
  rw [hprog]
  exact hc

/-- **Runners are dispatched with the configuration that was answered**: in every run
of any number of updates, starts, deployments and added instances, in which an update
writes only while no launch holds a record, every runner is dispatched with a record
that the launch has read after all writes whose updates had answered. -/
theorem dispatched_after_updates (stores : RouteWorld)
    (requests : T → LaunchRequest) {s : UpdateSystem T}
    (hr : Reach (step modelName) writesApart (start config modelName stores requests) s) :
    ∀ d ∈ s.world.dispatched, ∃ n, d.read = some (d.record, n) ∧ d.answered ≤ n := by
  have hinv : s.Obey (contract modelName) (fun _ _ _ => True) ∧ Inv s :=
    hr.inductive_inv (I := fun s => s.Obey (contract modelName) (fun _ _ _ => True) ∧ Inv s)
      (inv_start config modelName stores requests) fun hs hok h => inv_step hs hok h
  exact hinv.2.justified

end

/-! ### An update and a start -/

def updateAndStart : Fin 2 → LaunchRequest
  | 0 => .start
  | 1 => .update
      { runnerType := "vllm", modelPath := "/weights/m", requiredMemory := 2
        tensorParallel := some 1, pinned := some false }

def answers : (c : RouteCall) → Except Failure (RouteReply c)
  | .service _ (.getWorker _) => .ok true
  | .service _ .bookkeeping => .ok ()
  | .service _ .sendStart => .ok true
  | c => StartSystem.answers "a" c

def calls (t : Fin 2) (keys : List String) (n : Nat) : List (Fin 2 × RouteInput) :=
  List.replicate n (t, { answer := answers, keys })

def inTurn : List (Fin 2 × RouteInput) :=
  calls right [] 11 ++ calls left [] 20 ++ calls left ["a"] 7

theorem dispatched_after_updates_inTurn : ∃ s : UpdateSystem (Fin 2), Reach (step "m") writesApart
        (start .permissive "m" { row := some StartSystem.stored } updateAndStart) s ∧
      s.world.dispatched.map (·.answered) = [1] ∧
      ∀ d ∈ s.world.dispatched, ∃ n, d.read = some (d.record, n) ∧ d.answered ≤ n := by
  have hsome : (exec (guarded (step "m") writesApart)
      (start .permissive "m" { row := some StartSystem.stored } updateAndStart) inTurn).isSome :=
    rfl
  exact ⟨_, reach_get hsome, rfl, dispatched_after_updates _ _ _ (reach_get hsome)⟩

/-- The start reads the record, the update runs from its beginning to its answer, and
the start goes on. -/
def updateBetween : List (Fin 2 × RouteInput) :=
  calls left [] 6 ++ calls right [] 11 ++ calls left [] 14 ++ calls left ["a"] 7

theorem stale_record_dispatched : ∃ s : UpdateSystem (Fin 2),
      exec (step "m") (start .permissive "m" { row := some StartSystem.stored } updateAndStart)
        updateBetween = some s ∧
      s.world.dispatched = [⟨StartSystem.stored, some (StartSystem.stored, 0), 1⟩] ∧
      s.world.stores.row.map (·.requiredMemory) = some (some 2) :=
  ⟨_, rfl, rfl, rfl⟩

end UpdateSystem

end Sardeenz
