/-
# `Sardeenz.Reconciliation.Orphans` — which instances are reaped for having no model

`reapOrphanedInstances` compares two stores that no transaction covers: the
instance records in Redis and the model rows in Postgres.  A deployment commits
the row before it creates the record, and takes the record back before the row;
the reaper reads the records before the rows, and looks for the row once more
before it reaps.

    deploy            row, record, …
    its rollback      … record, row
    reaper            SCAN, GET by GET, all rows; then for each record whose model
                      was not among them: the row again, runner, holds, endpoint, record

A `SCAN` is no snapshot: it may return keys that have come since, or have gone.
Here it returns anything.  Other requests create and delete rows and records, too,
in any order.  The id of an instance is never minted twice.

**Proved here.**  Whatever is reaped had no row at the last look for it
(`reaped_without_row`).
-/
import Sardeenz.Reconciliation.Cleanup
import Sardeenz.Routes.Launch

namespace Sardeenz

open Interleave List Function Reconciling

abbrev InstanceKey := String × String

def InstanceState.key (r : InstanceState) : InstanceKey := (r.modelName, r.instanceId)

/-! ## Calls -/

/-- What the reaper and the deployments await. -/
inductive OrphanCall where
  | scanKeys
  | getRecord (key : InstanceKey)
  | pass (c : ReconcileCall)
  | createModelRow (modelName : String)
  | deleteModelRow (modelName : String)
  | launch (key : InstanceKey) (c : LaunchCall)
deriving DecidableEq

/-- What a call answers when it does not fail; a key whose `GET` has failed is
skipped like one that has gone. -/
@[reducible] def OrphanReply : OrphanCall → Type
  | .scanKeys => List InstanceKey
  | .getRecord _ => Option InstanceState
  | .pass c => ReconcileReply c
  | .createModelRow _ | .deleteModelRow _ => Unit
  | .launch _ c => LaunchReply c

abbrev OrphanProgram (α : Type) := Program OrphanCall OrphanReply Failure α

namespace OrphanProgram

variable {α : Type}

abbrev ask (c : OrphanCall) : OrphanProgram (OrphanReply c) := Program.perform c

def ofPass : Reconciling α → OrphanProgram α
  | .done r => .done r
  | .call c k => .call (.pass c) fun r => ofPass (k r)

def ofLaunch (key : InstanceKey) : Launching α → OrphanProgram α
  | .done r => .done r
  | .call c k => .call (.launch key c) fun r => ofLaunch key (k r)

/-- The `GET`s of `getAllInstances`. -/
def readRecords : List InstanceKey → OrphanProgram (List InstanceState)
  | [] => pure []
  | key :: keys => do
    let record ← ask (.getRecord key)
    let records ← readRecords keys
    pure (record.toList ++ records)

def getAllInstances : OrphanProgram (List InstanceState) := do
  readRecords (← ask .scanKeys)

def reapOrphanedInstances : OrphanProgram Unit := do
  let allInstances ← getAllInstances
  let models ← ask (.pass .findModels)
  Program.each (fun r => (ofPass (Reconciling.reapOrphan r)).attempt)
    (allInstances.filter fun i => i.modelName ∉ models)

/-- `POST /api/v1/models`, from the row on, and what it leaves in the background. -/
def deploy (timeouts : Timeouts) (params : LaunchParams) : OrphanProgram Unit := do
  ask (.createModelRow params.name)
  let task ← tryCatch (ofLaunch (params.name, params.instanceId) params.launch) fun err => do
    (ask (.deleteModelRow params.name)).attempt
    throw err
  ofLaunch (params.name, params.instanceId) (params.background timeouts task.1 task.2.1 task.2.2)

end OrphanProgram

def ReconcileCall.CleansUp (r : InstanceState) : ReconcileCall → Prop
  | .stopRunner workerId runnerId => r.workerId = some workerId ∧ r.runnerId = some runnerId
  | .releaseInstanceReservations instanceId => instanceId = r.instanceId
  | .service modelName (.removeEndpoint host port) =>
    modelName = r.modelName ∧ r.endpointAddress = some (host, port)
  | .service modelName (.removeInstance instanceId) => (modelName, instanceId) = r.key
  | _ => False

def ReconcileCall.cleanup : ReconcileCall → Bool
  | .stopRunner _ _ | .releaseInstanceReservations _ | .service _ _ => true
  | _ => false

/-! ## The two stores -/

/-- What was true at the moment a reaper looked for a row: `past` are the records
that any instance had had until then, `unbroken` the instances whose model has had
its row since before they were created. -/
structure RowCheck where
  modelName : String
  found : Bool
  past : List InstanceState
  unbroken : Finset InstanceKey

/-- A step of a clean-up, and the last look for a row before it. -/
structure Reap where
  call : ReconcileCall
  check : Option RowCheck

/-- The step was taken for an instance that existed at the last look for its row;
there was none at that moment, and so there has not been one since before the
instance was created. -/
def Reap.Justified (reap : Reap) : Prop :=
  ∃ r check, reap.call.CleansUp r ∧ reap.check = some check ∧ check.modelName = r.modelName ∧
    check.found = false ∧ r ∈ check.past ∧ r.key ∉ check.unbroken

/-- Postgres and Redis.  `rows` and `instances` are the two stores; the rest is
bookkeeping of what has been. -/
structure OrphanWorld (T : Type) where
  rows : List String := []
  instances : AList (fun _ : InstanceKey => InstanceState) := ∅
  past : List InstanceState := []
  unbroken : Finset InstanceKey := ∅
  checks : T → Option RowCheck := fun _ => none
  reaped : List Reap := []

/-- What comes from outside when a call is performed. -/
structure OrphanInput where
  outcome : Outcome := .answered
  failure : Failure := .other "connection lost"
  now : Nat := 0
  unread : Bool := false
  /-- The answer to a call that neither reads nor changes the two stores, and the
  keys that a `SCAN` returns. -/
  answer : (c : OrphanCall) → Except Failure (OrphanReply c) := fun _ => .error failure

/-- What other requests do to the two stores. -/
inductive OrphanEvent where
  | commitRow (modelName : String)
  | deleteRow (modelName : String)
  | createInstance (r : InstanceState)
  | writeInstance (r : InstanceState)
  | removeInstance (key : InstanceKey)

namespace OrphanWorld

section
variable {T : Type} (w : OrphanWorld T)

def addRow (modelName : String) : OrphanWorld T := { w with rows := modelName :: w.rows }

def dropRow (modelName : String) : OrphanWorld T :=
  { w with
    rows := w.rows.filter (· ≠ modelName)
    unbroken := w.unbroken.filter fun key => key.1 ≠ modelName }

def setInstance (r : InstanceState) : OrphanWorld T :=
  { w with instances := w.instances.insert r.key r, past := r :: w.past }

def addInstance (r : InstanceState) : OrphanWorld T :=
  { w.setInstance r with
    unbroken := if r.modelName ∈ w.rows then insert r.key w.unbroken else w.unbroken }

variable (key : InstanceKey)

def dropInstance : OrphanWorld T :=
  { w with instances := w.instances.erase key }

def Fresh : Prop := key ∉ w.past.map (·.key)
deriving Decidable

variable (t : T)

def noteCheck [DecidableEq T] (modelName : String) : OrphanWorld T :=
  { w with
    checks := Function.update w.checks t (some
      { modelName, found := decide (modelName ∈ w.rows), past := w.past
        unbroken := w.unbroken }) }

def noteReap (call : ReconcileCall) : OrphanWorld T :=
  { w with reaped := ⟨call, w.checks t⟩ :: w.reaped }

def read {α : Type} (i : OrphanInput) (a : α) : Option (OrphanWorld T × Except Failure α) :=
  if i.outcome = .answered then some (w, .ok a) else some (w, .error i.failure)

/-- The end of a write that leads to `after`. -/
def written {α : Type} (i : OrphanInput) (after : OrphanWorld T) (a : α) :
    Option (OrphanWorld T × Except Failure α) :=
  match i.outcome with
  | .answered => some (after, .ok a)
  | .lost => some (after, .error i.failure)
  | .failed => some (w, .error i.failure)

def performPass [DecidableEq T] (i : OrphanInput) :
    (c : ReconcileCall) → Option (OrphanWorld T × Except Failure (ReconcileReply c))
  | .findModels => w.read i w.rows
  | .findModelByName modelName =>
    if i.outcome = .answered then
      some (w.noteCheck t modelName, .ok (decide (modelName ∈ w.rows)))
    else some (w, .error i.failure)
  | .service modelName (.removeInstance id) => w.written i (w.dropInstance (modelName, id)) ()
  | c => some (w, i.answer (.pass c))

def performLaunch (i : OrphanInput) :
    (c : LaunchCall) → Option (OrphanWorld T × Except Failure (LaunchReply c))
  | .createInstance protocol =>
    if w.Fresh key then
      w.written i (w.addInstance (newInstance key.1 key.2 none (some protocol) i.now)) ()
    else none
  | .service (.getInstance id) => w.read i (w.instances.lookup (key.1, id))
  | .service (.transition id target updates) =>
    match transition (w.instances.lookup (key.1, id)) key.1 id target updates i.now with
    | .ok record => w.written i (w.setInstance record) record
    | .error error => some (w, .error (.controlPlane error))
  | .service (.writeInstance id record) =>
    w.written i (w.setInstance { record with modelName := key.1, instanceId := id }) ()
  | .service (.removeInstance id) => w.written i (w.dropInstance (key.1, id)) ()
  | c => some (w, i.answer (.launch key c))

def perform [DecidableEq T] (i : OrphanInput) :
    (c : OrphanCall) → Option (OrphanWorld T × Except Failure (OrphanReply c))
  | .scanKeys => some (w, i.answer .scanKeys)
  | .getRecord key => w.read i (if i.unread then none else w.instances.lookup key)
  | .pass c => if c.cleanup then (w.noteReap t c).performPass t i c else w.performPass t i c
  | .createModelRow modelName =>
    if modelName ∈ w.rows then
      some (w, .error (.other "duplicate key value violates unique constraint"))
    else w.written i (w.addRow modelName) ()
  | .deleteModelRow modelName => w.written i (w.dropRow modelName) ()
  | .launch key c => w.performLaunch key i c

def apply : OrphanEvent → Option (OrphanWorld T)
  | .commitRow modelName => some (w.addRow modelName)
  | .deleteRow modelName => some (w.dropRow modelName)
  | .createInstance r => if w.Fresh r.key then some (w.addInstance r) else none
  | .writeInstance r => some (w.setInstance r)
  | .removeInstance key => some (w.dropInstance key)

end

/-! ## What changes -/

section
variable {T : Type} {w w' : OrphanWorld T}

/-- The ways in which the two stores change. -/
inductive Change (w : OrphanWorld T) : OrphanWorld T → Prop
  | none : Change w w
  | addRow (modelName : String) : Change w (w.addRow modelName)
  | dropRow (modelName : String) : Change w (w.dropRow modelName)
  | addInstance (r : InstanceState) : Change w (w.addInstance r)
  | setInstance (r : InstanceState) : Change w (w.setInstance r)
  | dropInstance (key : InstanceKey) : Change w (w.dropInstance key)

variable {i : OrphanInput}

theorem change_of_read {α a} {r : Except Failure α} (h : w.read i a = some (w', r)) :
    w' = w ∧ ∀ b, r = .ok b → b = a := by
  grind [read]

theorem change_of_written {α after a} {r : Except Failure α}
    (hafter : w.Change after) (h : w.written i after a = some (w', r)) :
    w.Change w' := by
  unfold written at h
  split at h
  · cases h
    exact hafter
  · cases h
    exact hafter
  · cases h
    exact .none

theorem change_of_performLaunch {key c r} (h : w.performLaunch key i c = some (w', r)) :
    w.Change w' := by
  unfold performLaunch at h
  split at h
  · split at h
    · exact change_of_written (.addInstance _) h
    · cases h
  · exact (change_of_read h).1 ▸ .none
  · split at h
    · exact change_of_written (.setInstance _) h
    · cases h
      exact .none
  · exact change_of_written (.setInstance _) h
  · exact change_of_written (.dropInstance _) h
  · cases h
    exact .none

theorem change_of_performPass [DecidableEq T] {t c r} (hc : ∀ modelName, c ≠ .findModelByName modelName)
    (h : w.performPass t i c = some (w', r)) : w.Change w' := by
  unfold performPass at h
  split at h
  · exact (change_of_read h).1 ▸ .none
  · exact absurd rfl (hc _)
  · exact change_of_written (.dropInstance _) h
  · cases h
    exact .none

theorem change_of_apply {e} (h : w.apply e = some w') : w.Change w' := by
  cases e with
  | commitRow modelName =>
    cases h
    exact .addRow modelName
  | deleteRow modelName =>
    cases h
    exact .dropRow modelName
  | createInstance r =>
    simp only [apply] at h
    split at h
    · cases h
      exact .addInstance r
    · cases h
  | writeInstance r =>
    cases h
    exact .setInstance r
  | removeInstance key =>
    cases h
    exact .dropInstance key

theorem Change.checks (h : w.Change w') : w'.checks = w.checks := by
  cases h with
  | _ => rfl

theorem Change.past (h : w.Change w') : w.past ⊆ w'.past := by
  cases h with
  | addInstance r | setInstance r => exact subset_cons_self _ _
  | _ => exact List.Subset.refl _

/-- What is always true of the two stores and of their past. -/
structure Sound (w : OrphanWorld T) : Prop where
  stored : ∀ key r, w.instances.lookup key = some r → r ∈ w.past
  rowed : ∀ key ∈ w.unbroken, key.1 ∈ w.rows
  checked : ∀ t check, w.checks t = some check → check.found = false →
    ∀ key ∈ check.unbroken, key.1 ≠ check.modelName
  justified : ∀ reap ∈ w.reaped, reap.Justified

theorem Sound.setInstance (hw : w.Sound) (r : InstanceState) : (w.setInstance r).Sound where
  stored key r' h := by
    by_cases hkey : key = r.key
    · subst hkey
      have hr : r = r' := by simpa [OrphanWorld.setInstance] using h
      exact hr ▸ mem_cons_self
    · have hr : w.instances.lookup key = some r' := by
        simpa [OrphanWorld.setInstance, AList.lookup_insert_ne hkey] using h
      exact mem_cons_of_mem _ (hw.stored key r' hr)
  rowed := hw.rowed
  checked := hw.checked
  justified := hw.justified

theorem Change.sound (h : w.Change w') (hw : w.Sound) : w'.Sound := by
  cases h with
  | none => exact hw
  | addRow modelName =>
    exact { hw with rowed := fun key hkey => mem_cons_of_mem _ (hw.rowed key hkey) }
  | dropRow modelName =>
    refine { hw with rowed := fun key hkey => ?_ }
    obtain ⟨hkey, hne⟩ := Finset.mem_filter.mp hkey
    exact mem_filter.mpr ⟨hw.rowed key hkey, by simpa using hne⟩
  | setInstance r => exact hw.setInstance r
  | addInstance r =>
    refine { hw.setInstance r with rowed := fun key hkey => ?_ }
    by_cases hrow : r.modelName ∈ w.rows
    · simp only [OrphanWorld.addInstance, if_pos hrow] at hkey
      rcases Finset.mem_insert.mp hkey with rfl | hkey
      · exact hrow
      · exact hw.rowed key hkey
    · simp only [OrphanWorld.addInstance, if_neg hrow] at hkey
      exact hw.rowed key hkey
  | dropInstance key =>
    refine { hw with stored := fun key' r h => ?_ }
    by_cases hkey : key' = key
    · subst hkey
      simp [OrphanWorld.dropInstance] at h
    · exact hw.stored key' r (by simpa [OrphanWorld.dropInstance, AList.lookup_erase_ne hkey] using h)

theorem Sound.noteCheck [DecidableEq T] (hw : w.Sound) (t : T) (modelName : String) :
    (w.noteCheck t modelName).Sound := by
  refine { hw with checked := fun t' check hcheck hfound key hkey => ?_ }
  by_cases ht : t' = t
  · subst ht
    simp only [OrphanWorld.noteCheck, update_self, Option.some.injEq] at hcheck
    subst hcheck
    -- the row is missing now, and everything unbroken has its row now
    intro heq
    have hname : key.1 = modelName := heq
    exact of_decide_eq_false hfound (hname ▸ hw.rowed key hkey)
  · simp only [OrphanWorld.noteCheck, update_of_ne ht] at hcheck
    exact hw.checked t' check hcheck hfound key hkey

theorem Sound.noteReap (hw : w.Sound) {t call}
    (h : Reap.Justified ⟨call, w.checks t⟩) : (w.noteReap t call).Sound := by
  refine { hw with justified := fun reap hreap => ?_ }
  rcases mem_cons.mp hreap with rfl | hreap
  · exact h
  · exact hw.justified reap hreap

end

end OrphanWorld

/-! ## The contract -/

/-- What a reaper knows of its last look for a row: the model, whether there was
one, and the records it had read. -/
structure LastLook where
  modelName : String
  found : Bool
  seen : List InstanceState

/-- Where a thread is. -/
inductive OrphanPlace where
  | deploying
  | reaping (seen : List InstanceState) (look : Option LastLook)

/-- A reaper cleans up only what it has read before its last look, and only if
that look was for the row of the model and found none. -/
def orphanContract : Contract OrphanCall OrphanReply Failure OrphanPlace where
  allowed
    | .deploying, c => ∀ c', c ≠ .pass c'
    | .reaping _ look, .pass c => c.cleanup = true →
        ∃ r l, c.CleansUp r ∧ look = some l ∧ l.modelName = r.modelName ∧ l.found = false ∧
          r ∈ l.seen
    | .reaping _ _, _ => True
  expected _ _ _ := True
  next
    | .reaping seen look, .getRecord _, .ok (some r) => .reaping (r :: seen) look
    | .reaping seen _, .pass (.findModelByName modelName), .ok found =>
      .reaping seen (some { modelName, found, seen })
    | l, _, _ => l

namespace OrphanProgram

theorem keeps_ofLaunch {α key} :
    ∀ p : Launching α, Keeps orphanContract (· = .deploying) (ofLaunch key p)
  | .done _ => fun _ h => h
  | .call c k => by
    rintro _ rfl
    refine ⟨fun _ h => ?_, fun r _ => keeps_ofLaunch (k r) _ rfl⟩
    cases h

theorem keepsCall_deploying {c} (hc : ∀ c', c ≠ .pass c') :
    KeepsCall orphanContract (· = .deploying) c := by
  rintro _ rfl
  exact ⟨hc, fun _ _ => rfl⟩

theorem keeps_deploy (timeouts : Timeouts) (params : LaunchParams) :
    Keeps orphanContract (· = .deploying) (deploy timeouts params) := by
  have hcreate : Keeps orphanContract (· = .deploying) (ask (.createModelRow params.name)) :=
    (keepsCall_deploying fun c' h => by cases h).perform
  have hdelete : Keeps orphanContract (· = .deploying) (ask (.deleteModelRow params.name)) :=
    (keepsCall_deploying fun c' h => by cases h).perform
  refine hcreate.bind fun _ => .bind ?_ fun _ => keeps_ofLaunch _
  exact (keeps_ofLaunch _).tryCatch fun err => hdelete.attempt.bind fun _ => .throw err

def HasRead (records : List InstanceState) (l : OrphanPlace) : Prop :=
  ∃ seen look, l = .reaping seen look ∧ records ⊆ seen

theorem obeys_readRecords (keys : List InstanceKey) : ∀ seen look, Obeys orphanContract
      (fun l result => HasRead seen l ∧ ∀ records, result = .ok records → HasRead records l)
      (readRecords keys) (.reaping seen look) := by
  induction keys with
  | nil =>
    intro seen look
    refine ⟨⟨seen, look, rfl, List.Subset.refl _⟩, fun records h => ?_⟩
    cases h
    exact ⟨seen, look, rfl, nil_subset _⟩
  | cons key keys ih =>
    intro seen look
    refine ⟨trivial, fun reply _ => ?_⟩
    rcases reply with err | record
    · exact ⟨⟨seen, look, rfl, List.Subset.refl _⟩, fun records h => by cases h⟩
    -- whatever was read is among what the reaper has seen from here on
    have hrest : ∃ seen', seen ⊆ seen' ∧ record.toList ⊆ seen' ∧
        orphanContract.next (.reaping seen look) (.getRecord key) (.ok record) =
          .reaping seen' look := by
      cases record with
      | none => exact ⟨seen, List.Subset.refl _, nil_subset _, rfl⟩
      | some r => exact ⟨r :: seen, subset_cons_self _ _, by simp, rfl⟩
    obtain ⟨seen', hseen, hrecord, hnext⟩ := hrest
    rw [hnext]
    refine obeys_bind.mpr ((ih seen' look).mono ?_)
    rintro l (err | records) ⟨⟨seen'', look', rfl, hsub⟩, hrecords⟩
    · exact ⟨⟨seen'', look', rfl, List.Subset.trans hseen hsub⟩, fun _ h => by cases h⟩
    · obtain ⟨_, _, hl, hsub'⟩ := hrecords records rfl
      cases hl
      refine ⟨⟨seen'', look', rfl, List.Subset.trans hseen hsub⟩, fun _ h => ?_⟩
      cases h
      exact ⟨seen'', look', rfl, append_subset.mpr ⟨List.Subset.trans hrecord hsub, hsub'⟩⟩

def mayReap (r : InstanceState) (seen : List InstanceState) : OrphanPlace :=
  .reaping seen (some { modelName := r.modelName, found := false, seen })

section
variable {r : InstanceState} {seen : List InstanceState}

def OfReap (r : InstanceState) (c : ReconcileCall) : Prop :=
  (c.cleanup = true → c.CleansUp r) ∧ ∀ modelName, c ≠ .findModelByName modelName

theorem keepsCall_ofReap {c} (hr : r ∈ seen) (hc : OfReap r c) :
    KeepsCall orphanContract (· = mayReap r seen) (.pass c) := by
  rintro _ rfl
  refine ⟨fun h => ⟨r, _, hc.1 h, rfl, rfl, rfl, hr⟩, fun _ _ => ?_⟩
  cases c with
  | findModelByName modelName => exact absurd rfl (hc.2 modelName)
  | _ => rfl

theorem keeps_ofPass {α} (hr : r ∈ seen) : ∀ {p : Reconciling α}, Only (OfReap r) p →
      Keeps orphanContract (· = mayReap r seen) (ofPass p)
  | .done _, _ => fun _ h => h
  | .call c k, hp => fun l hl => by
    obtain ⟨hallowed, hnext⟩ := keepsCall_ofReap hr (hp.awaited rfl) l hl
    exact ⟨hallowed, fun reply hreply => keeps_ofPass hr (hp.next reply) _ (hnext reply hreply)⟩

theorem only_reap : Only (OfReap r) (do
    if ← stopOrphanRunner r then
      Reconciling.ask (.releaseInstanceReservations r.instanceId)
      ofService r.modelName (removeRouted r)
      ofService r.modelName (await (.removeInstance r.instanceId))
      pure true
    else pure false : Reconciling Bool) := by
  have hstop : Only (OfReap r) (stopOrphanRunner r) :=
    only_stopOrphanRunner ⟨(fun h => by cases h), fun _ h => by cases h⟩
      fun _ _ hworker hrunner => ⟨fun _ => ⟨hworker, hrunner⟩, fun _ h => by cases h⟩
  have hrelease : Only (OfReap r)
      (Reconciling.ask (.releaseInstanceReservations r.instanceId)) :=
    only_perform ⟨fun _ => rfl, fun _ h => by cases h⟩
  have hunroute : Only (OfReap r) (ofService r.modelName (removeRouted r)) := by
    unfold removeRouted
    split
    · rename_i address haddress
      exact only_perform ⟨fun _ => ⟨rfl, haddress⟩, fun _ h => by cases h⟩
    · exact .pure _
  have hremove : Only (OfReap r)
      (ofService r.modelName (await (.removeInstance r.instanceId))) :=
    only_ofService (only_perform ⟨fun _ => rfl, fun _ h => by cases h⟩)
  refine hstop.bind fun _ => .ite ?_ (.pure _)
  exact hrelease.bind fun _ => hunroute.bind fun _ => hremove.bind fun _ => .pure _

theorem keeps_reapOrphan {records} (hr : r ∈ records) :
    Keeps orphanContract (HasRead records) (ofPass (reapOrphan r)) := by
  rintro _ ⟨seen, look, rfl, hseen⟩
  refine ⟨(fun h => by cases h), fun reply _ => ?_⟩
  rcases reply with _ | found
  · exact ⟨seen, look, rfl, hseen⟩
  cases found with
  | true => exact ⟨seen, _, rfl, hseen⟩
  | false =>
    refine (keeps_ofPass (hseen hr) only_reap (mayReap r seen) rfl).mono ?_
    rintro _ _ rfl
    exact ⟨seen, _, rfl, hseen⟩

end

theorem obeys_reapOrphanedInstances :
    Obeys orphanContract (fun _ _ => True) reapOrphanedInstances (.reaping [] none) := by
  have hread : Obeys orphanContract (fun l result => HasRead [] l ∧
      ∀ records, result = .ok records → HasRead records l) getAllInstances (.reaping [] none) := by
    refine ⟨trivial, fun reply _ => ?_⟩
    rcases reply with err | keys
    · exact ⟨⟨[], none, rfl, nil_subset _⟩, fun _ h => by cases h⟩
    · exact obeys_readRecords keys [] none
  refine obeys_bind.mpr (hread.mono ?_)
  rintro l (err | records) ⟨_, hrecords⟩
  · trivial
  have hmodels : Keeps orphanContract (HasRead records) (ask (.pass .findModels)) := by
    rintro _ ⟨seen, look, rfl, hseen⟩
    exact ⟨(fun h => by cases h), fun _ _ => ⟨seen, look, rfl, hseen⟩⟩
  have hreap : Keeps orphanContract (HasRead records) (do
      let models ← ask (.pass .findModels)
      Program.each (fun r => (ofPass (reapOrphan r)).attempt)
        (records.filter fun i => i.modelName ∉ models)) :=
    hmodels.bind fun models => .each fun r hr =>
      (keeps_reapOrphan (mem_of_mem_filter hr)).attempt
  exact (hreap l (hrecords records rfl)).mono fun _ _ _ => trivial

end OrphanProgram

/-! ## The system -/

/-- What a thread does. -/
inductive OrphanTask where
  | reap
  | deploy (timeouts : Timeouts) (params : LaunchParams)

def OrphanTask.program : OrphanTask → OrphanProgram Unit
  | .reap => OrphanProgram.reapOrphanedInstances
  | .deploy timeouts params => OrphanProgram.deploy timeouts params

def OrphanTask.place : OrphanTask → OrphanPlace
  | .reap => .reaping [] none
  | .deploy _ _ => .deploying

abbrev OrphanSystem (T : Type) :=
  Threads OrphanCall OrphanReply Failure OrphanPlace (OrphanWorld T) T

/-- A step of the system. -/
inductive OrphanAction (T : Type) where
  | thread (t : T) (i : OrphanInput)
  | other (e : OrphanEvent)

namespace OrphanSystem

section
variable {T : Type} (tasks : T → OrphanTask)

def start : OrphanSystem T where
  world := {}
  prog t := (tasks t).program
  loc t := (tasks t).place

def step [DecidableEq T] (s : OrphanSystem T) : OrphanAction T → Option (OrphanSystem T)
  | .thread t i => Threads.step orphanContract (fun t i w c => w.perform t i c) s t i
  | .other e => (s.world.apply e).map fun w => { s with world := w }

/-! ## What a reaper knows -/

def Knows (w : OrphanWorld T) (t : T) : OrphanPlace → Prop
  | .deploying => True
  | .reaping seen look => seen ⊆ w.past ∧ ∀ l, look = some l →
      ∃ check, w.checks t = some check ∧ check.modelName = l.modelName ∧
        check.found = l.found ∧ l.seen ⊆ check.past

/-- The invariant: sound stores, and what the threads know is true. -/
structure Inv (s : OrphanSystem T) : Prop where
  sound : s.world.Sound
  knows : ∀ t, Knows s.world t (s.loc t)

/-- What a call of thread `t` leads to: sound stores, nothing that others know is
lost, and `t` knows what belongs to its next place. -/
structure Leads (w : OrphanWorld T) (t : T) (w' : OrphanWorld T) (l : OrphanPlace) : Prop where
  sound : w'.Sound
  past : w.past ⊆ w'.past
  checks : ∀ t', t' ≠ t → w'.checks t' = w.checks t'
  knows : Knows w' t l

section
variable {w w' : OrphanWorld T} {t : T} {l : OrphanPlace}

theorem Knows.mono (h : Knows w t l) (hpast : w.past ⊆ w'.past)
    (hchecks : w'.checks t = w.checks t) : Knows w' t l := by
  cases l with
  | deploying => trivial
  | reaping =>
    refine ⟨List.Subset.trans h.1 hpast, fun l hl => ?_⟩
    rw [hchecks]
    exact h.2 l hl

theorem leads_of_change (hw : w.Sound) (hl : Knows w t l) (h : w.Change w') : Leads w t w' l where
  sound := h.sound hw
  past := h.past
  checks t' _ := congrFun h.checks t'
  knows := hl.mono h.past (congrFun h.checks t)

variable {i : OrphanInput}

theorem leads_getRecord {key reply}
    (hw : w.Sound) (hl : Knows w t l)
    (h : w.read i (if i.unread then none else w.instances.lookup key) = some (w', reply)) :
    Leads w t w' (orphanContract.next l (.getRecord key) reply) := by
  obtain ⟨rfl, hreply⟩ := OrphanWorld.change_of_read h
  have hsame : Leads w' t w' l := leads_of_change hw hl .none
  cases l with
  | deploying => exact hsame
  | reaping =>
    rcases reply with _ | _ | record
    · exact hsame
    · exact hsame
    · refine { hsame with knows := ⟨cons_subset.mpr ⟨?_, hl.1⟩, hl.2⟩ }
      have hrecord := hreply (some record) rfl
      split at hrecord
      · cases hrecord
      · exact hw.stored key record hrecord.symm

variable {c : ReconcileCall}

theorem justified_of_allowed (hw : w.Sound) (hl : Knows w t l)
    (hallowed : orphanContract.allowed l (.pass c)) (hc : c.cleanup = true) :
    Reap.Justified ⟨c, w.checks t⟩ := by
  cases l with
  | deploying => exact absurd rfl (hallowed c)
  | reaping =>
    obtain ⟨r, last, hcleans, rfl, hname, hfound, hseen⟩ := hallowed hc
    obtain ⟨check, hcheck, hname', hfound', hpast⟩ := hl.2 last rfl
    have hmissing : check.found = false := hfound'.trans hfound
    refine ⟨r, check, hcleans, hcheck, hname'.trans hname, hmissing, hpast hseen, fun hkey => ?_⟩
    exact hw.checked t check hcheck hmissing r.key hkey (hname'.trans hname).symm

variable [DecidableEq T]

section
variable (hw : w.Sound) (hl : Knows w t l)
include hw hl

theorem leads_findModelByName {modelName} {reply : Except Failure Bool}
    (h : w.performPass t i (.findModelByName modelName) = some (w', reply)) :
    Leads w t w' (orphanContract.next l (.pass (.findModelByName modelName)) reply) := by
  simp only [OrphanWorld.performPass] at h
  split at h
  · cases h
    refine ⟨hw.noteCheck t modelName, List.Subset.refl _, fun _ ht => ?_, ?_⟩
    · exact update_of_ne ht _ _
    · cases l with
      | deploying => trivial
      | reaping seen look =>
        refine ⟨hl.1, fun _ hlast => ?_⟩
        cases hlast
        exact ⟨_, update_self _ _ _, rfl, rfl, hl.1⟩
  · cases h
    have hsame : Leads w t w l := leads_of_change hw hl .none
    cases l with
    | deploying | reaping seen look => exact hsame

variable {reply : Except Failure (ReconcileReply c)}

theorem leads_cleanup (hallowed : orphanContract.allowed l (.pass c)) (hc : c.cleanup = true)
    (h : (w.noteReap t c).performPass t i c = some (w', reply)) : Leads w t w' l := by
  have hnoted : (w.noteReap t c).Sound := hw.noteReap (justified_of_allowed hw hl hallowed hc)
  have hchange : (w.noteReap t c).Change w' := by
    refine OrphanWorld.change_of_performPass (fun _ hname => ?_) h
    subst hname
    cases hc
  have hleads : Leads (w.noteReap t c) t w' l :=
    leads_of_change hnoted (hl.mono (List.Subset.refl _) rfl) hchange
  exact ⟨hleads.sound, hleads.past, hleads.checks, hleads.knows⟩

theorem leads_pass
    (hallowed : orphanContract.allowed l (.pass c)) (h : w.perform t i (.pass c) = some (w', reply)) :
    Leads w t w' (orphanContract.next l (.pass c) reply) := by
  by_cases hlook : ∃ modelName, c = .findModelByName modelName
  · obtain ⟨modelName, rfl⟩ := hlook
    exact leads_findModelByName hw hl h
  · have hother : ∀ modelName, c ≠ .findModelByName modelName := fun modelName hc =>
      hlook ⟨modelName, hc⟩
    have hnext : orphanContract.next l (.pass c) reply = l := by
      cases l with
      | deploying => rfl
      | reaping =>
        cases c with
        | findModelByName modelName => exact absurd rfl (hother modelName)
        | _ => rfl
    grind [OrphanWorld.perform, leads_cleanup, leads_of_change, OrphanWorld.change_of_performPass]

theorem leads_perform {c reply}
    (hallowed : orphanContract.allowed l c) (h : w.perform t i c = some (w', reply)) :
    Leads w t w' (orphanContract.next l c reply) := by
  cases c with
  | getRecord key => exact leads_getRecord hw hl h
  | pass c => exact leads_pass hw hl hallowed h
  | scanKeys =>
    cases h
    cases l with
    | _ => exact leads_of_change hw hl .none
  | createModelRow modelName =>
    have hchange : w.Change w' := by
      simp only [OrphanWorld.perform] at h
      split at h
      · cases h
        exact .none
      · exact OrphanWorld.change_of_written (.addRow modelName) h
    cases l with
    | _ => exact leads_of_change hw hl hchange
  | deleteModelRow modelName =>
    have hchange : w.Change w' := OrphanWorld.change_of_written (.dropRow modelName) h
    cases l with
    | _ => exact leads_of_change hw hl hchange
  | launch key c =>
    have hchange : w.Change w' := OrphanWorld.change_of_performLaunch h
    cases l with
    | _ => exact leads_of_change hw hl hchange

end

theorem Inv.call {s} {p : OrphanProgram Unit} (hs : Inv s)
    (h : Leads s.world t w' l) : Inv (s.put w' t p l) where
  sound := h.sound
  knows := (forall_update_iff _ _).mpr
    ⟨h.knows, fun t' ht => (hs.knows t').mono h.past (h.checks t' ht)⟩

end

/-! ## Whole runs -/

theorem inv_start :
    Threads.Obey orphanContract (fun _ _ _ => True) (start tasks) ∧ Inv (start tasks) := by
  refine ⟨fun t => ?_, ⟨⟨?_, ?_, ?_, ?_⟩, fun t => ?_⟩⟩
  · show Obeys _ _ (tasks t).program (tasks t).place
    cases tasks t with
    | reap => exact OrphanProgram.obeys_reapOrphanedInstances
    | deploy timeouts params =>
      exact (OrphanProgram.keeps_deploy timeouts params _ rfl).mono fun _ _ _ => trivial
  · intro key r h
    simp [start] at h
  · intro key h
    exact absurd h (Finset.notMem_empty key)
  · intro t _ h
    cases h
  · intro reap h
    exact absurd h not_mem_nil
  · show Knows _ t (tasks t).place
    cases tasks t with
    | reap => exact ⟨nil_subset _, fun l h => by cases h⟩
    | deploy timeouts params => trivial

variable [DecidableEq T]

theorem inv_step {s s'} {a : OrphanAction T}
    (hs : s.Obey orphanContract (fun _ _ _ => True) ∧ Inv s) (h : step s a = some s') :
    s'.Obey orphanContract (fun _ _ _ => True) ∧ Inv s' := by
  obtain ⟨hobey, hinv⟩ := hs
  cases a with
  | thread t i =>
    have hstep : Threads.step orphanContract (fun t i w c => OrphanWorld.perform w t i c) s t i =
      some s' := h
    refine Threads.step_obey hobey (fun c w _ _ hallowed _ hsem => ?_) hstep
    exact ⟨trivial, fun p => hinv.call (leads_perform hinv.sound (hinv.knows t) hallowed hsem)⟩
  | other =>
    obtain ⟨w, hw, rfl⟩ := Option.map_eq_some_iff.mp h
    have hchange := OrphanWorld.change_of_apply hw
    exact ⟨hobey, ⟨hchange.sound hinv.sound, fun t =>
      (hinv.knows t).mono hchange.past (congrFun hchange.checks t)⟩⟩

/-- **No live instance is reaped.**  In every run of any number of reapers and
deployments, whatever other requests do to rows and records, each step of a
clean-up is for an instance that existed at the last look for its row; that look
found none, and so the row has not been there since before the instance was
created. -/
theorem reaped_without_row {s : OrphanSystem T} (hr : Reach step anyStep (start tasks) s) :
    ∀ reap ∈ s.world.reaped, ∃ r check, reap.call.CleansUp r ∧ reap.check = some check ∧
      check.modelName = r.modelName ∧ check.found = false ∧ r ∈ check.past ∧
      r.key ∉ check.unbroken := by
  have hinv := hr.inductive_inv (I := fun s =>
    s.Obey orphanContract (fun _ _ _ => True) ∧ Inv s) (inv_start tasks)
    fun hs _ h => inv_step hs h
  exact hinv.2.sound.justified

end

/-! ### A model deleted under its instance -/

def leftBehind : InstanceState := newInstance "m" "i" none none 0

/-- The row is committed, the instance created, the row deleted; then a reaper runs. -/
def reapSchedule : List (OrphanAction (Fin 1)) :=
  [.other (.commitRow "m"), .other (.createInstance leftBehind), .other (.deleteRow "m"),
   .thread lone { answer := fun
    | .scanKeys => .ok [("m", "i")]
    | _ => .error .ownershipLost },
   .thread lone {}, .thread lone {}, .thread lone {},
   .thread lone { answer := fun
    | .pass (.releaseInstanceReservations _) => .ok ()
    | _ => .error .ownershipLost },
   .thread lone {}]

theorem reaped_without_row_leftBehind : ∃ s, Reach step anyStep (start fun _ : Fin 1 => .reap) s ∧
      s.world.reaped.map (·.call) = [.service "m" (.removeInstance "i"),
        .releaseInstanceReservations "i"] ∧
      ∀ reap ∈ s.world.reaped, ∃ r check, reap.call.CleansUp r ∧ reap.check = some check ∧
        check.modelName = r.modelName ∧ check.found = false ∧ r ∈ check.past ∧
        r.key ∉ check.unbroken := by
  have hsome : (exec (guarded step anyStep) (start fun _ : Fin 1 => .reap) reapSchedule).isSome :=
    rfl
  exact ⟨_, reach_get hsome, rfl, reaped_without_row _ (reach_get hsome)⟩

end OrphanSystem

end Sardeenz
