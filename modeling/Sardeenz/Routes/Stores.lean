/-
# `Sardeenz.Routes.Stores` — what the calls of a handler do

The part of the world that the handlers of one model share, and what their calls
do to it:

    row        Postgres: the record of the model
    records    Redis: its instances
    claims     the in-flight sets of the process

All other calls are answered from outside; those that only look at the memory of
the process do not fail.  A call that writes may take effect and lose its answer.
-/
import Sardeenz.Services.World
import Sardeenz.Routes.Handlers

namespace Sardeenz

open Interleave
open Routes (Claims Operation)
open Refresh (ScanReply)

/-! ## Calls that do not fail -/

def Call.isLocal : Call → Bool
  | .isLeader | .getWorker _ | .aborted | .now | .sendStart | .claim _ | .release _
  | .enterResume _ | .leaveResume _ => true
  | _ => false

def LaunchCall.isLocal : LaunchCall → Bool
  | .service c => c.isLocal
  | .readClaims | .applyReports _ | .clearBudgets | .placeAndReserve _ _ _
  | .releaseReservations | .retainReservations => true
  | _ => false

def RouteCall.isLocal : RouteCall → Bool
  | .service _ c => c.isLocal
  | .launch _ _ c => c.isLocal
  | .availableMemory _ | .selectVictims _ _ _ _ _ | .releaseInstanceReservations _
  | .workerDevices _ | .mintId | .claims | .claim _ _ | .release _ _ | .claimMove _
  | .releaseMove _ | .answer _ | .turn => true
  | .findByName _ | .findAll | .createModel _ | .updateModel _ | .deleteModel _ | .deleteRow _
  | .getAllInstances | .getLastInferenceTimestamps _ | .createMoveOperation _ => false

/-! ## The stores -/

/-- The stores of one model. -/
structure RouteWorld where
  row : Option ModelRecord := none
  records : Instances := ∅
  claims : Claims := .empty

/-- What comes from outside when a call is performed. -/
structure RouteInput where
  outcome : Outcome := .answered
  failure : Failure := .other "connection lost"
  now : Nat := 0
  keys : List String := []
  answer : (c : RouteCall) → Except Failure (RouteReply c) := fun _ => .error failure

def RouteInput.undisturbed : (c : RouteCall) → Except Failure (RouteReply c)
  | .service _ .isLeader => .ok true
  | .service _ .getMoveOperation => .ok none
  | .service _ (.setModelState _ _) => .ok ()
  | _ => .error (.other "connection lost")

def RouteConfig.permissive : RouteConfig where
  timeouts := ⟨0, 0, 0, 0, 0⟩
  isModelName _ := true
  isRuntimeModule _ := true
  isContained _ := true
  trim text := text

namespace RouteWorld

variable (w : RouteWorld)

/-- The end of a call that would lead to `after` and answer `r`. -/
def reply {α : Type} (i : RouteInput) (after : RouteWorld) (r : Except Failure α) :
    Option (RouteWorld × Except Failure α) :=
  match i.outcome with
  | .answered => some (after, r)
  | .lost => some (after, .error i.failure)
  | .failed => some (w, .error i.failure)

def other (i : RouteInput) (c : RouteCall) : Option (RouteWorld × Except Failure (RouteReply c)) :=
  match i.answer c with
  | .ok a => some (w, .ok a)
  | .error err => if c.isLocal then none else some (w, .error err)

def setRecord (id : String) (record : InstanceState) : RouteWorld :=
  { w with records := w.records.insert id record }

variable (modelName : String)

def service (i : RouteInput) :
    (c : Call) → Option (RouteWorld × Except Failure (Reply c))
  | .getInstance id => w.reply i w (.ok (w.records.lookup id))
  | .transition id target updates =>
    match transition (w.records.lookup id) modelName id target updates i.now with
    | .ok record => w.reply i (w.setRecord id record) (.ok record)
    | .error error => w.reply i w (.error (.controlPlane error))
  | .writeInstance id record => w.reply i (w.setRecord id record) (.ok ())
  | .removeInstance id => w.reply i { w with records := w.records.erase id } (.ok ())
  | .scan => w.reply i w (.ok w.records.keys)
  | .scanned startIds =>
    if ScanReply startIds w.records i.keys then w.reply i w (.ok i.keys) else none
  | c => w.other i (.service modelName c)

/-- `assertLaunchAllowed` looks at three of the sets. -/
def launchClaims : LaunchClaims where
  deleting := decide (modelName ∈ w.claims.deletingInFlight)
  moving := decide (modelName ∈ w.claims.movingInFlight)
  configurationUpdate := decide (modelName ∈ w.claims.configurationUpdateInFlight)

def launch (i : RouteInput) (record : ModelRecord) (instanceId : String) :
    (c : LaunchCall) → Option (RouteWorld × Except Failure (LaunchReply c))
  | .service c => w.service modelName i c
  | .createInstance protocol =>
    match createInstance (w.records.lookup instanceId) modelName instanceId none
      (some protocol) i.now with
    | .ok created => w.reply i (w.setRecord instanceId created) (.ok ())
    | .error error => w.reply i w (.error (.controlPlane error))
  | .readClaims => some (w, .ok (w.launchClaims modelName))
  | c => w.other i (.launch record instanceId c)

def setClaims (claims : Claims) : RouteWorld := { w with claims }

def performOwn (i : RouteInput) :
    (c : RouteCall) → Option (RouteWorld × Except Failure (RouteReply c))
  | .service _ c => w.service modelName i c
  | .launch record id c => w.launch modelName i record id c
  | .findByName _ => w.reply i w (.ok w.row)
  | .createModel record =>
    if w.row.isSome then
      w.reply i w (.error (.other "duplicate key value violates unique constraint"))
    else w.reply i { w with row := some record } (.ok ())
  | .updateModel record =>
    if w.row.isSome then w.reply i { w with row := some record } (.ok true)
    else w.reply i w (.ok false)
  | .deleteModel _ => w.reply i { w with row := none } (.ok ())
  | .claims => some (w, .ok w.claims)
  | .claim _ o =>
    if o.Refused w.claims modelName then some (w, .ok (some w.claims))
    else some (w.setClaims (o.claim w.claims modelName), .ok none)
  | .release _ o => some (w.setClaims (o.release w.claims modelName), .ok ())
  | .claimMove _ =>
    some (w.setClaims
      { w.claims with movingInFlight := insert modelName w.claims.movingInFlight }, .ok ())
  | .releaseMove _ =>
    some (w.setClaims
      { w.claims with movingInFlight := w.claims.movingInFlight.erase modelName }, .ok ())
  | .answer _ => some (w, .ok ())
  | c => w.other i c

end RouteWorld

def RouteCall.model : RouteCall → Option String
  | .service modelName _ | .findByName modelName | .deleteModel modelName | .claim modelName _
  | .release modelName _ | .claimMove modelName | .releaseMove modelName => some modelName
  | .launch record _ _ | .createModel record | .updateModel record => some record.name
  | _ => none

def RouteWorld.perform (modelName : String) (i : RouteInput) (w : RouteWorld) (c : RouteCall) :
    Option (RouteWorld × Except Failure (RouteReply c)) :=
  if c.model.all (· = modelName) then w.performOwn modelName i c else w.other i c

theorem RouteWorld.perform_own {modelName i} {w : RouteWorld}
    {c} (hc : c.model = some modelName) :
    w.perform modelName i c = w.performOwn modelName i c := by
  simp [perform, hc]

/-! ## What a call leaves alone -/

theorem RouteWorld.reply_eq_some {α i} {w after w' : RouteWorld}
    {r r' : Except Failure α} (h : w.reply i after r = some (w', r')) :
    (w' = after ∧ r' = r) ∨ ((w' = after ∨ w' = w) ∧ ∃ err, r' = .error err) := by
  unfold reply at h
  grind

theorem RouteWorld.other_eq_some {i} {w w' : RouteWorld} {c r} (h : w.other i c = some (w', r)) :
    w' = w ∧ (c.isLocal = true → ∃ a, r = .ok a) := by
  unfold other at h
  grind

def Call.writesRecord : Call → Bool
  | .transition _ _ _ | .writeInstance _ _ | .removeInstance _ => true
  | _ => false

def Call.removesRecord : Call → Bool
  | .removeInstance _ => true
  | _ => false

namespace RouteCall

def writesRecord : RouteCall → Bool
  | .service _ c | .launch _ _ (.service c) => c.writesRecord
  | .launch _ _ (.createInstance _) => true
  | _ => false

def removesRecord : RouteCall → Bool
  | .service _ c | .launch _ _ (.service c) => c.removesRecord
  | _ => false

def writesRow : RouteCall → Bool
  | .createModel _ | .updateModel _ | .deleteModel _ => true
  | _ => false

def changesClaims : RouteCall → Bool
  | .claim _ _ | .release _ _ | .claimMove _ | .releaseMove _ => true
  | _ => false

end RouteCall

/-- What a call can do to the stores. -/
inductive RouteWorld.Effect (w : RouteWorld) (c : RouteCall) : RouteWorld → Prop
  | nothing : Effect w c w
  | write (id : String) (record : InstanceState) (h : c.writesRecord = true) :
      Effect w c (w.setRecord id record)
  | remove (id : String) (h : c.removesRecord = true) (hwrites : c.writesRecord = true) :
      Effect w c { w with records := w.records.erase id }
  | row (row : Option ModelRecord) (h : c.writesRow = true) : Effect w c { w with row }
  | claims (claims : Claims) (h : c.changesClaims = true) : Effect w c (w.setClaims claims)

section
variable {modelName : String} {i : RouteInput} {w w' : RouteWorld} {c : RouteCall}

theorem RouteWorld.Effect.of_reply {α after} {r r' : Except Failure α}
    (hafter : w.Effect c after) (h : w.reply i after r = some (w', r')) : w.Effect c w' := by
  rcases reply_eq_some h with ⟨rfl, -⟩ | ⟨rfl | rfl, -⟩
  · exact hafter
  · exact hafter
  · exact .nothing

theorem RouteWorld.effect_service {c r} (call : RouteCall)
    (hwrites : call.writesRecord = c.writesRecord)
    (hremoves : call.removesRecord = c.removesRecord)
    (h : w.service modelName i c = some (w', r)) : w.Effect call w' := by
  unfold service at h
  split at h
  · exact Effect.nothing.of_reply h
  · split at h
    · exact (Effect.write _ _ hwrites).of_reply h
    · exact Effect.nothing.of_reply h
  · exact (Effect.write _ _ hwrites).of_reply h
  · exact (Effect.remove _ hremoves hwrites).of_reply h
  · exact Effect.nothing.of_reply h
  · obtain ⟨-, h⟩ := Option.ite_none_right_eq_some.mp h
    exact Effect.nothing.of_reply h
  · rw [(other_eq_some h).1]
    exact .nothing

theorem RouteWorld.effect_launch {record id c r} (h : w.launch modelName i record id c = some (w', r)) :
    w.Effect (.launch record id c) w' := by
  unfold launch at h
  split at h
  · exact effect_service _ rfl rfl h
  · split at h
    · exact (Effect.write _ _ rfl).of_reply h
    · exact Effect.nothing.of_reply h
  · cases h
    exact .nothing
  · rw [(other_eq_some h).1]
    exact .nothing

variable {r : Except Failure (RouteReply c)}

/-- **What a call can do.** -/
theorem RouteWorld.effect_perform (h : w.perform modelName i c = some (w', r)) : w.Effect c w' := by
  unfold perform at h
  split at h
  · unfold performOwn at h
    split at h
    · exact effect_service _ rfl rfl h
    · exact effect_launch h
    · exact Effect.nothing.of_reply h
    · split at h
      · exact Effect.nothing.of_reply h
      · exact (Effect.row _ rfl).of_reply h
    · split at h
      · exact (Effect.row _ rfl).of_reply h
      · exact Effect.nothing.of_reply h
    · exact (Effect.row _ rfl).of_reply h
    · cases h
      exact .nothing
    · split at h
      · cases h
        exact .nothing
      · cases h
        exact .claims _ rfl
    · cases h
      exact .claims _ rfl
    · cases h
      exact .claims _ rfl
    · cases h
      exact .claims _ rfl
    · cases h
      exact .nothing
    · rw [(other_eq_some h).1]
      exact .nothing
  · rw [(other_eq_some h).1]
    exact .nothing

theorem RouteWorld.records_perform (hc : c.writesRecord = false)
    (h : w.perform modelName i c = some (w', r)) :
    w'.records = w.records := by
  cases effect_perform h with
  | nothing | row row hrow | claims claims hclaims => rfl
  | write id record hwrites | remove id hremoves hwrites =>
    exact absurd (hc.symm.trans hwrites) Bool.false_ne_true

theorem RouteWorld.mem_records_perform {id} (hc : c.removesRecord = false)
    (h : w.perform modelName i c = some (w', r)) (hid : id ∈ w.records) : id ∈ w'.records := by
  cases effect_perform h with
  | nothing | row row hrow | claims claims hclaims => exact hid
  | write id' _ hwrites => exact (AList.mem_insert _).mpr (.inr hid)
  | remove id' hremoves hwrites => exact absurd (hc.symm.trans hremoves) Bool.false_ne_true

theorem RouteWorld.row_perform (hc : c.writesRow = false)
    (h : w.perform modelName i c = some (w', r)) :
    w'.row = w.row := by
  cases effect_perform h with
  | nothing | write id record hwrites | remove id hremoves hwrites | claims claims hclaims => rfl
  | row row hrow => exact absurd (hc.symm.trans hrow) Bool.false_ne_true

theorem RouteWorld.claims_perform (hc : c.changesClaims = false)
    (h : w.perform modelName i c = some (w', r)) :
    w'.claims = w.claims := by
  cases effect_perform h with
  | nothing | write id record hwrites | remove id hremoves hwrites | row row hrow => rfl
  | claims claims hclaims => exact absurd (hc.symm.trans hclaims) Bool.false_ne_true

theorem RouteWorld.perform_isLocal (hc : c.isLocal = true)
    (h : w.perform modelName i c = some (w', r)) : ∃ a, r = .ok a := by
  have hservice : ∀ {c : Call} {r : Except Failure (Reply c)}, c.isLocal = true →
      w.service modelName i c = some (w', r) → ∃ a, r = .ok a := by
    intro c r hc h
    unfold service at h
    split at h
    · cases hc
    · cases hc
    · cases hc
    · cases hc
    · cases hc
    · cases hc
    · exact (other_eq_some h).2 hc
  have hlaunch : ∀ {record : ModelRecord} {id : String} {c : LaunchCall}
      {r : Except Failure (LaunchReply c)}, c.isLocal = true →
      w.launch modelName i record id c = some (w', r) → ∃ a, r = .ok a := by
    intro record id c r hc h
    unfold launch at h
    split at h
    · exact hservice hc h
    · cases hc
    · cases h
      exact ⟨_, rfl⟩
    · exact (other_eq_some h).2 hc
  unfold perform at h
  split at h
  · unfold performOwn at h
    split at h
    · exact hservice hc h
    · exact hlaunch hc h
    · cases hc
    · cases hc
    · cases hc
    · cases hc
    · cases h
      exact ⟨_, rfl⟩
    · grind
    · cases h
      exact ⟨_, rfl⟩
    · cases h
      exact ⟨_, rfl⟩
    · cases h
      exact ⟨_, rfl⟩
    · cases h
      exact ⟨_, rfl⟩
    · exact (other_eq_some h).2 hc
  · exact (other_eq_some h).2 hc

end

end Sardeenz
