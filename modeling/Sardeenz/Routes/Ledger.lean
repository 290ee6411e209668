/-
# `Sardeenz.Routes.Ledger` — the three stores a launch writes

A launch writes the instance record in Redis, the hold in memory and the row in
Postgres, in this order, with checks in between:

    createInstance    refreshAll    place + reserve    transition    row    checks
    record ─────────────────────────────────────────────────────────────────────────
                                    hold ─────────────────────────────────────────
                                                                     row ─────────

Here are the launches of `Routes/Launches.lean` with the records and the rows
added, side by side with the pass of the reconciliation loop that prunes rows
(`reconcileInstanceTable`).  A call that writes can take effect and lose its
answer, or fail without effect.  `Routes/LaunchFailure.lean` is about what a
launch that throws leaves behind, `Routes/Prune.lean` about the pass.
-/
import Sardeenz.Services.World
import Sardeenz.Routes.ReservationLeak

namespace Sardeenz

open Interleave

/-! ## The world -/

/-- The memory, the records in Redis and the rows in Postgres. -/
structure LedgerWorld (T : Type) where
  launch : LaunchWorld T
  records : Instances := ∅
  rows : AList (fun _ : String => PlacementResult) := ∅
  removed : Finset String := ∅
  /-- Those that were without a record at some moment since their row was inserted. -/
  lapsed : Finset String := ∅

/-- What comes from outside when a call is performed. -/
structure LedgerInput where
  outcome : Outcome := .answered
  failure : Failure := .other "connection lost"
  answer : (c : LaunchCall) → Except Failure (LaunchReply c)

namespace LedgerWorld

variable {T : Type}

/-- The end of a call that would lead to `after` and answer `r`. -/
def reply {α : Type} (i : LedgerInput) (before after : LedgerWorld T) (r : Except Failure α) :
    LedgerWorld T × Except Failure α :=
  match i.outcome with
  | .answered => (after, r)
  | .lost => (after, .error i.failure)
  | .failed => (before, .error i.failure)

variable (w : LedgerWorld T)

def setRecord (id : String) (record : InstanceState) : LedgerWorld T :=
  { w with records := w.records.insert id record }

def removeRecord (id : String) : LedgerWorld T :=
  if id ∈ w.records then
    { w with
      records := w.records.erase id
      removed := insert id w.removed
      lapsed := insert id w.lapsed }
  else w

def insertRow (id : String) (result : PlacementResult) : LedgerWorld T :=
  { w with
    rows := w.rows.insert id result
    lapsed := if id ∈ w.records then w.lapsed.erase id else insert id w.lapsed }

def removeRow (id : String) : LedgerWorld T :=
  { w with rows := w.rows.erase id }

/-- What a call of the services does to the records and answers, if it is about
them. -/
def service (i : LedgerInput) (modelName : String) :
    (c : Call) → LedgerWorld T × Except Failure (Reply c)
  | .getInstance id => reply i w w (.ok (w.records.lookup id))
  | .transition id target updates =>
    match transition (w.records.lookup id) modelName id target updates w.launch.now with
    | .ok record => reply i w (w.setRecord id record) (.ok record)
    | .error error => reply i w w (.error (.controlPlane error))
  | .writeInstance id record => reply i w (w.setRecord id record) (.ok ())
  | .removeInstance id => reply i w (w.removeRecord id) (.ok ())
  | c => (w, i.answer (.service c))

variable (σ : LaunchSetting T)

/-- What a call of a launch does and answers: those on the records and the rows
as above, the others as in `Routes/Launches.lean`. -/
def performLaunch (t : T) (params : LaunchParams) (i : LedgerInput)
    (w : LedgerWorld T) : (c : LaunchCall) → Option (LedgerWorld T × Except Failure (LaunchReply c))
  | .service c => some (w.service i params.name c)
  | .createInstance protocol =>
    match createInstance (w.records.lookup params.instanceId) params.name params.instanceId none
      (some protocol) w.launch.now with
    | .ok record => some (reply i w (w.setRecord params.instanceId record) (.ok ()))
    | .error error => some (reply i w w (.error (.controlPlane error)))
  | .createRow result =>
    if params.instanceId ∈ w.rows then
      some (reply i w w (.error (.other "duplicate key value violates unique constraint")))
    else some (reply i w (w.insertRow params.instanceId result) (.ok ()))
  | .deleteRow => some (reply i w (w.removeRow params.instanceId) (.ok ()))
  | c => (w.launch.perform σ t ⟨i.answer⟩ c).map fun x => ({ w with launch := x.1 }, x.2)

def perform (t : T) (i : LedgerInput) (w : LedgerWorld T) (c : LaunchCall) :
    Option (LedgerWorld T × Except Failure (LaunchReply c)) :=
  match σ.jobs t with
  | .launch params => w.performLaunch σ t params i c
  | .refresh => (w.launch.perform σ t ⟨i.answer⟩ c).map fun x => ({ w with launch := x.1 }, x.2)

end LedgerWorld

/-! ## Where a launch is -/

/-- What a launch may have left so far. -/
structure LedgerLoc where
  job : Job
  record : Bool := false
  hold : Bool := false
  row : Bool := false
  inserted : Bool := false
deriving DecidableEq

namespace LedgerLoc

def placed (l : LedgerLoc) :
    Except Failure (List WorkerRecord × Option PlacementResult) → LedgerLoc
  | .ok (_, some _) => { l with hold := true }
  | .ok (_, none) | .error _ => l

def after (l : LedgerLoc) : (c : LaunchCall) → Except Failure (LaunchReply c) → LedgerLoc
  | .createInstance _, r => { l with record := l.record || LaunchLoc.succeeded r }
  | .placeAndReserve _ _ _, r => l.placed r
  | .releaseReservations, _ => { l with hold := false }
  | .createRow _, r => { l with row := l.row || LaunchLoc.succeeded r, inserted := true }
  | .deleteRow, _ => { l with row := false }
  | .service (.removeInstance _), _ => { l with record := false }
  | _, _ => l

end LedgerLoc

def ledgerContract (allowed : LedgerLoc → LaunchCall → Prop)
    (expected : LedgerLoc → (c : LaunchCall) → Except Failure (LaunchReply c) → Prop) :
    Contract LaunchCall LaunchReply Failure LedgerLoc where
  allowed := allowed
  expected := expected
  next := LedgerLoc.after

/-! ## The pass -/

/-- How far `getAllInstances` is. -/
inductive RecordsRead where
  | sent
  | scanning (startIds : List String)
  | scanned (keys : List String)
  | read (ids : List String)
deriving DecidableEq

/-- How far `reconcileInstanceTable` is. -/
inductive PassPhase where
  | idle
  /-- The two reads of `Promise.all`: the rows, if they have been answered, and the
  records. -/
  | reading (rows : Option (List String)) (records : RecordsRead)
  | pruning (ids : List String)
deriving DecidableEq

/-- A step of the pass. -/
inductive PassAction where
  | begin
  | readRows
  | scan
  | scanned (keys : List String)
  /-- The pipeline of `GET`s; `none` is one without results, and some of the
  commands may fail. -/
  | get (failing : Option (List String))
  | compare
  | prune (outcome : Outcome)
  | abort
deriving DecidableEq

/-! ## The system -/

/-- The launches, the pass, and what they share. -/
structure LedgerState (T : Type) where
  threads : Threads LaunchCall LaunchReply Failure LedgerLoc (LedgerWorld T) T
  pass : PassPhase := .idle

abbrev LedgerState.world {T : Type} (s : LedgerState T) : LedgerWorld T := s.threads.world

/-- A step of a launch, of the pass, or of something else. -/
inductive LedgerAction (T : Type) where
  | thread (t : T) (i : LedgerInput)
  | pass (a : PassAction)
  | around (e : Surroundings T)
  | removeRecord (id : String)
  | removeRow (id : String)

def passStep {T : Type} (w : LedgerWorld T) : PassPhase → PassAction →
    Option (LedgerWorld T × PassPhase)
  | .idle, .begin => some (w, .reading none .sent)
  | .reading none records, .readRows => some (w, .reading (some w.rows.keys) records)
  | .reading rows .sent, .scan => some (w, .reading rows (.scanning w.records.keys))
  | .reading rows (.scanning startIds), .scanned keys =>
    -- A key that is there all the time is returned; others may be.
    if ∀ id ∈ startIds, id ∈ w.records → id ∉ w.lapsed → id ∈ keys then
      some (w, .reading rows (.scanned keys))
    else none
  | .reading rows (.scanned keys), .get failing =>
    some (w, .reading rows (.read (match failing with
      | none => []
      | some failing => keys.filter fun id => id ∉ failing ∧ id ∈ w.records)))
  | .reading (some rows) (.read ids), .compare =>
    some (w, .pruning (rows.filter fun id => id ∉ ids))
  | .reading _ _, .abort => some (w, .idle)
  | .pruning [], .prune _ => some (w, .idle)
  | .pruning (id :: rest), .prune outcome =>
    match outcome with
    | .answered | .lost => some (w.removeRow id, .pruning rest)
    | .failed => some (w, .pruning rest)
  | _, _ => none

section
variable {T : Type} [DecidableEq T]

def ledgerStep (σ : LaunchSetting T) (s : LedgerState T) : LedgerAction T → Option (LedgerState T)
  | .thread t i =>
    (Threads.step (ledgerContract (fun _ _ => True) fun _ _ _ => True) (LedgerWorld.perform σ)
      s.threads t i).map fun threads => { s with threads }
  | .pass a => (passStep s.world s.pass a).map fun x =>
    { threads := { s.threads with world := x.1 }, pass := x.2 }
  | .around e => (s.world.launch.around (fun _ => true) e).map fun launch =>
    { s with threads := { s.threads with world := { s.world with launch } } }
  | .removeRecord id =>
    some { s with threads := { s.threads with world := s.world.removeRecord id } }
  | .removeRow id => some { s with threads := { s.threads with world := s.world.removeRow id } }

end

/-! ## What the steps leave -/

theorem keepsCall_ofRefresh {allowed expected I} (hallowed : ∀ l c, c.ofRefresh = true → allowed l c) (c : LaunchCall)
    (hc : c.ofRefresh = true) : KeepsCall (ledgerContract allowed expected) I c := by
  refine keepsCall_of_next_eq (fun l _ => hallowed l c hc) fun l r => ?_
  cases c with
  | scanMemoryKeys | getMemoryReports | applyReports | clearBudgets
  | writeClusterMemorySnapshot => rfl
  | _ => exact Bool.noConfusion hc

section
variable {T : Type}

theorem LedgerLoc.job_after (l : LedgerLoc) (c : LaunchCall) (r : Except Failure (LaunchReply c)) :
    (l.after c r).job = l.job := by
  cases c with
  | service c =>
    cases c with
    | _ => rfl
  | placeAndReserve =>
    match r with
    | .error _ | .ok (_, none) | .ok (_, some _) => rfl
  | _ => rfl

theorem LedgerWorld.records_removeRecord (w : LedgerWorld T) {id} (id' : String) :
    id ∈ (w.removeRecord id').records ↔ id ≠ id' ∧ id ∈ w.records := by
  unfold removeRecord
  grind [AList.mem_erase]

theorem passStep_world {w w' : LedgerWorld T} {phase phase' a}
    (h : passStep w phase a = some (w', phase')) :
    w' = w ∨ ∃ id rest, phase = .pruning (id :: rest) ∧ w' = w.removeRow id := by
  unfold passStep at h
  grind

end

/-! ## An example -/

namespace ExampleLaunch

def finds (claims : LaunchClaims) : LedgerInput where
  answer
    | .readClaims => .ok claims
    | c => (goesWell (idleReport.stamped 0)).answer c

def reported : LedgerWorld (Fin 1) where
  launch :=
    { now := 0, allocatedAt := fun _ => none, stopped := fun _ => false, workers := [worker]
      reports := AList.singleton "w" (idleReport.stamped 0) }

theorem distinct_oneLaunch : oneLaunch.DistinctInstances :=
  fun _ _ _ _ _ _ _ => Subsingleton.elim _ _

end ExampleLaunch

end Sardeenz
