/-
# `Sardeenz.Routes.Prune` — rows that are pruned

`reconcileInstanceTable` reads the rows of Postgres and the records of Redis and
deletes the rows without a record.  The two reads are sent together:

    const [pgInstances, redisInstances] = await Promise.all([findAll(), getAllInstances()]);

A launch creates its record first and its row last.  So if the records are read
before a launch begins and the rows after it has inserted its row, the row of a
live instance is deleted.

    lapsed     the instance was without a record at some moment since its row was
               inserted
    removed    the record of the instance has been removed by somebody

**Proved here.**  When a row is pruned only if its instance has lapsed
(`only_lapsed_rows_pruned`), and a pruned row of a live one (`live_row_pruned`).
-/
import Sardeenz.Routes.Ledger

namespace Sardeenz

open Interleave List Option AList LedgerWorld

/-! ## A launch inserts its row once, after its record -/

/-- The row is inserted once, and only after `createInstance` has returned. -/
def LedgerLoc.InsertsOnce (l : LedgerLoc) : LaunchCall → Prop
  | .createRow _ => l.inserted = false ∧ l.record = true
  | _ => True

abbrev rowContract : Contract LaunchCall LaunchReply Failure LedgerLoc :=
  ledgerContract LedgerLoc.InsertsOnce fun _ _ _ => True

def LedgerLoc.Rowless (l : LedgerLoc) : Prop := l.inserted = false ∧ l.record = true

theorem insertsOnce_ofRefresh (l : LedgerLoc) (c : LaunchCall) (hc : c.ofRefresh = true) :
    l.InsertsOnce c := by
  cases c with
  | createRow => exact Bool.noConfusion hc
  | _ => exact trivial

theorem keeps_refreshAll_rows (I : LedgerLoc → Prop) : Keeps rowContract I Launching.refreshAll :=
  Launching.keeps_refreshAll_of (keepsCall_ofRefresh insertsOnce_ofRefresh)

theorem keepsCall_any {c} (hc : ∀ result, c ≠ .createRow result) :
    KeepsCall rowContract (fun _ => True) c := by
  intro l _
  refine ⟨?_, fun _ _ => trivial⟩
  cases c with
  | createRow result => exact absurd rfl (hc result)
  | _ => exact trivial

namespace Launching

theorem keeps_ofService_any {α} :
    ∀ p : Service α, Keeps rowContract (fun _ => True) (ofService p)
  | .done _ => fun _ _ => trivial
  | .call _ k => fun _ _ => ⟨trivial, fun r _ => keeps_ofService_any (k r) _ trivial⟩

end Launching

namespace DeployModelParams

open Launching

theorem keeps_deployFailedHolding {α} (params : DeployModelParams) (ambiguous : Bool)
    (err : Failure) :
    Keeps rowContract (fun _ => True) (params.deployFailedHolding ambiguous err : Launching α) := by
  refine (keeps_ofService_any _).tryCatch fun e => ?_
  split
  · exact (keepsCall_any (c := .retainReservations) nofun).bind fun _ => .throw _
  · exact (keepsCall_any (c := .releaseReservations) nofun).bind fun _ => .throw _

theorem keeps_deployModelHolding (timeouts : Timeouts) (params : DeployModelParams) :
    Keeps rowContract (fun _ => True) (params.deployModelHolding timeouts) := by
  refine ((keeps_ofService_any _).tryCatch fun _ =>
    keeps_deployFailedHolding params _ _).bind fun _ => ?_
  refine ((keeps_ofService_any _).tryCatch fun _ =>
    keeps_deployFailedHolding params _ _).bind fun _ => ?_
  refine .tryCatch ?_ fun _ => keeps_deployFailedHolding params _ _
  exact (keeps_ofService_any _).bind fun _ =>
    (keepsCall_any (c := .releaseReservations) nofun).perform

end DeployModelParams

namespace LaunchParams

open Launching

variable {params : LaunchParams} {l : LedgerLoc}

theorem keeps_assertLaunchAllowed_rows {I} (claims : LaunchClaims) :
    Keeps rowContract I (params.assertLaunchAllowed claims) := by
  unfold assertLaunchAllowed
  split
  · exact .pure _
  · exact .throw _

theorem keeps_assertMoveStillOwned_rows :
    Keeps rowContract (fun _ => True) params.assertMoveStillOwned := by
  unfold assertMoveStillOwned
  split
  · exact .pure _
  · exact (keeps_ofService_any _).bind fun _ => .ite (.pure _) (.throw _)

theorem obeys_recordPlacement_rows (params : LaunchParams) (result : PlacementResult)
    (hl : l.Rowless) :
    Obeys rowContract (fun _ _ => True) (params.recordPlacement result) l := by
  refine obeys_bind.mpr ⟨trivial, fun r _ => ?_⟩
  cases r with
  | error => exact trivial
  | ok => exact ⟨hl, fun _ _ => trivial⟩

def HandsRowless (l : LedgerLoc) : Except Failure Background → Prop
  | .ok (.reclaim _ _) => l.Rowless
  | _ => True

variable (requiredMemory : Nat)

theorem obeys_placeOrReclaim_rows (hl : l.Rowless) :
    Obeys rowContract HandsRowless (params.placeOrReclaim requiredMemory) l := by
  refine (keeps_refreshAll_rows LedgerLoc.Rowless).obeys_bind hl (fun l _ hl => ?_)
    fun _ _ _ => trivial
  refine obeys_bind.mpr ⟨trivial, fun r _ => ?_⟩
  match r with
  | .error e => exact trivial
  | .ok (workers, some result) =>
    have hplaced : LedgerLoc.Rowless { l with hold := true } := hl
    refine obeys_bind.mpr ((obeys_recordPlacement_rows params result hplaced).mono ?_)
    rintro l (e | _) _
    · exact trivial
    refine (keepsCall_any (c := .readClaims) nofun).obeys_bind trivial
      (fun l claims _ => ?_) fun _ _ _ => trivial
    split
    · exact ((keepsCall_any (c := .deleteRow) nofun).perform.tryCatch fun _ =>
        .pure _).obeys_bind trivial (fun _ _ _ => trivial) fun _ _ _ => trivial
    · refine (keeps_assertLaunchAllowed_rows (I := fun _ => True) claims).obeys_bind trivial
        (fun l _ _ => ?_) fun _ _ _ => trivial
      exact keeps_assertMoveStillOwned_rows.obeys_bind trivial (fun _ _ _ => trivial)
        fun _ _ _ => trivial
  | .ok (workers, none) =>
    change Obeys rowContract _ (ite _ _ _) l
    split
    · exact trivial
    · split
      · exact trivial
      · refine obeys_bind.mpr ⟨trivial, fun r _ => ?_⟩
        cases r with
        | error e => exact trivial
        | ok =>
          change Obeys rowContract _ (ite _ _ _) l
          split
          · exact trivial
          · exact hl

theorem obeys_requestPart_rows (protocol : Protocol) (hl : l.inserted = false) :
    Obeys rowContract HandsRowless (params.requestPart requiredMemory protocol) l := by
  refine obeys_bind.mpr (obeys_tryCatch.mpr ⟨trivial, fun r _ => ?_⟩)
  cases r with
  | error e =>
    exact (keepsCall_any (c := .releaseReservations) nofun).obeys_bind trivial
      (fun _ _ _ => trivial) fun _ _ _ => trivial
  | ok =>
    have hrowless : LedgerLoc.Rowless { l with record := l.record || true } :=
      ⟨hl, Bool.or_true _⟩
    refine (obeys_placeOrReclaim_rows requiredMemory hrowless).tryCatch (fun _ _ h => h)
      fun l e _ => ?_
    refine ((keeps_ofService_any _).tryCatch fun _ => .pure _).obeys_bind trivial
      (fun l _ _ => ?_) fun _ _ _ => trivial
    exact (keepsCall_any (c := .releaseReservations) nofun).obeys_bind trivial
      (fun _ _ _ => trivial) fun _ _ _ => trivial

theorem obeys_reclaimCapacity_rows {timeouts requiredMemory protocol workers victims} (hl : l.Rowless) :
    Obeys rowContract (fun _ _ => True)
      (params.reclaimCapacity timeouts requiredMemory protocol workers victims) l := by
  have hevict : KeepsCall rowContract LedgerLoc.Rowless (.evictVictims victims) :=
    keepsCall_of_next_eq (fun _ _ => trivial) fun _ _ => rfl
  refine hevict.obeys_bind hl (fun l _ hl => ?_) fun _ _ _ => trivial
  refine (keeps_refreshAll_rows LedgerLoc.Rowless).obeys_bind hl (fun l _ hl => ?_)
    fun _ _ _ => trivial
  refine obeys_bind.mpr ⟨trivial, fun r _ => ?_⟩
  match r with
  | .error e | .ok (_, none) => exact trivial
  | .ok (_, some result) =>
    have hplaced : LedgerLoc.Rowless { l with hold := true } := hl
    refine obeys_bind.mpr ((obeys_recordPlacement_rows params result hplaced).mono ?_)
    rintro l (e | _) _
    · exact trivial
    refine ((keepsCall_any (c := .readClaims) nofun).bind fun claims =>
      .ite ?_ ?_) l trivial
    · refine (keepsCall_any (c := .releaseReservations) nofun).bind fun _ => ?_
      exact (keeps_ofService_any _).bind fun _ => keeps_ofService_any _
    · exact (keeps_assertLaunchAllowed_rows claims).bind fun _ =>
        DeployModelParams.keeps_deployModelHolding timeouts _

/-- **A launch inserts its row once, and after its record.** -/
theorem obeys_deployFromRecord_rows (timeouts : Timeouts) (hl : l.inserted = false) :
    Obeys rowContract (fun _ _ => True) (params.deployFromRecord timeouts) l := by
  have hclaims : KeepsCall rowContract (·.inserted = false) .readClaims :=
    keepsCall_of_next_eq (fun _ _ => trivial) fun _ _ => rfl
  have hmeta : KeepsCall rowContract (·.inserted = false) .resolveRunnerMetadata :=
    keepsCall_of_next_eq (fun _ _ => trivial) fun _ _ => rfl
  refine hclaims.obeys_bind hl (fun l claims hl => ?_) fun _ _ _ => trivial
  refine (keeps_assertLaunchAllowed_rows (I := (·.inserted = false)) claims).obeys_bind hl
    (fun l _ hl => ?_) fun _ _ _ => trivial
  split
  · split
    · refine hmeta.obeys_bind hl (fun l protocol hl => ?_) fun _ _ _ => trivial
      refine obeys_bind.mpr ((obeys_requestPart_rows _ protocol hl).mono ?_)
      rintro l (e | task) htask
      · exact trivial
      · cases task with
        | deploy => exact DeployModelParams.keeps_deployModelHolding timeouts _ l trivial
        | reclaim =>
          exact (obeys_reclaimCapacity_rows htask).tryCatch (fun _ _ _ => trivial)
            fun l _ _ => keeps_ofService_any _ l trivial
    · exact trivial
  · exact trivial

end LaunchParams

/-! ## What the writes keep -/

section
variable {T : Type}

namespace LedgerWorld

variable {w w' : LedgerWorld T} {id : String}

/-- The ghosts say what they should: a row without a record has lapsed, and what
has lapsed had its record removed. -/
structure Honest (w : LedgerWorld T) : Prop where
  gap : ∀ id ∈ w.rows, id ∉ w.records → id ∈ w.lapsed
  lapsed : ∀ id ∈ w.lapsed, id ∈ w.removed

def Known (w : LedgerWorld T) (id : String) : Prop := id ∈ w.records ∨ id ∈ w.removed

/-- What a write of a launch, of the pass or of somebody else does. -/
inductive Writes (w : LedgerWorld T) (instanceId : String) : Bool → LedgerWorld T → Prop
  | same (launch : LaunchWorld T) : Writes w instanceId false { w with launch }
  | set (id : String) (record : InstanceState) : Writes w instanceId false (w.setRecord id record)
  | remove (id : String) : Writes w instanceId false (w.removeRecord id)
  | delete (id : String) : Writes w instanceId false (w.removeRow id)
  | insert (result : PlacementResult) :
      Writes w instanceId true (w.insertRow instanceId result)

theorem rows_removeRecord (w : LedgerWorld T) (id : String) : (w.removeRecord id).rows = w.rows := by
  unfold removeRecord
  split
  · rfl
  · rfl

variable {id' : String}

theorem lapsed_removeRecord :
    id ∈ (w.removeRecord id').lapsed ↔ id ∈ w.lapsed ∨ id = id' ∧ id' ∈ w.records := by
  grind [removeRecord]

theorem removed_removeRecord :
    id ∈ (w.removeRecord id').removed ↔ id ∈ w.removed ∨ id = id' ∧ id' ∈ w.records := by
  grind [removeRecord]

section
variable {instanceId : String} {inserts : Bool}

section
variable (h : w.Writes instanceId inserts w')
include h

theorem Writes.known (hk : w.Known id) : w'.Known id := by
  cases h with
  | same | delete | insert => exact hk
  | set id' => exact hk.imp_left fun hmem => (mem_insert _).mpr (.inr hmem)
  | remove id' =>
    grind [Known, records_removeRecord, removed_removeRecord]

theorem Writes.mem_rows (hmem : id ∈ w'.rows) : id ∈ w.rows ∨ inserts = true ∧ id = instanceId := by
  cases h with
  | same | set => exact .inl hmem
  | remove id' =>
    rw [rows_removeRecord] at hmem
    exact .inl hmem
  | delete id' => exact .inl (mem_erase.mp hmem).2
  | insert =>
    rcases (mem_insert _).mp hmem with rfl | hmem
    · exact .inr ⟨rfl, rfl⟩
    · exact .inl hmem

theorem Writes.lapsed (hmem : id ∈ w.lapsed) :
    id ∈ w'.lapsed ∨ inserts = true ∧ id = instanceId := by
  cases h with
  | same | set | delete => exact .inl hmem
  | remove => exact .inl (lapsed_removeRecord.mpr (.inl hmem))
  | insert =>
    grind [insertRow]

end

theorem Honest.removeRecord (hw : w.Honest) (id' : String) : (w.removeRecord id').Honest := by
  refine ⟨fun id hrow hrecord => ?_, fun id hlapsed => ?_⟩
  · rw [rows_removeRecord] at hrow
    rw [records_removeRecord] at hrecord
    refine lapsed_removeRecord.mpr ?_
    by_cases hmem : id ∈ w.records
    · grind
    · exact .inl (hw.gap id hrow hmem)
  · exact removed_removeRecord.mpr ((lapsed_removeRecord.mp hlapsed).imp_left (hw.lapsed id))

theorem Honest.insertRow (hw : w.Honest) (hk : w.Known id')
    (result : PlacementResult) : (w.insertRow id' result).Honest := by
  by_cases hmem : id' ∈ w.records
  · refine ⟨fun id hrow hrecord => ?_, fun id hlapsed => ?_⟩
    · grind [mem_insert, insertRow, hw.gap]
    · grind [insertRow, hw.lapsed]
  · refine ⟨fun id hrow hrecord => ?_, fun id hlapsed => ?_⟩
    · grind [insertRow, mem_insert, hw.gap]
    · simp only [LedgerWorld.insertRow, if_neg hmem] at hlapsed
      rcases Finset.mem_insert.mp hlapsed with rfl | hlapsed
      · exact hk.resolve_left hmem
      · exact hw.lapsed id hlapsed

theorem Writes.honest (h : w.Writes instanceId inserts w') (hw : w.Honest)
    (hk : inserts = true → w.Known instanceId) : w'.Honest := by
  cases h with
  | same => exact ⟨hw.gap, hw.lapsed⟩
  | set id' =>
    exact ⟨fun id hrow hrecord => hw.gap id hrow fun hmem =>
      hrecord ((mem_insert _).mpr (.inr hmem)), hw.lapsed⟩
  | remove id' => exact hw.removeRecord id'
  | delete id' => exact ⟨fun id hrow => hw.gap id (mem_erase.mp hrow).2, hw.lapsed⟩
  | insert result => exact hw.insertRow (hk rfl) result

variable {after : LedgerWorld T} {α : Type} {i : LedgerInput} {r : Except Failure α}

section
variable {r' : Except Failure α} (hr : LedgerWorld.reply i w after r = (w', r'))
include hr

theorem Writes.reply (h : w.Writes instanceId inserts after) :
    w.Writes instanceId inserts w' ∨ w' = w := by
  unfold LedgerWorld.reply at hr
  grind

theorem Writes.ofReply (h : w.Writes instanceId false after) : w.Writes instanceId false w' := by
  rcases Writes.reply hr h with h | rfl
  · exact h
  · exact .same _

end

theorem after_of_answered {a} (h : reply i w after r = (w', .ok a)) :
    w' = after := by
  grind [reply]

/-! ### Calls -/

variable {σ : LaunchSetting T} {t : T} {i : LedgerInput} {c : LaunchCall}
  {r : Except Failure (LaunchReply c)} {params : LaunchParams}

theorem Writes.ofLaunch (σ : LaunchSetting T) (t : T)
    (hp : (w.launch.perform σ t ⟨i.answer⟩ c).map (fun x => ({ w with launch := x.1 }, x.2)) =
      some (w', r)) : w.Writes instanceId false w' := by
  obtain ⟨⟨launch, _⟩, -, hpair⟩ := map_eq_some_iff.mp hp
  obtain ⟨rfl, -⟩ := Prod.mk.inj hpair
  exact .same launch

theorem Writes.ofService {c r modelName}
    (hp : w.service i modelName c = (w', r)) : w.Writes instanceId false w' := by
  cases c with
  | getInstance id => exact .ofReply hp (.same _)
  | transition id =>
    simp only [service] at hp
    split at hp
    · exact .ofReply hp (.set id _)
    · exact .ofReply hp (.same _)
  | writeInstance id record => exact .ofReply hp (.set id record)
  | removeInstance id => exact .ofReply hp (.remove id)
  | _ =>
    obtain ⟨rfl, -⟩ := Prod.mk.inj hp
    exact .same _

section
variable (hjob : σ.jobs t = .launch params) (hp : w.perform σ t i c = some (w', r))
include hjob hp

theorem Writes.ofPerform : (∃ result, c = .createRow result ∧ w.Writes params.instanceId true w') ∨
      w.Writes params.instanceId false w' := by
  rw [LedgerWorld.perform, hjob] at hp
  have hlaunch : (w.launch.perform σ t ⟨i.answer⟩ c).map (fun x => ({ w with launch := x.1 }, x.2)) =
    some (w', r) → w.Writes params.instanceId false w' := .ofLaunch σ t
  cases c with
  | service c => exact .inr (.ofService (Option.some.inj hp))
  | createInstance =>
    simp only [performLaunch] at hp
    split at hp
    · exact .inr (.ofReply (Option.some.inj hp) (.set _ _))
    · exact .inr (.ofReply (Option.some.inj hp) (.same _))
  | createRow result =>
    simp only [performLaunch] at hp
    split at hp
    · exact .inr (.ofReply (Option.some.inj hp) (.same _))
    · rcases Writes.reply (Option.some.inj hp) (.insert result) with h | rfl
      · exact .inl ⟨result, rfl, h⟩
      · exact .inr (.same _)
  | deleteRow => exact .inr (.ofReply (Option.some.inj hp) (.delete _))
  | _ => exact .inr (hlaunch hp)

theorem known_of_created {l : LedgerLoc} (hl : (l.after c r).record = true)
    (hk : l.record = true → w.Known params.instanceId) : w'.Known params.instanceId := by
  have hkept : l.record = true → w'.Known params.instanceId := by
    intro hl
    rcases Writes.ofPerform hjob hp with ⟨_, -, h⟩ | h
    all_goals exact h.known (hk hl)
  cases c with
  | createInstance =>
    rw [LedgerWorld.perform, hjob] at hp
    cases r with
    | error => exact hkept (by simpa [LedgerLoc.after, LaunchLoc.succeeded] using hl)
    | ok =>
      simp only [performLaunch] at hp
      split at hp
      · obtain rfl := after_of_answered (Option.some.inj hp)
        exact .inl ((mem_insert _).mpr (.inl rfl))
      · grind [reply]
  | service c =>
    cases c with
    | removeInstance => cases hl
    | _ => exact hkept hl
  | placeAndReserve =>
    rcases r with _ | ⟨_, _ | _⟩
    all_goals exact hkept hl
  | _ => exact hkept hl

end

end

end LedgerWorld

/-! ## The pass -/

namespace PassPhase

def rowsRead : PassPhase → Bool
  | .reading (some _) _ => true
  | _ => false

def rowIds : PassPhase → List String
  | .reading (some rows) _ => rows
  | .pruning ids => ids
  | _ => []

end PassPhase

/-- Of the rows that were read, those still there are among the ids or have
lapsed. -/
def LedgerWorld.Covered (w : LedgerWorld T) (rows ids : List String) : Prop :=
  ∀ id ∈ rows, id ∈ w.rows → id ∈ ids ∨ id ∈ w.lapsed

def LedgerWorld.PassOk (w : LedgerWorld T) : PassPhase → Prop
  | .idle | .reading _ .sent => True
  | .reading (some rows) (.scanning ids) | .reading (some rows) (.scanned ids)
  | .reading (some rows) (.read ids) => w.Covered rows ids
  | .reading none _ => False
  | .pruning ids => w.Covered ids []

/-- **The pass reads the rows first**, and no `GET` fails. -/
def ReadsRowsFirst (s : LedgerState T) : LedgerAction T → Prop
  | .pass .scan => s.pass.rowsRead = true
  | .pass (.get failing) => failing = some []
  | _ => True

instance (s : LedgerState T) (a : LedgerAction T) : Decidable (ReadsRowsFirst s a) := by
  unfold ReadsRowsFirst
  split <;> infer_instance

namespace LedgerWorld

variable {w w' : LedgerWorld T} {phase phase' : PassPhase}

section
variable {instanceId : String} {inserts : Bool} {rows ids : List String}

theorem Covered.writes (h : w.Covered rows ids) (hw : w.Writes instanceId inserts w')
    (hnew : inserts = true → instanceId ∉ rows) : w'.Covered rows ids := by
  intro id hid hrow
  have hnot : ¬ (inserts = true ∧ id = instanceId) := by
    grind
  have hrow : id ∈ w.rows := (hw.mem_rows hrow).resolve_right hnot
  exact (h id hid hrow).imp_right fun hlapsed => (hw.lapsed hlapsed).resolve_right hnot

theorem PassOk.writes (h : w.PassOk phase) (hw : w.Writes instanceId inserts w')
    (hnew : inserts = true → instanceId ∉ phase.rowIds) : w'.PassOk phase := by
  match phase, h with
  | .idle, _ | .reading _ .sent, _ => exact trivial
  | .reading (some rows) (.scanning ids), h | .reading (some rows) (.scanned ids), h
  | .reading (some rows) (.read ids), h | .pruning ids, h => exact Covered.writes h hw hnew

theorem Covered.narrow (h : w.Covered rows ids) (hw : w.Honest) {ids'}
    (hkept : ∀ id ∈ ids, id ∈ w.records → id ∉ w.lapsed → id ∈ ids') : w.Covered rows ids' := by
  intro id hid hrow
  by_cases hlapsed : id ∈ w.lapsed
  · exact .inr hlapsed
  have hrecord : id ∈ w.records := not_not.mp fun hnot => hlapsed (hw.gap id hrow hnot)
  exact .inl (hkept id ((h id hid hrow).resolve_right hlapsed) hrecord hlapsed)

end

/-- **One step of the pass.** -/
theorem PassOk.step (h : w.PassOk phase) (hw : w.Honest) {a}
    (hscan : a = .scan → phase.rowsRead = true)
    (hget : ∀ failing, a = .get failing → failing = some [])
    (hs : passStep w phase a = some (w', phase')) :
    w'.PassOk phase' ∧ w.Writes "" false w' ∧
      ∀ id ∈ phase'.rowIds, id ∈ phase.rowIds ∨ id ∈ w.rows := by
  unfold passStep at hs
  split at hs
  case h_1 =>
    cases hs
    exact ⟨trivial, .same _, fun id hid => nomatch hid⟩
  case h_2 records =>
    cases hs
    refine ⟨?_, .same _, fun id hid => .inr (mem_keys.mpr hid)⟩
    match records, h with
    | .sent, _ => exact trivial
  case h_3 rows =>
    cases hs
    match rows, hscan rfl with
    | some rows, _ =>
      refine ⟨fun id hid hrow => ?_, .same _, fun id hid => .inl hid⟩
      by_cases hrecord : id ∈ w.records
      · exact .inl (mem_keys.mp hrecord)
      · exact .inr (hw.gap id hrow hrecord)
  case h_4 rows startIds keys =>
    obtain ⟨hkeys, hs⟩ := ite_none_right_eq_some.mp hs
    cases hs
    match rows, h with
    | some rows, h =>
      exact ⟨Covered.narrow h hw hkeys, .same _, fun id hid => .inl hid⟩
  case h_5 rows keys failing =>
    cases hs
    obtain rfl := hget failing rfl
    match rows, h with
    | some rows, h =>
      refine ⟨Covered.narrow h hw fun id hid hrecord _ => ?_, .same _, fun id hid => .inl hid⟩
      exact mem_filter.mpr ⟨hid, decide_eq_true ⟨not_mem_nil, hrecord⟩⟩
  case h_6 rows ids =>
    cases hs
    refine ⟨fun id hid hrow => ?_, .same _, fun id hid => .inl (mem_filter.mp hid).1⟩
    obtain ⟨hrows, hids⟩ := mem_filter.mp hid
    exact .inr ((h id hrows hrow).resolve_left (of_decide_eq_true hids))
  case h_7 =>
    cases hs
    exact ⟨trivial, .same _, fun id hid => nomatch hid⟩
  case h_8 =>
    cases hs
    exact ⟨trivial, .same _, fun id hid => nomatch hid⟩
  case h_9 id rest outcome =>
    have hrest : w.Covered rest [] := fun id' hid' => h id' (mem_cons_of_mem _ hid')
    have hdelete : w.Writes "" false (w.removeRow id) := .delete id
    cases outcome with
    | answered | lost =>
      cases hs
      exact ⟨hrest.writes hdelete nofun, hdelete, fun _ hid' => .inl (mem_cons_of_mem _ hid')⟩
    | failed =>
      cases hs
      exact ⟨hrest, .same _, fun _ hid' => .inl (mem_cons_of_mem _ hid')⟩
  case h_10 => exact nomatch hs

end LedgerWorld

/-! ## Launches and the pass side by side -/

def LaunchSetting.ledger (σ : LaunchSetting T) (w : LedgerWorld T) : LedgerState T where
  threads := { world := w, prog := σ.program, loc := fun t => { job := σ.jobs t } }

def LedgerWorld.RowsNew (w : LedgerWorld T) (σ : LaunchSetting T) : Prop :=
  ∀ t params, σ.jobs t = .launch params → params.instanceId ∉ w.rows

/-- What holds between the steps. -/
structure PruneInv (σ : LaunchSetting T) (s : LedgerState T) : Prop where
  obey : s.threads.Obey rowContract fun _ _ _ => True
  new : ∀ t params, σ.jobs t = .launch params → (s.threads.loc t).inserted = false →
    params.instanceId ∉ s.world.rows ∧ params.instanceId ∉ s.pass.rowIds
  created : ∀ t params, σ.jobs t = .launch params → (s.threads.loc t).record = true →
    s.world.Known params.instanceId
  honest : s.world.Honest
  pass : s.world.PassOk s.pass

variable {w : LedgerWorld T}

theorem PruneInv.start {σ} (hw : w.Honest)
    (hnew : w.RowsNew σ) : PruneInv σ (σ.ledger w) where
  obey t := by
    change Obeys rowContract _ (σ.program t) { job := σ.jobs t }
    unfold LaunchSetting.program
    split
    · exact LaunchParams.obeys_deployFromRecord_rows _ rfl
    · exact (keeps_refreshAll_rows (fun _ => True) _ trivial).mono fun _ _ _ => trivial
  new t params hjob _ := ⟨hnew t params hjob, not_mem_nil⟩
  created _ _ _ h := nomatch h
  honest := hw
  pass := trivial

theorem LedgerLoc.inserted_after {l : LedgerLoc} {c r} (h : (l.after c r).inserted = false) :
    l.inserted = false ∧ ∀ result, c ≠ .createRow result := by
  cases c with
  | createRow => cases h
  | service c =>
    cases c with
    | _ => exact ⟨h, nofun⟩
  | placeAndReserve =>
    match r with
    | .error _ | .ok (_, none) | .ok (_, some _) => exact ⟨h, nofun⟩
  | _ => exact ⟨h, nofun⟩

variable {σ : LaunchSetting T} {s s' : LedgerState T}

theorem PruneInv.writes (h : PruneInv σ s) {phase}
    (hw : s.world.Writes "" false w) (hpass : w.PassOk phase)
    (hids : ∀ id ∈ phase.rowIds, id ∈ s.pass.rowIds ∨ id ∈ s.world.rows) :
    PruneInv σ { threads := { s.threads with world := w }, pass := phase } where
  obey := h.obey
  new t params hjob hl := by
    obtain ⟨hrow, hid⟩ := h.new t params hjob hl
    refine ⟨fun hmem => ?_, fun hmem => ?_⟩
    · rcases hw.mem_rows hmem with hmem | ⟨hinserts, -⟩
      · exact hrow hmem
      · cases hinserts
    · exact (hids _ hmem).elim hid hrow
  created t params hjob hl := hw.known (h.created t params hjob hl)
  honest := hw.honest h.honest nofun
  pass := hpass

theorem PruneInv.ofPerform (h : PruneInv σ s) {t i c r}
    (hc : (s.threads.loc t).InsertsOnce c) (hsem : s.world.perform σ t i c = some (w, r)) :
    ∃ instanceId inserts, s.world.Writes instanceId inserts w ∧
      (inserts = true → (∃ result, c = .createRow result) ∧
        ∃ params, σ.jobs t = .launch params ∧ instanceId = params.instanceId) ∧
      w.Honest ∧ w.PassOk s.pass := by
  cases hjob : σ.jobs t with
  | refresh =>
    rw [LedgerWorld.perform, hjob] at hsem
    have hw : s.world.Writes "" false w := .ofLaunch σ t hsem
    exact ⟨"", false, hw, nofun, hw.honest h.honest nofun, h.pass.writes hw nofun⟩
  | launch params =>
    rcases LedgerWorld.Writes.ofPerform hjob hsem with ⟨result, rfl, hw⟩ | hw
    · obtain ⟨hinserted, hrecord⟩ := hc
      exact ⟨_, true, hw, fun _ => ⟨⟨result, rfl⟩, params, rfl, rfl⟩,
        hw.honest h.honest fun _ => h.created t params hjob hrecord,
        h.pass.writes hw fun _ => (h.new t params hjob hinserted).2⟩
    · exact ⟨_, false, hw, nofun, hw.honest h.honest nofun, h.pass.writes hw nofun⟩

variable [DecidableEq T]

theorem PruneInv.thread (h : PruneInv σ s) (hid : σ.DistinctInstances) {t i}
    (hs : ledgerStep σ s (.thread t i) = some s') : PruneInv σ s' := by
  obtain ⟨threads, hstep, rfl⟩ := map_eq_some_iff.mp hs
  obtain ⟨hobey, hrest⟩ := Threads.step_obey (J := fun threads =>
      threads.Obey rowContract (fun _ _ _ => True) → PruneInv σ { s with threads }) h.obey
    (fun c w r _ hallowed _ hsem => by
      refine ⟨trivial, fun p hobey => ?_⟩
      obtain ⟨_, _, hw, hinserts, hhonest, hpass⟩ := h.ofPerform hallowed hsem
      refine ⟨hobey, fun u params hu hl => ?_, fun u params hu hl => ?_, hhonest, hpass⟩
      · -- A row that is new now was inserted in this step, by the launch it belongs to.
        have hnew : (s.threads.loc u).inserted = false ∧
            (u = t → ∀ result, c ≠ .createRow result) := by
          by_cases hut : u = t
          · subst hut
            simp only [Threads.put, Function.update_self] at hl
            exact (LedgerLoc.inserted_after hl).imp_right fun hnone _ => hnone
          · simp only [Threads.put, Function.update_of_ne hut] at hl
            exact ⟨hl, fun h => absurd h hut⟩
        obtain ⟨hrow, hids⟩ := h.new u params hu hnew.1
        refine ⟨fun hmem => ?_, hids⟩
        rcases hw.mem_rows hmem with hmem | ⟨hins, hown⟩
        · exact hrow hmem
        · obtain ⟨⟨result, hresult⟩, params', ht, rfl⟩ := hinserts hins
          exact hnew.2 (hid u t params params' hu ht hown) result hresult
      · by_cases hut : u = t
        · subst hut
          simp only [Threads.put, Function.update_self] at hl
          exact known_of_created hu hsem hl (h.created u params hu)
        · simp only [Threads.put, Function.update_of_ne hut] at hl
          exact hw.known (h.created u params hu hl)) hstep
  exact hrest hobey

theorem PruneInv.step (h : PruneInv σ s) (hid : σ.DistinctInstances) {a}
    (hok : ReadsRowsFirst s a) (hs : ledgerStep σ s a = some s') : PruneInv σ s' := by
  cases a with
  | thread => exact h.thread hid hs
  | pass a =>
    obtain ⟨⟨w, _⟩, hpass, rfl⟩ := map_eq_some_iff.mp hs
    obtain ⟨hphase, hw, hids⟩ := h.pass.step h.honest
      (by
        rintro rfl
        exact hok)
      (by
        rintro _ rfl
        exact hok) hpass
    exact h.writes hw hphase hids
  | around =>
    obtain ⟨launch, -, rfl⟩ := map_eq_some_iff.mp hs
    have hw : s.world.Writes "" false { s.world with launch } := .same launch
    exact h.writes hw (h.pass.writes hw nofun) fun _ => .inl
  | removeRecord id =>
    cases hs
    have hw : s.world.Writes "" false (s.world.removeRecord id) := .remove id
    exact h.writes hw (h.pass.writes hw nofun) fun _ => .inl
  | removeRow id =>
    cases hs
    have hw : s.world.Writes "" false (s.world.removeRow id) := .delete id
    exact h.writes hw (h.pass.writes hw nofun) fun _ => .inl

/-- **The ledger does not lose a live instance.**  In every run in which the pass
scans the records after it has read the rows, and no `GET` fails, the row that
the pass is about to delete has been without a record at some moment since it was
inserted, because the record was removed. -/
theorem only_lapsed_rows_pruned (hid : σ.DistinctInstances) (hw : w.Honest)
    (hnew : w.RowsNew σ) (hr : Reach (ledgerStep σ) ReadsRowsFirst (σ.ledger w) s) {id : String}
    {rest : List String} (hpass : s.pass = .pruning (id :: rest)) (hrow : id ∈ s.world.rows) :
    id ∈ s.world.lapsed ∧ id ∈ s.world.removed := by
  have hinv : PruneInv σ s := hr.inductive_inv (.start hw hnew) fun h hok hs => h.step hid hok hs
  have hok : s.world.PassOk (.pruning (id :: rest)) := hpass ▸ hinv.pass
  have hlapsed : id ∈ s.world.lapsed :=
    (hok id mem_cons_self hrow).resolve_left not_mem_nil
  exact ⟨hlapsed, hinv.honest.lapsed id hlapsed⟩

end

/-! ## A stopped instance, and a live one -/

namespace ExampleLaunch

def toRow : List (LedgerAction (Fin 1)) := List.replicate 10 (.thread lone (finds {}))

/-- A launch, whose record is removed, and then a pass that reads the rows first. -/
def stoppedMeanwhile : List (LedgerAction (Fin 1)) :=
  toRow ++ [.removeRecord "a", .pass .begin, .pass .readRows, .pass .scan, .pass (.scanned []),
    .pass (.get (some [])), .pass .compare]

theorem honest_reported : reported.Honest := ⟨nofun, nofun⟩

theorem rowsNew_reported : reported.RowsNew oneLaunch := fun _ _ _ hmem => nomatch hmem

theorem stoppedMeanwhile_isSome :
    (exec (guarded (ledgerStep oneLaunch) ReadsRowsFirst) (oneLaunch.ledger reported)
      stoppedMeanwhile).isSome := by
  decide +kernel

/-- The row of a stopped instance is pruned. -/
theorem stoppedMeanwhile_lapsed :
    let s := (exec (guarded (ledgerStep oneLaunch) ReadsRowsFirst) (oneLaunch.ledger reported)
      stoppedMeanwhile).get stoppedMeanwhile_isSome
    s.pass = .pruning ["a"] ∧ "a" ∈ s.world.rows ∧
      "a" ∈ s.world.lapsed ∧ "a" ∈ s.world.removed := by
  intro s
  have hpass : s.pass = .pruning ["a"] := by decide +kernel
  have hrow : "a" ∈ s.world.rows := by decide +kernel
  exact ⟨hpass, hrow, only_lapsed_rows_pruned distinct_oneLaunch honest_reported rowsNew_reported
    (reach_get stoppedMeanwhile_isSome) hpass hrow⟩

/-- The pass scans the records before the launch creates its own, and reads the
rows after the launch has inserted its row. -/
def readsRowsLast : List (LedgerAction (Fin 1)) :=
  [.pass .begin, .pass .scan, .pass (.scanned []), .pass (.get (some []))] ++ toRow ++
    [.pass .readRows, .pass .compare]

/-- **A live row is pruned.**  The instance is starting, its record has been there
since before its row was inserted, and the pass deletes the row. -/
theorem live_row_pruned :
    (exec (ledgerStep oneLaunch) (oneLaunch.ledger reported) readsRowsLast).map (fun s =>
        (s.pass, s.world.rows.keys, (s.world.records.lookup "a").map (·.state),
          decide ("a" ∈ s.world.lapsed), decide ("a" ∈ s.world.removed))) =
      some (.pruning ["a"], ["a"], some .starting, false, false) ∧
    (exec (ledgerStep oneLaunch) (oneLaunch.ledger reported)
      (readsRowsLast ++ [.pass (.prune .answered)])).map (fun s =>
        (s.world.rows.keys, s.world.records.keys)) = some ([], ["a"]) := by
  decide +kernel

end ExampleLaunch

end Sardeenz
