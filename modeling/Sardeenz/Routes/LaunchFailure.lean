/-
# `Sardeenz.Routes.LaunchFailure` — what a launch that throws leaves behind

The outer `catch` of `deployFromRecord` removes the record, if `createInstance`
has returned, and releases the hold.  The row is removed in one branch only, that
of a delete which has begun meanwhile:

    after the row     a delete is claimed             the row is deleted, 409
                      a move or an update is claimed  409
                      the move operation is lost      409

**Proved here.**  When a request that throws leaves no record, no row and no hold
(`failed_launch_leaves_nothing`), and one that leaves its row
(`configuration_update_leaves_row`).
-/
import Sardeenz.Routes.Ledger

namespace Sardeenz

open Interleave

/-! ## What a request does -/

def Call.ofRequest (instanceId : String) : Call → Prop
  | .transition id _ _ => id = instanceId
  | .removeInstance id => id = instanceId
  | .getMoveOperation => True
  | _ => False

def LaunchParams.goesOn (params : LaunchParams) (claims : LaunchClaims) : Bool :=
  claims.deleting || LaunchLoc.succeeded (params.launchAllowed claims)

def LedgerLoc.Requests (l : LedgerLoc) : LaunchCall → Prop
  | .service c => ∃ params, l.job = .launch params ∧ c.ofRequest params.instanceId
  | _ => True

def LedgerLoc.Finds (l : LedgerLoc) : (c : LaunchCall) → Except Failure (LaunchReply c) → Prop
  | .readClaims, r => ∃ claims, r = .ok claims ∧
      (l.row = true → ∀ params, l.job = .launch params → params.goesOn claims = true)
  | .service .getMoveOperation, r => l.row = true → ∀ params, l.job = .launch params →
      ∃ operation, r = .ok operation ∧ operation.map (·.operationId) = params.moveOperationId
  | _, _ => True

abbrev requestContract : Contract LaunchCall LaunchReply Failure LedgerLoc :=
  ledgerContract LedgerLoc.Requests LedgerLoc.Finds

theorem requests_ofRefresh (l : LedgerLoc) (c : LaunchCall) (hc : c.ofRefresh = true) :
    l.Requests c := by
  cases c with
  | service => exact Bool.noConfusion hc
  | _ => exact trivial

theorem keeps_refreshAll_request (I : LedgerLoc → Prop) :
    Keeps requestContract I Launching.refreshAll :=
  Launching.keeps_refreshAll_of (keepsCall_ofRefresh requests_ofRefresh)

def LedgerLoc.Clean {α : Type} (l : LedgerLoc) : Except Failure α → Prop
  | .ok _ => True
  | .error _ => l.record = false ∧ l.hold = false ∧ l.row = false

namespace LaunchParams

open Launching

variable {params : LaunchParams} {l : LedgerLoc}

/-- The launch has left nothing yet. -/
structure Bare (params : LaunchParams) (l : LedgerLoc) : Prop where
  job : l.job = .launch params
  record : l.record = false
  hold : l.hold = false
  row : l.row = false

/-- What the outer `catch` cannot undo has not been done. -/
structure Rowless (params : LaunchParams) (l : LedgerLoc) : Prop where
  job : l.job = .launch params
  row : l.row = false

theorem keeps_assertLaunchAllowed_bare (claims : LaunchClaims) :
    Keeps requestContract (Bare params) (params.assertLaunchAllowed claims) := by
  unfold assertLaunchAllowed
  split
  · exact .pure _
  · exact .throw _

def Undoable {α : Type} (params : LaunchParams) (l : LedgerLoc) : Except Failure α → Prop
  | .ok _ => True
  | .error _ => Rowless params l

theorem obeys_assertMoveStillOwned (hjob : l.job = .launch params) (hrow : l.row = true) :
    Obeys requestContract (fun _ r => r = .ok ()) params.assertMoveStillOwned l := by
  unfold assertMoveStillOwned
  split
  · rfl
  · rename_i operationId hmove
    refine obeys_bind.mpr ⟨⟨params, hjob, trivial⟩, fun r hr => ?_⟩
    obtain ⟨_, rfl, _⟩ := hr hrow params hjob
    change Obeys requestContract _ (ite _ _ _) l
    simp_all

variable (result : PlacementResult)

theorem obeys_checks (hjob : l.job = .launch params) (hrow : l.row = true) :
    Obeys requestContract (Undoable params) (do
        let claims ← request .readClaims
        if claims.deleting then
          ignoringErrors (request .deleteRow)
          throwControlPlane params.deleteInProgress
        else
          params.assertLaunchAllowed claims
          params.assertMoveStillOwned
          pure (Background.deploy result)) l := by
  refine obeys_bind.mpr ⟨trivial, fun r hr => ?_⟩
  obtain ⟨claims, rfl, hgoes⟩ := hr
  have hclaims : params.goesOn claims = true := hgoes hrow params hjob
  change Obeys requestContract _ (ite _ _ _) l
  cases hdeleting : claims.deleting with
  | true =>
    refine obeys_bind.mpr (obeys_tryCatch.mpr ⟨trivial, fun r _ => ?_⟩)
    cases r with
    | error e | ok _ => exact ⟨hjob, rfl⟩
  | false =>
    rw [goesOn, hdeleting] at hclaims
    unfold assertLaunchAllowed
    cases hallowed : params.launchAllowed claims with
    | error e =>
      rw [hallowed] at hclaims
      exact Bool.noConfusion hclaims
    | ok =>
      change Obeys requestContract _
        (params.assertMoveStillOwned >>= fun _ => pure (Background.deploy result)) l
      refine obeys_bind.mpr ((obeys_assertMoveStillOwned hjob hrow).mono ?_)
      rintro l _ rfl
      exact trivial

theorem obeys_placed_rowless (hl : Rowless params l) : Obeys requestContract (Undoable params) (do
        params.recordPlacement result
        let claims ← request .readClaims
        if claims.deleting then
          ignoringErrors (request .deleteRow)
          throwControlPlane params.deleteInProgress
        else
          params.assertLaunchAllowed claims
          params.assertMoveStillOwned
          pure (Background.deploy result)) l := by
  simp only [recordPlacement, bind_assoc]
  refine obeys_bind.mpr ⟨⟨params, hl.job, rfl⟩, fun r _ => ?_⟩
  cases r with
  | error e => exact hl
  | ok =>
    refine obeys_bind.mpr ⟨trivial, fun r _ => ?_⟩
    cases r with
    | error e =>
      refine ⟨hl.job, ?_⟩
      change (l.row || false) = false
      rw [hl.row]
      rfl
    | ok => exact obeys_checks result hl.job (Bool.or_true _)

variable (requiredMemory : Nat)

theorem obeys_placeOrReclaim_rowless (hl : Rowless params l) :
    Obeys requestContract (Undoable params) (params.placeOrReclaim requiredMemory) l := by
  refine (keeps_refreshAll_request (Rowless params)).obeys_bind hl (fun l _ hl => ?_) fun _ _ h => h
  refine obeys_bind.mpr ⟨trivial, fun r _ => ?_⟩
  match r with
  | .error e => exact hl
  | .ok (workers, some result) => exact obeys_placed_rowless result ⟨hl.job, hl.row⟩
  | .ok (workers, none) =>
    change Obeys requestContract _ (ite _ _ _) l
    split
    · exact hl
    · split
      · exact hl
      · refine obeys_bind.mpr ⟨trivial, fun r _ => ?_⟩
        cases r with
        | error e => exact hl
        | ok =>
          change Obeys requestContract _ (ite _ _ _) l
          split
          · exact hl
          · exact trivial

/-- **What the `catch` of the request undoes.** -/
theorem obeys_requestPart_clean (protocol : Protocol) (hl : Bare params l) :
    Obeys requestContract LedgerLoc.Clean (params.requestPart requiredMemory protocol) l := by
  refine obeys_bind.mpr (obeys_tryCatch.mpr ⟨trivial, fun r _ => ?_⟩)
  cases r with
  | error e =>
    refine obeys_bind.mpr ⟨trivial, fun r _ => ?_⟩
    have hnone : LedgerLoc.Clean
        { l with record := l.record || false, hold := false } (.error e : Except Failure Unit) :=
      ⟨by simp [hl.record], rfl, hl.row⟩
    cases r with
    | error e' | ok _ => exact hnone
  | ok =>
    refine Obeys.tryCatch (obeys_placeOrReclaim_rowless requiredMemory ⟨hl.job, hl.row⟩)
      (fun _ _ _ => trivial) fun l e hl => ?_
    refine obeys_bind.mpr (obeys_tryCatch.mpr ⟨⟨params, hl.job, rfl⟩, fun r _ => ?_⟩)
    cases r with
    | error e' | ok _ =>
      refine obeys_bind.mpr ⟨trivial, fun r _ => ?_⟩
      cases r with
      | error e'' | ok _ => exact ⟨rfl, rfl, hl.row⟩

/-- **A request that throws undoes what it did.** -/
theorem obeys_launch (hl : Bare params l) :
    Obeys requestContract LedgerLoc.Clean params.launch l := by
  have herr : ∀ (l : LedgerLoc) (e : Failure), Bare params l →
      LedgerLoc.Clean l (.error e : Except Failure (Nat × Protocol × Background)) :=
    fun l _ hl => ⟨hl.record, hl.hold, hl.row⟩
  have hclaims : KeepsCall requestContract (Bare params) .readClaims :=
    keepsCall_of_next_eq (fun _ _ => trivial) fun _ _ => rfl
  have hmeta : KeepsCall requestContract (Bare params) .resolveRunnerMetadata :=
    keepsCall_of_next_eq (fun _ _ => trivial) fun _ _ => rfl
  refine hclaims.obeys_bind hl (fun l claims hl => ?_) herr
  refine (keeps_assertLaunchAllowed_bare claims).obeys_bind hl (fun l _ hl => ?_) herr
  split
  · split
    · rename_i requiredMemory hmemory
      refine hmeta.obeys_bind hl (fun l protocol hl => ?_) herr
      refine obeys_bind.mpr ((obeys_requestPart_clean (requiredMemory + 1) protocol hl).mono ?_)
      rintro l (e | _) h
      · exact h
      · exact trivial
    · exact herr l _ hl
  · exact herr l _ hl

end LaunchParams

/-! ## The condition -/

/-- The call of a request does not make it leave something behind: no write of
the record or the row is lost, no clean-up fails, and after the row only a delete
stops it. -/
def LedgerInput.undoes (i : LedgerInput) (l : LedgerLoc) : LaunchCall → Bool
  | .createInstance _ | .createRow _ => i.outcome ≠ .lost
  | .deleteRow | .service (.removeInstance _) => i.outcome ≠ .failed
  | .readClaims =>
    match l.row, l.job, i.answer .readClaims with
    | true, .launch params, .ok claims => params.goesOn claims
    | _, _, _ => true
  | .service .getMoveOperation =>
    match l.row, l.job, i.answer (.service .getMoveOperation) with
    | true, .launch params, .ok operation =>
      operation.map (·.operationId) = params.moveOperationId
    | true, .launch _, .error _ => false
    | _, _, _ => true
  | _ => true

section
variable {T : Type}

def Undoes (s : LedgerState T) : LedgerAction T → Prop
  | .thread t i => ∀ c ∈ (s.threads.prog t).awaited, i.undoes (s.threads.loc t) c = true
  | _ => True

instance (s : LedgerState T) : ∀ a, Decidable (Undoes s a)
  | .thread t _ => inferInstanceAs (Decidable (∀ c ∈ (s.threads.prog t).awaited, _))
  | .pass _ | .around _ | .removeRecord _ | .removeRow _ => isTrue trivial

/-- Nothing of the instance is left. -/
structure LedgerWorld.Nothing (w : LedgerWorld T) (id : String) : Prop where
  record : id ∉ w.records
  row : id ∉ w.rows
  hold : ¬ w.launch.memory.HasHold id

/-- What the launch has not done is not there. -/
structure LedgerWorld.Within (w : LedgerWorld T) (l : LedgerLoc) (id : String) : Prop where
  record : l.record = false → id ∉ w.records
  row : l.row = false → id ∉ w.rows
  hold : l.hold = false → ¬ w.launch.memory.HasHold id

/-- Of the instance there is nothing new. -/
structure LedgerWorld.NoMore (w' w : LedgerWorld T) (id : String) : Prop where
  record : id ∈ w'.records → id ∈ w.records
  row : id ∈ w'.rows → id ∈ w.rows
  hold : w'.launch.memory.HasHold id → w.launch.memory.HasHold id

/-! ## What the operations leave -/

namespace LedgerWorld

variable {w w' : LedgerWorld T} {id : String}

theorem NoMore.refl (w : LedgerWorld T) (id : String) : NoMore w w id :=
  ⟨fun h => h, fun h => h, fun h => h⟩

theorem NoMore.setRecord {id'} (h : id ≠ id') (w : LedgerWorld T)
    (record : InstanceState) : NoMore (w.setRecord id' record) w id :=
  ⟨fun hmem => ((AList.mem_insert _).mp hmem).resolve_left h, fun h => h, fun h => h⟩

theorem NoMore.removeRecord (w : LedgerWorld T) (id' : String) :
    NoMore (w.removeRecord id') w id := by
  refine ⟨fun h => ((records_removeRecord w id').mp h).2, ?_, ?_⟩
  all_goals
    unfold LedgerWorld.removeRecord
    split
    all_goals exact fun h => h

theorem NoMore.insertRow {id'} (h : id ≠ id') (w : LedgerWorld T)
    (result : PlacementResult) : NoMore (w.insertRow id' result) w id :=
  ⟨fun h => h, fun hmem => ((AList.mem_insert _).mp hmem).resolve_left h, fun h => h⟩

theorem NoMore.removeRow (w : LedgerWorld T) (id' : String) : NoMore (w.removeRow id') w id :=
  ⟨fun h => h, fun hmem => (AList.mem_erase.mp hmem).2, fun h => h⟩

variable {α : Type} {after : LedgerWorld T} {r' : Except Failure α}

theorem NoMore.reply {i r}
    (hr : LedgerWorld.reply i w after r = (w', r')) (h : NoMore after w id) : NoMore w' w id := by
  unfold LedgerWorld.reply at hr
  split at hr
  · grind
  · grind
  · obtain ⟨rfl, -⟩ := Prod.mk.inj hr
    exact .refl _ _

theorem Within.noMore {l} (h : w.Within l id) (hno : NoMore w' w id) : w'.Within l id :=
  ⟨fun hl hmem => h.record hl (hno.record hmem), fun hl hmem => h.row hl (hno.row hmem),
    fun hl hhold => h.hold hl (hno.hold hhold)⟩

/-! ### Calls -/

variable {σ : LaunchSetting T} {t : T} {i : LedgerInput} {l : LedgerLoc} {c : LaunchCall}
  {r : Except Failure (LaunchReply c)}

section
variable {i : LaunchInput} {w w' : LaunchWorld T} (h : w.perform σ t i c = some (w', r))
include h

theorem fewer_of_perform (hc : ∀ request fixed workers, c ≠ .placeAndReserve request fixed workers) :
    w'.memory.Fewer w.memory := by
  cases perform_effect h with
  | plain | read => exact .refl _
  | apply => exact .applyReports _ _ _
  | clear => exact fun _ _ hl => nomatch hl
  | place => exact absurd rfl (hc _ _ _)
  | release => exact .releaseInstanceReservations _ _

theorem hasHold_of_perform (hne : ∀ params, σ.jobs t = .launch params → id ≠ params.instanceId)
    (hhold : w'.memory.HasHold id) : w.memory.HasHold id := by
  cases c with
  | placeAndReserve request fixed workers =>
    cases hjob : σ.jobs t with
    | refresh => simp [LaunchWorld.perform, hjob] at h
    | launch params =>
      simp only [LaunchWorld.perform, hjob] at h
      cases h
      cases hresult : (w.decision σ request fixed workers).2 with
      | none =>
        rw [hresult] at hhold
        exact hhold
      | some =>
        rw [hresult] at hhold
        exact (MemoryBudget.hasHold_of_reserveAll hhold).resolve_right (hne params hjob)
  | _ => exact (fewer_of_perform h fun _ _ _ hc => by cases hc).hasHold hhold

end

theorem mem_of_transition {modelName id' target updates now record}
    (h : transition (w.records.lookup id') modelName id' target updates now = .ok record) :
    id' ∈ w.records := by
  obtain ⟨_, hold, -⟩ := transition_eq_ok.mp h
  exact AList.lookup_isSome.mp (by rw [hold]; rfl)

theorem NoMore.service {c r instanceId modelName}
    (hc : c.ofRequest instanceId) (h : w.service i modelName c = (w', r)) : NoMore w' w id := by
  cases c with
  | transition id' =>
    simp only [LedgerWorld.service] at h
    split at h
    · rename_i record hrecord
      refine .reply h ⟨fun hmem => ?_, fun h => h, fun h => h⟩
      rcases (AList.mem_insert _).mp hmem with rfl | hmem
      · exact mem_of_transition hrecord
      · exact hmem
    · exact .reply h (.refl _ _)
  | removeInstance id' => exact .reply h (.removeRecord w id')
  | getMoveOperation =>
    obtain ⟨rfl, -⟩ := Prod.mk.inj h
    exact .refl _ _
  | _ => exact hc.elim

theorem NoMore.perform (hc : l.Requests c) (h : w.perform σ t i c = some (w', r))
    (hne : ∀ params, σ.jobs t = .launch params → id ≠ params.instanceId) : NoMore w' w id := by
  unfold LedgerWorld.perform at h
  have hlaunch : (w.launch.perform σ t ⟨i.answer⟩ c).map
      (fun x => ({ w with launch := x.1 }, x.2)) = some (w', r) → NoMore w' w id := by
    intro h
    obtain ⟨⟨launch, _⟩, hperform, hpair⟩ := Option.map_eq_some_iff.mp h
    obtain ⟨rfl, -⟩ := Prod.mk.inj hpair
    exact ⟨fun h => h, fun h => h, hasHold_of_perform hperform hne⟩
  cases hjob : σ.jobs t with
  | refresh =>
    rw [hjob] at h
    exact hlaunch h
  | launch params =>
    rw [hjob] at h
    have hown : id ≠ params.instanceId := hne params hjob
    cases c with
    | service c =>
      obtain ⟨_, _, hrequest⟩ := hc
      exact .service hrequest (Option.some.inj h)
    | createInstance =>
      simp only [performLaunch] at h
      split at h
      · exact .reply (Option.some.inj h) (.setRecord hown w _)
      · exact .reply (Option.some.inj h) (.refl _ _)
    | createRow result =>
      simp only [performLaunch] at h
      split at h
      · exact .reply (Option.some.inj h) (.refl _ _)
      · exact .reply (Option.some.inj h) (.insertRow hown w result)
    | deleteRow => exact .reply (Option.some.inj h) (.removeRow w _)
    | _ => exact hlaunch h

theorem reply_of_ne_lost {a} (hi : i.outcome ≠ .lost)
    (h : LedgerWorld.reply i w after (.ok a) = (w', r')) :
    (w' = after ∧ r' = .ok a) ∨ (w' = w ∧ ∃ e, r' = .error e) := by
  unfold LedgerWorld.reply at h
  grind

theorem reply_of_ne_failed {r} (hi : i.outcome ≠ .failed)
    (h : LedgerWorld.reply i w after r = (w', r')) : w' = after := by
  grind [LedgerWorld.reply]

theorem reply_error {e}
    (h : LedgerWorld.reply i w w (.error e : Except Failure α) = (w', r')) :
    w' = w ∧ ∃ e, r' = .error e := by
  grind [LedgerWorld.reply]

variable {params : LaunchParams}

section
variable (h : w.Within l params.instanceId)
include h

theorem Within.created {protocol} {r : Except Failure Unit} (hi : i.outcome ≠ .lost)
    (hp : w.performLaunch σ t params i (.createInstance protocol) = some (w', r)) :
    w'.Within (l.after (.createInstance protocol) r) params.instanceId := by
  have herror : ∀ {e : Failure}, w' = w → r = .error e →
      w'.Within (l.after (.createInstance protocol) r) params.instanceId := by
    rintro e rfl rfl
    refine ⟨fun hl => h.record ?_, h.row, h.hold⟩
    simpa [LedgerLoc.after, LaunchLoc.succeeded] using hl
  simp only [performLaunch] at hp
  split at hp
  · rcases reply_of_ne_lost hi (Option.some.inj hp) with ⟨rfl, rfl⟩ | ⟨hw, e, hr⟩
    · refine ⟨fun hl => ?_, h.row, h.hold⟩
      simp [LedgerLoc.after, LaunchLoc.succeeded] at hl
    · exact herror hw hr
  · grind [reply_error]

theorem Within.inserted {result} {r : Except Failure Unit}
    (hi : i.outcome ≠ .lost) (hp : w.performLaunch σ t params i (.createRow result) = some (w', r)) :
    w'.Within (l.after (.createRow result) r) params.instanceId := by
  have herror : ∀ {e : Failure}, w' = w → r = .error e →
      w'.Within (l.after (.createRow result) r) params.instanceId := by
    rintro e rfl rfl
    refine ⟨h.record, fun hl => h.row ?_, h.hold⟩
    simpa [LedgerLoc.after, LaunchLoc.succeeded] using hl
  simp only [performLaunch] at hp
  split at hp
  · grind [reply_error]
  · rcases reply_of_ne_lost hi (Option.some.inj hp) with ⟨rfl, rfl⟩ | ⟨hw, e, hr⟩
    · refine ⟨h.record, fun hl => ?_, h.hold⟩
      simp [LedgerLoc.after, LaunchLoc.succeeded] at hl
    · exact herror hw hr

theorem Within.service {c r}
    (hc : c.ofRequest params.instanceId) (hi : i.undoes l (.service c) = true)
    (hp : w.service i params.name c = (w', r)) :
    w'.Within (l.after (.service c) r) params.instanceId := by
  cases c with
  | transition id' target updates | getMoveOperation => exact h.noMore (.service hc hp)
  | removeInstance id' =>
    obtain rfl : id' = params.instanceId := hc
    have hw := reply_of_ne_failed (of_decide_eq_true hi) hp
    refine ⟨fun _ hmem => ?_, fun hl hmem => ?_, fun hl hhold => ?_⟩
    · grind [records_removeRecord]
    · rw [hw] at hmem
      exact h.row hl ((NoMore.removeRecord w _).row hmem)
    · rw [hw] at hhold
      exact h.hold hl ((NoMore.removeRecord w _).hold hhold)
  | _ => exact hc.elim

end

theorem Within.launch (h : w.Within l id) (σ : LaunchSetting T) (t : T)
    (hc : ∀ request fixed workers, c ≠ .placeAndReserve request fixed workers)
    (hafter : l.after c r = l) (hp : (w.launch.perform σ t ⟨i.answer⟩ c).map
      (fun x => ({ w with launch := x.1 }, x.2)) = some (w', r)) : w'.Within (l.after c r) id := by
  obtain ⟨⟨launch, _⟩, hperform, hpair⟩ := Option.map_eq_some_iff.mp hp
  obtain ⟨rfl, rfl⟩ := Prod.mk.inj hpair
  rw [hafter]
  exact ⟨h.record, h.row, fun hl hhold =>
    h.hold hl ((fewer_of_perform hperform hc).hasHold hhold)⟩

/-- **What a call of a request leaves of its own instance.** -/
theorem Within.perform (hjob : σ.jobs t = .launch params) (hl : l.job = .launch params)
    (h : w.Within l params.instanceId) (hc : l.Requests c) (hi : i.undoes l c = true)
    (hp : w.perform σ t i c = some (w', r)) : w'.Within (l.after c r) params.instanceId := by
  rw [LedgerWorld.perform, hjob] at hp
  cases c with
  | service c =>
    obtain ⟨_, hparams', hrequest⟩ := hc
    obtain rfl := Job.launch.inj (hl.symm.trans hparams')
    exact h.service hrequest hi (Option.some.inj hp)
  | createInstance => exact h.created (of_decide_eq_true hi) hp
  | createRow result => exact h.inserted (of_decide_eq_true hi) hp
  | deleteRow =>
    have hw := reply_of_ne_failed (of_decide_eq_true hi) (Option.some.inj hp)
    subst hw
    exact ⟨h.record, fun _ hmem => (AList.mem_erase.mp hmem).1 rfl, h.hold⟩
  | placeAndReserve request fixed workers =>
    obtain ⟨⟨launch, r'⟩, hperform, hpair⟩ := Option.map_eq_some_iff.mp hp
    obtain ⟨rfl, rfl⟩ := Prod.mk.inj hpair
    simp only [LaunchWorld.perform, hjob] at hperform
    cases hperform
    rcases hdecision : w.launch.decision σ request fixed workers with ⟨_, result⟩
    cases result with
    | none => exact ⟨h.record, h.row, h.hold⟩
    | some result => exact ⟨h.record, h.row, fun hl => by cases hl⟩
  | releaseReservations =>
    obtain ⟨⟨launch, r'⟩, hperform, hpair⟩ := Option.map_eq_some_iff.mp hp
    obtain ⟨rfl, rfl⟩ := Prod.mk.inj hpair
    simp only [LaunchWorld.perform, hjob] at hperform
    cases hperform
    exact ⟨h.record, h.row, fun _ =>
      MemoryBudget.not_hasHold_releaseInstanceReservations _ _⟩
  | _ => exact h.launch (i := i) σ t (fun _ _ _ hc => by cases hc) rfl hp

theorem finds_of_undoes (hl : l.job = σ.jobs t) (hi : i.undoes l c = true)
    (hp : w.perform σ t i c = some (w', r)) : l.Finds c r := by
  cases c with
  | readClaims =>
    have hp : (w.launch.perform σ t ⟨i.answer⟩ .readClaims).map
        (fun x => ({ w with launch := x.1 }, x.2)) = some (w', r) := by
      unfold LedgerWorld.perform at hp
      split at hp
      · exact hp
      · exact hp
    obtain ⟨⟨launch, _⟩, hperform, hpair⟩ := Option.map_eq_some_iff.mp hp
    obtain ⟨rfl, rfl⟩ := Prod.mk.inj hpair
    simp only [LaunchWorld.perform] at hperform
    split at hperform
    · rename_i claims hclaims
      cases hperform
      refine ⟨claims, rfl, fun hrow params hparams => ?_⟩
      simpa [LedgerInput.undoes, hrow, hparams, hclaims] using hi
    · cases hperform
  | service c =>
    cases c with
    | getMoveOperation =>
      intro hrow params hparams
      rw [LedgerWorld.perform, ← hl, hparams] at hp
      cases hp
      cases hanswer : i.answer (.service .getMoveOperation) with
      | error => simp [LedgerInput.undoes, hrow, hparams, hanswer] at hi
      | ok =>
        grind [LedgerInput.undoes]
    | _ => exact trivial
  | _ => exact trivial

end LedgerWorld

/-! ## Requests side by side -/

def LedgerLoc.Ends (_ : T) (l : LedgerLoc) (r : Except Failure Unit) : Prop := l.Clean r

def LaunchSetting.requestOf (σ : LaunchSetting T) (t : T) : Launching Unit :=
  match σ.jobs t with
  | .launch params => do
    let _ ← params.launch
    pure ()
  | .refresh => Launching.refreshAll

def LaunchSetting.requests (σ : LaunchSetting T) (w : LedgerWorld T) : LedgerState T where
  threads := { world := w, prog := σ.requestOf, loc := fun t => { job := σ.jobs t } }

/-- What holds between the steps of such a run. -/
structure RequestInv (σ : LaunchSetting T) (s : LedgerState T) : Prop where
  obey : s.threads.Obey requestContract LedgerLoc.Ends
  job : ∀ t, (s.threads.loc t).job = σ.jobs t
  within : ∀ t params, σ.jobs t = .launch params →
    s.world.Within (s.threads.loc t) params.instanceId

def LedgerWorld.Fresh (w : LedgerWorld T) (σ : LaunchSetting T) : Prop :=
  ∀ t params, σ.jobs t = .launch params → w.Nothing params.instanceId

variable {w : LedgerWorld T}

theorem RequestInv.start {σ} (hfresh : w.Fresh σ) :
    RequestInv σ (σ.requests w) where
  obey t := by
    change Obeys requestContract _ (σ.requestOf t) { job := σ.jobs t }
    unfold LaunchSetting.requestOf
    split
    · refine obeys_bind.mpr ((LaunchParams.obeys_launch ⟨by assumption, rfl, rfl, rfl⟩).mono ?_)
      rintro l (e | _) h
      · exact h
      · exact trivial
    · refine (keeps_refreshAll_request (fun l => l.record = false ∧ l.hold = false ∧ l.row = false)
        _ ⟨rfl, rfl, rfl⟩).mono ?_
      rintro l (e | _) h
      · exact h
      · exact trivial
  job _ := rfl
  within t params hjob :=
    ⟨fun _ => (hfresh t params hjob).record, fun _ => (hfresh t params hjob).row,
      fun _ => (hfresh t params hjob).hold⟩

variable {σ : LaunchSetting T} {s s' : LedgerState T}

theorem RequestInv.noMore (h : RequestInv σ s) (pass : PassPhase)
    (hno : ∀ id, w.NoMore s.world id) :
    RequestInv σ { threads := { s.threads with world := w }, pass } :=
  ⟨h.obey, h.job, fun t params hjob => (h.within t params hjob).noMore (hno _)⟩

variable [DecidableEq T]

theorem RequestInv.thread (h : RequestInv σ s) (hid : σ.DistinctInstances) {t i} (hok : Undoes s (.thread t i))
    (hs : ledgerStep σ s (.thread t i) = some s') : RequestInv σ s' := by
  obtain ⟨threads, hstep, rfl⟩ := Option.map_eq_some_iff.mp hs
  obtain ⟨hobey, hjob, hwithin⟩ := Threads.step_obey (J := fun threads =>
      (∀ t, (threads.loc t).job = σ.jobs t) ∧ ∀ t params, σ.jobs t = .launch params →
        threads.world.Within (threads.loc t) params.instanceId) h.obey
    (fun c w r _ hallowed hprog hsem => by
      obtain ⟨k, hk⟩ := hprog
      have hi : i.undoes (s.threads.loc t) c = true := hok c (by rw [hk]; rfl)
      refine ⟨?_, fun p => ⟨?_, fun u params hu => ?_⟩⟩
      · exact LedgerWorld.finds_of_undoes (h.job t) hi hsem
      · exact (Function.forall_update_iff _ fun t (l : LedgerLoc) => l.job = σ.jobs t).mpr
          ⟨(LedgerLoc.job_after _ _ _).trans (h.job t), fun u _ => h.job u⟩
      · by_cases hut : u = t
        · subst hut
          simp only [Threads.put, Function.update_self]
          exact (h.within u params hu).perform hu ((h.job u).trans hu) hallowed hi hsem
        · simp only [Threads.put, Function.update_of_ne hut]
          refine (h.within u params hu).noMore (.perform hallowed hsem fun params' ht hsame => ?_)
          exact hut (hid u t params params' hu ht hsame)) hstep
  exact ⟨hobey, hjob, hwithin⟩

theorem RequestInv.step (h : RequestInv σ s) (hid : σ.DistinctInstances) {a}
    (hok : Undoes s a) (hs : ledgerStep σ s a = some s') : RequestInv σ s' := by
  cases a with
  | thread => exact h.thread hid hok hs
  | pass a =>
    obtain ⟨⟨w, phase⟩, hpass, rfl⟩ := Option.map_eq_some_iff.mp hs
    refine h.noMore phase fun id => ?_
    rcases passStep_world hpass with rfl | ⟨_, _, -, rfl⟩
    · exact .refl _ _
    · exact .removeRow _ _
  | around =>
    obtain ⟨_, haround, rfl⟩ := Option.map_eq_some_iff.mp hs
    exact h.noMore s.pass fun id =>
      ⟨fun h => h, fun h => h, (memory_around_fewer haround).hasHold⟩
  | removeRecord id =>
    cases hs
    exact h.noMore s.pass fun _ => .removeRecord _ _
  | removeRow id =>
    cases hs
    exact h.noMore s.pass fun _ => .removeRow _ _

/-- **Launch failure atomicity.**  In every run in which the writes of a request
are not lost and after the row only a delete stops it, a request that has thrown
has left no record, no row and no hold of its instance. -/
theorem failed_launch_leaves_nothing (hid : σ.DistinctInstances)
    (hfresh : w.Fresh σ) (hr : Reach (ledgerStep σ) Undoes (σ.requests w) s) {t : T}
    {params : LaunchParams} (hjob : σ.jobs t = .launch params)
    (hthrew : (s.threads.prog t).Threw) : s.world.Nothing params.instanceId := by
  have hinv : RequestInv σ s :=
    hr.inductive_inv (.start hfresh) fun h hok hs => h.step hid hok hs
  have hclean : (s.threads.loc t).record = false ∧ (s.threads.loc t).hold = false ∧
      (s.threads.loc t).row = false := by
    have hobey := hinv.obey t
    revert hthrew hobey
    match s.threads.prog t with
    | .done (.error e) => exact fun _ hobey => hobey
    | .done (.ok _) | .call _ _ => exact fun h => h.elim
  obtain ⟨hrecord, hhold, hrow⟩ := hclean
  have hwithin := hinv.within t params hjob
  exact ⟨hwithin.record hrecord, hwithin.row hrow, hwithin.hold hhold⟩

end

/-! ## A delete and a configuration update -/

namespace ExampleLaunch

/-- The request up to its row; then it finds the claims, and goes on to its end. -/
def claimedAfterRow (claims : LaunchClaims) (rest : Nat) : List (LedgerAction (Fin 1)) :=
  List.replicate 10 (.thread lone (finds {})) ++ List.replicate rest (.thread lone (finds claims))

theorem fresh_reported : reported.Fresh oneLaunch := by
  intro t _ hjob
  obtain rfl := Job.launch.inj hjob
  refine ⟨by decide, by decide, ?_⟩
  rintro ⟨_, _, hl, -⟩
  cases hl

theorem deleteAfterRow_isSome :
    (exec (guarded (ledgerStep oneLaunch) Undoes) (oneLaunch.requests reported)
      (claimedAfterRow { deleting := true } 4)).isSome := by
  decide +kernel

/-- A delete that has begun meanwhile: the request throws, and nothing is left. -/
theorem deleteAfterRow_leaves_nothing :
    let s := (exec (guarded (ledgerStep oneLaunch) Undoes) (oneLaunch.requests reported)
      (claimedAfterRow { deleting := true } 4)).get deleteAfterRow_isSome
    (s.threads.prog lone).Threw ∧ s.world.Nothing "a" := by
  have hthrew : (((exec (guarded (ledgerStep oneLaunch) Undoes) (oneLaunch.requests reported)
      (claimedAfterRow { deleting := true } 4)).get deleteAfterRow_isSome).threads.prog
        lone).Threw := by decide +kernel
  have hjob : oneLaunch.jobs lone = .launch (launch "a" 40) := rfl
  exact ⟨hthrew, failed_launch_leaves_nothing distinct_oneLaunch fresh_reported
    (reach_get deleteAfterRow_isSome) hjob hthrew⟩

/-- **A row is left behind.**  A configuration update has been claimed between the
row and the check: the request throws, its record and its hold are gone, and the
row stays. -/
theorem configuration_update_leaves_row : (exec (ledgerStep oneLaunch) (oneLaunch.requests reported)
      (claimedAfterRow { configurationUpdate := true } 3)).map (fun s =>
        (decide (s.threads.prog lone).Threw, s.world.records.keys, s.world.rows.keys,
          (s.world.launch.memory.holdsOn "w" 0).keys)) = some (true, [], ["a"], []) := by
  decide +kernel

end ExampleLaunch

end Sardeenz
