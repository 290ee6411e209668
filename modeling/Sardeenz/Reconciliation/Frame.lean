/-
# `Sardeenz.Reconciliation.Frame` — what the calls of a tick leave

What a call of the reconciliation can do to the world is one of a few changes
(`Change`), and what the resumption of a move can do one of a few more
(`Moved`).  Every invariant of a tick is read off these two lists.

    Named      every record carries the names of its key
    Gone       nothing of an instance is left: it stays so, as nothing in a tick
               creates a record, a row or a hold, or adds an endpoint
    Kept       the record of an instance is as it was read: it stays so until a
               transition or the removal of this record
-/
import Sardeenz.Reconciliation.Passes

namespace Sardeenz

open Interleave AList

/-! ## What a call can change -/

namespace ReconcileWorld

/-- What a call does to the world, without the details. -/
inductive Change (w : ReconcileWorld) : ReconcileCall → ReconcileWorld → Prop
  | same {c : ReconcileCall} : Change w c w
  | transition {modelName id : String} {target : ModelLifecycleState} {updates : InstanceUpdates}
      {record : InstanceState} (now : Nat) :
      (w.instancesOf modelName).lookup id = some record →
        Change w (.service modelName (.transition id target updates))
          (w.setInstance modelName id (transitioned record target updates now))
  | remove {modelName id : String} :
      Change w (.service modelName (.removeInstance id)) (w.removeInstance modelName id)
  | route {modelName : String} {c : Call} {routing : RoutingMap} :
      (∀ name address, RoutedAt routing name address → RoutedAt w.routing name address) →
        Change w (.service modelName c) { w with routing }
  | discover {pool : WorkerPool} : Change w .discoverWorkers { w with pool }
  | check {pool : WorkerPool} : Change w .checkHeartbeats { w with pool }
  | removeWorker {workerId : String} :
      Change w (.removeWorker workerId) { w with pool := w.pool.erase workerId }
  | memory {c : ReconcileCall} {memory : MemoryBudget} :
      memory.Fewer w.memory → Change w c { w with memory }
  | rows {c : ReconcileCall} {rows : List String} : rows ⊆ w.rows → Change w c { w with rows }
  | runners {c : ReconcileCall} {runners : Finset (String × String)} :
      runners ⊆ w.runners → Change w c { w with runners }
  | moves {effects : List MoveEffect} : Change w .resumeMoves (effects.foldl applyMove w)

variable {w w' : ReconcileWorld} {i : ReconcileInput} {c : ReconcileCall}

theorem Change.reply {α after} {r r' : Except Failure α}
    (h : w.Change c after) (hs : ReconcileWorld.reply i w after r = some (w', r')) :
    w.Change c w' := by
  rcases reply_world hs with rfl | rfl
  · exact h
  · exact .same

theorem routedAt_of_apply (mutation : Mutation) (now : Nat)
    (hadd : ∀ modelName endpoint protocol, mutation ≠ .addEndpoint modelName endpoint protocol)
    {m} (name : String) (address : String × Nat)
    (h : RoutedAt (mutation.apply m now) name address) : RoutedAt m name address := by
  refine h.of_apply.resolve_right ?_
  grind

variable {modelName : String}

theorem change_of_service {c r}
    (h : w.service modelName i c = some (w', r)) : w.Change (.service modelName c) w' := by
  cases c with
  | getInstance | scan => exact Change.same.reply h
  | transition id =>
    simp only [service] at h
    split at h
    · rename_i record hrecord
      obtain ⟨_, hold, -, rfl⟩ := transition_eq_ok.mp hrecord
      exact (Change.transition i.now hold).reply h
    · exact Change.same.reply h
  | removeInstance id => exact Change.remove.reply h
  | scanned => exact Change.same.reply (Option.ite_none_right_eq_some.mp h).2
  | setModelState state protocol =>
    exact (Change.route (routedAt_of_apply (.setModelState modelName state (some protocol)) i.now
      (by simp))).reply h
  | removeModel =>
    exact (Change.route (routedAt_of_apply (.removeModel modelName) i.now (by simp))).reply h
  | removeEndpoint host port =>
    exact (Change.route (routedAt_of_apply (.removeEndpoint modelName host port) i.now
      (by simp))).reply h
  | _ => cases h

/-- **Inversion of the calls.** -/
theorem change_of_perform {r}
    (h : w.perform i c = some (w', r)) : w.Change c w' := by
  cases c with
  | service _ c => exact change_of_service h
  | getAllInstances => exact Change.same.reply (Option.ite_none_right_eq_some.mp h).2
  | discoverWorkers => exact Change.discover.reply h
  | checkHeartbeats => exact Change.check.reply h
  | getWorkers | now =>
    cases h
    exact .same
  | removeWorker workerId =>
    cases h
    exact .removeWorker
  | clearWorkerReservations workerId =>
    cases h
    exact .memory (.clearWorkerReservations _ _)
  | releaseInstanceReservations instanceId =>
    cases h
    exact .memory (.releaseInstanceReservations _ _)
  | refreshMemoryBudgets =>
    refine (Change.memory ?_).reply h
    split
    · exact fun _ _ hl => nomatch hl
    · exact .applyReports _ _ _
  | resumeMoves => exact Change.moves.reply h
  | deleteRow instanceId => exact (Change.rows (List.filter_subset_self _)).reply h
  | findRows | findModels | findModelByName | getRunner | getRunnerByInstance =>
    exact Change.same.reply h
  | stopRunner workerId =>
    simp only [perform] at h
    split at h
    · exact (Change.runners (Finset.erase_subset _ _)).reply h
    · exact Change.same.reply h

/-! ## What every call keeps -/

theorem lookup_setInstance (w : ReconcileWorld) (modelName id : String) (record : InstanceState)
    (modelName' id' : String) :
    ((w.setInstance modelName id record).instancesOf modelName').lookup id' =
      if modelName' = modelName ∧ id' = id then some record
      else (w.instancesOf modelName').lookup id' := by
  by_cases hname : modelName' = modelName
  · grind [setInstance, instancesOf_setInstances, lookup_insert, lookup_insert_ne]
  · rw [if_neg fun h => hname h.1, setInstance, instancesOf_setInstances_ne hname]

theorem lookup_removeInstance (w : ReconcileWorld) (modelName id modelName' id' : String) :
    ((w.removeInstance modelName id).instancesOf modelName').lookup id' =
      if modelName' = modelName ∧ id' = id then none
      else (w.instancesOf modelName').lookup id' := by
  by_cases hname : modelName' = modelName
  · grind [removeInstance, instancesOf_setInstances, lookup_erase, lookup_erase_ne]
  · rw [if_neg fun h => hname h.1, removeInstance, instancesOf_setInstances_ne hname]

variable {id' modelName' : String}

theorem lookup_setInstance_of_ne {id} (h : ¬ (modelName' = modelName ∧ id' = id))
    (record : InstanceState) :
    ((w.setInstance modelName id record).instancesOf modelName').lookup id' =
      (w.instancesOf modelName').lookup id' := by
  rw [lookup_setInstance, if_neg h]

theorem lookup_removeInstance_of_ne {id} (h : ¬ (modelName' = modelName ∧ id' = id)) :
    ((w.removeInstance modelName id).instancesOf modelName').lookup id' =
      (w.instancesOf modelName').lookup id' := by
  rw [lookup_removeInstance, if_neg h]

/-- What a move can do: something to records that are there or to the entry of a
model that moves, and to drop rows, holds and runners. -/
inductive Moved (w : ReconcileWorld) : ReconcileWorld → Prop
  | same : Moved w w
  | set {record : InstanceState} : record.modelName ∈ w.moving →
      record.instanceId ∈ w.instancesOf record.modelName →
        Moved w (w.setInstance record.modelName record.instanceId record)
  | remove {modelName id : String} : modelName ∈ w.moving →
      Moved w (w.removeInstance modelName id)
  | entry {modelName : String} {routing : RoutingMap} : modelName ∈ w.moving →
      (∀ name, name ≠ modelName → routing.lookup name = w.routing.lookup name) →
        Moved w { w with routing }
  | rows {rows : List String} : rows ⊆ w.rows → Moved w { w with rows }
  | memory {memory : MemoryBudget} : memory.Fewer w.memory → Moved w { w with memory }
  | runners {runners : Finset (String × String)} :
      runners ⊆ w.runners → Moved w { w with runners }

theorem moved_applyMove (w : ReconcileWorld) (effect : MoveEffect) :
    w.Moved (w.applyMove effect) := by
  cases effect with
  | setInstance =>
    simp only [applyMove]
    split
    · rename_i h
      exact .set h.1 h.2
    · exact .same
  | removeInstance modelName id =>
    simp only [applyMove]
    split
    · rename_i h
      exact .remove h
    · exact .same
  | setEntry modelName entry =>
    simp only [applyMove]
    split
    · rename_i h
      cases entry with
      | some entry => exact .entry h fun _ hne => lookup_insert_ne hne
      | none => exact .entry h fun _ hne => lookup_erase_ne hne
    · exact .same
  | deleteRow id => exact .rows (List.filter_subset_self _)
  | release id => exact .memory (.releaseInstanceReservations _ _)
  | stopRunner => exact .runners (Finset.erase_subset _ _)

theorem keeps_moves {J : ReconcileWorld → Prop} (hJ : ∀ {w w'}, Moved w w' → J w → J w')
    (effects : List MoveEffect) (hw : J w) : J (effects.foldl applyMove w) :=
  effects.foldlRecOn applyMove hw fun w hw effect _ => hJ (moved_applyMove w effect) hw

theorem Moved.moving (h : w.Moved w') : w'.moving = w.moving := by
  cases h with
  | _ => rfl

theorem Change.moving (h : w.Change c w') : w'.moving = w.moving := by
  cases h with
  | moves =>
    exact keeps_moves
      (fun hmoved hw => hmoved.moving.trans hw) _ rfl
  | _ => rfl

theorem Change.modelRows (h : w.Change c w') : w'.modelRows = w.modelRows := by
  cases h with
  | moves =>
    exact keeps_moves (J := fun w'' => w''.modelRows = w.modelRows)
      (fun hmoved hw => by cases hmoved <;> exact hw) _ rfl
  | _ => rfl

def Named (w : ReconcileWorld) : Prop :=
  ∀ modelName id record, (w.instancesOf modelName).lookup id = some record →
    record.modelName = modelName ∧ record.instanceId = id

variable {modelName id : String}

theorem Named.setInstance (h : w.Named) {record}
    (hrecord : record.modelName = modelName ∧ record.instanceId = id) :
    (w.setInstance modelName id record).Named := by
  intro _ _ _ hlookup
  rw [lookup_setInstance] at hlookup
  split at hlookup
  · grind
  · exact h _ _ _ hlookup

theorem Named.removeInstance (h : w.Named) (modelName id : String) :
    (w.removeInstance modelName id).Named := by
  intro _ _ _ hlookup
  rw [lookup_removeInstance] at hlookup
  split at hlookup
  · cases hlookup
  · exact h _ _ _ hlookup

theorem Moved.named (h : w.Moved w') (hw : w.Named) : w'.Named := by
  cases h with
  | set => exact hw.setInstance ⟨rfl, rfl⟩
  | remove => exact hw.removeInstance _ _
  | _ => exact hw

theorem transitioned_names (record : InstanceState) (target : ModelLifecycleState)
    (updates : InstanceUpdates) (now : Nat) :
    (transitioned record target updates now).modelName = record.modelName ∧
      (transitioned record target updates now).instanceId = record.instanceId := by
  grind [transitioned, InstanceUpdates.apply]

theorem Change.named (h : w.Change c w') (hw : w.Named) : w'.Named := by
  cases h with
  | transition now hrecord =>
    obtain ⟨hname, hid⟩ := transitioned_names _ _ _ now
    obtain ⟨hname', hid'⟩ := hw _ _ _ hrecord
    exact hw.setInstance ⟨hname.trans hname', hid.trans hid'⟩
  | remove => exact hw.removeInstance _ _
  | moves => exact keeps_moves (fun hmoved hw => hmoved.named hw) _ hw
  | _ => exact hw

/-! ## What is gone stays gone -/

def NoRecord (w : ReconcileWorld) (modelName id : String) : Prop :=
  (w.instancesOf modelName).lookup id = none

theorem NoRecord.removeInstance (h : w.NoRecord modelName id) (modelName' id' : String) :
    (w.removeInstance modelName' id').NoRecord modelName id := by
  rw [NoRecord, lookup_removeInstance]
  split
  · rfl
  · exact h

theorem NoRecord.setInstance (h : w.NoRecord modelName id) (hthere : id' ∈ w.instancesOf modelName')
    (record : InstanceState) :
    (w.setInstance modelName' id' record).NoRecord modelName id := by
  refine (lookup_setInstance_of_ne ?_ record).trans h
  rintro ⟨rfl, rfl⟩
  exact lookup_eq_none.mp h hthere

theorem Moved.noRecord (hw : w.Moved w') (h : w.NoRecord modelName id) :
    w'.NoRecord modelName id := by
  cases hw with
  | set _ hthere => exact h.setInstance hthere _
  | remove => exact h.removeInstance _ _
  | _ => exact h

theorem Change.noRecord (hw : w.Change c w') (h : w.NoRecord modelName id) :
    w'.NoRecord modelName id := by
  cases hw with
  | transition _ hrecord =>
    exact h.setInstance (lookup_isSome.mp (by rw [hrecord]; rfl)) _
  | remove => exact h.removeInstance _ _
  | moves => exact keeps_moves (fun hmoved h => hmoved.noRecord h) _ h
  | _ => exact h

def Unrouted (w : ReconcileWorld) (modelName : String) (address : String × Nat) : Prop :=
  modelName ∉ w.moving ∧ ¬ RoutedAt w.routing modelName address

variable {address : String × Nat}

theorem Moved.unrouted (hw : w.Moved w')
    (h : w.Unrouted modelName address) : w'.Unrouted modelName address := by
  cases hw with
  | entry hmoving hsame =>
    refine ⟨h.1, fun hrouted => h.2 ?_⟩
    rwa [RoutedAt, endpointsOf, hsame modelName (ne_of_mem_of_not_mem hmoving h.1).symm] at hrouted
  | _ => exact h

theorem Change.unrouted (hw : w.Change c w') (h : w.Unrouted modelName address) :
    w'.Unrouted modelName address := by
  cases hw with
  | route hroute => exact ⟨h.1, fun hrouted => h.2 (hroute _ _ hrouted)⟩
  | moves => exact keeps_moves (fun hmoved h => hmoved.unrouted h) _ h
  | _ => exact h

/-- Rows, holds and runners are only dropped. -/
structure Dropped (w w' : ReconcileWorld) : Prop where
  rows : w'.rows ⊆ w.rows
  memory : w'.memory.Fewer w.memory
  runners : w'.runners ⊆ w.runners

theorem Dropped.trans {w''} (h : Dropped w w') (h' : Dropped w' w'') :
    Dropped w w'' :=
  ⟨fun _ hrow => h.rows (h'.rows hrow), h'.memory.trans h.memory,
    fun _ hrunner => h.runners (h'.runners hrunner)⟩

theorem Moved.dropped (h : w.Moved w') : Dropped w w' := by
  cases h with
  | rows hrows => exact ⟨hrows, .refl _, fun _ h => h⟩
  | memory hmemory => exact ⟨fun _ h => h, hmemory, fun _ h => h⟩
  | runners hrunners => exact ⟨fun _ h => h, .refl _, hrunners⟩
  | _ => exact ⟨fun _ h => h, .refl _, fun _ h => h⟩

theorem Change.dropped (h : w.Change c w') : Dropped w w' := by
  cases h with
  | rows hrows => exact ⟨hrows, .refl _, fun _ h => h⟩
  | memory hmemory => exact ⟨fun _ h => h, hmemory, fun _ h => h⟩
  | runners hrunners => exact ⟨fun _ h => h, .refl _, hrunners⟩
  | moves =>
    exact keeps_moves (fun hmoved hw => hw.trans hmoved.dropped) _
      ⟨fun _ h => h, .refl _, fun _ h => h⟩
  | _ => exact ⟨fun _ h => h, .refl _, fun _ h => h⟩

/-- Nothing of the instance is left. -/
structure Gone (w : ReconcileWorld) (r : InstanceState) : Prop where
  record : w.NoRecord r.modelName r.instanceId
  endpoint : ∀ address, r.endpointAddress = some address → ¬ RoutedAt w.routing r.modelName address
  row : r.instanceId ∉ w.rows
  hold : ¬ w.memory.HasHold r.instanceId

def Done (r : InstanceState) (w : ReconcileWorld) : Prop := r.modelName ∉ w.moving ∧ w.Gone r

theorem Change.done (hw : w.Change c w') {r} (h : Done r w) : Done r w' := by
  obtain ⟨hidle, hgone⟩ := h
  refine ⟨?_, hw.noRecord hgone.record, fun address haddress => ?_, fun hrow => ?_, fun hhold => ?_⟩
  · rwa [hw.moving]
  · exact (hw.unrouted ⟨hidle, hgone.endpoint address haddress⟩).2
  · exact hgone.row (hw.dropped.rows hrow)
  · exact hgone.hold (hw.dropped.memory.hasHold hhold)

/-! ## A record that nobody touches -/

/-- The record is as it was read, and its model does not move. -/
structure Kept (r : InstanceState) (w : ReconcileWorld) : Prop where
  named : w.Named
  idle : r.modelName ∉ w.moving
  stored : (w.instancesOf r.modelName).lookup r.instanceId = some r

theorem Moved.kept (hw : w.Moved w') {r} (h : Kept r w) : Kept r w' := by
  refine ⟨hw.named h.named, ?_, ?_⟩
  · rw [hw.moving]
    exact h.idle
  · cases hw with
    | set hmoving =>
      grind [lookup_setInstance_of_ne, h.stored, h.idle]
    | remove hmoving =>
      grind [lookup_removeInstance_of_ne, h.stored, h.idle]
    | _ => exact h.stored

end ReconcileWorld

def ReconcileCall.Spares (r : InstanceState) : ReconcileCall → Prop
  | .service modelName (.transition id _ _) | .service modelName (.removeInstance id) =>
    ¬ (r.modelName = modelName ∧ r.instanceId = id)
  | _ => True

namespace ReconcileWorld

variable {w w' : ReconcileWorld} {i : ReconcileInput} {r : InstanceState}

theorem Change.kept {c} (hw : w.Change c w') (hc : c.Spares r) (h : Kept r w) :
    Kept r w' := by
  refine ⟨hw.named h.named, ?_, ?_⟩
  · rw [hw.moving]
    exact h.idle
  · cases hw with
    | transition => exact (lookup_setInstance_of_ne hc _).trans h.stored
    | remove => exact (lookup_removeInstance_of_ne hc).trans h.stored
    | moves => exact (keeps_moves (fun hmoved h => hmoved.kept h) _ h).stored
    | _ => exact h.stored

/-! ## Reading the records -/

theorem mem_recordKeys {key} :
    key ∈ w.recordKeys ↔ key.2 ∈ w.instancesOf key.1 := by
  simp only [recordKeys, List.mem_flatMap, List.mem_map]
  constructor
  · rintro ⟨⟨modelName, instances⟩, hentry, _, hid, rfl⟩
    have hlookup : w.models.lookup modelName = some instances :=
      mem_lookup_iff.mpr hentry
    simp only [instancesOf, hlookup]
    exact mem_keys.mpr hid
  · intro h
    unfold instancesOf at h
    cases hlookup : w.models.lookup key.1 with
    | none =>
      grind [notMem_empty]
    | some instances =>
      rw [hlookup] at h
      exact ⟨⟨key.1, instances⟩, mem_lookup_iff.mp hlookup, key.2, mem_keys.mp h, rfl⟩

variable {record : InstanceState}

theorem stored_of_mem_readAll (h : record ∈ w.readAll i) :
    ∃ modelName id, (w.instancesOf modelName).lookup id = some record := by
  obtain ⟨key, -, hkey⟩ := List.mem_filterMap.mp h
  exact ⟨key.1, key.2, hkey⟩

theorem mem_readAll {modelName id} (hkeys : ∀ key ∈ w.recordKeys, key ∈ i.allKeys)
    (hread : i.unread = []) (h : (w.instancesOf modelName).lookup id = some record) :
    record ∈ w.readAll i := by
  have hmem : (modelName, id) ∈ w.recordKeys :=
    mem_recordKeys.mpr (lookup_isSome.mp (by rw [h]; rfl))
  refine List.mem_filterMap.mpr ⟨(modelName, id), List.mem_filter.mpr ⟨hkeys _ hmem, ?_⟩, h⟩
  grind

theorem Kept.eq_of_mem_readAll (h : Kept r w) (hmem : record ∈ w.readAll i)
    (hname : r.modelName = record.modelName) (hid : r.instanceId = record.instanceId) :
    record = r := by
  obtain ⟨modelName, _, hrecord⟩ := stored_of_mem_readAll hmem
  obtain ⟨rfl, rfl⟩ := h.named _ _ _ hrecord
  grind [h.stored]

end ReconcileWorld

end Sardeenz
