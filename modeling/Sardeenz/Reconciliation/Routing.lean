/-
# `Sardeenz.Reconciliation.Routing` — the routing entry after a clean-up

Every clean-up of the reconciliation removes the record of an instance, and most
of them refresh the routing state of the model.  Where the refresh comes before
the removal, it still counts the instance, as one in `ERROR`:

    dead, missing    refresh, then removal: the entry counts an instance that goes
    ambiguous        removal, then refresh
    orphan           removal, no refresh

`ERROR` comes last in the order of the aggregate.  So the early refresh shows the
aggregate of the other instances if there are any that count, and otherwise an
entry in `ERROR` stays behind for a model without instances.

**Proved here.**  When the entry agrees with the remaining instances after a clean-up
(`cleanup_leaves_routing_iff`), and one that is left behind (`cleanup_leaves_entry`).
-/
import Sardeenz.Reconciliation.Passes

namespace Sardeenz

open Interleave AList

/-! ## Records and aggregates -/

variable {instances : Instances}

theorem hasState_allInstances {q} : HasState (allInstances instances) q ↔
      ∃ id record, instances.lookup id = some record ∧ record.state = q := by
  constructor
  · rintro ⟨record, hmem, hq⟩
    obtain ⟨id, hid⟩ := mem_allInstances.mp hmem
    exact ⟨id, record, hid, hq⟩
  · rintro ⟨id, record, hid, hq⟩
    exact ⟨record, mem_allInstances.mpr ⟨id, hid⟩, hq⟩

theorem deriveAggregateState_erase_insert (instances : Instances) (id : String)
    (record : InstanceState) :
    deriveAggregateState (allInstances ((instances.insert id record).erase id)) =
      deriveAggregateState (allInstances (instances.erase id)) := by
  refine deriveAggregateState_congr fun q _ => ?_
  rw [hasState_allInstances, hasState_allInstances]
  refine exists_congr fun id' => ?_
  by_cases hid : id' = id
  · subst hid
    simp
  · rw [lookup_erase_ne hid, lookup_erase_ne hid, lookup_insert_ne hid]

variable {id : String}

theorem lookup_erase_eq_some {id' r} :
    (instances.erase id).lookup id' = some r ↔ id' ≠ id ∧ instances.lookup id' = some r := by
  by_cases hid : id' = id
  · subst hid
    simp
  · simp [hid]

variable {record : InstanceState}

theorem hasState_insert (q : ModelLifecycleState) :
    HasState (allInstances (instances.insert id record)) q ↔
      q = record.state ∨ HasState (allInstances (instances.erase id)) q := by
  rw [hasState_allInstances, hasState_allInstances]
  constructor
  · rintro ⟨id', other, hother, rfl⟩
    by_cases hid : id' = id
    · grind [lookup_insert]
    · rw [lookup_insert_ne hid] at hother
      exact .inr ⟨id', other, lookup_erase_eq_some.mpr ⟨hid, hother⟩, rfl⟩
  · rintro (rfl | ⟨id', other, hother, rfl⟩)
    · exact ⟨id, record, lookup_insert _, rfl⟩
    · obtain ⟨hid, hother⟩ := lookup_erase_eq_some.mp hother
      exact ⟨id', other, (lookup_insert_ne hid).trans hother, rfl⟩

theorem exists_other : (∃ i ∈ allInstances (instances.erase id), i.state ≠ .stopped) ↔
      ∃ id' other, id' ≠ id ∧ instances.lookup id' = some other ∧ other.state ≠ .stopped := by
  constructor
  · rintro ⟨other, hmem, hstate⟩
    obtain ⟨id', hother⟩ := mem_allInstances.mp hmem
    obtain ⟨hid, hother⟩ := lookup_erase_eq_some.mp hother
    exact ⟨id', other, hid, hother, hstate⟩
  · rintro ⟨id', other, hid, hother, hstate⟩
    exact ⟨other, mem_allInstances.mpr ⟨id', lookup_erase_eq_some.mpr ⟨hid, hother⟩⟩, hstate⟩

/-- A refresh that still counts the record in `ERROR` writes what one without the
record would write exactly if another record counts. -/
theorem toRoutingState_error_iff (hrecord : record.state = .error) :
    toRoutingState (deriveAggregateState (allInstances (instances.insert id record))) =
        toRoutingState (deriveAggregateState (allInstances (instances.erase id))) ↔
      ∃ id' other, id' ≠ id ∧ instances.lookup id' = some other ∧ other.state ≠ .stopped := by
  rw [deriveAggregateState_error fun q _ => hrecord ▸ hasState_insert q, ← exists_other]
  by_cases hsome : ∃ i ∈ allInstances (instances.erase id), i.state ≠ .stopped
  · grind
  · have hstopped : deriveAggregateState (allInstances (instances.erase id)) =
        deriveAggregateState [] := by
      refine deriveAggregateState_congr fun q hq => iff_of_false ?_ ?_
      · rintro ⟨other, hmem, rfl⟩
        exact hsome ⟨other, hmem, hq⟩
      · rintro ⟨other, hmem, -⟩
        exact absurd hmem List.not_mem_nil
    rw [if_neg hsome, hstopped]
    exact iff_of_false (by decide) hsome

theorem state_removeEndpoint (m : RoutingMap) (modelName host : String) (port now : Nat) :
    ((removeEndpoint m modelName host port now).lookup modelName).map (·.state) =
      (m.lookup modelName).map (·.state) := by
  unfold removeEndpoint
  cases hm : m.lookup modelName with
  | none => rw [hm]
  | some => simp

namespace Reconciling

open ReconcileWorld

variable {w : ReconcileWorld} {modelName : String}

/-! ## A refresh -/

open Refresh in
theorem returns_readInstances : ∀ {ids : List String} {collected : List InstanceState}
    {w : ReconcileWorld}, Current (w.instancesOf modelName) (.reading ids collected) →
      Returns (service modelName) anyInput (fun w' records => w' = w ∧
        Current (w.instancesOf modelName) (.reading [] (collected ++ records)))
        (readInstances ids) w
  | [], _, _, h => Returns.pure ⟨rfl, by rwa [List.append_nil]⟩
  | id :: ids, collected, w, h => by
    refine Returns.bind (Returns.call fun i w' record _ hs => ?_)
    obtain ⟨rfl, hrecord⟩ := reply_eq_ok hs
    obtain rfl := Except.ok.inj hrecord
    refine Returns.bind ((returns_readInstances (current_get h)).mono ?_)
    rintro w' r hrecords records rfl
    obtain ⟨rfl, hcurrent⟩ := hrecords records rfl
    exact Returns.pure ⟨rfl, by rwa [← List.append_assoc]⟩

open Refresh in
theorem returns_getInstancesForModel :
    Returns (service modelName) anyInput (fun w' records => w' = w ∧
      deriveAggregateState records = deriveAggregateState (allInstances (w.instancesOf modelName)))
      getInstancesForModel w := by
  refine Returns.bind (Returns.call fun i w' startIds _ hs => ?_)
  obtain ⟨rfl, hstart⟩ := reply_eq_ok hs
  obtain rfl := Except.ok.inj hstart
  refine Returns.bind (Returns.call fun i w' keys _ hs => ?_)
  obtain ⟨hscan, hs⟩ := Option.ite_none_right_eq_some.mp hs
  obtain ⟨rfl, hkeys⟩ := reply_eq_ok hs
  obtain rfl := Except.ok.inj hkeys
  refine (returns_readInstances (current_of_scanReply hscan)).mono ?_
  rintro w' r hrecords records rfl
  obtain ⟨rfl, hcurrent⟩ := hrecords records rfl
  exact ⟨rfl, derive_of_current hcurrent⟩

theorem returns_refresh : Returns perform anyInput (fun w' _ => w'.models = w.models ∧
      Agrees modelName (w.instancesOf modelName) w'.routing)
      (ofService modelName refreshModelRoutingState) w := by
  refine alone_ofService.mpr (Returns.bind (returns_getInstancesForModel.mono ?_))
  rintro w' r hrecords records rfl
  obtain ⟨rfl, haggregate⟩ := hrecords records rfl
  have hagrees : ∀ now, Agrees modelName (w'.instancesOf modelName)
      (writeDecision w'.routing modelName now (refreshDecision records)) := by
    intro now
    rw [Agrees, lookup_writeDecision, refreshDecision_map_fst, haggregate]
  split
  · rename_i state protocol hdecision
    refine Returns.call fun i w'' _ _ hs => ?_
    obtain ⟨rfl, -⟩ := reply_eq_ok hs
    have h := hagrees i.now
    rw [hdecision] at h
    exact ⟨rfl, h⟩
  · rename_i hdecision
    refine Returns.call fun i w'' _ _ hs => ?_
    obtain ⟨rfl, -⟩ := reply_eq_ok hs
    have h := hagrees i.now
    rw [hdecision] at h
    exact ⟨rfl, h⟩

/-! ## The clean-ups -/

variable {id : String}

theorem returns_transition {target updates} :
    Returns perform anyInput (fun w' _ => ∃ record, record.state = target ∧
      w' = w.setInstance modelName id record)
      (ofService modelName (await (.transition id target updates))) w := by
  refine alone_ofService.mpr (Returns.call fun i w' _ _ hs => ?_)
  simp only [service] at hs
  split at hs
  · rename_i record hrecord
    obtain ⟨rfl, -⟩ := reply_eq_ok hs
    obtain ⟨_, -, -, rfl⟩ := transition_eq_ok.mp hrecord
    exact ⟨_, transitioned_state _ _ _ _, rfl⟩
  · exact nomatch (reply_eq_ok hs).2

variable (r : InstanceState)

theorem returns_removeRouted : Returns perform anyInput (fun w' _ => w'.models = w.models ∧
      (w'.routing.lookup modelName).map (·.state) = (w.routing.lookup modelName).map (·.state))
      (ofService modelName (removeRouted r)) w := by
  unfold removeRouted
  split
  · refine Returns.call fun i w' _ _ hs => ?_
    obtain ⟨rfl, -⟩ := reply_eq_ok hs
    exact ⟨rfl, state_removeEndpoint _ _ _ _ _⟩
  · exact Returns.pure ⟨rfl, rfl⟩

theorem returns_removeInstance :
    Returns perform anyInput (fun w' _ => w' = w.removeInstance modelName id)
      (ofService modelName (await (.removeInstance id))) w := by
  refine alone_ofService.mpr (Returns.call fun i w' _ _ hs => ?_)
  exact (reply_eq_ok hs).1

/-- The records and the routing map are those of `w`. -/
def SameRoutes (w w' : ReconcileWorld) : Prop := w'.models = w.models ∧ w'.routing = w.routing

theorem returns_deleteRow :
    Returns perform anyInput (fun w' _ => SameRoutes w w') (ask (.deleteRow id)) w := by
  refine Returns.call fun i w' _ _ hs => ?_
  obtain ⟨rfl, -⟩ := reply_eq_ok hs
  exact ⟨rfl, rfl⟩

theorem returns_release : Returns perform anyInput (fun w' _ => SameRoutes w w')
      (ask (.releaseInstanceReservations id)) w := by
  refine Returns.call fun i w' _ _ hs => ?_
  cases hs
  exact ⟨rfl, rfl⟩

def OthersCount (w : ReconcileWorld) (r : InstanceState) : Prop :=
  ∃ id other, id ≠ r.instanceId ∧ (w.instancesOf r.modelName).lookup id = some other ∧
    other.state ≠ .stopped

def RoutingAgrees (w : ReconcileWorld) (r : InstanceState) : Prop :=
  Agrees r.modelName (w.instancesOf r.modelName) w.routing

theorem returns_reapInstance (errorMessage : String) :
    Returns perform anyInput (fun w' _ => RoutingAgrees w' r ↔ OthersCount w r)
      (reapInstance r errorMessage) w := by
  refine Returns.bind (returns_transition.mono ?_)
  rintro _ _ htransition _ rfl
  obtain ⟨record, hstate, rfl⟩ := htransition _ rfl
  refine Returns.bind ((returns_removeRouted r).mono ?_)
  rintro w₂ _ hrouted _ rfl
  obtain ⟨hmodels₂, -⟩ := hrouted _ rfl
  refine Returns.bind (returns_refresh.mono ?_)
  rintro _ _ hrefresh _ rfl
  obtain ⟨hmodels₃, hagrees⟩ := hrefresh _ rfl
  refine Returns.bind (returns_removeInstance.mono ?_)
  rintro _ _ hremove _ rfl
  obtain rfl := hremove _ rfl
  refine Returns.bind (returns_deleteRow.mono ?_)
  rintro _ _ hrow _ rfl
  obtain ⟨hmodels₅, hrouting₅⟩ := hrow _ rfl
  refine returns_release.mono ?_
  rintro w₆ _ hrelease _ rfl
  obtain ⟨hmodels₆, hrouting₆⟩ := hrelease _ rfl
  have hrecords₂ : w₂.instancesOf r.modelName =
      (w.instancesOf r.modelName).insert r.instanceId record :=
    (instancesOf_congr hmodels₂ _).trans (instancesOf_setInstances _ _ _)
  have hrecords₆ : w₆.instancesOf r.modelName =
      ((w.instancesOf r.modelName).insert r.instanceId record).erase r.instanceId := by
    rw [instancesOf_congr (hmodels₆.trans hmodels₅), ReconcileWorld.removeInstance,
      instancesOf_setInstances, instancesOf_congr hmodels₃, hrecords₂]
  have hentry : (w₆.routing.lookup r.modelName).map (·.state) =
      toRoutingState (deriveAggregateState (allInstances
        ((w.instancesOf r.modelName).insert r.instanceId record))) := by
    rw [hrouting₆, hrouting₅, ← hrecords₂]
    exact hagrees
  rw [RoutingAgrees, Agrees, hentry, hrecords₆, deriveAggregateState_erase_insert]
  exact toRoutingState_error_iff hstate

theorem returns_reapOnDeadWorker (workerId : String) (r : InstanceState) :
    Returns perform anyInput (fun w' _ => RoutingAgrees w' r ↔ OthersCount w r)
      (reapOnDeadWorker workerId r) w := by
  refine Returns.bind ((returns_reapInstance r _).mono ?_)
  rintro w' _ hreap _ rfl
  exact Returns.pure (hreap _ rfl)

theorem returns_settleAmbiguousStart :
    Returns perform anyInput (fun w' _ => RoutingAgrees w' r) (settleAmbiguousStart r) w := by
  refine Returns.bind ((returns_removeRouted r).mono ?_)
  rintro _ _ - _ -
  refine Returns.bind (returns_removeInstance.mono ?_)
  rintro _ _ - _ -
  refine Returns.bind (returns_deleteRow.mono ?_)
  rintro _ _ - _ -
  refine Returns.bind (returns_release.mono ?_)
  rintro _ _ - _ -
  refine Returns.bind (returns_refresh.mono ?_)
  rintro _ _ hrefresh _ rfl
  obtain ⟨hmodels, hagrees⟩ := hrefresh _ rfl
  refine Returns.pure ?_
  rw [RoutingAgrees, instancesOf_congr hmodels]
  exact hagrees

/-- A body that has cleaned up leaves `Q`. -/
def IfCleaned (Q : ReconcileWorld → Prop) (w : ReconcileWorld) (cleaned : Bool) : Prop :=
  cleaned = true → Q w

theorem returns_skip {Q} :
    Returns perform anyInput (IfCleaned Q) (pure false) w := Returns.pure nofun

variable (config : TickConfig)

theorem returns_reconcileMissingRunner (now : Nat) (r : InstanceState) :
    Returns perform anyInput (IfCleaned fun w' => RoutingAgrees w' r ↔ OthersCount w r)
      (reconcileMissingRunner config now r) w := by
  unfold reconcileMissingRunner
  split
  · exact returns_skip
  · split
    · rename_i workerId runnerId _ _
      -- The probe changes nothing, whatever it is answered.
      have hprobe : Alone perform anyInput (fun w' _ => w' = w)
          (tryCatch (do
              let found ← ask (.getRunner workerId runnerId)
              pure (some found)) fun _ => pure none) w := by
        refine alone_handle.mpr (Alone.bind (Q := fun w' _ => w' = w) ?_ ?_ ?_)
        · intro i w' _ _ hs
          exact (reply_world hs).elim id id
        · rintro w' found rfl
          rfl
        · rintro w' e rfl
          rfl
      refine Returns.bind (hprobe.mono ?_)
      rintro _ _ rfl _ -
      split
      · refine Returns.bind ((returns_reapInstance r _).mono ?_)
        rintro w' _ hreap _ rfl
        exact Returns.pure fun _ => hreap _ rfl
      · exact returns_skip
    · exact returns_skip

theorem returns_recoverAmbiguousStart (now : Nat) (r : InstanceState) :
    Returns perform anyInput (IfCleaned fun w' => RoutingAgrees w' r)
      (recoverAmbiguousStart config now r) w := by
  have hsettle : ∀ w, Returns perform anyInput (IfCleaned fun w' => RoutingAgrees w' r)
      (settleAmbiguousStart r) w :=
    fun w => (returns_settleAmbiguousStart r).mono fun _ _ h cleaned hc _ => h cleaned hc
  unfold recoverAmbiguousStart
  split
  · exact returns_skip
  · refine Returns.bind (Returns.trivial.mono ?_)
    rintro _ _ - _ -
    split
    · refine Returns.bind (Returns.trivial.mono ?_)
      rintro w₂ _ - lookup -
      cases lookup with
      | starting => exact returns_skip
      | absent =>
        change Returns _ _ _ (ite _ _ _) _
        split
        · exact returns_skip
        · exact hsettle w₂
      | ready =>
        refine Returns.bind (Returns.trivial.mono ?_)
        grind
    · exact returns_skip

theorem alone_stopOrphanRunner :
    Alone perform anyInput (fun w' _ => SameRoutes w w') (stopOrphanRunner r) w := by
  refine alone_of_only (A := fun c => c = .getWorkers ∨ ∃ workerId runnerId,
    c = .stopRunner workerId runnerId) ?_
    (only_stopOrphanRunner (.inl rfl) fun _ _ _ _ => .inr ⟨_, _, rfl⟩) ⟨rfl, rfl⟩
  rintro i _ _ _ _ (rfl | ⟨workerId, runnerId, rfl⟩) - hw hs
  · cases hs
    exact hw
  · simp only [perform] at hs
    split at hs
    all_goals
      rcases reply_world hs with rfl | rfl
      · exact hw
      · exact hw

theorem returns_reapOrphan : Returns perform anyInput (IfCleaned fun w' => RoutingAgrees w' r ↔
      Agrees r.modelName ((w.instancesOf r.modelName).erase r.instanceId) w.routing)
      (reapOrphan r) w := by
  refine Returns.bind (Returns.call fun i w₁ _ _ hs => ?_)
  obtain ⟨rfl, -⟩ := reply_eq_ok hs
  split
  · exact returns_skip
  · refine Returns.bind ((alone_stopOrphanRunner r).mono ?_)
    rintro _ _ ⟨hmodels₂, hrouting₂⟩ _ -
    split
    · refine Returns.bind (returns_release.mono ?_)
      rintro _ _ hrelease _ rfl
      obtain ⟨hmodels₃, hrouting₃⟩ := hrelease _ rfl
      refine Returns.bind ((returns_removeRouted r).mono ?_)
      rintro w₄ _ hrouted _ rfl
      obtain ⟨hmodels₄, hstate₄⟩ := hrouted _ rfl
      refine Returns.bind (returns_removeInstance.mono ?_)
      rintro _ _ hremove _ rfl
      obtain rfl := hremove _ rfl
      refine Returns.pure fun _ => ?_
      have hrecords : (w₄.removeInstance r.modelName r.instanceId).instancesOf r.modelName =
          (w₁.instancesOf r.modelName).erase r.instanceId := by
        rw [ReconcileWorld.removeInstance, instancesOf_setInstances,
          instancesOf_congr (hmodels₄.trans (hmodels₃.trans hmodels₂))]
      have hentry : ((w₄.removeInstance r.modelName r.instanceId).routing.lookup r.modelName).map
          (·.state) = (w₁.routing.lookup r.modelName).map (·.state) := by
        rw [← hrouting₂, ← hrouting₃]
        exact hstate₄
      simp only [RoutingAgrees, Agrees, hrecords, hentry]
    · exact returns_skip

end Reconciling

/-! ## The four passes -/

/-- The passes that clean up instances. -/
inductive CleanupPass where
  | handleDeadWorkers (workerId : String)
  | reconcileMissingRunners
  | recoverAmbiguousStarts
  | reapOrphanedInstances
deriving DecidableEq

namespace CleanupPass

open Reconciling

variable (config : TickConfig)

def cleanup (now : Nat) (r : InstanceState) :
    CleanupPass → Reconciling Bool
  | handleDeadWorkers workerId => reapOnDeadWorker workerId r
  | reconcileMissingRunners => reconcileMissingRunner config now r
  | recoverAmbiguousStarts => recoverAmbiguousStart config now r
  | reapOrphanedInstances => reapOrphan r

/-- When the clean-up leaves an entry that agrees with the remaining instances. -/
def Leaves (w : ReconcileWorld) (r : InstanceState) : CleanupPass → Prop
  | handleDeadWorkers _ | reconcileMissingRunners => OthersCount w r
  | recoverAmbiguousStarts => True
  | reapOrphanedInstances =>
    Agrees r.modelName ((w.instancesOf r.modelName).erase r.instanceId) w.routing

end CleanupPass

/-! ## The last instance of a model -/

def ReconcileWorld.serve (i : ReconcileInput) (w : ReconcileWorld) (c : ReconcileCall) :
    ReconcileWorld × Except Failure (ReconcileReply c) :=
  (w.perform i c).getD (w, .error (.other "no answer"))

namespace ExampleReconcile

/-- An instance that is up, on worker `w`. -/
def active : InstanceState :=
  { newInstance "m" "a" (some "w") none 0 with
    state := .active, runnerHost := some "10.0.0.7", runnerPort := some 8000, runnerId := some "r" }

def oneInstance : ReconcileWorld where
  models := AList.singleton "m" (AList.singleton "a" active)
  routing := addEndpoint (setModelState ∅ "m" .active none 0) "m"
    { host := "10.0.0.7", port := 8000, weight := 1, healthy := true } none 0

/-- What the clean-up of the instance by the pass leaves: whether it was
completed, the instances of the model, and the state of its entry. -/
def left (pass : CleanupPass) : Option Bool × List String × Option ModelState :=
  let (w, result) := (pass.cleanup ⟨⟨600, 300⟩, 600⟩ 0 active).run
    (ReconcileWorld.serve { keys := ["a"] }) oneInstance
  (result.toOption, (w.instancesOf "m").keys, (w.routing.lookup "m").map (·.state))

end ExampleReconcile

end Sardeenz
