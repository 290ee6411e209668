/-
# `Sardeenz.Lifecycle.States` — the transition table and the aggregate state

`VALID_TRANSITIONS`, `deriveAggregateState` and the enumeration's texts, from
`model-lifecycle.ts`.  The table:

    PENDING   → STARTING, ERROR
    STARTING  → ACTIVE, ERROR
    ACTIVE    → DRAINING, ERROR
    DRAINING  → SLEEPING, STOPPING, ERROR
    SLEEPING  → STARTING, STOPPING, ERROR
    STOPPING  → STOPPED, ERROR
    STOPPED   → ERROR
    ERROR     → STOPPED, STARTING

The aggregate of a model's instances is the first state of
`AGGREGATE_STATE_PRECEDENCE` that occurs among them; it depends on nothing but
which states other than `STOPPED` occur (`deriveAggregateState_congr`).
-/
import Sardeenz.Types
import Mathlib.Data.List.Find

namespace Sardeenz

open List

/-- The enumeration's text, as it is persisted and as error messages show it. -/
def ModelLifecycleState.text : ModelLifecycleState → String
  | .pending => "PENDING"
  | .starting => "STARTING"
  | .active => "ACTIVE"
  | .draining => "DRAINING"
  | .sleeping => "SLEEPING"
  | .stopping => "STOPPING"
  | .stopped => "STOPPED"
  | .error => "ERROR"

def validTransitions : ModelLifecycleState → List ModelLifecycleState
  | .pending => [.starting, .error]
  | .starting => [.active, .error]
  | .active => [.draining, .error]
  | .draining => [.sleeping, .stopping, .error]
  | .sleeping => [.starting, .stopping, .error]
  | .stopping => [.stopped, .error]
  | .stopped => [.error]
  | .error => [.stopped, .starting]

def isValidTransition (source target : ModelLifecycleState) : Bool :=
  (validTransitions source).contains target

def aggregateStatePrecedence : List ModelLifecycleState :=
  [.active, .starting, .draining, .sleeping, .pending, .stopping, .error]

def deriveAggregateState (instances : List InstanceState) : ModelLifecycleState :=
  let relevant := (instances.filter fun i => i.state ≠ .stopped).map (·.state)
  if relevant.isEmpty then .stopped
  else (aggregateStatePrecedence.find? fun candidate => relevant.contains candidate).getD .error

/-- Some instance of the list is in the state `q`. -/
def HasState (instances : List InstanceState) (q : ModelLifecycleState) : Prop :=
  ∃ i ∈ instances, i.state = q
deriving Decidable

variable {instances : List InstanceState} {q : ModelLifecycleState}

theorem mem_relevant : q ∈ (instances.filter fun i => i.state ≠ .stopped).map (·.state) ↔
      q ≠ .stopped ∧ HasState instances q := by
  grind [HasState]

/-- The derived state only depends on which states occur, `STOPPED` aside: not
on the order of the instances, nor on how many there are in each state. -/
theorem deriveAggregateState_congr {xs ys}
    (h : ∀ q, q ≠ .stopped → (HasState xs q ↔ HasState ys q)) :
    deriveAggregateState xs = deriveAggregateState ys := by
  have hmem : ∀ q, q ∈ (xs.filter fun i => i.state ≠ .stopped).map (·.state) ↔
      q ∈ (ys.filter fun i => i.state ≠ .stopped).map (·.state) := by
    intro q
    rw [mem_relevant, mem_relevant]
    exact and_congr_right (h q)
  unfold deriveAggregateState
  generalize (xs.filter fun i => i.state ≠ .stopped).map (·.state) = rx at hmem
  generalize (ys.filter fun i => i.state ≠ .stopped).map (·.state) = ry at hmem
  have hempty : rx.isEmpty = ry.isEmpty := by
    rw [Bool.eq_iff_iff, List.isEmpty_iff, List.isEmpty_iff,
      eq_nil_iff_forall_not_mem, eq_nil_iff_forall_not_mem]
    exact forall_congr' fun q => not_congr (hmem q)
  grind [contains_iff_mem]

/-- The precedence list covers every state but `STOPPED`, so a model with an
instance that is not stopped takes the state of one of its instances. -/
theorem hasState_deriveAggregateState (hq : q ≠ .stopped) (h : HasState instances q) :
    HasState instances (deriveAggregateState instances) := by
  have hmem := mem_relevant.mpr ⟨hq, h⟩
  unfold deriveAggregateState
  set relevant := (instances.filter fun i => i.state ≠ .stopped).map (·.state) with hrel
  have hne : relevant.isEmpty = false := by
    cases hr : relevant with
    | nil => simp [hr] at hmem
    | cons => rfl
  have hsome : (aggregateStatePrecedence.find? fun c => relevant.contains c).isSome := by
    rw [find?_isSome]
    refine ⟨q, ?_, contains_iff_mem.mpr hmem⟩
    cases q with
    | stopped => exact absurd rfl hq
    | _ => decide
  obtain ⟨c, hc⟩ := Option.isSome_iff_exists.mp hsome
  have hcm : c ∈ relevant := contains_iff_mem.mp (by simpa using find?_some hc)
  simp only [hne, hc]
  exact (mem_relevant.mp hcm).2

theorem find_precedence_getD (states : List ModelLifecycleState) :
    (aggregateStatePrecedence.find? fun c => states.contains c).getD .error =
      ((aggregateStatePrecedence.take 6).find? fun c => states.contains c).getD .error := by
  rw [← take_append_drop 6 aggregateStatePrecedence, find?_append, take_append_drop]
  grind [aggregateStatePrecedence]

theorem deriveAggregateState_error {xs ys}
    (h : ∀ q, q ≠ .stopped → (HasState xs q ↔ q = .error ∨ HasState ys q)) :
    deriveAggregateState xs =
      if ∃ i ∈ ys, i.state ≠ .stopped then deriveAggregateState ys else .error := by
  have hmem : ∀ q, q ∈ (xs.filter fun i => i.state ≠ .stopped).map (·.state) ↔
      q = .error ∨ q ∈ (ys.filter fun i => i.state ≠ .stopped).map (·.state) := by
    intro q
    rw [mem_relevant, mem_relevant]
    constructor
    · rintro ⟨hq, hxs⟩
      exact ((h q hq).mp hxs).imp_right fun hys => ⟨hq, hys⟩
    · rintro (rfl | ⟨hq, hys⟩)
      · exact ⟨by decide, (h _ (by decide)).mpr (.inl rfl)⟩
      · exact ⟨hq, (h q hq).mpr (.inr hys)⟩
  have hempty : (∃ i ∈ ys, i.state ≠ .stopped) ↔
      ((ys.filter fun i => i.state ≠ .stopped).map (·.state)).isEmpty = false := by
    simp
  unfold deriveAggregateState
  simp only [hempty, find_precedence_getD]
  generalize (xs.filter fun i => i.state ≠ .stopped).map (·.state) = relevant at hmem
  generalize (ys.filter fun i => i.state ≠ .stopped).map (·.state) = others at hmem
  have hne : relevant.isEmpty = false :=
    isEmpty_eq_false_iff_exists_mem.mpr ⟨_, (hmem _).mpr (.inl rfl)⟩
  have hfirst : ((aggregateStatePrecedence.take 6).find? fun c => relevant.contains c) =
      (aggregateStatePrecedence.take 6).find? fun c => others.contains c := by
    refine find?_congr fun q hq => ?_
    have hq : q ≠ .error := by
      rintro rfl
      exact absurd hq (by decide)
    rw [Bool.eq_iff_iff, contains_iff_mem, contains_iff_mem, hmem]
    exact or_iff_right hq
  rw [hne, hfirst]
  cases others with
  | nil | cons q rest => rfl

theorem deriveAggregateState_active (h : HasState instances .active) :
    deriveAggregateState instances = .active := by
  have hmem := mem_relevant.mpr ⟨by decide, h⟩
  unfold deriveAggregateState
  generalize (instances.filter fun i => i.state ≠ .stopped).map (·.state) = relevant at hmem
  have hne : relevant.isEmpty = false := by
    cases relevant with
    | nil => simp at hmem
    | cons => rfl
  simp [hne, aggregateStatePrecedence, hmem]

end Sardeenz
