/-
# `Sardeenz.Pool` — a shared world, and tasks that come and act on it

The threads of `Sardeenz.Program` are a fixed family.  Here tasks arrive at any
time, any number of them, and each keeps its place in the list of all that have
arrived; a counter of the world can then be compared with a sum over the list.

    arrive a      a new task, at the end of the list
    move n i      task `n` takes its next step, with input `i`
    around e      the world changes without a task

A task that is done stays where it is.  The module knows nothing about the
systems it is used for.
-/
import Mathlib.Algebra.Order.BigOperators.Group.List
import Mathlib.Algebra.Order.Ring.Nat
import Sardeenz.Run

namespace Interleave

open List

/-- A world, and the tasks that have arrived. -/
structure Pool (W K : Type) where
  world : W
  tasks : List K := []

namespace Pool

/-- What happens next. -/
inductive Event (A I E : Type) where
  | arrive (a : A)
  | move (n : Nat) (i : I)
  | around (e : E)

/-- What a system is made of. -/
structure Rules (W K A I E : Type) where
  enter : A → K
  move : Nat → I → W → K → Option (W × K)
  around : E → W → Option W

variable {W K A I E : Type} (rules : Rules W K A I E)

def step (s : Pool W K) : Event A I E → Option (Pool W K)
  | .arrive a => some { s with tasks := s.tasks ++ [rules.enter a] }
  | .move n i => do
    let k ← s.tasks[n]?
    let (w, k') ← rules.move n i s.world k
    pure { world := w, tasks := s.tasks.set n k' }
  | .around e => do
    let w ← rules.around e s.world
    pure { s with world := w }

variable {rules}

theorem step_move {s s' : Pool W K} {n : Nat} {i : I} :
    step rules s (.move n i) = some s' ↔ ∃ k w k', s.tasks[n]? = some k ∧
      rules.move n i s.world k = some (w, k') ∧ s' = ⟨w, s.tasks.set n k'⟩ := by
  simp [step, Option.bind_eq_some_iff, eq_comm (a := s')]

variable {ok : Pool W K → Event A I E → Prop}

/-- **An invariant of the pool**, from what each kind of step does. -/
theorem reach_inv {s₀ : Pool W K} {P : Pool W K → Prop} (hstart : P s₀)
    (harrive : ∀ s a, P s → ok s (.arrive a) → P { s with tasks := s.tasks ++ [rules.enter a] })
    (hmove : ∀ s n i k w k', P s → ok s (.move n i) → s.tasks[n]? = some k →
      rules.move n i s.world k = some (w, k') → P ⟨w, s.tasks.set n k'⟩)
    (haround : ∀ s e w, P s → ok s (.around e) → rules.around e s.world = some w →
      P { s with world := w })
    {s : Pool W K} (hr : Reach (step rules) ok s₀ s) : P s := by
  refine hr.inductive_inv hstart ?_
  intro s e _ hs hok h
  cases e with
  | arrive a =>
    cases h
    exact harrive s a hs hok
  | move n i =>
    obtain ⟨k, w, k', hk, hw, rfl⟩ := step_move.mp h
    exact hmove s n i k w k' hs hok hk hw
  | around e =>
    grind [step, Option.bind_eq_some_iff]

/-- **An invariant of one task**, from what its own steps do. -/
theorem reach_task {s₀ : Pool W K} {n : Nat} {Q : K → Prop}
    (hmove : ∀ i w k w' k', Q k → rules.move n i w k = some (w', k') → Q k')
    (hstart : ∃ k, s₀.tasks[n]? = some k ∧ Q k) {s : Pool W K}
    (hr : Reach (step rules) ok s₀ s) : ∃ k, s.tasks[n]? = some k ∧ Q k := by
  refine reach_inv (P := fun s => ∃ k, s.tasks[n]? = some k ∧ Q k) hstart ?_ ?_
    (fun s e w hs _ _ => hs) hr
  · grind [getElem?_eq_some_iff.mp]
  · grind [getElem?_set_ne]

end Pool

/-! ## All tasks, and sums over them -/

section
variable {K : Type} {tasks : List K} {n : Nat} {k k' : K} {P : Nat → K → Prop}

theorem forall_getElem?_set (hn : tasks[n]? = some k) :
    (∀ j k'', (tasks.set n k')[j]? = some k'' → P j k'') ↔
      P n k' ∧ ∀ j k'', j ≠ n → tasks[j]? = some k'' → P j k'' := by
  grind [getElem?_set_self]

theorem forall_getElem?_append : (∀ j k', (tasks ++ [k])[j]? = some k' → P j k') ↔
      P tasks.length k ∧ ∀ j k', tasks[j]? = some k' → P j k' := by
  grind [getElem?_eq_none]

theorem exists_getElem?_set {P : K → Prop} (hn : tasks[n]? = some k) (j : Nat) :
    (∃ k'', (tasks.set n k')[j]? = some k'' ∧ P k'') ↔
      if j = n then P k' else ∃ k'', tasks[j]? = some k'' ∧ P k'' := by
  grind [getElem?_set_ne]

theorem exists_getElem?_append {P : K → Prop} (hk : ¬ P k) (j : Nat) :
    (∃ k'', (tasks ++ [k])[j]? = some k'' ∧ P k'') ↔ ∃ k'', tasks[j]? = some k'' ∧ P k'' := by
  grind

/-- Any two tasks of a list are in a relation. -/
def Pairs (R : K → K → Prop) (tasks : List K) : Prop :=
  ∀ (i : Nat) a, tasks[i]? = some a → ∀ (j : Nat) b, tasks[j]? = some b → i ≠ j → R a b

section
variable {R : K → K → Prop} (hsymm : ∀ a b, R a b → R b a) (h : Pairs R tasks)
include hsymm h

theorem Pairs.set (hn : tasks[n]? = some k)
    (hnew : ∀ (j : Nat) b, tasks[j]? = some b → j ≠ n → R k' b) :
    Pairs R (tasks.set n k') := by
  refine (forall_getElem?_set hn).mpr ⟨?_, fun i a hi ha => ?_⟩
  · exact (forall_getElem?_set hn).mpr ⟨fun hne => absurd rfl hne, fun j b hj hb _ => hnew j b hb hj⟩
  · exact (forall_getElem?_set hn).mpr
      ⟨fun _ => hsymm _ _ (hnew i a ha hi), fun j b _ hb => h i a ha j b hb⟩

theorem Pairs.append (hnew : ∀ b, R k b) : Pairs R (tasks ++ [k]) := by
  refine forall_getElem?_append.mpr ⟨?_, fun i a ha => ?_⟩
  · exact forall_getElem?_append.mpr ⟨fun hne => absurd rfl hne, fun j b _ _ => hnew b⟩
  · exact forall_getElem?_append.mpr ⟨fun _ => hsymm _ _ (hnew a), fun j b hb => h i a ha j b hb⟩

end

/-- The sum of what the tasks count for. -/
def total (f : K → Nat) (tasks : List K) : Nat := (tasks.map f).sum

section
variable (f : K → Nat)
include f

@[simp] theorem total_nil : total f [] = 0 := rfl

@[simp] theorem total_cons (k : K) (tasks : List K) :
    total f (k :: tasks) = f k + total f tasks := by
  simp [total]

@[simp] theorem total_append (tasks : List K) (k : K) :
    total f (tasks ++ [k]) = total f tasks + f k := by
  simp [total]

theorem total_set (hn : tasks[n]? = some k) :
    total f (tasks.set n k') + f k = total f tasks + f k' := by
  induction tasks generalizing n with
  | nil => cases hn
  | cons _ tasks =>
    cases n with
    | zero =>
      grind [total_cons]
    | succ n =>
      grind [total_cons]

theorem le_total (hn : tasks[n]? = some k) : f k ≤ total f tasks :=
  le_sum_of_mem (mem_map_of_mem (mem_of_getElem? hn))

theorem add_le_total {j : Nat} {kj : K} (hn : tasks[n]? = some k)
    (hj : tasks[j]? = some kj) (hne : j ≠ n) : f k + f kj ≤ total f tasks := by
  induction tasks generalizing n j with
  | nil => cases hn
  | cons _ tasks =>
    rw [total_cons]
    cases n with
    | zero =>
      grind [le_total]
    | succ n =>
      grind [le_total]

end

theorem total_le_total {f g : K → Nat} (h : ∀ k, f k ≤ g k) (tasks : List K) :
    total f tasks ≤ total g tasks :=
  sum_le_sum fun k _ => h k

theorem eq_total_set (f : K → Nat) (hn : tasks[n]? = some k) {x x' : Nat}
    (hx : x = total f tasks) (hmove : x' + f k = x + f k') :
    x' = total f (tasks.set n k') := by
  have : total f (tasks.set n k') + f k = total f tasks + f k' := total_set f hn
  omega

/-- A sum stays within its limit if a task adds to it only below the limit of a counter
that counts at least as much. -/
theorem total_set_le {f g : K → Nat} (hfg : ∀ k, f k ≤ g k) (hn : tasks[n]? = some k) {limit : Nat}
    (hold : total f tasks ≤ limit) (hmove : f k' ≤ f k ∨ total g tasks + f k' ≤ limit) :
    total f (tasks.set n k') ≤ limit := by
  have hset : total f (tasks.set n k') + f k = total f tasks + f k' := total_set f hn
  have hle := total_le_total hfg tasks
  omega

end

end Interleave
