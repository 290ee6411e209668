/-
# `Sardeenz.Routes.Claims` — the in-flight claims of the model routes

`routes/models.ts` keeps the requests on one model apart with seven
process-local sets and one durable record.  A handler awaits its checks, and
when the last one passes it adds its claim; the claim is released when the
background work settles.

    handler                      checks awaited            claim
    stop                         assertNoMove, twice       stoppingInFlight
    stop with force              assertNoMove, once        stoppingInFlight
    sleep, wake                  assertNoMove, twice       modelLifecycleInFlight
    add instance, start          assertNoMove, once        launchingInFlight
    operation on one instance    assertNoMove, twice       instanceOpInFlight
    update                       assertNoMove, once        configurationUpdateInFlight
    delete                       none                      deletingInFlight
    move                         assertMoveAdmission, 3×   MoveOperation, movingInFlight

Each `assert…` reads the durable `MoveOperation` first and looks at the sets
when the answer is back; the caller goes on in a later turn of the event
loop.  So between the last check of a handler and its claim other handlers
run: this is the handler's *window*.  The window of a move is the longest,
as the durable record is created in it.

**Proved here.**  When a move and another operation never hold their claims together
(`move_excludes_operations`), and a run into both (`stop_claims_while_move_creates`).
-/
import Sardeenz.Run
import Mathlib.Data.Finset.Insert
import Mathlib.Data.Finset.Prod

namespace Sardeenz.Routes

open Interleave

/-! ## The claims -/

/-- The claim sets of `ModelRouteClaims`.  An `instanceOpInFlight` key
`model:instance` is the pair: a valid model name holds no colon. -/
structure Claims where
  stoppingInFlight : Finset String
  instanceOpInFlight : Finset (String × String)
  deletingInFlight : Finset String
  movingInFlight : Finset String
  launchingInFlight : Finset String
  modelLifecycleInFlight : Finset String
  configurationUpdateInFlight : Finset String
  deriving DecidableEq

namespace Claims

def empty : Claims := ⟨∅, ∅, ∅, ∅, ∅, ∅, ∅⟩

def hasInstanceOperation (c : Claims) (modelName : String) : Prop :=
  modelName ∈ c.instanceOpInFlight.image Prod.fst
deriving Decidable

/-- A stop, sleep, wake, add-instance, start or per-instance operation on the
model holds its claim. -/
def Occupied (c : Claims) (m : String) : Prop :=
  m ∈ c.stoppingInFlight ∨ m ∈ c.launchingInFlight ∨ m ∈ c.modelLifecycleInFlight ∨
    c.hasInstanceOperation m
deriving Decidable

end Claims

/-- The requests that take a claim, the move apart.  A delete carries the
instances it read before its checks. -/
inductive Operation where
  | stop (force : Bool)
  | sleep
  | wake
  | addInstance
  | start
  | instanceOp (instanceId : String)
  | update
  | delete (force : Bool) (instances : List String)
  deriving DecidableEq

namespace Operation

/-- The `assertNoMove` calls a handler awaits before it claims. -/
def moveChecks : Operation → Nat
  | stop false | sleep | wake | instanceOp _ => 2
  | stop true | addInstance | start | update => 1
  | delete _ _ => 0

/-- The synchronous refusals in front of the claim.  `addInstance` and `start`
have none: they add their claim first and `assertLaunchAllowed` throws later. -/
def Refused (c : Claims) (m : String) : Operation → Prop
  | stop _ => m ∈ c.stoppingInFlight
  | sleep | wake => m ∈ c.modelLifecycleInFlight
  | addInstance | start => False
  | instanceOp i => (m, i) ∈ c.instanceOpInFlight
  | update =>
    m ∈ c.deletingInFlight ∨ m ∈ c.configurationUpdateInFlight ∨ c.Occupied m
  | delete force instances =>
    m ∈ c.configurationUpdateInFlight ∨ m ∈ c.deletingInFlight ∨
      -- A model without instances is deleted without these two checks.
      ((force = true ∨ instances ≠ []) ∧
        (m ∈ c.stoppingInFlight ∨ ∃ i ∈ instances, (m, i) ∈ c.instanceOpInFlight))

instance (c : Claims) (m : String) (o : Operation) : Decidable (Refused c m o) := by
  unfold Refused
  split <;> infer_instance

def claim (c : Claims) (m : String) : Operation → Claims
  | stop _ => { c with stoppingInFlight := insert m c.stoppingInFlight }
  | sleep | wake => { c with modelLifecycleInFlight := insert m c.modelLifecycleInFlight }
  | addInstance | start => { c with launchingInFlight := insert m c.launchingInFlight }
  | instanceOp i => { c with instanceOpInFlight := insert (m, i) c.instanceOpInFlight }
  | update =>
    { c with configurationUpdateInFlight := insert m c.configurationUpdateInFlight }
  | delete _ _ => { c with deletingInFlight := insert m c.deletingInFlight }

/-- Delete the claim of an operation.  The sets do not count: two launches of
one model share one claim, and the first to settle deletes it. -/
def release (c : Claims) (m : String) : Operation → Claims
  | stop _ => { c with stoppingInFlight := c.stoppingInFlight.erase m }
  | sleep | wake => { c with modelLifecycleInFlight := c.modelLifecycleInFlight.erase m }
  | addInstance | start => { c with launchingInFlight := c.launchingInFlight.erase m }
  | instanceOp i => { c with instanceOpInFlight := c.instanceOpInFlight.erase (m, i) }
  | update =>
    { c with configurationUpdateInFlight := c.configurationUpdateInFlight.erase m }
  | delete _ _ => { c with deletingInFlight := c.deletingInFlight.erase m }

/-- The operations a move is to exclude: all but the update and the delete of
the model. -/
def excludesMove : Operation → Bool
  | update | delete _ _ => false
  | _ => true

@[simp] theorem movingInFlight_claim (c : Claims) (m : String) (o : Operation) :
    (o.claim c m).movingInFlight = c.movingInFlight := by
  cases o <;> rfl

@[simp] theorem movingInFlight_release (c : Claims) (m : String) (o : Operation) :
    (o.release c m).movingInFlight = c.movingInFlight := by
  cases o <;> rfl

theorem occupied_of_claim {c m m'} {o : Operation}
    (h : (o.claim c m).Occupied m') :
    c.Occupied m' ∨ (m' = m ∧ o.excludesMove = true) := by
  unfold Claims.Occupied Claims.hasInstanceOperation at h ⊢
  cases o with
  | _ =>
    grind [claim, excludesMove]

theorem occupied_of_release {c m m'} {o : Operation}
    (h : (o.release c m).Occupied m') : c.Occupied m' := by
  unfold Claims.Occupied Claims.hasInstanceOperation at h ⊢
  cases o with
  | _ =>
    grind [release]

end Operation

def NoMove (c : Claims) (m : String) (durableMove : Bool) : Prop :=
  m ∉ c.movingInFlight ∧ durableMove = false
deriving Decidable

/-- `assertMoveAdmission` after its read. -/
def MoveAdmitted (c : Claims) (m : String) (durableMove : Bool) : Prop :=
  NoMove c m durableMove ∧ m ∉ c.deletingInFlight ∧ m ∉ c.configurationUpdateInFlight ∧
    ¬ c.Occupied m
deriving Decidable

/-! ## The handlers -/

/-- The awaited checks of a handler: `pending n` has `n` of them to make, the
read of the next one on its way; `answered n d` has the answer `d` to the read
of a check after which `n` are left. -/
inductive Checks where
  | pending (left : Nat)
  | answered (left : Nat) (durableMove : Bool)
  deriving DecidableEq

/-- Where a request handler is suspended.  `created` is a move whose
`createMoveOperation` has been performed and whose handler has not run on. -/
inductive Task where
  | idle
  | checking (o : Operation) (m : String) (checks : Checks)
  | claimed (o : Operation) (m : String)
  | admitting (m : String) (checks : Checks)
  | created (m : String) (isNew : Bool)
  | moving (m : String)
  deriving DecidableEq

/-- One control-plane process: its claims, the models with a durable move
operation, and its request handlers. -/
structure Process (k : Nat) where
  claims : Claims
  operations : Finset String
  tasks : Fin k → Task

inductive Action (k : Nat) where
  | request (t : Fin k) (o : Operation) (m : String)
  | requestMove (t : Fin k) (m : String)
  | read (t : Fin k)
  | check (t : Fin k)
  | create (t : Fin k)
  | claim (t : Fin k)
  | settle (t : Fin k)
  | abandon (t : Fin k)
  | removeOperation (m : String)

namespace Process

variable {k : Nat} (s : Process k)

def setTask (t : Fin k) (task : Task) : Process k :=
  { s with tasks := Function.update s.tasks t task }

def read (t : Fin k) : Option (Process k) :=
  match s.tasks t with
  | .checking o m (.pending (n + 1)) =>
    some (s.setTask t (.checking o m (.answered n (decide (m ∈ s.operations)))))
  | .admitting m (.pending (n + 1)) =>
    some (s.setTask t (.admitting m (.answered n (decide (m ∈ s.operations)))))
  | _ => none

def check (t : Fin k) : Option (Process k) :=
  match s.tasks t with
  | .checking o m (.answered n d) =>
    some (s.setTask t (if NoMove s.claims m d then .checking o m (.pending n) else .idle))
  | .admitting m (.answered n d) =>
    some (s.setTask t (if MoveAdmitted s.claims m d then .admitting m (.pending n) else .idle))
  | _ => none

def create (t : Fin k) : Option (Process k) :=
  match s.tasks t with
  | .admitting m (.pending 0) =>
    some ({ s with operations := insert m s.operations }.setTask t
      (.created m (decide (m ∉ s.operations))))
  | _ => none

/-- The handler goes on after its last check, or after `createMoveOperation`. -/
def claim (t : Fin k) : Option (Process k) :=
  match s.tasks t with
  | .checking o m (.pending 0) =>
    if o.Refused s.claims m then
      some (s.setTask t .idle)
    else
      some ({ s with claims := o.claim s.claims m }.setTask t (.claimed o m))
  | .created m true =>
    some ({ s with
      claims := { s.claims with movingInFlight := insert m s.claims.movingInFlight } }.setTask t
        (.moving m))
  | .created _ false => some (s.setTask t .idle)
  | _ => none

def settle (t : Fin k) : Option (Process k) :=
  match s.tasks t with
  | .claimed o m => some ({ s with claims := o.release s.claims m }.setTask t .idle)
  | .moving m =>
    some ({ s with
      claims := { s.claims with movingInFlight := s.claims.movingInFlight.erase m } }.setTask t
        .idle)
  | _ => none

/-- An awaited call throws and the handler ends without touching the claims.
For a move this is the `resume` of its `finally` throwing before the claim is
deleted. -/
def abandon (t : Fin k) : Option (Process k) :=
  match s.tasks t with
  | .idle | .claimed _ _ => none
  | _ => some (s.setTask t .idle)

/-- One turn of the event loop, or one command performed at Redis.  The
durable operation of a model may be removed at any time, by the orchestration
or by a delete. -/
def step : Action k → Option (Process k)
  | .request t o m =>
    if s.tasks t = .idle then some (s.setTask t (.checking o m (.pending o.moveChecks)))
    else none
  | .requestMove t m =>
    if s.tasks t = .idle then some (s.setTask t (.admitting m (.pending 3))) else none
  | .read t => s.read t
  | .check t => s.check t
  | .create t => s.create t
  | .claim t => s.claim t
  | .settle t => s.settle t
  | .abandon t => s.abandon t
  | .removeOperation m => some { s with operations := s.operations.erase m }

def start (k : Nat) (operations : Finset String) : Process k :=
  { claims := .empty, operations, tasks := fun _ => .idle }

end Process

/-! ## The windows -/

/-- The operation on `m` has passed its last check and has not claimed yet. -/
def Task.OperationWindow (m : String) : Task → Prop
  | .checking o m' (.pending 0) => m' = m ∧ o.excludesMove = true
  | _ => False

/-- The move of `m` has passed its last check and has not claimed yet. -/
def Task.MoveWindow (m : String) : Task → Prop
  | .admitting m' (.pending 0) => m' = m
  | .created m' true => m' = m
  | _ => False

instance (m : String) (task : Task) : Decidable (task.OperationWindow m) := by
  unfold Task.OperationWindow
  split <;> infer_instance

instance (m : String) (task : Task) : Decidable (task.MoveWindow m) := by
  unfold Task.MoveWindow
  split <;> infer_instance

variable {k : Nat}

/-- The handlers that `t`, suspended as given, competes with are outside their
windows: for an operation these are the moves of its model, for a move the
operations and the other moves. -/
def Process.Alone (s : Process k) (t : Fin k) : Task → Prop
  | .checking o m _ => o.excludesMove = true → ∀ t', ¬ (s.tasks t').MoveWindow m
  | .created m _ =>
    ∀ t', ¬ (s.tasks t').OperationWindow m ∧ (t' ≠ t → ¬ (s.tasks t').MoveWindow m)
  | _ => True

instance (s : Process k) (t : Fin k) (task : Task) : Decidable (s.Alone t task) := by
  unfold Process.Alone
  split <;> infer_instance

def WindowsApart (s : Process k) : Action k → Prop
  | .claim t => s.Alone t (s.tasks t)
  | _ => True

instance (s : Process k) (a : Action k) : Decidable (WindowsApart s a) := by
  unfold WindowsApart
  split <;> infer_instance

/-! ## Exclusion -/

namespace Process

/-- What the windows being apart keeps: a claimed move, or a move in its
window, finds the model unoccupied, and no operation in its window has a move
ahead of it. -/
structure Inv (s : Process k) : Prop where
  moving_mem : ∀ t m, s.tasks t = .moving m → m ∈ s.claims.movingInFlight
  moving_unique : ∀ t t' m, s.tasks t = .moving m → s.tasks t' = .moving m → t = t'
  moving_free : ∀ m ∈ s.claims.movingInFlight, ¬ s.claims.Occupied m
  moveWindow_free : ∀ t m, (s.tasks t).MoveWindow m →
    ¬ s.claims.Occupied m ∧ m ∉ s.claims.movingInFlight
  operationWindow_free : ∀ t m, (s.tasks t).OperationWindow m → m ∉ s.claims.movingInFlight

theorem inv_start (k : Nat) (operations : Finset String) : (start k operations).Inv where
  moving_mem := fun _ _ h => nomatch h
  moving_unique := fun _ _ _ h _ => nomatch h
  moving_free := fun _ h => absurd h (Finset.notMem_empty _)
  moveWindow_free := fun _ _ h => h.elim
  operationWindow_free := fun _ _ h => h.elim

variable {task : Task}

theorem setTask_cases {s : Process k} {t t'} {P : Task → Prop}
    (h : P ((s.setTask t task).tasks t')) :
    (t' = t ∧ P task) ∨ (t' ≠ t ∧ P (s.tasks t')) := by
  by_cases ht : t' = t
  · simp_all [setTask]
  · exact .inr ⟨ht, by simpa [setTask, Function.update_of_ne ht] using h⟩

variable {t : Fin k}

/-- A task moves on without a claim being added: the claims may shrink, and
the task enters a window only as the window requires. -/
theorem Inv.setTask {s : Process k} (hi : s.Inv) {c d}
    (hocc : ∀ m, c.Occupied m → s.claims.Occupied m)
    (hsub : c.movingInFlight ⊆ s.claims.movingInFlight)
    (hkept : ∀ t' m, t' ≠ t → s.tasks t' = .moving m → m ∈ c.movingInFlight)
    (hmoving : ∀ m, task ≠ .moving m)
    (hmove : ∀ m, task.MoveWindow m → ¬ s.claims.Occupied m ∧ m ∉ s.claims.movingInFlight)
    (hop : ∀ m, task.OperationWindow m → m ∉ s.claims.movingInFlight) :
    (Process.setTask { s with claims := c, operations := d } t task).Inv where
  moving_mem := by
    intro t' m h
    rcases setTask_cases (P := (· = .moving m)) h with ⟨-, h⟩ | ⟨hne, h⟩
    · exact absurd h (hmoving m)
    · exact hkept t' m hne h
  moving_unique := by
    intro t₁ t₂ m h₁ h₂
    rcases setTask_cases (P := (· = .moving m)) h₁ with ⟨-, h₁⟩ | ⟨-, h₁⟩
    · exact absurd h₁ (hmoving m)
    rcases setTask_cases (P := (· = .moving m)) h₂ with ⟨-, h₂⟩ | ⟨-, h₂⟩
    · exact absurd h₂ (hmoving m)
    exact hi.moving_unique t₁ t₂ m h₁ h₂
  moving_free := fun m hm ho => hi.moving_free m (hsub hm) (hocc m ho)
  moveWindow_free := by
    intro t' m h
    have hfree : ¬ s.claims.Occupied m ∧ m ∉ s.claims.movingInFlight := by
      rcases setTask_cases h with ⟨-, h⟩ | ⟨-, h⟩
      · exact hmove m h
      · exact hi.moveWindow_free t' m h
    exact ⟨fun ho => hfree.1 (hocc m ho), fun hm => hfree.2 (hsub hm)⟩
  operationWindow_free := by
    intro t' m h hm
    rcases setTask_cases h with ⟨-, h⟩ | ⟨-, h⟩
    · exact hop m h (hsub hm)
    · exact hi.operationWindow_free t' m h (hsub hm)

theorem Inv.setTask_same {s : Process k} (hi : s.Inv) (hmoving : ∀ m, task ≠ .moving m)
    (hmove : ∀ m, task.MoveWindow m → ¬ s.claims.Occupied m ∧ m ∉ s.claims.movingInFlight)
    (hop : ∀ m, task.OperationWindow m → m ∉ s.claims.movingInFlight) :
    (s.setTask t task).Inv :=
  hi.setTask (fun _ h => h) (Finset.Subset.refl _)
    (fun t' m _ h => hi.moving_mem t' m h) hmoving hmove hop

/-! ### One lemma for each action -/

variable {s s' : Process k} {m : String}

section
variable (hi : s.Inv)
include hi

theorem Inv.request {o} (h : s.step (.request t o m) = some s') : s'.Inv := by
  obtain ⟨-, h⟩ := Option.ite_none_right_eq_some.mp h
  cases h
  refine hi.setTask_same (fun _ h => nomatch h) (fun _ h => h.elim) ?_
  -- A handler with no check to make is the delete, which excludes no move.
  intro _ hw
  cases o with
  | stop force => cases force <;> exact hw.elim
  | delete => exact absurd hw.2 Bool.false_ne_true
  | _ => exact hw.elim

theorem Inv.read (h : s.read t = some s') : s'.Inv := by
  unfold Process.read at h
  split at h
  · cases h
    exact hi.setTask_same (fun _ h => nomatch h) (fun _ h => h.elim) (fun _ h => h.elim)
  · cases h
    exact hi.setTask_same (fun _ h => nomatch h) (fun _ h => h.elim) (fun _ h => h.elim)
  · cases h

theorem inv_idle (t : Fin k) : (s.setTask t .idle).Inv :=
  hi.setTask_same (fun _ h => nomatch h) (fun _ h => h.elim) (fun _ h => h.elim)

theorem Inv.check (h : s.check t = some s') : s'.Inv := by
  unfold Process.check at h
  split at h
  · rename_i o m n d _
    cases h
    by_cases hd : NoMove s.claims m d
    · rw [if_pos hd]
      refine hi.setTask_same (fun _ h => nomatch h) (fun _ h => h.elim) ?_
      intro m' hw
      cases n with
      | zero => exact hw.1 ▸ hd.1
      | succ n => exact hw.elim
    · rw [if_neg hd]
      exact inv_idle hi t
  · rename_i m n d _
    cases h
    by_cases hd : MoveAdmitted s.claims m d
    · rw [if_pos hd]
      refine hi.setTask_same (fun _ h => nomatch h) ?_ (fun _ h => h.elim)
      intro m' hw
      cases n with
      | zero =>
        obtain rfl : m = m' := hw
        exact ⟨hd.2.2.2, hd.1.1⟩
      | succ n => exact hw.elim
    · rw [if_neg hd]
      exact inv_idle hi t
  · cases h

theorem Inv.create (h : s.create t = some s') : s'.Inv := by
  unfold Process.create at h
  split at h
  · rename_i m ht
    cases h
    refine hi.setTask (fun _ h => h) (Finset.Subset.refl _)
      (fun t' m _ h => hi.moving_mem t' m h) (fun _ h => nomatch h) ?_ (fun _ h => h.elim)
    intro m' hw
    have hmm : m = m' := by
      cases hnew : decide (m ∉ s.operations) with
      | true => rwa [hnew] at hw
      | false => rw [hnew] at hw; exact hw.elim
    exact hi.moveWindow_free t m' (by rw [ht]; exact hmm)
  · cases h

theorem Inv.claim_operation {o} (ht : s.tasks t = .checking o m (.pending 0))
    (hok : o.excludesMove = true → ∀ t', ¬ (s.tasks t').MoveWindow m) :
    (Process.setTask { s with claims := o.claim s.claims m } t (.claimed o m)).Inv where
  moving_mem := by
    intro t' m' h
    rcases setTask_cases (P := (· = .moving m')) h with ⟨-, h⟩ | ⟨-, h⟩
    · cases h
    · exact (Operation.movingInFlight_claim _ _ _).symm ▸ hi.moving_mem t' m' h
  moving_unique := by
    intro t₁ t₂ m' h₁ h₂
    rcases setTask_cases (P := (· = .moving m')) h₁ with ⟨-, h₁⟩ | ⟨-, h₁⟩
    · cases h₁
    rcases setTask_cases (P := (· = .moving m')) h₂ with ⟨-, h₂⟩ | ⟨-, h₂⟩
    · cases h₂
    exact hi.moving_unique t₁ t₂ m' h₁ h₂
  moving_free := by
    intro m' hm ho
    replace hm : m' ∈ s.claims.movingInFlight := by simpa [Process.setTask] using hm
    rcases Operation.occupied_of_claim ho with ho | ⟨rfl, hex⟩
    · exact hi.moving_free m' hm ho
    · exact hi.operationWindow_free t m' (by rw [ht]; exact ⟨rfl, hex⟩) hm
  moveWindow_free := by
    intro t' m' h
    rcases setTask_cases h with ⟨-, h⟩ | ⟨-, h⟩
    · exact h.elim
    · obtain ⟨hfree, hnot⟩ := hi.moveWindow_free t' m' h
      refine ⟨fun ho => ?_, by simpa [Process.setTask] using hnot⟩
      rcases Operation.occupied_of_claim ho with ho | ⟨rfl, hex⟩
      · exact hfree ho
      · exact hok hex t' h
  operationWindow_free := by
    intro t' m' h
    rcases setTask_cases h with ⟨-, h⟩ | ⟨-, h⟩
    · exact h.elim
    · simpa [Process.setTask] using hi.operationWindow_free t' m' h

theorem Inv.claim_move (ht : s.tasks t = .created m true)
    (hok : ∀ t', ¬ (s.tasks t').OperationWindow m ∧ (t' ≠ t → ¬ (s.tasks t').MoveWindow m)) :
    (Process.setTask { s with claims :=
      { s.claims with movingInFlight := insert m s.claims.movingInFlight } } t (.moving m)).Inv :=
  have hwin : ¬ s.claims.Occupied m ∧ m ∉ s.claims.movingInFlight :=
    hi.moveWindow_free t m (by rw [ht]; rfl)
  -- No move of the model runs yet: it would have its claim.
  have hnone : ∀ t', s.tasks t' ≠ .moving m := fun t' h => hwin.2 (hi.moving_mem t' m h)
  { moving_mem := by
      intro t' m' h
      rcases setTask_cases (P := (· = .moving m')) h with ⟨-, h⟩ | ⟨-, h⟩
      · obtain rfl : m = m' := by injection h
        exact Finset.mem_insert_self _ _
      · exact Finset.mem_insert_of_mem (hi.moving_mem t' m' h)
    moving_unique := by
      intro t₁ t₂ m' h₁ h₂
      rcases setTask_cases (P := (· = .moving m')) h₁ with ⟨e₁, g₁⟩ | ⟨-, g₁⟩ <;>
        rcases setTask_cases (P := (· = .moving m')) h₂ with ⟨e₂, g₂⟩ | ⟨-, g₂⟩
      · rw [e₁, e₂]
      · grind
      · grind
      · exact hi.moving_unique t₁ t₂ m' g₁ g₂
    moving_free := by
      intro m' hm
      rcases Finset.mem_insert.mp hm with rfl | hm
      · exact hwin.1
      · exact hi.moving_free m' hm
    moveWindow_free := by
      intro t' m' h
      rcases setTask_cases h with ⟨-, h⟩ | ⟨hne, h⟩
      · exact h.elim
      · obtain ⟨hfree, hnot⟩ := hi.moveWindow_free t' m' h
        refine ⟨hfree, fun hm => ?_⟩
        rcases Finset.mem_insert.mp hm with rfl | hm
        · exact (hok t').2 hne h
        · exact hnot hm
    operationWindow_free := by
      intro t' m' h hm
      rcases setTask_cases h with ⟨-, h⟩ | ⟨-, h⟩
      · exact h.elim
      rcases Finset.mem_insert.mp hm with rfl | hm
      · exact (hok t').1 h
      · exact hi.operationWindow_free t' m' h hm }

theorem Inv.claim (hok : s.Alone t (s.tasks t)) (h : s.claim t = some s') : s'.Inv := by
  unfold Process.claim at h
  split at h
  · rename_i o m ht
    rw [ht] at hok
    split at h
    · cases h
      exact inv_idle hi t
    · cases h
      exact hi.claim_operation ht hok
  · rename_i m ht
    rw [ht] at hok
    cases h
    exact hi.claim_move ht hok
  · cases h
    exact inv_idle hi t
  · cases h

theorem Inv.settle (h : s.settle t = some s') : s'.Inv := by
  unfold Process.settle at h
  split at h
  · rename_i o m _
    cases h
    have hsame : (o.release s.claims m).movingInFlight = s.claims.movingInFlight := by simp
    refine hi.setTask (fun _ => Operation.occupied_of_release)
      hsame.subset ?_ (fun _ h => nomatch h) (fun _ h => h.elim) (fun _ h => h.elim)
    grind [hi.moving_mem]
  · rename_i m ht
    cases h
    refine hi.setTask (fun _ h => h) (Finset.erase_subset _ _) ?_
      (fun _ h => nomatch h) (fun _ h => h.elim) (fun _ h => h.elim)
    grind [hi.moving_mem, hi.moving_unique]
  · cases h

theorem Inv.step {a} (hok : WindowsApart s a) (h : s.step a = some s') : s'.Inv := by
  cases a with
  | request t o m => exact hi.request h
  | requestMove t m =>
    obtain ⟨-, h⟩ := Option.ite_none_right_eq_some.mp h
    cases h
    exact hi.setTask_same (fun _ h => nomatch h) (fun _ h => h.elim) (fun _ h => h.elim)
  | read t => exact hi.read h
  | check t => exact hi.check h
  | create t => exact hi.create h
  | claim t => exact hi.claim hok h
  | settle t => exact hi.settle h
  | abandon t => grind [Process.step, Process.abandon, inv_idle]
  | removeOperation m =>
    cases h
    exact ⟨hi.moving_mem, hi.moving_unique, hi.moving_free, hi.moveWindow_free,
      hi.operationWindow_free⟩

end

/-- A move of the model has been admitted: its claim is held, or its
background work runs. -/
def MoveInFlight (s : Process k) (m : String) : Prop :=
  m ∈ s.claims.movingInFlight ∨ ∃ t, s.tasks t = .moving m
deriving Decidable

end Process

/-- **Move mutual exclusion.**  In every run in which no claim is taken inside
the window of a competing handler, no state has a move of a model in flight
and a stop, sleep, wake, add-instance, start or per-instance operation on the
model holding its claim. -/
theorem move_excludes_operations {operations : Finset String} {s : Process k}
    (hr : Reach Process.step WindowsApart (Process.start k operations) s) (m : String) :
    ¬ (s.MoveInFlight m ∧ s.claims.Occupied m) := by
  have hi : s.Inv :=
    hr.inductive_inv (Process.inv_start k operations) fun hi hok h => hi.step hok h
  rintro ⟨hm | ⟨t, ht⟩, ho⟩
  · exact hi.moving_free m hm ho
  · exact hi.moving_free m (hi.moving_mem t m ht) ho

def moveThenStop : List (Action 2) :=
  [.requestMove left "m", .read left, .check left, .read left, .check left, .read left,
    .check left, .create left, .claim left, .settle left, .removeOperation "m",
    .request right (.stop false) "m", .read right, .check right, .read right, .check right,
    .claim right]

theorem moveThenStop_exclusive :
    let s := (exec (guarded Process.step WindowsApart) (Process.start 2 ∅) moveThenStop).get
      (by decide)
    s.claims.Occupied "m" ∧ ¬ (s.MoveInFlight "m" ∧ s.claims.Occupied "m") :=
  ⟨by decide, move_excludes_operations (reach_get (by decide)) "m"⟩

/-- A stop makes its last check and claims while the move has passed its own
and `createMoveOperation` is on its way. -/
def stopInMoveWindow : List (Action 2) :=
  [.request right (.stop false) "m", .read right, .check right,
    .requestMove left "m", .read left, .check left, .read left, .check left, .read left,
    .check left, .read right, .check right, .claim right, .create left, .claim left]

/-- **The race.**  Both checks pass, as neither handler has claimed, and then
both claim: the model is stopped while its move runs. -/
theorem stop_claims_while_move_creates :
    ∃ s, exec Process.step (Process.start 2 ∅) stopInMoveWindow = some s ∧
      s.MoveInFlight "m" ∧ s.claims.Occupied "m" :=
  ⟨(exec Process.step (Process.start 2 ∅) stopInMoveWindow).get (by decide),
    (Option.some_get _).symm, by decide, by decide⟩

end Sardeenz.Routes
