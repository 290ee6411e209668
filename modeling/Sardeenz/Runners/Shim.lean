/-
# `Sardeenz.Runners.Shim` — the state that a runner shim reports

`app.py` of the vLLM and of the MLServer runner.  A poller watches the process of the
engine, records its exit as `ERROR` and ends; `/sleep` and `/wake` await the engine's reply
and then set the state, whatever it is by then.

    poller     starting → probing → starting | watching → ended
    /sleep     called → scraping (vLLM only) → asking → answered → ended
    /wake      called → asking → answered → ended

**Proved here.**  When `ERROR` stays (`error_absorbing`), and a reply that overwrites it
(`late_reply_revives`).
-/
import Sardeenz.Pool
import Sardeenz.Services.Calls

namespace Sardeenz.Runners.Shim

open Interleave

inductive Poller where
  | starting | probing | watching | ended
deriving DecidableEq

structure Status where
  state : RunnerState := .starting
  /-- `engine.is_alive()`. -/
  alive : Bool := true
  poller : Poller := .starting
  /-- The poller has recorded `ERROR`. -/
  recorded : Bool := false
deriving DecidableEq

/-- `mark_error`, after which the poller returns. -/
def Status.markError (s : Status) : Status :=
  { s with state := .error, poller := .ended, recorded := true }

inductive Around where
  | exit
  /-- `_health_poller` runs to its next await; a probe was answered with `ready`. -/
  | poll (ready : Bool)

def around : Around → Status → Option Status
  | .exit, s => some { s with alive := false }
  | .poll ready, s =>
    match s.poller with
    | .starting =>
      if s.state ≠ .starting then some { s with poller := .watching }
      else if s.alive then some { s with poller := .probing } else some s.markError
    | .probing =>
      if ready then some { s with state := .ready, poller := .watching }
      else some { s with poller := .starting }
    | .watching =>
      if s.alive then some s
      else if s.state ∈ [.ready, .busy, .sleeping] then some s.markError
      else some { s with poller := .ended }
    | .ended => none

/-- `post_sleep`, with a level that is supported or not, and `post_wake`. -/
inductive Request where
  | sleep (supported : Bool)
  | wake

inductive Stage where
  | called | scraping | asking | answered | ended
deriving DecidableEq

structure Handler where
  request : Request
  stage : Stage := .called

inductive Input where
  | go
  /-- `_scrape_active_requests` returns. -/
  | active (n : Option Nat)
  /-- The engine replies, or the call of it fails. -/
  | reply (ok : Bool)

/-- `mark_sleeping` and `mark_awake`. -/
def Request.mark : Request → RunnerState
  | .sleep _ => .sleeping
  | .wake => .ready

variable (scrapes : Bool)

/-- Only a live engine replies; a call of a dead one fails. -/
def move (_ : Nat) (i : Input) (s : Status) (k : Handler) :
    Option (Status × Handler) :=
  match i, k.stage with
  | .go, .called =>
    match k.request with
    | .sleep supported =>
      if !supported || s.state = .starting then some (s, { k with stage := .ended })
      else some (s, { k with stage := if scrapes then .scraping else .asking })
    | .wake => some (s, { k with stage := .asking })
  | .active n, .scraping =>
    some (s, { k with stage := if n.any (0 < ·) then .ended else .asking })
  | .reply false, .asking => some (s, { k with stage := .ended })
  | .reply true, .asking => if s.alive then some (s, { k with stage := .answered }) else none
  | .go, .answered => some ({ s with state := k.request.mark }, { k with stage := .ended })
  | _, _ => none

/-- The shim of vLLM scrapes the engine's metrics before a sleep, that of MLServer does not. -/
def rules : Pool.Rules Status Handler Request Input Around where
  enter request := { request }
  move := move scrapes
  around := around

variable (s : Pool Status Handler)

/-- The poller does not look at a dead engine while a reply of it is still to be marked. -/
def noneAnswered : Pool.Event Request Input Around → Prop
  | .around (.poll _) => s.world.alive = false → ∀ k ∈ s.tasks, k.stage ≠ .answered
  | _ => True

instance (s : Pool Status Handler) (e : Pool.Event Request Input Around) :
    Decidable (noneAnswered s e) := by
  unfold noneAnswered
  split <;> infer_instance

def Settled : Prop :=
  s.world.recorded = true → s.world.state = .error ∧ s.world.alive = false ∧
    s.world.poller = .ended ∧ ∀ k ∈ s.tasks, k.stage ≠ .answered

/-- **`ERROR` stays**, if no reply of the engine is still to be marked when the poller
looks at its dead process. -/
theorem error_absorbing {scrapes : Bool} {s : Pool Status Handler}
    (hr : Reach (Pool.step (rules scrapes)) noneAnswered ⟨{}, []⟩ s)
    (h : s.world.recorded = true) : s.world.state = .error := by
  refine (Pool.reach_inv (P := Settled) (fun h => by cases h) ?_ ?_ ?_ hr h).1
  · intro s _ hs _ hrecorded
    obtain ⟨hstate, halive, hpoller, hnone⟩ := hs hrecorded
    refine ⟨hstate, halive, hpoller, fun k hk => ?_⟩
    rcases List.mem_append.mp hk with hk | hk
    · exact hnone k hk
    · cases List.mem_singleton.mp hk
      exact nofun
  · intro s n i k w k' hs _ hk hmove hrecorded
    -- Nobody is answered by a dead engine, and nobody was before.
    have hkept : w = s.world ∧ k'.stage ≠ .answered := by
      simp only [rules] at hmove
      revert hmove
      fun_cases move scrapes n i s.world k
      all_goals grind -ring -linarith [Settled]
    obtain ⟨rfl, hk'⟩ := hkept
    obtain ⟨hstate, halive, hpoller, hnone⟩ := hs hrecorded
    refine ⟨hstate, halive, hpoller, fun k'' hk'' => ?_⟩
    rcases List.mem_or_eq_of_mem_set hk'' with hk'' | rfl
    · exact hnone k'' hk''
    · exact hk'
  · rintro ⟨world, _⟩ e w hs _ he hrecorded
    simp only [rules] at he
    revert he
    fun_cases around e world
    all_goals grind -ring -linarith [Settled, noneAnswered, Status.markError]

/-- The engine is put to sleep, and exits later. -/
def asleepThenGone : List (Pool.Event Request Input Around) :=
  [.around (.poll true), .around (.poll true), .arrive (.sleep true), .move 0 .go,
    .move 0 (.active (some 0)), .move 0 (.reply true), .move 0 .go, .around .exit,
    .around (.poll false)]

theorem error_after_sleep :
    ((exec (guarded (Pool.step (rules true)) noneAnswered) ⟨{}, []⟩ asleepThenGone).get
      (by decide)).world.state = .error :=
  error_absorbing (reach_get (by decide)) (by decide)

/-- A sleep is answered, the engine exits and is looked at, and then the answer is marked. -/
def lateReply : List (Pool.Event Request Input Around) :=
  [.around (.poll true), .around (.poll true), .arrive (.sleep true), .move 0 .go] ++
    (if scrapes then [.move 0 (.active none)] else []) ++
    [.move 0 (.reply true), .around .exit, .around (.poll false), .move 0 .go]

/-- In both shims the runner reports `SLEEPING` after `ERROR`, with nobody left to notice. -/
theorem late_reply_revives :
    let revived : Status := { state := .sleeping, alive := false, poller := .ended, recorded := true }
    (exec (Pool.step (rules true)) ⟨{}, []⟩ (lateReply true)).map (·.world) = some revived ∧
      (exec (Pool.step (rules false)) ⟨{}, []⟩ (lateReply false)).map (·.world) = some revived := by
  decide

end Sardeenz.Runners.Shim
