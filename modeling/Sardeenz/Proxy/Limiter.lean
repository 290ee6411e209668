/-
# `Sardeenz.Proxy.Limiter` — the cap on forwarded requests

`ForwardingLimiter` (`forwarding/concurrency.rs`) counts permits per model, under a
lock, and globally, in an atomic; a limit of 0 is none.  `run_inference` takes a permit
before it forwards, and holds it in a local variable:

    arriving → counted → held                  try_acquire
    arriving → rejected                        the limit of the model is reached
    counted → exceeded → backing → rejected    the global one is, and the roll-back
    held → leaving → leavingModel → released   the handler returns or is cancelled: the drop

Each arrow is one atomic operation or one lock.  The handler returns with the headers of
the upstream response; `body` says that the rest of it is still being relayed.

**Proved here.**  When permits and exchanges are within the limits, and who is rejected
(`forwarding_cap`).
-/
import Sardeenz.Pool

namespace Sardeenz.Proxy.Limiter

open Interleave

/-! ## The limiter -/

structure Limits where
  maxGlobal : Nat
  maxPerModel : Nat

/-- `ForwardingLimiter`; a model without a counter counts 0. -/
structure Counters where
  global : Nat := 0
  perModel : String → Nat := fun _ => 0

inductive Stage where
  | arriving
  | counted
  | exceeded
  | backing
  | rejected (message : String)
  | held
  | leaving
  | leavingModel
  | released
deriving DecidableEq

/-- One request that is to be forwarded. -/
structure Forward where
  modelName : String
  stage : Stage := .arriving
  body : Bool := false

def Forward.goTo (k : Forward) (stage : Stage) : Forward := { k with stage }

inductive Input where
  | go
  | returns (body : Bool)
  | cancel
  | relayed

def move (limits : Limits) (i : Input) (w : Counters) (k : Forward) :
    Option (Counters × Forward) :=
  match i, k.stage with
  | .go, .arriving =>
    if 0 < limits.maxPerModel ∧ limits.maxPerModel ≤ w.perModel k.modelName then
      some (w, k.goTo (.rejected s!"forwarding concurrency limit reached for model: {k.modelName}"))
    else
      some ({ w with
          perModel := Function.update w.perModel k.modelName (w.perModel k.modelName + 1) },
        k.goTo .counted)
  | .go, .counted =>
    some ({ w with global := w.global + 1 },
      k.goTo (if 0 < limits.maxGlobal ∧ limits.maxGlobal ≤ w.global then .exceeded else .held))
  | .go, .exceeded => some ({ w with global := w.global - 1 }, k.goTo .backing)
  | .go, .backing =>
    some ({ w with
        perModel := Function.update w.perModel k.modelName (w.perModel k.modelName - 1) },
      k.goTo (.rejected "global forwarding concurrency limit reached"))
  | .returns body, .held => some (w, { k with stage := .leaving, body })
  | .cancel, .held => some (w, k.goTo .leaving)
  | .go, .leaving => some ({ w with global := w.global - 1 }, k.goTo .leavingModel)
  | .go, .leavingModel =>
    some ({ w with
        perModel := Function.update w.perModel k.modelName (w.perModel k.modelName - 1) },
      k.goTo .released)
  | .relayed, _ => if k.body then some (w, { k with body := false }) else none
  | _, _ => none

def rules (limits : Limits) : Pool.Rules Counters Forward String Input Empty where
  enter modelName := { modelName }
  move _ := move limits
  around := nofun

abbrev System := Pool Counters Forward

abbrev Event := Pool.Event String Input Empty

abbrev step (limits : Limits) : System → Event → Option System := Pool.step (rules limits)

def start : System := { world := {} }

/-! ## What a request counts for -/

def Stage.admitted : Stage → Bool
  | .held | .leaving => true
  | _ => false

def Stage.inGlobal : Stage → Bool
  | .exceeded => true
  | stage => stage.admitted

def Stage.inModel : Stage → Bool
  | .counted | .exceeded | .backing | .leavingModel => true
  | stage => stage.admitted

def Stage.halfWay (stage : Stage) : Bool := stage.inModel && !stage.admitted

namespace Forward

def exchanging (k : Forward) : Bool := decide (k.stage = .held) || k.body

def countModel (f : Forward → Bool) (m : String) (k : Forward) : Nat :=
  if f k ∧ k.modelName = m then 1 else 0

end Forward

variable {limits : Limits} {s : System} {n : Nat} {i : Input} {w w' : Counters} {k k' : Forward}

structure LimiterMove (limits : Limits) (w : Counters) (k : Forward) (w' : Counters)
    (k' : Forward) : Prop where
  modelName : k'.modelName = k.modelName
  global : w'.global + k.stage.inGlobal.toNat = w.global + k'.stage.inGlobal.toNat
  model : ∀ m, w'.perModel m + k.countModel (·.stage.inModel) m =
    w.perModel m + k'.countModel (·.stage.inModel) m
  globalLimit : 0 < limits.maxGlobal → k'.stage.admitted = true →
    k.stage.admitted = true ∨ w.global < limits.maxGlobal
  modelLimit : 0 < limits.maxPerModel → ∀ m, w'.perModel m ≤ w.perModel m ∨
    w'.perModel m ≤ limits.maxPerModel

theorem limiter_move (hglobal : k.stage.inGlobal.toNat ≤ w.global)
    (hmodel : k.countModel (·.stage.inModel) k.modelName ≤ w.perModel k.modelName)
    (h : move limits i w k = some (w', k')) : LimiterMove limits w k w' k' := by
  revert h
  fun_cases move limits i w k
  all_goals
    intro h
    cases h
  all_goals constructor
  all_goals simp_all [Forward.goTo, Forward.countModel, Stage.inGlobal, Stage.inModel, Stage.admitted]
  all_goals grind -ring -linarith

/-- The counters are the sums of what the requests count for, and the permits are
within the limits. -/
structure Counted (limits : Limits) (s : System) : Prop where
  global : s.world.global = total (·.stage.inGlobal.toNat) s.tasks
  model : ∀ m, s.world.perModel m = total (Forward.countModel (·.stage.inModel) m) s.tasks
  globalLimit : 0 < limits.maxGlobal → total (·.stage.admitted.toNat) s.tasks ≤ limits.maxGlobal
  modelLimit : 0 < limits.maxPerModel → ∀ m, s.world.perModel m ≤ limits.maxPerModel

theorem Counted.move (hs : Counted limits s) (hk : s.tasks[n]? = some k)
    (h : Limiter.move limits i s.world k = some (w', k')) :
    Counted limits ⟨w', s.tasks.set n k'⟩ := by
  have hmove := limiter_move (hs.global ▸ le_total (·.stage.inGlobal.toNat) hk)
    (hs.model _ ▸ le_total _ hk) h
  constructor
  · exact eq_total_set _ hk hs.global hmove.global
  · exact fun m => eq_total_set _ hk (hs.model m) (hmove.model m)
  · intro hpos
    refine total_set_le (g := (·.stage.inGlobal.toNat)) (fun k => ?_) hk (hs.globalLimit hpos) ?_
    · cases k.stage <;> simp [Stage.inGlobal, Stage.admitted]
    · rw [← hs.global]
      cases hin : k'.stage.admitted with
      | false => exact .inl (Nat.zero_le _)
      | true => exact (hmove.globalLimit hpos hin).imp (fun hold => by simp [hold]) id
  · exact fun hpos m => (hmove.modelLimit hpos m).elim (·.trans (hs.modelLimit hpos m)) id

theorem counted_of_reach {ok} (hr : Reach (step limits) ok start s) :
    Counted limits s := by
  refine Pool.reach_inv ?_ ?_ ?_ nofun hr
  · exact ⟨rfl, fun _ => rfl, fun _ => Nat.zero_le _, fun _ _ => Nat.zero_le _⟩
  · intro s a ⟨_, _, _, _⟩ _
    constructor
    all_goals simp_all [rules, Forward.countModel, Stage.inGlobal, Stage.inModel, Stage.admitted]
  · exact fun s n i k w _ hs _ hk h => hs.move hk h

/-! ## The cap -/

def NoTail (_ : System) : Event → Prop
  | .move _ (.returns body) => body = false
  | _ => True

/-- A request makes its checks while no other acquisition or drop is half-way. -/
def ChecksApart (s : System) : Event → Prop
  | .move n _ => ∀ k, s.tasks[n]? = some k → k.stage = .arriving ∨ k.stage = .counted →
      ∀ (j : Nat) k', s.tasks[j]? = some k' → j ≠ n → k'.stage.halfWay = false
  | _ => True

theorem no_body (hr : Reach (step limits) NoTail start s) :
    ∀ (j : Nat) k, s.tasks[j]? = some k → k.body = false := by
  refine Pool.reach_inv (P := fun s : System => ∀ (j : Nat) k, s.tasks[j]? = some k →
    k.body = false) (fun j k hj => by cases hj) ?_ ?_ nofun hr
  · exact fun s a hs _ => forall_getElem?_append.mpr ⟨rfl, hs⟩
  · intro s n i k w k' hs _ hk h
    refine (forall_getElem?_set hk).mpr ⟨?_, fun j k₂ _ hk₂ => hs j k₂ hk₂⟩
    have hbody := hs n k hk
    change move limits i s.world k = some (w, k') at h
    revert h
    fun_cases move limits i s.world k
    all_goals
      intro h
      cases h
    all_goals simp_all [Forward.goTo, NoTail]

theorem model_full (h : move limits i w k = some (w', k')) (hstage : k.stage = .arriving)
    (hk' : ∃ message, k'.stage = .rejected message) :
    limits.maxPerModel ≤ w.perModel k.modelName := by
  revert h
  fun_cases move limits i w k
  all_goals
    intro h
    cases h
  all_goals simp_all [Forward.goTo]

theorem global_full (h : move limits i w k = some (w', k')) (hstage : k.stage = .counted)
    (hk' : k'.stage = .exceeded) : limits.maxGlobal ≤ w.global := by
  revert h
  fun_cases move limits i w k
  all_goals
    intro h
    cases h
  all_goals simp_all [Forward.goTo]

/-- **The forwarding cap.**  In every run in which no body is left to relay when a handler
returns, the exchanges in progress are within the limits that are not 0.  In every run
in which a request makes its checks while no other acquisition or drop is half-way, a
request is rejected only when its check finds as many permits held by admitted requests
as the limit allows. -/
theorem forwarding_cap (limits : Limits) : (∀ s, Reach (step limits) NoTail start s →
      (0 < limits.maxGlobal → total (·.exchanging.toNat) s.tasks ≤ limits.maxGlobal) ∧
      (0 < limits.maxPerModel → ∀ m,
        total (Forward.countModel (·.exchanging) m) s.tasks ≤ limits.maxPerModel)) ∧
    ∀ s, Reach (step limits) ChecksApart start s → ∀ (n : Nat) i k w k',
      ChecksApart s (.move n i) → s.tasks[n]? = some k → move limits i s.world k = some (w, k') →
      (k.stage = .arriving → (∃ message, k'.stage = .rejected message) → limits.maxPerModel ≤
        total (Forward.countModel (·.stage.admitted) k.modelName) s.tasks) ∧
      (k.stage = .counted → k'.stage = .exceeded →
        limits.maxGlobal ≤ total (·.stage.admitted.toNat) s.tasks) := by
  refine ⟨fun s hr => ?_, fun s hr n i k w k' hok hk h => ?_⟩
  · have hs := counted_of_reach hr
    have hbody : ∀ k ∈ s.tasks, k.body = false := fun k hk => by
      obtain ⟨j, hj⟩ := List.getElem?_of_mem hk
      exact no_body hr j k hj
    refine ⟨fun hpos => (List.sum_le_sum fun k hk => ?_).trans (hs.globalLimit hpos),
      fun hpos m => (List.sum_le_sum fun k hk => ?_).trans
        ((hs.model m).symm.le.trans (hs.modelLimit hpos m))⟩
    · cases hstage : k.stage <;> simp [Forward.exchanging, hbody k hk, hstage, Stage.admitted]
    · cases hstage : k.stage <;>
        simp [Forward.countModel, Forward.exchanging, hbody k hk, hstage, Stage.inModel,
          Stage.admitted]
  · have hs := counted_of_reach hr
    have hapart : ∀ k₂ ∈ s.tasks, k.stage = .arriving ∨ k.stage = .counted →
        k₂ = k ∨ k₂.stage.halfWay = false := by
      intro k₂ hk₂ hstage
      obtain ⟨j, hj⟩ := List.getElem?_of_mem hk₂
      by_cases hjn : j = n
      · subst hjn
        rw [hk] at hj
        cases hj
        exact .inl rfl
      · exact .inr (hok k hk hstage j k₂ hj hjn)
    refine ⟨fun hstage hk' => ?_, fun hstage hk' => ?_⟩
    · refine ((model_full h hstage hk').trans (hs.model _).le).trans (List.sum_le_sum fun k₂ hk₂ => ?_)
      rcases hapart k₂ hk₂ (.inl hstage) with rfl | hwhole
      · simp [Forward.countModel, hstage, Stage.inModel]
      · grind [Forward.countModel, Stage.halfWay]
    · refine ((global_full h hstage hk').trans hs.global.le).trans (List.sum_le_sum fun k₂ hk₂ => ?_)
      rcases hapart k₂ hk₂ (.inr hstage) with rfl | hwhole
      · simp [hstage, Stage.inGlobal]
      · cases hstage₂ : k₂.stage <;>
          simp_all [Stage.halfWay, Stage.inModel, Stage.inGlobal]

def takes (n : Nat) : List Event := [.arrive "m", .move n .go, .move n .go]

/-- The handler of request `n` returns, with the rest of the body still to be relayed or
not, and drops its permit. -/
def leaves (n : Nat) (body : Bool) : List Event :=
  [.move n (.returns body), .move n .go, .move n .go]

/-- **Both halves fail.**  With a limit of one, two exchanges are in progress once the
handler of the first has returned.  And request 2 is turned away while request 1 rolls
back its own rejected acquisition, with no permit held. -/
theorem two_exchanges_and_empty_rejection :
    (∃ s, exec (step ⟨1, 0⟩) start (takes 0 ++ leaves 0 true ++ takes 1) = some s ∧
      total (·.exchanging.toNat) s.tasks = 2) ∧
    ∃ s, exec (step ⟨1, 0⟩) start (takes 0 ++ takes 1 ++ leaves 0 false ++ takes 2) = some s ∧
      total (·.stage.admitted.toNat) s.tasks = 0 ∧ (s.tasks[2]?).map (·.stage) = some .exceeded :=
  ⟨⟨_, rfl, rfl⟩, _, rfl, rfl, rfl⟩

end Sardeenz.Proxy.Limiter
