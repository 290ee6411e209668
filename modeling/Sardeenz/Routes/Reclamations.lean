/-
# `Sardeenz.Routes.Reclamations` — evictions of several reclamations at once

A launch that finds no room, and a wake that finds none on its worker, reclaim
capacity in the same way (`routes/models.ts`):

    list      `getAllInstances`, then the inference times and the model records
    select    `selectVictims`: one stretch of code, which asks the circuit breaker
    settle    a victim's teardown has come to its end; if it succeeded, the eviction is
              recorded.  The victims are torn down side by side

Between these points other reclamations run.  The breaker counts what has been
recorded, and nothing is recorded before a teardown has succeeded: so selections
that lie close together see the same count, and, if they have listed the same
instances, choose the same victims.

The times of all recordings are kept (`recorded`), as is which reclamations have
been under way at the same time (`met`).

**Proved here.**  The rate of evictions of reclamations one after the other
(`eviction_rate_bounded`), and of two at once (`parallel_reclamations_exceed_rate`).
-/
import Mathlib.Data.Fintype.Basic
import Sardeenz.Run
import Sardeenz.Services.Eviction

namespace Sardeenz

open Interleave List Function

/-! ## The system -/

/-- Where a reclamation is. -/
inductive ReclaimPhase where
  | idle
  | listed (instances : List InstanceState)
  | evicting (pending : List EvictionCandidate)
  | ended

def ReclaimPhase.UnderWay : ReclaimPhase → Prop
  | .listed _ | .evicting _ => True
  | .idle | .ended => False

instance : ∀ p : ReclaimPhase, Decidable p.UnderWay
  | .listed _ | .evicting _ => isTrue trivial
  | .idle | .ended => isFalse id

/-- The process, with all its reclamations. -/
structure ReclaimState (T : Type) where
  now : Nat
  instances : List InstanceState := []
  engine : EvictionEngine
  recorded : List Nat := []
  phase : T → ReclaimPhase := fun _ => .idle
  selected : T → List EvictionCandidate := fun _ => []
  met : T → T → Bool := fun _ _ => false

/-- What a reclamation has at hand when it selects, besides the instances. -/
structure ReclaimQuery where
  inferenceTs : String → Option Nat := fun _ => none
  pinnedModels : List String := []
  requiredBytes : Nat
  targetWorkerIds : Option (List String) := none
  memoryByModel : String → Option Nat

/-- The argument of `selectVictims`, for the instances that were listed. -/
def ReclaimQuery.query (q : ReclaimQuery) (instances : List InstanceState) : EvictionQuery where
  allInstances := instances.map fun s =>
    { s with lastInferenceAt := q.inferenceTs s.modelName <|> s.lastInferenceAt }
  pinnedModels := q.pinnedModels
  requiredBytes := q.requiredBytes
  targetWorkerIds := q.targetWorkerIds
  memoryByModel := q.memoryByModel

/-- A step of a reclamation or of the world around. -/
inductive ReclaimAction (T : Type) where
  | tick (now : Nat)
  | setInstances (instances : List InstanceState)
  | list (t : T)
  | select (t : T) (q : ReclaimQuery)
  | settle (t : T) (victim : EvictionCandidate) (ok : Bool)

def ReclaimPhase.ofPending (pending : List EvictionCandidate) : ReclaimPhase :=
  if pending.isEmpty then .ended else .evicting pending

section
variable {T : Type} [DecidableEq T]

def ReclaimState.meet (s : ReclaimState T) (t : T) : T → T → Bool := fun u v =>
  s.met u v || (u = t && decide (s.phase v).UnderWay) || (v = t && decide (s.phase u).UnderWay)

def reclaimStep (s : ReclaimState T) : ReclaimAction T → Option (ReclaimState T)
  | .tick now => if s.now ≤ now then some { s with now } else none
  | .setInstances instances => some { s with instances }
  | .list t =>
    match s.phase t with
    | .idle =>
      some { s with
        phase := Function.update s.phase t (.listed s.instances)
        met := s.meet t }
    | _ => none
  | .select t q =>
    match s.phase t with
    | .listed instances =>
      let chosen := s.engine.selectVictims (q.query instances) s.now
      some { s with
        engine := chosen.1
        selected := Function.update s.selected t chosen.2
        phase := Function.update s.phase t (.ofPending chosen.2) }
    | _ => none
  | .settle t victim ok =>
    match s.phase t with
    | .evicting pending =>
      if victim ∈ pending then
        some { s with
          engine := if ok then s.engine.recordEviction s.now else s.engine
          recorded := if ok then s.now :: s.recorded else s.recorded
          phase := Function.update s.phase t (.ofPending (pending.erase victim)) }
      else none
    | _ => none

def reclaimStart (config : EvictionConfig) (now : Nat) : ReclaimState T where
  now := now
  engine := { config }

end

namespace ReclaimState

variable {T : Type}

/-- The recordings in the window of the breaker's length that begins after `since`. -/
def recordedWithin (windowMs since : Nat) (recorded : List Nat) : Nat :=
  (recorded.filter fun t => since < t ∧ t ≤ since + windowMs).length

def RateBounded (config : EvictionConfig) (s : ReclaimState T) : Prop :=
  ∀ since, recordedWithin (config.circuitBreakerWindowSecs * 1000) since s.recorded ≤
    config.circuitBreakerThreshold - 1 + config.maxPerCycle

def VictimsApart (s : ReclaimState T) : Prop :=
  ∀ t t', t ≠ t' → s.met t t' = true → ∀ v ∈ s.selected t, ∀ v' ∈ s.selected t',
    v.instanceId ≠ v'.instanceId

def OneAtATime (s : ReclaimState T) : ReclaimAction T → Prop
  | .list _ => ∀ t, ¬ (s.phase t).UnderWay
  | _ => True

instance [Fintype T] (s : ReclaimState T) (a) : Decidable (OneAtATime s a) := by
  unfold OneAtATime
  split <;> infer_instance

/-! ## What is kept -/

/-- What holds between the steps of such a run.  The engine knows of all
recordings in its present window; as long as victims are pending, every window
that has not closed yet has room for them. -/
structure Inv (config : EvictionConfig) (s : ReclaimState T) : Prop where
  configured : s.engine.config = config
  recent : s.engine.recentEvictions.filter (fun t => s.now < t + s.engine.windowMs) =
    s.recorded.filter fun t => s.now < t + s.engine.windowMs
  bounded : s.RateBounded config
  room : ∀ t pending, s.phase t = .evicting pending → ∀ since,
    s.now ≤ since + config.circuitBreakerWindowSecs * 1000 →
    recordedWithin (config.circuitBreakerWindowSecs * 1000) since s.recorded + pending.length ≤
      config.circuitBreakerThreshold - 1 + config.maxPerCycle
  alone : ∀ t t', (s.phase t).UnderWay → (s.phase t').UnderWay → t = t'
  apart : ∀ t t', s.met t t' = false

theorem recordedWithin_cons (windowMs since t : Nat) (recorded : List Nat) :
    recordedWithin windowMs since (t :: recorded) = recordedWithin windowMs since recorded +
        if since < t ∧ t ≤ since + windowMs then 1 else 0 := by
  unfold recordedWithin
  by_cases h : since < t ∧ t ≤ since + windowMs
  · rw [filter_cons_of_pos (by simpa using h), if_pos h]
    rfl
  · rw [filter_cons_of_neg (by simpa using h), if_neg h]
    rfl

theorem recordedWithin_le {windowMs since now} (h : now ≤ since + windowMs)
    (recorded : List Nat) :
    recordedWithin windowMs since recorded ≤
      (recorded.filter fun t => now < t + windowMs).length := by
  refine List.Sublist.length_le (monotone_filter_right _ fun t ht => ?_)
  simp only [decide_eq_true_eq] at ht ⊢
  omega

theorem filter_filter_window {now now' windowMs} (h : now ≤ now') (ts : List Nat) :
    (ts.filter fun t => now < t + windowMs).filter (fun t => now' < t + windowMs) =
      ts.filter fun t => now' < t + windowMs := by
  rw [filter_filter]
  refine filter_congr fun t _ => ?_
  simp only [← Bool.decide_and, decide_eq_decide]
  omega

theorem filter_cons_congr {p ts ts'} (t : Nat)
    (h : ts.filter p = ts'.filter p) : (t :: ts).filter p = (t :: ts').filter p := by
  rw [filter_cons, filter_cons, h]

section
variable [DecidableEq T] {config : EvictionConfig} {s s' : ReclaimState T}

theorem ofPending_eq_evicting {pending q}
    (h : ReclaimPhase.ofPending pending = .evicting q) : q = pending ∧ pending ≠ [] := by
  unfold ReclaimPhase.ofPending at h
  split at h
  · cases h
  · rename_i hne
    exact ⟨(ReclaimPhase.evicting.inj h).symm, fun hnil => hne (isEmpty_iff.mpr hnil)⟩

variable {t : T}

section
variable (h : Inv config s)
include h

theorem Inv.alone_update (ht : (s.phase t).UnderWay) (p : ReclaimPhase) (u v : T)
    (hu : (update s.phase t p u).UnderWay) (hv : (update s.phase t p v).UnderWay) :
    u = v := by
  have hself : ∀ u, (update s.phase t p u).UnderWay → u = t := by
    intro u hu
    by_contra hne
    rw [update_of_ne hne] at hu
    exact hne (h.alone u t hu ht)
  exact (hself u hu).trans (hself v hv).symm

theorem Inv.pending_update (ht : (s.phase t).UnderWay) {pending u q}
    (hu : update s.phase t (ReclaimPhase.ofPending pending) u = .evicting q) :
    q = pending ∧ pending ≠ [] := by
  by_cases hut : u = t
  · subst hut
    rw [update_self] at hu
    exact ofPending_eq_evicting hu
  · rw [update_of_ne hut] at hu
    have hway : (s.phase u).UnderWay := by
      rw [hu]
      exact trivial
    exact absurd (h.alone u t hway ht) hut

theorem Inv.select {q} (hs : reclaimStep s (.select t q) = some s') :
    Inv config s' := by
  simp only [reclaimStep] at hs
  cases ht : s.phase t with
  | idle | evicting | ended =>
    rw [ht] at hs
    cases hs
  | listed instances =>
    rw [ht] at hs
    cases hs
    have hway : (s.phase t).UnderWay := by
      rw [ht]
      exact trivial
    have hengine : (s.engine.selectVictims (q.query instances) s.now).1 =
        (s.engine.isCircuitBreakerOpen s.now).1 := by
      unfold EvictionEngine.selectVictims
      grind
    have hwindow : s.engine.windowMs = config.circuitBreakerWindowSecs * 1000 := by
      rw [EvictionEngine.windowMs, h.configured]
    refine ⟨?_, ?_, h.bounded, fun u _ hu _ hopen => ?_, h.alone_update hway _, h.apart⟩
    · rw [hengine]
      exact h.configured
    · rw [hengine]
      exact (filter_filter_window le_rfl _).trans h.recent
    · -- The breaker has just been asked about the window that is the largest of these.
      obtain ⟨rfl, hne⟩ := h.pending_update hway hu
      have hclosed := closed_of_victims hne
      rw [h.recent, h.configured, hwindow] at hclosed
      have hwithin := recordedWithin_le hopen s.recorded
      have hcycle : (s.engine.selectVictims (q.query instances) s.now).2.length ≤
          s.engine.config.maxPerCycle := length_victims_le
      rw [h.configured] at hcycle
      simp only at hwithin ⊢
      omega

theorem Inv.settle {victim ok}
    (hs : reclaimStep s (.settle t victim ok) = some s') : Inv config s' := by
  simp only [reclaimStep] at hs
  cases ht : s.phase t with
  | idle | listed | ended =>
    rw [ht] at hs
    cases hs
  | evicting pending =>
    rw [ht] at hs
    obtain ⟨hmem, hs⟩ := Option.ite_none_right_eq_some.mp hs
    cases hs
    have hway : (s.phase t).UnderWay := by
      rw [ht]
      exact trivial
    have hlength : (pending.erase victim).length + 1 = pending.length := by
      rw [length_erase_of_mem hmem]
      exact Nat.sub_add_cancel (length_pos_of_mem hmem)
    have hroom := h.room t pending ht
    cases ok with
    | false =>
      refine ⟨h.configured, h.recent, h.bounded, fun u rest hu since hopen => ?_,
        h.alone_update hway _, h.apart⟩
      obtain ⟨rfl, -⟩ := h.pending_update hway hu
      have := hroom since hopen
      simp only [Bool.false_eq_true, if_false]
      omega
    | true =>
      refine ⟨h.configured, ?_, fun since => ?_, fun u rest hu since hopen => ?_,
        h.alone_update hway _, h.apart⟩
      · exact filter_cons_congr s.now h.recent
      · have hbounded := h.bounded since
        simp only [if_true, recordedWithin_cons]
        split
        · rename_i hin
          have := hroom since hin.2
          omega
        · exact hbounded
      · obtain ⟨rfl, -⟩ := h.pending_update hway hu
        have := hroom since hopen
        simp only [if_true, recordedWithin_cons]
        split
        · omega
        · omega

theorem Inv.step {a} (hok : OneAtATime s a) (hs : reclaimStep s a = some s') :
    Inv config s' := by
  cases a with
  | tick now =>
    obtain ⟨hle, hs⟩ := Option.ite_none_right_eq_some.mp hs
    cases hs
    refine ⟨h.configured, ?_, h.bounded, fun u pending hu since hopen => ?_, h.alone, h.apart⟩
    · have hrecent := congrArg (List.filter fun t => now < t + s.engine.windowMs) h.recent
      rwa [filter_filter_window hle, filter_filter_window hle] at hrecent
    · exact h.room u pending hu since (hle.trans hopen)
  | setInstances instances =>
    cases hs
    exact ⟨h.configured, h.recent, h.bounded, h.room, h.alone, h.apart⟩
  | list t =>
    simp only [reclaimStep] at hs
    cases ht : s.phase t with
    | listed | evicting | ended =>
      rw [ht] at hs
      cases hs
    | idle =>
      rw [ht] at hs
      cases hs
      have hidle : ∀ u, ¬ (s.phase u).UnderWay := hok
      have hself : ∀ u, (update s.phase t (.listed s.instances) u).UnderWay →
          u = t := by
        intro u hu
        by_contra hne
        rw [update_of_ne hne] at hu
        exact hidle u hu
      refine ⟨h.configured, h.recent, h.bounded, fun u pending hu => ?_,
        fun u v hu hv => (hself u hu).trans (hself v hv).symm, fun u v => ?_⟩
      · have hphase : update s.phase t (.listed s.instances) u = .evicting pending := hu
        have hway : (update s.phase t (.listed s.instances) u).UnderWay := by
          rw [hphase]
          exact trivial
        obtain rfl := hself u hway
        rw [update_self] at hphase
        cases hphase
      · simp [ReclaimState.meet, h.apart, hidle]
  | select t => exact h.select hs
  | settle t => exact h.settle hs

end

/-- **The rate limit.**  In every run in which a reclamation begins only when no
other is under way, every window of the breaker's length has at most the
threshold less one and a cycle of recorded evictions, and reclamations that have
met have no victim in common. -/
theorem eviction_rate_bounded {now : Nat}
    (hr : Reach reclaimStep OneAtATime (reclaimStart config now) s) :
    s.RateBounded config ∧ s.VictimsApart := by
  have hinv : Inv config s := by
    refine hr.inductive_inv ⟨rfl, rfl, fun _ => Nat.zero_le _, nofun, nofun, fun _ _ => rfl⟩ ?_
    intro s a _ hs hok hstep
    exact hs.step hok hstep
  refine ⟨hinv.bounded, fun t t' _ hmet => ?_⟩
  rw [hinv.apart t t'] at hmet
  exact Bool.noConfusion hmet

end

/-! ## Two schedules -/

def nineServed : List InstanceState :=
  ["u", "v", "w"].flatMap fun w => ["a", "b", "c"].map fun name => Reclamation.served name w

def wanted (workerId : String) : ReclaimQuery where
  requiredBytes := 15
  targetWorkerIds := some [workerId]
  memoryByModel _ := some 5

def victimsOn (workerId : String) : List EvictionCandidate :=
  ["a", "b", "c"].map fun name =>
    ⟨name ++ "-" ++ workerId, name, .active, workerId, 5, none⟩

def settleAll {T : Type} (t : T) (workerId : String) : List (ReclaimAction T) :=
  (victimsOn workerId).map fun v => .settle t v true

/-- One reclamation after the other, on two workers.  The third, a minute later,
comes when the breaker has closed again. -/
def inTurn : List (ReclaimAction (Fin 3)) :=
  [.setInstances nineServed, .list 0, .select 0 (wanted "u")] ++ settleAll 0 "u" ++
    [.list 1, .select 1 (wanted "v")] ++ settleAll 1 "v" ++
    [.tick 180000, .list 2, .select 2 (wanted "w")] ++ settleAll 2 "w"

theorem inTurn_isSome :
    (exec (guarded reclaimStep OneAtATime) (reclaimStart {} 120000) inTurn).isSome := by
  decide +kernel

/-- Nine evictions are recorded; no minute has more than seven of them. -/
theorem inTurn_rateBounded :
    let s := (exec (guarded reclaimStep OneAtATime) (reclaimStart {} 120000) inTurn).get
      inTurn_isSome
    s.recorded.length = 9 ∧ s.RateBounded {} ∧ s.VictimsApart :=
  ⟨by decide +kernel, eviction_rate_bounded (reach_get inTurn_isSome)⟩

/-- Four reclamations list the instances before any of them selects; the last
one wants room where the first one does. -/
def sideBySide : List (ReclaimAction (Fin 4)) :=
  [.setInstances nineServed, .list 0, .list 1, .list 2, .list 3,
    .select 0 (wanted "u"), .select 1 (wanted "v"), .select 2 (wanted "w"),
    .select 3 (wanted "u")] ++ settleAll 0 "u" ++ settleAll 1 "v" ++ settleAll 2 "w"

theorem sideBySide_isSome :
    (exec (guarded reclaimStep anyStep) (reclaimStart {} 120000) sideBySide).isSome := by
  decide +kernel

/-- All nine instances are evicted in one moment, where seven are the limit; and
the first and the last reclamation have the same victims. -/
theorem parallel_reclamations_exceed_rate :
    ∃ s : ReclaimState (Fin 4), Reach reclaimStep anyStep (reclaimStart {} 120000) s ∧
      ¬ s.RateBounded {} ∧ ¬ s.VictimsApart := by
  refine ⟨_, reach_get sideBySide_isSome, fun h => ?_, fun h => ?_⟩
  · have hwindow := h 119999
    exact absurd hwindow (by decide +kernel)
  · have hsame := h 0 3 (by decide) (by decide +kernel)
      ⟨"a-u", "a", .active, "u", 5, none⟩ (by decide +kernel)
      ⟨"a-u", "a", .active, "u", 5, none⟩ (by decide +kernel)
    exact hsame rfl

end ReclaimState

end Sardeenz
