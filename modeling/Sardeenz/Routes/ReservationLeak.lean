/-
# `Sardeenz.Routes.ReservationLeak` — who is left with a hold

A launch that fails has to give its hold back, on every path.  The request part
releases in its `catch`, and `deployModel` releases in its own.  The reclamation
reserves after the request has been answered, and until it calls `deployModel`
its `catch` only records the error:

    reserveCapacity … transition … instanceRepository.create … assertLaunchAllowed … deployModel
    └────────────────────── nothing releases here ──────────────────────┘

So a force-stop that removes the `PENDING` record while the victims are evicted,
or a failed row, leaves the hold of an instance that does not exist.

**Proved here.**  When a settled launch has no hold (`no_reservation_leak`), and a run
that ends with one (`reclamation_leaks_hold`).
-/
import Sardeenz.Routes.Launches

namespace Sardeenz

open Interleave Function LaunchLoc

section
variable {T : Type} {σ : LaunchSetting T} {w : LaunchWorld T} {t : T}

/-! ## The condition -/

/-- The call does not make a reclamation fail: its writes succeed, and the
claims let it go on or tell it to give up by itself. -/
def LaunchInput.passes (i : LaunchInput) (l : LaunchLoc) : LaunchCall → Bool
  | .service c => LaunchLoc.succeeded (i.answer (.service c))
  | .createRow result => LaunchLoc.succeeded (i.answer (.createRow result))
  | .readClaims =>
    match i.answer .readClaims with
    | .ok claims => l.claimsAnswered claims
    | .error _ => false
  | _ => true

/-- A reclamation that has reserved hands its hold over to `deployModel`. -/
def HandsOver (s : LaunchState T) : LaunchAction T → Prop
  | .thread t i => (s.loc t).stage = .reserved →
      ∀ c ∈ (s.prog t).awaited, i.passes (s.loc t) c = true
  | .around _ => True

instance (s : LaunchState T) (a : LaunchAction T) : Decidable (HandsOver s a) := by
  unfold HandsOver
  split <;> infer_instance

variable {l : LaunchLoc}

theorem stage_after_ne_abandoned (hl : l.stage ≠ .abandoned) {i c}
    (hpasses : l.stage = .reserved → i.passes l c = true) {w' r} (h : w.perform σ t i c = some (w', r)) :
    (l.after c r).stage ≠ .abandoned := by
  cases c with
  | service c | createRow result =>
    cases h
    grind [after, written, LaunchInput.passes]
  | readClaims =>
    simp only [LaunchWorld.perform] at h
    split at h
    · rename_i claims hclaims
      simp only [after, checked]
      grind [LaunchInput.passes]
    · cases h
  | getMemoryReports =>
    rcases r with _ | _ | _
    all_goals exact hl
  | placeAndReserve _ _ workers =>
    rcases r with _ | ⟨_, _ | result⟩
    · exact hl
    · exact hl
    · change (if workers.isSome = true then HoldStage.reserved else .held) ≠ .abandoned
      split
      · decide
      · decide
  | releaseReservations | retainReservations =>
    intro habandoned
    cases habandoned
  | resolveRunnerMetadata | createInstance _ | scanMemoryKeys | applyReports _ | clearBudgets
  | writeClusterMemorySnapshot | deleteRow | selectVictims _ | evictVictims _ => exact hl

/-! ## The invariant -/

/-- A hold belongs to a launch that has not come to its end, or was kept. -/
structure Accounted (σ : LaunchSetting T) (s : LaunchState T) : Prop extends Launched σ s where
  handed : ∀ t, (s.loc t).stage ≠ .abandoned
  free : ∀ t params, σ.jobs t = .launch params → (s.loc t).stage = .free →
    ¬ s.world.memory.HasHold params.instanceId

def LaunchSetting.DistinctInstances (σ : LaunchSetting T) : Prop :=
  ∀ t t' params params', σ.jobs t = .launch params → σ.jobs t' = .launch params' →
    params.instanceId = params'.instanceId → t = t'

theorem Accounted.start (σ : LaunchSetting T) (now : Nat) : Accounted σ (σ.start now) where
  toLaunched := .start σ now
  handed _ := nofun
  free _ _ _ _ h := by
    obtain ⟨_, _, hl, -⟩ := h
    cases hl

variable [DecidableEq T] {s s' : LaunchState T} {p : Launching Unit}

theorem Accounted.put (h : Accounted σ s)
    (hlaunched : Launched σ (s.put w t p l)) (hl : l.stage ≠ .abandoned)
    (hfewer : w.memory.Fewer s.world.memory)
    (hfree : l.stage = .free → (s.loc t).stage = .free ∨
      ∀ params, σ.jobs t = .launch params → ¬ w.memory.HasHold params.instanceId) :
    Accounted σ (s.put w t p l) := by
  refine ⟨hlaunched, fun t' => ?_, fun t' params hjob hstage hhold => ?_⟩
  · by_cases ht : t' = t
    · subst ht
      simpa only [Threads.put, update_self] using hl
    · simpa only [Threads.put, update_of_ne ht] using h.handed t'
  · by_cases ht : t' = t
    · subst ht
      simp only [Threads.put, update_self] at hstage
      rcases hfree hstage with hbefore | hnone
      · exact h.free t' params hjob hbefore (hfewer.hasHold hhold)
      · exact hnone params hjob hhold
    · simp only [Threads.put, update_of_ne ht] at hstage
      exact h.free t' params hjob hstage (hfewer.hasHold hhold)

variable {params : LaunchParams}

theorem Accounted.place (h : Accounted σ s) (workers : List WorkerRecord)
    (hid : σ.DistinctInstances) (hjob : σ.jobs t = .launch params) {request result reclaiming}
    (hlaunched : Launched σ (s.put (s.world.reserve params.instanceId request (some result)) t p
      ((s.loc t).placed reclaiming (.ok (workers, some result))))) :
    Accounted σ (s.put (s.world.reserve params.instanceId request (some result)) t p
      ((s.loc t).placed reclaiming (.ok (workers, some result)))) := by
  have hstage : ∀ stage, (if reclaiming = true then HoldStage.reserved else .held) = stage →
      stage ≠ .abandoned ∧ stage ≠ .free := by
    rintro _ rfl
    cases reclaiming with
    | true | false => exact ⟨nofun, nofun⟩
  refine ⟨hlaunched, fun t' => ?_, fun t' params' hjob' hfree hhold => ?_⟩
  · by_cases ht : t' = t
    · subst ht
      simp only [Threads.put, update_self]
      exact (hstage _ rfl).1
    · simpa only [Threads.put, update_of_ne ht] using h.handed t'
  · by_cases ht : t' = t
    · subst ht
      simp only [Threads.put, update_self] at hfree
      exact (hstage _ rfl).2 hfree
    · simp only [Threads.put, update_of_ne ht] at hfree
      rcases MemoryBudget.hasHold_of_reserveAll hhold with hhold | hsame
      · exact h.free t' params' hjob' hfree hhold
      · exact ht (hid t' t params' params hjob' hjob hsame)

theorem memory_around_fewer {dispatched e w'}
    (h : w.around dispatched e = some w') : w'.memory.Fewer w.memory := by
  cases e with
  | tick now | report workerId raw | allocate t =>
    obtain ⟨-, h⟩ := Option.ite_none_right_eq_some.mp h
    cases h
    exact .refl _
  | loseReport workerId | setWorkers workers | stop t =>
    cases h
    exact .refl _
  | release =>
    cases h
    exact .releaseInstanceReservations _ _
  | clearWorker workerId =>
    cases h
    exact .clearWorkerReservations _ _

theorem Accounted.step (h : Accounted σ s) (hid : σ.DistinctInstances) {a}
    (hok : HandsOver s a) (hs : σ.step s a = some s') : Accounted σ s' := by
  obtain ⟨hlaunched, ⟨t, i, c, w, r, p, rfl, hc, -, hsem, rfl⟩ | ⟨e, w, -, hw, rfl⟩⟩ :=
    h.toLaunched.step_cases hs
  · have hstage : ((s.loc t).after c r).stage ≠ .abandoned :=
      stage_after_ne_abandoned (h.handed t) (fun hreserved => hok hreserved c hc) hsem
    cases perform_effect hsem with
    | plain hplain =>
      exact h.put hlaunched hstage (.refl _) fun hfree =>
        .inl ((aside_after hplain _ r).free hfree)
    | @read _ r =>
      refine h.put hlaunched hstage (.refl _) fun hfree => .inl ?_
      match r with
      | .error _ | .ok none | .ok (some _) => exact hfree
    | apply => exact h.put hlaunched hstage (.applyReports _ _ _) .inl
    | clear => exact h.put hlaunched hstage (fun _ _ hl => nomatch hl) .inl
    | @place params request fixed workers hjob =>
      rcases hdecision : s.world.decision σ request fixed workers with ⟨found, result⟩
      rw [hdecision] at hlaunched hstage
      cases result with
      | none => exact h.put hlaunched hstage (.refl _) .inl
      | some result => exact h.place found hid hjob hlaunched
    | @release params hjob =>
      refine h.put hlaunched hstage (.releaseInstanceReservations _ _) fun _ => .inr ?_
      grind [MemoryBudget.not_hasHold_releaseInstanceReservations]
  · exact ⟨hlaunched, h.handed, fun t params hjob hfree hhold =>
      h.free t params hjob hfree ((memory_around_fewer hw).hasHold hhold)⟩

/-- **No reservation leak.**  In every run in which no reclamation fails between
its reservation and `deployModel`, once a launch and its background task have
settled no hold remains for its instance, unless `deployModel` has kept it
because the start was ambiguous or ownership was lost. -/
theorem no_reservation_leak (hid : σ.DistinctInstances) {now : Nat}
    (hr : Reach σ.step HandsOver (σ.start now) s)
    (hjob : σ.jobs t = .launch params) (hsettled : (s.prog t).Settled) :
    ¬ s.world.memory.HasHold params.instanceId ∨ (s.loc t).stage = .retained := by
  have hinv : Accounted σ s :=
    hr.inductive_inv (.start σ now) fun h hok hs => Accounted.step h hid hok hs
  have hdone : (s.loc t).stage.Done := by
    have hobey := hinv.obey t
    cases hp : s.prog t with
    | done r => exact (hp ▸ hobey : Obeys launchContract (Ends t) (.done r) (s.loc t))
    | call => exact absurd hsettled (by rw [hp]; exact id)
  rcases hdone with hfree | hretained | habandoned
  · exact .inl (hinv.free t params hjob hfree)
  · exact .inr hretained
  · exact absurd habandoned (hinv.handed t)

end

/-! ## A reclamation that fails -/

namespace ExampleLaunch

def busyReport : RawReport := .valid ⟨[⟨0, .cuda, 80, 100⟩], none, []⟩

def oneLaunch : LaunchSetting (Fin 1) where
  jobs _ := .launch (launch "a" 40)
  timeouts := ⟨1000, 1000, 1000, 1000, 2⟩
  staleAfterSecs := 60

def reclaims : List (LaunchAction (Fin 1)) :=
  [.around (.setWorkers [worker]), .around (.report "w" busyReport)] ++
  List.replicate 10 (.thread lone (goesWell (busyReport.stamped 0))) ++
  [.around (.report "w" idleReport)] ++
  List.replicate 5 (.thread lone (goesWell (idleReport.stamped 0)))

def recordRemoved : LaunchInput where
  answer
    | .service (.transition instanceId _ _) =>
      .error (.controlPlane (.modelNotFound s!"m/{instanceId}"))
    | c => .ok (reply (idleReport.stamped 0) c)

def reclaimed : List (LaunchAction (Fin 1)) :=
  reclaims ++ List.replicate 21 (.thread lone (goesWell (idleReport.stamped 0)))

theorem reclaimed_isSome :
    (exec (guarded oneLaunch.step HandsOver) (oneLaunch.start 0) reclaimed).isSome := by
  decide +kernel

/-- The launch that reclaims has settled and is left without a hold. -/
theorem reclaimed_no_leak :
    let s := (exec (guarded oneLaunch.step HandsOver) (oneLaunch.start 0) reclaimed).get
      reclaimed_isSome
    (s.prog lone).Settled ∧ ¬ s.world.memory.HasHold "a" := by
  have hsettled : (((exec (guarded oneLaunch.step HandsOver) (oneLaunch.start 0) reclaimed).get
      reclaimed_isSome).prog lone).Settled := by decide +kernel
  have hjob : oneLaunch.jobs lone = .launch (launch "a" 40) := rfl
  refine ⟨hsettled, (no_reservation_leak ?_ (reach_get reclaimed_isSome) hjob
    hsettled).resolve_right (by decide +kernel)⟩
  exact fun _ _ _ _ _ _ _ => Subsingleton.elim _ _

/-- **A reservation leak.**  The record is removed while the victims are evicted;
the reclamation reserves, its transition to `STARTING` fails, and it settles with
the hold in place. -/
theorem reclamation_leaks_hold : (exec oneLaunch.step (oneLaunch.start 0)
      (reclaims ++ List.replicate 2 (.thread lone recordRemoved))).map (fun s =>
        (decide (s.prog lone).Settled, (s.loc lone).stage,
          (s.world.memory.holdsOn "w" 0).lookup "a")) = some (true, .abandoned, some 40) := by
  decide +kernel

end ExampleLaunch

end Sardeenz
