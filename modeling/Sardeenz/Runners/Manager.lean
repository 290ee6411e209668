/-
# `Sardeenz.Runners.Manager` — the runners of one worker

`RunnerManager` (`runner-manager.ts`) runs the engines of a worker.  A start call takes a
block of four ports, reserves the instance id, waits for its turn and for the launcher,
and records a live runner:

    calling → probing → queued → launching → resolved → returned

It may reject at each of them; one that a stop has cancelled goes from `resolved` to
`cancelling`, where it waits for `handle.stop()`.  Each arrow is what the code does
between two awaits.  Starts are numbered in the order they come, and the number is the
runner id, which the code draws at random.  The chain of cold starts only delays the
step from `queued`.

`pendingRunners` and `runners` are the calls that are `pending` and `live`; the device
memory that a live runner is charged for is left out.
-/
import Sardeenz.Pool

namespace Sardeenz.Runners

open Interleave

/-! ## Ports -/

structure Config where
  runnerPortStart : Nat
  maxRunners : Nat
  workerPort : Nat

def portsPerRunner : Nat := 4

def Config.base (config : Config) (slot : Nat) : Nat :=
  config.runnerPortStart + slot * portsPerRunner

/-- The loop of `allocatePorts` between two probes: the lowest block from `slot` on that
is not in use and does not hold the worker's own port. -/
def Config.nextSlot (config : Config) (usedPorts : Nat → Bool) (slot : Nat) : Option Nat :=
  ((List.range config.maxRunners).drop slot).find? fun slot =>
    !usedPorts (config.base slot) && !decide (config.base slot ≤ config.workerPort ∧
      config.workerPort ≤ config.base slot + portsPerRunner - 1)

/-! ## The state -/

/-- The maps of the manager, and of its `RunnerLogBuffer` which runners have a buffer and
which buffers a timer will drop, the oldest first. -/
structure Indexes where
  instanceRunners : String → Option Nat := fun _ => none
  modelRunners : String → List Nat := fun _ => []
  failedInstanceLogRunners : List (String × Nat) := []
  usedPorts : Nat → Bool := fun _ => false
  buffers : Nat → Bool := fun _ => false
  retained : List Nat := []

inductive Stage where
  | calling
  | probing (slot : Nat)
  | queued
  | launching
  | resolved
  | cancelling
  | returned
  | rejected (message : String)
deriving DecidableEq

inductive Process where
  | unspawned
  | running
  | exited
deriving DecidableEq

/-- A call of `startRunner`, and the runner it starts. -/
structure Call where
  instanceId : String
  modelName : String
  stage : Stage := .calling
  port : Nat := 0
  cancelRequested : Bool := false
  handle : Bool := false
  stopAsked : Bool := false
  live : Bool := false
  process : Process := .unspawned

namespace Call

def allocating (k : Call) : Bool := k.stage matches .probing _

def pending (k : Call) : Bool := k.stage matches .queued | .launching | .resolved | .cancelling

def present (k : Call) : Bool := k.pending || k.live

end Call

/-! ## The log buffer and the failed launches -/

namespace Indexes

def drop (w : Indexes) (n : Nat) : Indexes :=
  { w with buffers := Function.update w.buffers n false, retained := w.retained.erase n }

def maxRetained : Nat := 20

def retain (w : Indexes) (n : Nat) : Indexes :=
  if n ∈ w.retained then w
  else
    let w := if w.retained.length < maxRetained then w else w.drop (w.retained.headD n)
    { w with retained := w.retained ++ [n] }

/-- The failed-launch index of the catch block; a JavaScript map keeps the place of a key. -/
def noteFailure (w : Indexes) (instanceId : String) (n : Nat) : Indexes :=
  let failed := w.failedInstanceLogRunners
  if (failed.lookup instanceId).isSome then
    { w with failedInstanceLogRunners :=
        failed.map fun e => if e.1 = instanceId then (instanceId, n) else e }
  else
    let kept := if failed.length < maxRetained then failed else failed.tail
    { w with failedInstanceLogRunners := kept ++ [(instanceId, n)] }

def forgetFailure (w : Indexes) (instanceId : String) : Indexes :=
  { w with failedInstanceLogRunners :=
      w.failedInstanceLogRunners.filter fun e => decide (e.1 ≠ instanceId) }

def getRunnerIdForInstance (w : Indexes) (instanceId : String) : Option Nat × Indexes :=
  match w.instanceRunners instanceId with
  | some active => (some active, w)
  | none =>
    match w.failedInstanceLogRunners.lookup instanceId with
    | none => (none, w)
    | some failed => if w.buffers failed then (some failed, w) else (none, w.forgetFailure instanceId)

/-! ## The steps -/

/-- A runner leaves the maps: `stopRunner`, `handleUnexpectedExit` and the catch block of
`startRunner`. -/
def release (w : Indexes) (n : Nat) (k : Call) : Indexes :=
  { w with
    usedPorts := Function.update w.usedPorts k.port false
    instanceRunners := Function.update w.instanceRunners k.instanceId none
    modelRunners := Function.update w.modelRunners k.modelName
      ((w.modelRunners k.modelName).filter fun r => decide (r ≠ n)) }

def reserve (w : Indexes) (n : Nat) (k : Call) : Indexes :=
  { w with
    instanceRunners := Function.update w.instanceRunners k.instanceId (some n)
    modelRunners := Function.update w.modelRunners k.modelName (w.modelRunners k.modelName ++ [n]) }

end Indexes

def allocatePorts (config : Config) (w : Indexes) (k : Call) (slot : Nat) : Indexes × Call :=
  match config.nextSlot w.usedPorts slot with
  | none =>
    (w, { k with stage := .rejected s!"Port range exhausted: all {config.maxRunners} runner slots in [{config.runnerPortStart}, {config.base config.maxRunners}) are in use" })
  | some slot =>
    ({ w with usedPorts := Function.update w.usedPorts (config.base slot) true },
      { k with stage := .probing slot, port := config.base slot })

/-- The catch block of `startRunner`. -/
def rejects (w : Indexes) (n : Nat) (k : Call) (message : String) : Indexes × Call :=
  (((w.release n k).retain n).noteFailure k.instanceId n, { k with stage := .rejected message })

inductive Input where
  | go
  | probed (free : Bool)
  | spawn
  | healthy
  | fails (message : String)
  | stop
  | stopped
  | exit
  | onExit
  | log
  | expire

/-- What happens next to runner `n`: its start call goes on (`go`, `probed`, and from the
launcher `spawn`, `healthy` and `fails`), `stopRunner` is called or goes on (`stop`,
`stopped`), its process exits and the launcher tells so (`exit`, `onExit`), it logs, or
the timer of its buffer fires. -/
def move (config : Config) (n : Nat) (i : Input) (w : Indexes) (k : Call) :
    Option (Indexes × Call) :=
  match i, k.stage with
  | .go, .calling =>
    if (w.instanceRunners k.instanceId).isSome then
      some (w, { k with
        stage := .rejected s!"Runner for instance {k.instanceId} already exists" })
    else some (allocatePorts config w k 0)
  | .probed true, .probing _ => some (w.reserve n k, { k with stage := .queued })
  | .probed false, .probing slot =>
    some (allocatePorts config { w with usedPorts := Function.update w.usedPorts k.port false } k
      (slot + 1))
  | .go, .queued =>
    if k.cancelRequested then some (rejects w n k s!"Runner start cancelled for runner-{n}")
    else some (w, { k with stage := .launching })
  | .spawn, .launching =>
    if k.handle then none
    else some (w, { k with process := .running, handle := true, stopAsked := k.cancelRequested })
  | .healthy, .launching => if k.handle then some (w, { k with stage := .resolved }) else none
  | .fails message, .launching => some (rejects w n k message)
  | .go, .resolved =>
    if k.cancelRequested then some (w, { k with stage := .cancelling, stopAsked := true })
    else some (w.forgetFailure k.instanceId, { k with stage := .returned, live := true })
  | .go, .cancelling =>
    some (rejects w n k s!"Runner start cancelled for instance {k.instanceId}")
  | .stop, _ =>
    if k.live then some (w.release n k, { k with live := false, stopAsked := true })
    else if k.pending then some (w, { k with cancelRequested := true, stopAsked := k.handle })
    else none
  | .stopped, .returned => if k.stopAsked then some (w.drop n, k) else none
  | .exit, _ => if k.process = .running then some (w, { k with process := .exited }) else none
  | .onExit, _ =>
    if k.process ≠ .exited then none
    else if k.live then some ((w.release n k).retain n, { k with live := false })
    else some (w, k)
  | .log, _ =>
    if k.handle then some ({ w with buffers := Function.update w.buffers n true }, k) else none
  | .expire, _ => if n ∈ w.retained then some (w.drop n, k) else none
  | _, _ => none

/-- A start names an instance and a model; besides the runners, the status of an instance
is asked for. -/
def rules (config : Config) : Pool.Rules Indexes Call (String × String) Input String where
  enter a := { instanceId := a.1, modelName := a.2 }
  move := move config
  around instanceId w := some (w.getRunnerIdForInstance instanceId).2

abbrev System := Pool Indexes Call

abbrev Event := Pool.Event (String × String) Input String

abbrev step (config : Config) : System → Event → Option System := Pool.step (rules config)

def start : System := { world := {} }

variable {config : Config} {s : System} {n : Nat} {i : Input} {w w' : Indexes} {k k' : Call}

/-! ## What one step does -/

@[simp] theorem instanceRunners_drop : (w.drop n).instanceRunners = w.instanceRunners := rfl

@[simp] theorem modelRunners_drop : (w.drop n).modelRunners = w.modelRunners := rfl

@[simp] theorem usedPorts_drop : (w.drop n).usedPorts = w.usedPorts := rfl

/-- The log buffer and the failed launches have nothing to do with the other maps. -/
structure SameMaps (w w' : Indexes) : Prop where
  instanceRunners : w'.instanceRunners = w.instanceRunners
  modelRunners : w'.modelRunners = w.modelRunners
  usedPorts : w'.usedPorts = w.usedPorts

theorem SameMaps.refl (w : Indexes) : SameMaps w w := ⟨rfl, rfl, rfl⟩

theorem SameMaps.trans (h : SameMaps w w') {w''} (h' : SameMaps w' w'') :
    SameMaps w w'' :=
  ⟨h'.1.trans h.1, h'.2.trans h.2, h'.3.trans h.3⟩

@[simp] theorem sameMaps_retain : SameMaps w (w.retain n) := by
  unfold Indexes.retain
  split_ifs <;> constructor <;> simp

@[simp] theorem sameMaps_noteFailure {m} : SameMaps w (w.noteFailure m n) := by
  constructor <;> simp only [Indexes.noteFailure] <;> split_ifs <;> rfl

/-- What is so of a call, whatever the others do. -/
structure Sound (k : Call) : Prop where
  live : k.live = true → k.stage = .returned
  handle : k.handle = true ↔ k.process ≠ .unspawned
  early : k.handle = true → k.allocating = false ∧ k.stage ≠ .calling ∧ k.stage ≠ .queued
  cancelled : k.cancelRequested = true → k.pending = true ∨ ∃ message, k.stage = .rejected message
  asked : k.cancelRequested = true → k.handle = true → k.stopAsked = true
  returned : k.stage = .returned → k.live = false → k.process = .exited ∨ k.stopAsked = true

theorem Sound.move (hk : Sound k) (h : Runners.move config n i w k = some (w', k')) : Sound k' := by
  obtain ⟨_, _, _, _, _, _⟩ := hk
  revert h
  fun_cases Runners.move config n i w k
  all_goals
    intro h
    simp only [allocatePorts, rejects, Option.some.injEq, reduceCtorEq] at h
  all_goals constructor
  all_goals grind -ring -linarith [Call.pending, Call.allocating]

theorem reach_inv {ok : System → Event → Prop} {P : System → Prop} (hstart : P start)
    (harrive : ∀ s a, P s → P { s with tasks := s.tasks ++ [(rules config).enter a] })
    (hmove : ∀ s n i k w k', P s → ok s (.move n i) → s.tasks[n]? = some k → Sound k →
      move config n i s.world k = some (w, k') → P ⟨w, s.tasks.set n k'⟩)
    (haround : ∀ s m, P s → P { s with world := (s.world.getRunnerIdForInstance m).2 })
    (hr : Reach (step config) ok start s) :
    P s ∧ ∀ (j : Nat) k, s.tasks[j]? = some k → Sound k := by
  refine Pool.reach_inv (P := fun s : System => P s ∧ ∀ (j : Nat) k, s.tasks[j]? = some k → Sound k)
    ⟨hstart, fun j k hj => by cases hj⟩ (fun s a hs _ => ?_) (fun s n i k w k' hs hok hk h => ?_)
    (fun s m w hs _ h => ?_) hr
  · exact ⟨harrive s a hs.1, forall_getElem?_append.mpr ⟨by constructor <;> simp [rules], hs.2⟩⟩
  · exact ⟨hmove s n i k w k' hs.1 hok hk (hs.2 n k hk) h, (forall_getElem?_set hk).mpr
      ⟨(hs.2 n k hk).move h, fun j k₂ _ hk₂ => hs.2 j k₂ hk₂⟩⟩
  · cases h
    exact ⟨haround s m hs.1, hs.2⟩

theorem sameMaps_getRunnerIdForInstance {m} :
    SameMaps w (w.getRunnerIdForInstance m).2 := by
  fun_cases w.getRunnerIdForInstance m <;> constructor <;> rfl

/-- The base ports in use, without the block of a call that is still probing. -/
def freed (w : Indexes) (k : Call) : Nat → Bool :=
  if k.allocating then Function.update w.usedPorts k.port false else w.usedPorts

/-- What one step of a runner does to the maps. -/
inductive Effect (config : Config) (n : Nat) (i : Input) (w : Indexes) (k : Call) (w' : Indexes)
    (k' : Call) : Prop where
  | frame (maps : SameMaps w w') (port : k'.port = k.port) (present : k'.present = k.present)
    (allocating : k'.allocating = k.allocating)
    (running : k'.process = .running → k.process = .running ∨ k.present = true)
  | allocates (slot : Nat) (stage : k.stage = .calling ∧ w.instanceRunners k.instanceId = none ∨
      k.allocating = true)
    (input : i = .go ∨ i = .probed false) (first : Nat)
    (free : config.nextSlot (freed w k) first = some slot)
    (maps : SameMaps { w with usedPorts := Function.update (freed w k) (config.base slot) true } w')
    (call : k' = { k with stage := .probing slot, port := config.base slot })
  | givesUp (stage : k.allocating = true ∨ k.stage = .calling) (message : String)
    (maps : SameMaps { w with usedPorts := freed w k } w')
    (call : k' = { k with stage := .rejected message })
  | reserves (stage : k.allocating = true) (maps : SameMaps (w.reserve n k) w')
    (call : k' = { k with stage := .queued })
  | releases (present : k.present = true) (maps : SameMaps (w.release n k) w')
    (gone : k'.present = false) (allocating : k'.allocating = false) (port : k'.port = k.port)
    (process : k'.process = k.process)

theorem effect_allocatePorts (hstage : k.stage = .calling ∧ w.instanceRunners k.instanceId = none ∨
      k.allocating = true) (hi : i = .go ∨ i = .probed false) (slot : Nat) {w₀}
    (hw : w₀ = { w with usedPorts := freed w k }) :
    Effect config n i w k (allocatePorts config w₀ k slot).1 (allocatePorts config w₀ k slot).2 := by
  subst hw
  fun_cases allocatePorts config { w with usedPorts := freed w k } k slot with
  | case1 => exact .givesUp (hstage.symm.imp_right And.left) _ (.refl _) rfl
  | case2 next hnext => exact .allocates next hstage hi slot hnext (.refl _) rfl

theorem effect_move (hk : Sound k) {r} (h : move config n i w k = some r) :
    Effect config n i w k r.1 r.2 := by
  obtain ⟨_, _, _, -, -, -⟩ := hk
  revert h
  fun_cases move config n i w k
  all_goals
    intro h
    cases h
  case case2 hstage hnone =>
    exact effect_allocatePorts (.inl ⟨hstage, by simpa using hnone⟩) (.inl rfl) 0
      (by simp [freed, hstage, Call.allocating])
  case case4 slot hstage =>
    grind [effect_allocatePorts, Call.allocating, freed]
  case case3 hstage => exact .reserves (by simp [hstage, Call.allocating]) (.refl _) rfl
  case case5 | case11 | case14 =>
    refine .releases ?_ (sameMaps_retain.trans sameMaps_noteFailure) ?_ rfl rfl rfl
    all_goals grind -ring -linarith [Call.present, Call.pending, rejects]
  case case15 hlive' | case23 hlive' =>
    refine .releases (by simp [Call.present, hlive']) ?_ ?_ ?_ rfl rfl
    · first
      | exact .refl _
      | exact sameMaps_retain
    all_goals grind -ring -linarith [Call.present, Call.pending, Call.allocating]
  all_goals
    refine .frame ?_ ?_ ?_ ?_ ?_
    all_goals grind -ring -linarith [Call.present, Call.pending, Call.allocating, SameMaps, Indexes.drop, Indexes.forgetFailure]

theorem names_move (h : move config n i w k = some (w', k')) :
    k'.instanceId = k.instanceId ∧ k'.modelName = k.modelName := by
  revert h
  fun_cases move config n i w k
  all_goals
    intro h
    simp only [allocatePorts, rejects, Option.some.injEq, reduceCtorEq] at h
  all_goals grind -ring -linarith

/-! ## The indexes agree -/

/-- A start passes its conflict check while no other start of the instance is allocating
its ports. -/
def StartsApart (s : System) : Event → Prop
  | .move n _ => ∀ k ∈ s.tasks[n]?, k.stage = .calling →
      ∀ k' ∈ s.tasks, k'.allocating = true → k'.instanceId ≠ k.instanceId
  | _ => True

/-- The two indexes hold who is pending or live. -/
structure Agree (s : System) : Prop where
  instances : ∀ m r, s.world.instanceRunners m = some r ↔
    ∃ k, s.tasks[r]? = some k ∧ k.present = true ∧ k.instanceId = m
  models : ∀ m r, r ∈ s.world.modelRunners m ↔
    ∃ k, s.tasks[r]? = some k ∧ k.present = true ∧ k.modelName = m

/-- An instance that is being allocated for is free, and nobody else allocates for it. -/
structure Reserved (s : System) : Prop extends Agree s where
  free : ∀ (j : Nat) k, s.tasks[j]? = some k → k.allocating = true →
    s.world.instanceRunners k.instanceId = none
  apart : Pairs (fun a b => a.allocating = true → b.allocating = true →
    a.instanceId ≠ b.instanceId) s.tasks

theorem Reserved.move (hs : Reserved s) (hok : StartsApart s (.move n i))
    (hk : s.tasks[n]? = some k) (hsound : Sound k)
    (h : Runners.move config n i s.world k = some (w', k')) :
    Reserved ⟨w', s.tasks.set n k'⟩ := by
  obtain ⟨hinstance, hmodel⟩ := names_move h
  have heffect := effect_move hsound h
  have habsent : k.present = true → k.allocating = false ∧ k.stage ≠ .calling := by
    have := hsound.live
    grind [Call.present, Call.pending, Call.allocating]
  refine ⟨⟨fun m r => ?_, fun m r => ?_⟩, ?_, ?_⟩
  · have hself : s.world.instanceRunners m = some n ↔ k.present = true ∧ k.instanceId = m := by
      simpa [hk] using hs.instances m n
    have hfree := hs.free n k hk
    rw [exists_getElem?_set hk, ← hs.instances m r]
    cases heffect with
    | frame maps => grind [maps.instanceRunners]
    | allocates slot stage _ _ _ maps call | givesUp stage message maps call =>
      grind [maps.instanceRunners, Call.present, Call.pending]
    | reserves stage maps call =>
      have hw := congrFun maps.instanceRunners m
      simp only [Indexes.reserve] at hw
      grind [Call.present, Call.pending]
    | releases present maps gone =>
      have hw := congrFun maps.instanceRunners m
      simp only [Indexes.release] at hw
      grind
  · have hself : n ∈ s.world.modelRunners m ↔ k.present = true ∧ k.modelName = m := by
      simpa [hk] using hs.models m n
    rw [exists_getElem?_set hk, ← hs.models m r]
    cases heffect with
    | frame maps => grind [maps.modelRunners]
    | allocates slot stage _ _ _ maps call | givesUp stage message maps call =>
      grind [maps.modelRunners, Call.present, Call.pending]
    | reserves stage maps call =>
      have hw := congrFun maps.modelRunners m
      simp only [Indexes.reserve] at hw
      grind [Call.present, Call.pending]
    | releases present maps gone =>
      have hw := congrFun maps.modelRunners m
      simp only [Indexes.release] at hw
      grind
  · refine (forall_getElem?_set hk).mpr ⟨fun hk' => ?_, fun j b hj hb hballoc => ?_⟩
    · have hfree := hs.free n k hk
      cases heffect with
      | frame maps | allocates slot stage _ _ _ maps call => grind [maps.instanceRunners]
      | givesUp | reserves | releases => grind [Call.allocating]
    · have hfree := hs.free j b hb hballoc
      have hapart := hs.apart j b hb n k hk hj hballoc
      cases heffect with
      | frame maps | allocates _ _ _ _ _ maps | givesUp _ _ maps => exact (congrFun maps.instanceRunners _).trans hfree
      | reserves stage maps call =>
        refine (congrFun maps.instanceRunners _).trans ?_
        simp [Indexes.reserve, hapart stage, hfree]
      | releases present maps gone =>
        refine (congrFun maps.instanceRunners _).trans ?_
        simp [Indexes.release, Function.update_apply, hfree]
  · refine hs.apart.set (fun a b h hb ha => (h ha hb).symm) hk fun j b hb hj hk' hballoc => ?_
    have hapart := fun hk => hs.apart n k hk j b hb hj.symm
    rw [hinstance]
    cases heffect with
    | frame _ _ _ allocating => exact hapart hk (allocating ▸ hk') hballoc
    | allocates slot stage _ _ _ maps call =>
      rcases stage with ⟨hcalling, -⟩ | hstage
      · exact (hok k hk hcalling b (List.mem_of_getElem? hb) hballoc).symm
      · exact hapart hk hstage hballoc
    | givesUp | reserves | releases => grind [Call.allocating]

theorem reserved_of_reach (hr : Reach (step config) StartsApart start s) : Reserved s := by
  refine (reach_inv ?_ (fun s a hs => ?_) (fun s n i k w _ hs hok hk hsound h => hs.move hok hk hsound h)
    (fun s m hs => ?_) hr).1
  · refine ⟨⟨?_, ?_⟩, ?_, ?_⟩ <;> simp [start, Pairs]
  · refine ⟨⟨fun m r => (hs.instances m r).trans ?_, fun m r => (hs.models m r).trans ?_⟩, ?_, ?_⟩
    · exact (exists_getElem?_append (by simp [rules, Call.present, Call.pending]) r).symm
    · exact (exists_getElem?_append (by simp [rules, Call.present, Call.pending]) r).symm
    · exact forall_getElem?_append.mpr ⟨nofun, hs.free⟩
    · exact hs.apart.append (fun a b h hb ha => (h ha hb).symm) fun b => nofun
  · obtain ⟨hinstance, hmodel, -⟩ := sameMaps_getRunnerIdForInstance (w := s.world)
    exact ⟨⟨hinstance ▸ hs.instances, hmodel ▸ hs.models⟩, hinstance ▸ hs.free, hs.apart⟩

/-- **The indexes agree.**  In every run in which a start passes its conflict check only
while no other start of the instance is allocating its ports: an instance has at most
one runner that is pending or live, `instanceRunners` maps the instance to it, and
`modelRunners` holds exactly the runners of each model that are pending or live. -/
theorem indexes_agree (hr : Reach (step config) StartsApart start s) :
    Agree s ∧ ∀ (r r' : Nat) k k', s.tasks[r]? = some k → s.tasks[r']? = some k' →
      k.present = true → k'.present = true → k.instanceId = k'.instanceId → r = r' := by
  have hs := (reserved_of_reach hr).toAgree
  refine ⟨hs, fun r r' k k' hk hk' hlive hlive' hsame => ?_⟩
  have hr := (hs.instances k.instanceId r).mpr ⟨k, hk, hlive, rfl⟩
  have hr' := (hs.instances k.instanceId r').mpr ⟨k', hk', hlive', hsame.symm⟩
  exact Option.some.inj (hr.symm.trans hr')

instance (s : System) (e : Event) : Decidable (StartsApart s e) := by
  unfold StartsApart
  split <;> infer_instance

def exampleConfig : Config := ⟨9000, 2, 8090⟩

/-- Runner `n` is started for instance `m`, up to its launch. -/
def starts (n : Nat) (m : String) : List Event :=
  [.arrive (m, "llama"), .move n .go, .move n (.probed true), .move n .go, .move n .spawn]

/-- The launch of runner `n` ends well. -/
def ready (n : Nat) : List Event := [.move n .healthy, .move n .go]

theorem indexes_agree_ready :
    let s := (exec (guarded (step exampleConfig) StartsApart) start
      (starts 0 "i" ++ ready 0 ++ starts 1 "j")).get (by decide +kernel)
    s.world.instanceRunners "i" = some 0 ∧ s.world.modelRunners "llama" = [0, 1] ∧ Agree s :=
  ⟨rfl, rfl, (indexes_agree (reach_get (by decide +kernel))).1⟩

/-- Two starts of an instance, the second called while the first probes its ports. -/
def startedTwice : List Event :=
  [.arrive ("i", "llama"), .arrive ("i", "llama"), .move 0 .go, .move 1 .go,
    .move 0 (.probed true), .move 1 (.probed true)]

/-- **Two runners of one instance.**  The index knows only one of them. -/
theorem two_runners_after_startedTwice :
    ∃ s, exec (step exampleConfig) start startedTwice = some s ∧
      (∀ k ∈ s.tasks, k.present = true ∧ k.instanceId = "i") ∧ s.tasks.length = 2 ∧
      s.world.instanceRunners "i" = some 1 :=
  ⟨_, rfl, by decide +kernel, rfl, rfl⟩

end Sardeenz.Runners
