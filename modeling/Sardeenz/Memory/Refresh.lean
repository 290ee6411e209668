/-
# `Sardeenz.Memory.Refresh` — the two refreshes and the holds

`MemoryBudgetService` reads the reports of the workers in two ways.

    refreshWorkerBudget w   GET of one key; no key: the budget and the holds go,
                            a malformed report: the budget goes
    refreshAll              SCAN, then one pipeline of GETs; the reports that could be
                            read are taken over, and every worker with a cached budget
                            that none was taken over for loses its budget and its holds

Both are programs here, with an `await` wherever the source has one; what runs
between two awaits is one call.  Redis answers each `GET` with what is stored,
or fails it; an empty text is a text to `refreshAll`, but falsy, and therefore
no report, to `refreshWorkerBudget`.

**Proved here.**  `refreshAll` is the refresh a launch makes (`launching_refreshAll`),
and when a worker's holds go exactly with its key (`holdsSurvive_iff`).
-/
import Sardeenz.Alone
import Sardeenz.Memory.Frame
import Sardeenz.Routes.Launch

namespace Sardeenz

open Interleave List AList

/-! ## The programs -/

/-- One call of `refreshAll`. -/
inductive RefreshCall where
  | scanMemoryKeys
  | getMemoryReports (workerIds : List String)
  | applyReports (replies : List (String × MemoryBudget.PipelineReply))
  | clearBudgets
  | writeClusterMemorySnapshot

/-- What a call of `refreshAll` answers. -/
@[reducible] def RefreshReply : RefreshCall → Type
  | .scanMemoryKeys => List String
  | .getMemoryReports _ => Option (List (String × MemoryBudget.PipelineReply))
  | .applyReports _ | .clearBudgets | .writeClusterMemorySnapshot => Unit

abbrev RefreshCall.await {ε : Type} (c : RefreshCall) :
    Program RefreshCall RefreshReply ε (RefreshReply c) := Program.perform c

def refreshAll {ε : Type} : Program RefreshCall RefreshReply ε Unit := do
  let workerIds ← RefreshCall.scanMemoryKeys.await
  if workerIds.isEmpty then RefreshCall.clearBudgets.await
  else
    match ← (RefreshCall.getMemoryReports workerIds).await with
    | none => pure ()
    | some replies =>
      (RefreshCall.applyReports replies).await
      RefreshCall.writeClusterMemorySnapshot.await

def RefreshCall.launching : RefreshCall → LaunchCall
  | .scanMemoryKeys => .scanMemoryKeys
  | .getMemoryReports workerIds => .getMemoryReports workerIds
  | .applyReports replies => .applyReports replies
  | .clearBudgets => .clearBudgets
  | .writeClusterMemorySnapshot => .writeClusterMemorySnapshot

def RefreshCall.answered : (c : RefreshCall) → LaunchReply c.launching → RefreshReply c
  | .scanMemoryKeys, r => r
  | .getMemoryReports _, r => r
  | .applyReports _, r => r
  | .clearBudgets, r => r
  | .writeClusterMemorySnapshot, r => r

/-- What runs without an `await`. -/
inductive MemoryUpdate where
  | applyWorkerReport (workerId : String) (raw : Option RawReport)
  | reserveCapacity (workerId : String) (deviceIndex : Nat) (instanceId : String) (bytes : ℚ)
  | releaseInstanceReservations (instanceId : String)
  | clearWorkerReservations (workerId : String)

/-- One call of the service. -/
inductive MemoryCall where
  | refresh (c : RefreshCall)
  | getReport (workerId : String)
  | update (u : MemoryUpdate)

/-- The text under a memory key. -/
inductive MemoryText where
  | empty
  | text (raw : RawReport)
deriving DecidableEq, Repr

@[reducible] def MemoryReply : MemoryCall → Type
  | .refresh c => RefreshReply c
  | .getReport _ => Option MemoryText
  | .update _ => Unit

abbrev MemoryProgram := Program MemoryCall MemoryReply Unit Unit

abbrev MemoryCall.await (c : MemoryCall) : Program MemoryCall MemoryReply Unit (MemoryReply c) :=
  Program.perform c

/-- What passes `!raw`. -/
def MemoryText.truthy : Option MemoryText → Option RawReport
  | none | some .empty => none
  | some (.text raw) => some raw

def MemoryText.report : MemoryText → RawReport
  | .empty => .malformed
  | .text raw => raw

def refreshWorkerBudget (workerId : String) : MemoryProgram := do
  let raw ← (MemoryCall.getReport workerId).await
  (MemoryCall.update (.applyWorkerReport workerId (MemoryText.truthy raw))).await

/-- An operation of the service. -/
inductive MemoryJob where
  | refreshAll
  | refreshWorkerBudget (workerId : String)
  | reserveCapacity (workerId : String) (deviceIndex : Nat) (instanceId : String) (bytes : ℚ)
  | releaseInstanceReservations (instanceId : String)
  | clearWorkerReservations (workerId : String)

def MemoryJob.program : MemoryJob → MemoryProgram
  | .refreshAll => Sardeenz.refreshAll.embed .refresh fun _ r => r
  | .refreshWorkerBudget workerId => Sardeenz.refreshWorkerBudget workerId
  | .reserveCapacity workerId deviceIndex instanceId bytes =>
    (MemoryCall.update (.reserveCapacity workerId deviceIndex instanceId bytes)).await
  | .releaseInstanceReservations instanceId =>
    (MemoryCall.update (.releaseInstanceReservations instanceId)).await
  | .clearWorkerReservations workerId =>
    (MemoryCall.update (.clearWorkerReservations workerId)).await

theorem launching_refreshAll :
    refreshAll.embed RefreshCall.launching RefreshCall.answered = Launching.refreshAll := by
  refine congrArg (Program.call _) (funext fun scanned => ?_)
  cases scanned with
  | error err => rfl
  | ok workerIds =>
    cases workerIds with
    | nil =>
      refine congrArg (Program.call _) (funext fun cleared => ?_)
      cases cleared with
      | error err | ok _ => rfl
    | cons _ workerIds =>
      refine congrArg (Program.call _) (funext fun results => ?_)
      cases results with
      | error err => rfl
      | ok results =>
        cases results with
        | none => rfl
        | some =>
          refine congrArg (Program.call _) (funext fun applied => ?_)
          cases applied with
          | error err => rfl
          | ok =>
            refine congrArg (Program.call _) (funext fun written => ?_)
            cases written with
            | error err | ok _ => rfl

/-! ## Redis -/

/-- The maps of the process and the memory keys in Redis. -/
structure MemoryWorld where
  memory : MemoryBudget := ⟨∅, ∅⟩
  redis : AList (fun _ : String => MemoryText) := ∅
  now : Nat := 0

/-- What becomes of a call to Redis. -/
structure RedisInput where
  down : Bool := false
  /-- What a `SCAN` finds; one that overlaps with writes may find more or less
  than there is. -/
  scanned : List String := []
  noResults : Bool := false
  failing : String → Bool := fun _ => false

namespace MemoryWorld

variable (w : MemoryWorld)

/-- The reply to one `GET` of a pipeline. -/
def pipelineReply (failing : String → Bool) (workerId : String) :
    String × MemoryBudget.PipelineReply :=
  (workerId, if failing workerId then .error ()
    else .ok ((w.redis.lookup workerId).map MemoryText.report))

def ask {α : Type} (i : RedisInput) (answer : α) :
    MemoryWorld × Except Unit α :=
  (w, if i.down then .error () else .ok answer)

/-- What runs without an `await`, on the maps. -/
def apply : MemoryUpdate → MemoryBudget
  | .applyWorkerReport workerId raw => w.memory.applyWorkerReport workerId raw w.now
  | .reserveCapacity workerId deviceIndex instanceId bytes =>
    w.memory.reserveCapacity workerId deviceIndex instanceId bytes
  | .releaseInstanceReservations instanceId => w.memory.releaseInstanceReservations instanceId
  | .clearWorkerReservations workerId => w.memory.clearWorkerReservations workerId

def serve (i : RedisInput) (w : MemoryWorld) :
    (c : MemoryCall) → MemoryWorld × Except Unit (MemoryReply c)
  | .refresh .scanMemoryKeys => w.ask i i.scanned
  | .refresh (.getMemoryReports workerIds) =>
    w.ask i (if i.noResults then none else some (workerIds.map (w.pipelineReply i.failing)))
  | .refresh (.applyReports replies) =>
    ({ w with memory := w.memory.applyReports replies w.now }, .ok ())
  | .refresh .clearBudgets => ({ w with memory := w.memory.clear }, .ok ())
  | .refresh .writeClusterMemorySnapshot => w.ask i ()
  | .getReport workerId => w.ask i (w.redis.lookup workerId)
  | .update u => ({ w with memory := w.apply u }, .ok ())

end MemoryWorld

/-! ## What a refresh leaves of the holds -/

namespace MemoryBudget

section
variable {m : MemoryBudget} {w w' : String} {i : Nat}

/-- A clear of `w'` removes the holds of `w`. -/
def Covers (w' w : String) : Prop := w = w' ∨ StartsWith w' w.toList
deriving Decidable

theorem holdsOn_dropWorker (m : MemoryBudget) (w' w : String) (i : Nat) :
    (m.dropWorker w').holdsOn w i = if Covers w' w then ∅ else m.holdsOn w i :=
  holdsOn_clearWorkerReservations _ w' w i

theorem holdsOn_foldl_dropWorker (w : String) (i : Nat) :
    ∀ (workers : List String) (m : MemoryBudget), (workers.foldl dropWorker m).holdsOn w i =
        if ∃ w' ∈ workers, Covers w' w then ∅ else m.holdsOn w i
  | [], m => by simp
  | w' :: workers, m => by
    rw [foldl_cons, holdsOn_foldl_dropWorker w i workers, holdsOn_dropWorker]
    by_cases hw : Covers w' w
    · simp [hw]
    · simp [hw]

def PipelineReply.isReport : PipelineReply → Bool
  | .ok (some (.valid _)) => true
  | _ => false

def Reported (replies : List (String × PipelineReply)) (w : String) : Prop :=
  ∃ reply ∈ replies, reply.1 = w ∧ PipelineReply.isReport reply.2 = true
deriving Decidable

theorem mem_taken (now : Nat) : ∀ {replies : List (String × PipelineReply)} {m : MemoryBudget},
      w ∈ (takeReports now m replies).2 ↔ Reported replies w
  | [], m => by simp [takeReports, Reported]
  | (w', .ok (some (.valid report))) :: rest, m => by
    simp only [takeReports, parseReport, mem_cons, mem_taken now]
    simp [Reported, PipelineReply.isReport, @eq_comm _ w]
  | (w', .ok (some .malformed)) :: rest, m => by
    simp only [takeReports, parseReport, mem_taken now]
    simp [Reported, PipelineReply.isReport]
  | (w', .ok none) :: rest, m => by
    simp only [takeReports, mem_taken now]
    simp [Reported, PipelineReply.isReport]
  | (w', .error _) :: rest, m => by
    simp only [takeReports, mem_taken now]
    simp [Reported, PipelineReply.isReport]

theorem mem_budgets_takeReports (now : Nat) :
    ∀ {replies : List (String × PipelineReply)} {m : MemoryBudget},
      w ∈ (takeReports now m replies).1.budgets ↔ w ∈ m.budgets ∨ w ∈ (takeReports now m replies).2
  | [], m => by simp [takeReports]
  | (w', .ok (some (.valid report))) :: rest, m => by
    simp only [takeReports, parseReport, mem_cons]
    rw [mem_budgets_takeReports now]
    rw [setBudget, mem_insert]
    tauto
  | (w', .ok (some .malformed)) :: rest, m => by
    simp only [takeReports]
    exact mem_budgets_takeReports now
  | (w', .ok none) :: rest, m => by
    simp only [takeReports]
    exact mem_budgets_takeReports now
  | (w', .error _) :: rest, m => by
    simp only [takeReports]
    exact mem_budgets_takeReports now

/-- **What `refreshAll` leaves of the holds.**  A cached budget that no report
was taken over for takes the holds of its worker with it, and of every worker
that a clear of it covers. -/
theorem holdsOn_applyReports (m : MemoryBudget) (replies : List (String × PipelineReply))
    (now : Nat) (w : String) (i : Nat) :
    (m.applyReports replies now).holdsOn w i =
      if ∃ w' ∈ m.budgets.keys, Covers w' w ∧ ¬ Reported replies w' then ∅
      else m.holdsOn w i := by
  rw [applyReports, holdsOn_foldl_dropWorker]
  have hholds : (takeReports now m replies).1.holdsOn w i = m.holdsOn w i :=
    holdsOn_eq (reservations_takeReports now replies m)
  rw [hholds]
  refine if_congr (exists_congr fun w' => ?_) rfl rfl
  rw [mem_filter, ← AList.mem_keys, ← AList.mem_keys, mem_budgets_takeReports]
  grind [mem_taken]

theorem holdsOn_applyWorkerReport (m : MemoryBudget) (w : String) (raw : Option RawReport)
    (now i : Nat) :
    (m.applyWorkerReport w raw now).holdsOn w i =
      if raw.isNone then ∅ else m.holdsOn w i := by
  cases raw with
  | none => exact (holdsOn_dropWorker m w w i).trans (if_pos (.inl rfl))
  | some raw =>
    cases raw with
    | malformed | valid report => rfl

end

end MemoryBudget

/-! ## Holds and keys -/

open MemoryBudget

/-- The memory keys as a refresh meets them: what is stored, a complete scan of
it, and the keys whose `GET` fails. -/
structure StoredReports where
  content : AList (fun _ : String => MemoryText)
  scanned : List String
  failing : String → Bool := fun _ => false
  now : Nat := 0
  complete : ∀ w, w ∈ scanned ↔ w ∈ content

namespace StoredReports

variable (r : StoredReports) (m : MemoryBudget)

def world : MemoryWorld := { memory := m, redis := r.content, now := r.now }

/-- The maps after `refreshAll`. -/
def afterAll : MemoryBudget :=
  (MemoryJob.refreshAll.program.run
    (MemoryWorld.serve { scanned := r.scanned, failing := r.failing }) (r.world m)).1.memory

/-- The maps after `refreshWorkerBudget`. -/
def afterWorker (w : String) : MemoryBudget :=
  ((MemoryJob.refreshWorkerBudget w).program.run
    (MemoryWorld.serve { down := r.failing w }) (r.world m)).1.memory

/-- The worker's holds have gone, if it has no key, and are as they were
otherwise. -/
def DropsWithKey (m' : MemoryBudget) (w : String) : Prop :=
  ∀ i, m'.holdsOn w i = if w ∈ r.content then m.holdsOn w i else ∅

/-- Both refreshes drop a worker's holds exactly if it has no key, and no failed
`GET` drops any. -/
structure HoldsSurvive : Prop where
  all : ∀ w, r.DropsWithKey m (r.afterAll m) w
  worker : ∀ w, r.failing w = false → r.DropsWithKey m (r.afterWorker m w) w
  failed : ∀ w, r.failing w = true → ∀ i, (r.afterWorker m w).holdsOn w i = m.holdsOn w i

def Readable (w : String) : Prop :=
  r.failing w = false ∧
    PipelineReply.isReport (.ok ((r.content.lookup w).map MemoryText.report)) = true
deriving Decidable

/-- No worker has a key; or every worker that holds are recorded for meets this.
Without a key, a cached budget that no report can be read for gives it away: its
own, or one whose id and a colon its id starts with.  With a key, none does, and
the text is not empty. -/
def KeysDecide : Prop :=
  r.scanned = [] ∨ ∀ w i, m.holdsOn w i ≠ ∅ →
    (w ∉ r.content → ∃ w' ∈ m.budgets.keys, Covers w' w ∧ ¬ r.Readable w') ∧
    (w ∈ r.content → (∀ w' ∈ m.budgets.keys, Covers w' w → r.Readable w') ∧
      (r.content.lookup w = some .empty → r.failing w = true))

theorem not_mem_of_nil (h : r.scanned = []) (w : String) : w ∉ r.content := by
  intro hw
  have hscanned := (r.complete w).mpr hw
  grind

theorem afterAll_of_ne_nil (h : r.scanned ≠ []) : r.afterAll m =
      m.applyReports (r.scanned.map ((r.world m).pipelineReply r.failing)) r.now := by
  unfold afterAll
  cases hs : r.scanned with
  | nil => exact absurd hs h
  | cons => rfl

variable {w : String}

theorem reported_iff_readable :
    Reported (r.scanned.map ((r.world m).pipelineReply r.failing)) w ↔ r.Readable w := by
  constructor
  · rintro ⟨_, hreply, rfl, hreport⟩
    obtain ⟨w, -, rfl⟩ := mem_map.mp hreply
    by_cases hf : r.failing w = true
    · simp [MemoryWorld.pipelineReply, hf, PipelineReply.isReport] at hreport
    · simp only [MemoryWorld.pipelineReply, if_neg hf] at hreport
      exact ⟨Bool.not_eq_true _ ▸ hf, hreport⟩
  · rintro ⟨hf, hreport⟩
    have hw : w ∈ r.content := by
      refine lookup_isSome.mp ?_
      cases hl : r.content.lookup w with
      | none =>
        rw [hl] at hreport
        exact Bool.noConfusion hreport
      | some => rfl
    refine ⟨_, mem_map_of_mem ((r.complete w).mpr hw), rfl, ?_⟩
    simp only [MemoryWorld.pipelineReply, hf]
    exact hreport

theorem holdsOn_afterAll (h : r.scanned ≠ []) (w : String) (i : Nat) : (r.afterAll m).holdsOn w i =
      if ∃ w' ∈ m.budgets.keys, Covers w' w ∧ ¬ r.Readable w' then ∅ else m.holdsOn w i := by
  rw [r.afterAll_of_ne_nil m h, holdsOn_applyReports]
  refine if_congr (exists_congr fun w' => ?_) rfl rfl
  rw [r.reported_iff_readable m]

theorem holdsOn_afterWorker (h : r.failing w = false) (i : Nat) : (r.afterWorker m w).holdsOn w i =
      if w ∈ r.content ∧ r.content.lookup w ≠ some .empty then m.holdsOn w i else ∅ := by
  have hafter : r.afterWorker m w =
      m.applyWorkerReport w (MemoryText.truthy (r.content.lookup w)) r.now := by
    rw [afterWorker, h]
    rfl
  rw [hafter, holdsOn_applyWorkerReport]
  cases hl : r.content.lookup w with
  | none =>
    grind [lookup_eq_none.mp, MemoryText.truthy]
  | some text =>
    have hmem : w ∈ r.content := lookup_isSome.mp (by rw [hl]; rfl)
    cases text with
    | empty => simp [MemoryText.truthy]
    | text => simp [MemoryText.truthy, hmem]

/-- **Holds survive refreshes** exactly as long as the cached budgets tell which
keys have gone. -/
theorem holdsSurvive_iff : r.HoldsSurvive m ↔ r.KeysDecide m := by
  constructor
  · intro hs
    refine or_iff_not_imp_left.mpr fun hne w i hholds => ⟨fun hw => ?_, fun hw => ⟨?_, ?_⟩⟩
    · have hall := hs.all w i
      rw [r.holdsOn_afterAll m hne, if_neg hw] at hall
      by_contra hnone
      exact hholds ((if_neg hnone).symm.trans hall)
    · intro w' hcached hcovers
      by_contra hread
      have hall := hs.all w i
      rw [r.holdsOn_afterAll m hne, if_pos hw, if_pos ⟨w', hcached, hcovers, hread⟩] at hall
      exact hholds hall.symm
    · intro hempty
      by_contra hf
      have hf : r.failing w = false := Bool.not_eq_true _ ▸ hf
      have hworker := hs.worker w hf i
      rw [r.holdsOn_afterWorker m hf, if_pos hw, if_neg fun h => h.2 hempty] at hworker
      exact hholds hworker.symm
  · intro hk
    refine ⟨fun w i => ?_, fun w hf i => ?_, fun w hf i => ?_⟩
    · by_cases hnil : r.scanned = []
      · rw [afterAll, hnil, if_neg (r.not_mem_of_nil hnil w)]
        rfl
      · rw [r.holdsOn_afterAll m hnil]
        by_cases hholds : m.holdsOn w i = ∅
        · rw [hholds, ite_self, ite_self]
        · obtain ⟨habsent, hpresent⟩ := hk.resolve_left hnil w i hholds
          by_cases hw : w ∈ r.content
          · rw [if_pos hw]
            refine if_neg ?_
            rintro ⟨w', hcached, hcovers, hread⟩
            exact hread ((hpresent hw).1 w' hcached hcovers)
          · rw [if_neg hw, if_pos (habsent hw)]
    · rw [r.holdsOn_afterWorker m hf]
      by_cases hw : w ∈ r.content
      · have hnil : r.scanned ≠ [] := fun hnil => r.not_mem_of_nil hnil w hw
        by_cases hempty : r.content.lookup w = some .empty
        · rw [if_neg fun h => h.2 hempty, if_pos hw]
          by_contra hholds
          have hfailing := ((hk.resolve_left hnil w i fun h => hholds h.symm).2 hw).2 hempty
          exact absurd (hf.symm.trans hfailing) Bool.false_ne_true
        · rw [if_pos ⟨hw, hempty⟩, if_pos hw]
      · rw [if_neg fun h => hw h.1, if_neg hw]
    · rw [afterWorker, hf]
      rfl

end StoredReports

def oneDevice (w : String) : WorkerBudget where
  workerId := w
  devices := [⟨0, .cuda, 10, 0, 10⟩]
  lastReportAt := 0
  stale := false
  instanceMeasurements := []

def heldWorker : MemoryBudget :=
  (⟨(∅ : AList fun _ : String => WorkerBudget).insert "w" (oneDevice "w"), ∅⟩ :
    MemoryBudget).reserveCapacity "w" 0 "i" 1

def storedUnder (text : MemoryText) (failing : Bool) : StoredReports where
  content := AList.singleton "w" text
  scanned := ["w"]
  failing := fun _ => failing
  complete w := by
    rw [AList.mem_keys, AList.keys_singleton]

def validReport : MemoryText := .text (.valid ⟨[⟨0, .cuda, 0, 10⟩], some 0, []⟩)

/-- A malformed report costs the worker its holds, and so does a failed `GET`. -/
theorem unreadable_report_clears_holds :
    ¬ (storedUnder (.text .malformed) false).HoldsSurvive heldWorker ∧
      ¬ (storedUnder validReport true).HoldsSurvive heldWorker := by
  have hlost : ∀ text failing, ¬ (storedUnder text failing).Readable "w" →
      ¬ (storedUnder text failing).HoldsSurvive heldWorker := by
    intro text failing hread hs
    have hall := hs.all "w" 0
    rw [StoredReports.holdsOn_afterAll _ _ (cons_ne_nil _ _),
      if_pos ⟨"w", by decide, .inl rfl, hread⟩, if_pos (AList.mem_keys.mpr mem_cons_self)]
      at hall
    exact absurd (congrArg AList.keys hall) (by decide)
  exact ⟨hlost _ _ (by decide), hlost _ _ (by decide)⟩

end Sardeenz
