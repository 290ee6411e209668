/-
# `Sardeenz.Workers.Pool` — the worker registry and the sweep of dead workers

`WorkerPoolService` (`worker-pool.ts`) and the part of a reconciliation tick
that rests on it: `discoverWorkers`, `checkHeartbeats`, `handleDeadWorkers`
(`reconciliation.ts`).  A tick reads Redis in pipelines.  Each command of a
pipeline has a reply of its own, which may be an error, and both services treat
an error like a missing key:

    const lastHeartbeatAt = !err && typeof raw === 'string' ? raw : null;

so a worker whose heartbeat could not be read is `OFFLINE`, and the same tick
moves its instances to `ERROR`, deletes them and forgets the worker.

**Proved here.**  When a tick leaves a live worker and its instances alone
(`tick_spares_live_worker_iff`).
-/
import Sardeenz.Types
import Sardeenz.Memory.Budget

namespace Sardeenz

open List AList

/-! ## Records -/

inductive WorkerStatus where
  | online
  | degraded
  | offline
deriving DecidableEq, Repr

/-- `WorkerCapability`, as far as a placement reads it. -/
structure WorkerCapability where
  runnerType : String
  supportedDeviceTypes : List DeviceType
  maxTensorParallelism : Nat
deriving DecidableEq, Repr

structure WorkerDevice where
  deviceIndex : Nat
  deviceType : DeviceType
deriving DecidableEq, Repr

/-- The payload of an info key that passes `parseWorkerInfo`. -/
structure WorkerInfo where
  capabilities : List WorkerCapability
  devices : List WorkerDevice
deriving DecidableEq, Repr

abbrev HeartbeatText := Option Nat

structure WorkerRecord where
  workerId : String
  status : WorkerStatus
  capabilities : List WorkerCapability
  devices : List WorkerDevice
  lastHeartbeatAt : Option HeartbeatText
deriving DecidableEq, Repr

/-- The map `workers`. -/
abbrev WorkerPool := AList (fun _ : String => WorkerRecord)

/-! ## Status -/

def resolveHeartbeatStatus (lastHeartbeatAt : Option HeartbeatText) (heartbeatTimeoutSecs : Nat)
    (now : Nat) : WorkerStatus :=
  match lastHeartbeatAt with
  | some (some heartbeat) =>
    let ageMs : Int := now - heartbeat
    let timeoutMs : Int := heartbeatTimeoutSecs * 1000
    if ageMs ≥ timeoutMs then .offline
    else if 2 * ageMs ≥ timeoutMs then .degraded
    else .online
  | _ => .offline

/-- The reply to one `GET` in a pipeline. -/
abbrev HeartbeatReply := Except Unit (Option HeartbeatText)

/-- `!err && typeof raw === 'string' ? raw : null`. -/
def HeartbeatReply.text : HeartbeatReply → Option HeartbeatText
  | .ok raw => raw
  | .error _ => none

/-- A pipeline of heartbeat reads: when Redis executed it, when the control
plane went on with the results, and the reply to each command. -/
structure HeartbeatPipeline where
  executedAt : Nat
  processedAt : Nat
  reply : Nat → HeartbeatReply

namespace WorkerPool

variable (heartbeatTimeoutSecs : Nat)

def recordHeartbeat (now : Nat) (pool : WorkerPool) (workerId : String) (reply : HeartbeatReply) :
    WorkerPool :=
  match pool.lookup workerId with
  | none => pool
  | some record =>
    pool.insert workerId { record with
      lastHeartbeatAt := reply.text
      status := resolveHeartbeatStatus reply.text heartbeatTimeoutSecs now }

def recordHeartbeats (pipeline : HeartbeatPipeline) (pool : WorkerPool)
    (workerIds : List (String × Nat)) : WorkerPool :=
  workerIds.foldl (fun pool (workerId, i) =>
    recordHeartbeat heartbeatTimeoutSecs pipeline.processedAt pool workerId (pipeline.reply i)) pool

/-- The reply to the `GET` of an info key: an error, no key, text that fails
`parseWorkerInfo`, or a payload. -/
abbrev InfoReply := Except Unit (Option (Option WorkerInfo))

variable (pool : WorkerPool)

/-- A worker is registered; a new one is `OFFLINE` until its heartbeat is read. -/
def register (workerId : String) (payload : WorkerInfo) : WorkerPool :=
  let existing := pool.lookup workerId
  pool.insert workerId {
    workerId := workerId
    status := (existing.map (·.status)).getD .offline
    capabilities := payload.capabilities
    devices := payload.devices
    lastHeartbeatAt := existing.bind (·.lastHeartbeatAt) }

/-- The first loop of `discoverWorkers`, which collects `discoveredWorkerIds`. -/
def registerAll : WorkerPool → List (String × InfoReply) → WorkerPool × List String
  | pool, [] => (pool, [])
  | pool, (workerId, .ok (some (some payload))) :: rest =>
    let registered := registerAll (pool.register workerId payload) rest
    (registered.1, workerId :: registered.2)
  | pool, _ :: rest => registerAll pool rest

def discoverWorkers (infos : List (String × InfoReply))
    (pipeline : HeartbeatPipeline) : WorkerPool :=
  let registered := registerAll pool infos
  recordHeartbeats heartbeatTimeoutSecs pipeline registered.1 registered.2.zipIdx

def checkHeartbeats (pipeline : HeartbeatPipeline) : WorkerPool :=
  recordHeartbeats heartbeatTimeoutSecs pipeline pool pool.keys.zipIdx

def getDeadWorkers : List String :=
  pool.keys.filter fun workerId => (pool.lookup workerId).any fun r => r.status = .offline

end WorkerPool

def isActiveOrTransitional (state : ModelLifecycleState) : Bool :=
  state ≠ .stopped && state ≠ .error

/-- What `handleDeadWorkers` takes in hand. -/
structure DeadWorkerSweep where
  /-- The instances it moves to `ERROR` and deletes, with the worker they were on. -/
  instances : List (String × InstanceState)
  pool : WorkerPool

/-- `handleDeadWorkers`; `allInstances` is `none` when they could not be read. -/
def handleDeadWorkers (pool : WorkerPool) (allInstances : Option (List InstanceState)) :
    DeadWorkerSweep :=
  match allInstances with
  | none => ⟨[], pool⟩
  | some allInstances =>
    let dead := pool.getDeadWorkers
    { instances := dead.flatMap fun workerId =>
        (allInstances.filter fun i =>
          i.workerId = some workerId && isActiveOrTransitional i.state).map (workerId, ·)
      pool := dead.foldl (fun pool workerId => pool.erase workerId) pool }

/-- What a tick is answered. -/
structure TickReplies where
  infos : List (String × WorkerPool.InfoReply)
  discovered : HeartbeatPipeline
  checked : HeartbeatPipeline
  allInstances : Option (List InstanceState)

namespace TickReplies

variable (heartbeatTimeoutSecs : Nat) (tick : TickReplies) (pool : WorkerPool)

/-- The registry after `discoverWorkers`. -/
def afterDiscovery : WorkerPool :=
  pool.discoverWorkers heartbeatTimeoutSecs tick.infos tick.discovered

/-- The registry after `checkHeartbeats`. -/
def afterCheck : WorkerPool :=
  (tick.afterDiscovery heartbeatTimeoutSecs pool).checkHeartbeats heartbeatTimeoutSecs tick.checked

def sweep : DeadWorkerSweep :=
  handleDeadWorkers (tick.afterCheck heartbeatTimeoutSecs pool) tick.allInstances

def reads : List (String × HeartbeatPipeline × Nat) :=
  (WorkerPool.registerAll pool tick.infos).2.zipIdx.map
      (fun (workerId, i) => (workerId, tick.discovered, i)) ++
    (tick.afterDiscovery heartbeatTimeoutSecs pool).keys.zipIdx.map
      fun (workerId, i) => (workerId, tick.checked, i)

def statusOf (read : String × HeartbeatPipeline × Nat) : WorkerStatus :=
  resolveHeartbeatStatus (read.2.1.reply read.2.2).text heartbeatTimeoutSecs read.2.1.processedAt

/-- The tick does nothing to the worker or its instances for the worker being
dead. -/
structure Spares (workerId : String) : Prop where
  unmarked : ∀ read ∈ tick.reads heartbeatTimeoutSecs pool, read.1 = workerId →
    statusOf heartbeatTimeoutSecs read ≠ .offline
  kept : workerId ∈ (tick.afterCheck heartbeatTimeoutSecs pool).keys →
    workerId ∈ (tick.sweep heartbeatTimeoutSecs pool).pool.keys
  untouched : ∀ target ∈ (tick.sweep heartbeatTimeoutSecs pool).instances, target.1 ≠ workerId

/-- The heartbeat key of the worker, over the time of the tick: it is younger
than the timeout throughout, and a read that is answered returns it. -/
structure Live (workerId : String) (stored : Nat → Option HeartbeatText) (beginsAt endsAt : Nat) :
    Prop where
  young : ∀ now, beginsAt ≤ now → now ≤ endsAt → ∃ heartbeat, stored now = some (some heartbeat) ∧
    (now - heartbeat : Int) < heartbeatTimeoutSecs * 1000
  within : ∀ read ∈ tick.reads heartbeatTimeoutSecs pool,
    beginsAt ≤ read.2.1.executedAt ∧ read.2.1.executedAt ≤ endsAt
  answers : ∀ read ∈ tick.reads heartbeatTimeoutSecs pool, read.1 = workerId →
    ∀ raw, read.2.1.reply read.2.2 = .ok raw → raw = stored read.2.1.executedAt

/-- No read of the worker's heartbeat fails, and each is looked at before the
heartbeat it returned is as old as the timeout. -/
def HeartbeatsRead (workerId : String) : Prop :=
  ∀ read ∈ tick.reads heartbeatTimeoutSecs pool, read.1 = workerId →
    (∀ e, read.2.1.reply read.2.2 ≠ .error e) ∧
      ∀ heartbeat, read.2.1.reply read.2.2 = .ok (some (some heartbeat)) →
        (read.2.1.processedAt - heartbeat : Int) < heartbeatTimeoutSecs * 1000

end TickReplies

/-! ## What a heartbeat read does -/

theorem resolveHeartbeatStatus_ne_offline {last timeout now} :
    resolveHeartbeatStatus last timeout now ≠ .offline ↔
      ∃ heartbeat, last = some (some heartbeat) ∧ (now - heartbeat : Int) < timeout * 1000 := by
  match last with
  | none | some none => simp [resolveHeartbeatStatus]
  | some (some heartbeat) =>
    grind [resolveHeartbeatStatus]

namespace WorkerPool

variable {heartbeatTimeoutSecs : Nat} {pool : WorkerPool} {w : String} {reply : HeartbeatReply}

variable {now : Nat}

theorem mem_recordHeartbeat {workerId} :
    w ∈ recordHeartbeat heartbeatTimeoutSecs now pool workerId reply ↔ w ∈ pool := by
  unfold recordHeartbeat
  cases hl : pool.lookup workerId with
  | none => exact Iff.rfl
  | some =>
    grind [mem_insert, lookup_isSome.mp]

variable {pipeline : HeartbeatPipeline}

theorem mem_recordHeartbeats {ids} :
    w ∈ recordHeartbeats heartbeatTimeoutSecs pipeline pool ids ↔ w ∈ pool := by
  induction ids generalizing pool with
  | nil => exact Iff.rfl
  | cons _ ids ih => exact ih.trans mem_recordHeartbeat

def Alive (pool : WorkerPool) (w : String) : Prop :=
  ∀ record, pool.lookup w = some record → record.status ≠ .offline

theorem alive_recordHeartbeat_self
    (h : resolveHeartbeatStatus reply.text heartbeatTimeoutSecs now ≠ .offline) :
    Alive (recordHeartbeat heartbeatTimeoutSecs now pool w reply) w := by
  intro _ hr
  unfold recordHeartbeat at hr
  cases hl : pool.lookup w with
  | none =>
    grind
  | some =>
    grind [lookup_insert]

theorem lookup_recordHeartbeat_ne {workerId} (h : w ≠ workerId) :
    (recordHeartbeat heartbeatTimeoutSecs now pool workerId reply).lookup w = pool.lookup w := by
  unfold recordHeartbeat
  cases pool.lookup workerId with
  | none => rfl
  | some => exact lookup_insert_ne h

theorem alive_recordHeartbeats : ∀ {ids : List (String × Nat)} {pool : WorkerPool},
      (∀ id ∈ ids, id.1 = w → resolveHeartbeatStatus (pipeline.reply id.2).text
        heartbeatTimeoutSecs pipeline.processedAt ≠ .offline) →
      ((∃ id ∈ ids, id.1 = w) ∨ Alive pool w) →
      Alive (recordHeartbeats heartbeatTimeoutSecs pipeline pool ids) w
  | [], _, _, h => h.elim (fun ⟨_, hid, _⟩ => nomatch hid) id
  | (workerId, i) :: ids, pool, hreads, h => by
    have hrest := fun id hid => hreads id (mem_cons_of_mem _ hid)
    change Alive (recordHeartbeats heartbeatTimeoutSecs pipeline
      (recordHeartbeat heartbeatTimeoutSecs pipeline.processedAt pool workerId
        (pipeline.reply i)) ids) w
    refine alive_recordHeartbeats hrest ?_
    by_cases hw : workerId = w
    · grind [alive_recordHeartbeat_self, mem_cons_self]
    · rcases h with ⟨id, hid, _⟩ | halive
      · grind [mem_cons.mp]
      · refine .inr fun record hr => halive record ?_
        rwa [lookup_recordHeartbeat_ne (Ne.symm hw)] at hr

theorem mem_getDeadWorkers : w ∈ pool.getDeadWorkers ↔ w ∈ pool ∧ ¬ Alive pool w := by
  rw [getDeadWorkers, mem_filter]
  refine and_congr Iff.rfl ?_
  unfold Alive
  cases pool.lookup w with
  | none | some record => simp

end WorkerPool

namespace TickReplies

variable {heartbeatTimeoutSecs : Nat} {tick : TickReplies} {pool : WorkerPool} {w : String}

theorem alive_afterCheck (hreads : ∀ read ∈ tick.reads heartbeatTimeoutSecs pool, read.1 = w →
      statusOf heartbeatTimeoutSecs read ≠ .offline)
    (hmem : w ∈ tick.afterCheck heartbeatTimeoutSecs pool) :
    WorkerPool.Alive (tick.afterCheck heartbeatTimeoutSecs pool) w := by
  have hmem := WorkerPool.mem_recordHeartbeats.mp hmem
  refine WorkerPool.alive_recordHeartbeats ?_ (.inl ?_)
  · rintro ⟨v, i⟩ hid hv
    refine hreads (v, tick.checked, i) (mem_append_right _ ?_) hv
    exact mem_map.mpr ⟨(v, i), hid, rfl⟩
  · obtain ⟨i, hi, hw⟩ := mem_iff_getElem.mp (mem_keys.mp hmem)
    exact ⟨(w, i), mem_zipIdx_iff_getElem?.mpr (by simp [hi, hw]), rfl⟩

theorem mem_foldl_erase {dead : List String} (hmem : w ∈ pool) (hnot : w ∉ dead) :
    w ∈ dead.foldl (fun pool workerId => pool.erase workerId) pool := by
  induction dead generalizing pool with
  | nil => exact hmem
  | cons v dead =>
    grind [mem_erase.mpr]

theorem spares_of_unmarked (hreads : ∀ read ∈ tick.reads heartbeatTimeoutSecs pool, read.1 = w →
      statusOf heartbeatTimeoutSecs read ≠ .offline) :
    tick.Spares heartbeatTimeoutSecs pool w := by
  have hnot : w ∉ (tick.afterCheck heartbeatTimeoutSecs pool).getDeadWorkers := fun h =>
    (WorkerPool.mem_getDeadWorkers.mp h).2
      (alive_afterCheck hreads (WorkerPool.mem_getDeadWorkers.mp h).1)
  refine ⟨hreads, fun hmem => ?_, fun _ ht _ => ?_⟩
  · unfold sweep handleDeadWorkers
    cases tick.allInstances with
    | none => exact hmem
    | some allInstances => exact mem_foldl_erase hmem hnot
  · unfold sweep handleDeadWorkers at ht
    grind

/-- **A live worker survives a tick exactly when its heartbeat could be read.**
From every registry, and for every pattern of errors among the replies: a worker
whose stored heartbeat is younger than the timeout throughout the tick is not
marked `OFFLINE`, not removed, and none of its instances is cleaned up for it,
if and only if each read of its heartbeat was answered and looked at in time. -/
theorem tick_spares_live_worker_iff {stored : Nat → Option HeartbeatText} {beginsAt endsAt : Nat}
    (hlive : tick.Live heartbeatTimeoutSecs pool w stored beginsAt endsAt) :
    tick.Spares heartbeatTimeoutSecs pool w ↔ tick.HeartbeatsRead heartbeatTimeoutSecs pool w := by
  constructor
  · intro hspares read hread hw
    obtain ⟨heartbeat, htext, hage⟩ :=
      resolveHeartbeatStatus_ne_offline.mp (hspares.unmarked read hread hw)
    refine ⟨fun e he => ?_, fun _ hreply => ?_⟩
    · rw [he] at htext
      cases htext
    · rw [hreply] at htext
      obtain rfl := Option.some.inj (Option.some.inj htext)
      exact hage
  · intro hanswered
    refine spares_of_unmarked fun read hread hw => ?_
    obtain ⟨hok, hage⟩ := hanswered read hread hw
    obtain ⟨hbegin, hend⟩ := hlive.within read hread
    obtain ⟨heartbeat, hstored, -⟩ := hlive.young read.2.1.executedAt hbegin hend
    refine resolveHeartbeatStatus_ne_offline.mpr ?_
    cases hreply : read.2.1.reply read.2.2 with
    | error e => exact absurd hreply (hok e)
    | ok raw =>
      obtain rfl := (hlive.answers read hread hw raw hreply).trans hstored
      exact ⟨heartbeat, rfl, hage heartbeat hreply⟩

/-! ### One worker, one instance -/

/-- A worker that has been `ONLINE` since its last heartbeat. -/
def examplePool : WorkerPool :=
  AList.insert "w" ⟨"w", .online, [], [], some (some 10000)⟩ ∅

def exampleInstance : InstanceState where
  instanceId := "i"
  modelName := "m"
  state := .active
  protocol := some .openai
  workerId := some "w"
  runnerHost := some "10.0.0.5"
  runnerPort := some 9000
  runnerEnginePort := some 9001
  runnerId := some "r"
  deviceIndices := some [0]
  lastInferenceAt := none
  stateChangedAt := 5000
  errorMessage := none

variable (second : HeartbeatReply)

/-- A tick that rediscovers the worker; the reply of the second heartbeat read
is given. -/
def exampleTick : TickReplies where
  infos := [("w", .ok (some (some ⟨[], []⟩)))]
  discovered := ⟨11000, 11001, fun _ => .ok (some (some 10000))⟩
  checked := ⟨11002, 11003, fun _ => second⟩
  allInstances := some [exampleInstance]

theorem reads_exampleTick : (exampleTick second).reads 30 examplePool =
      [("w", (exampleTick second).discovered, 0), ("w", (exampleTick second).checked, 0)] := rfl

theorem live_exampleTick {second : HeartbeatReply}
    (h : ∀ raw, second = .ok raw → raw = some (some 10000)) :
    (exampleTick second).Live 30 examplePool "w" (fun _ => some (some 10000)) 11000 11003 where
  young now _ hle := ⟨10000, rfl, by omega⟩
  within := by
    rw [reads_exampleTick]
    simp [exampleTick]
  answers := by
    intro _ hread _ raw hraw
    rcases mem_cons.mp hread with rfl | hread
    · exact (Except.ok.inj hraw).symm
    · obtain rfl := mem_singleton.mp hread
      exact h raw hraw

/-- With both reads answered the tick spares the worker. -/
theorem exampleTick_spares_worker :
    (exampleTick (.ok (some (some 10000)))).Spares 30 examplePool "w" := by
  refine (tick_spares_live_worker_iff (live_exampleTick fun _ h => (Except.ok.inj h).symm)).mpr ?_
  intro _ hread _
  rcases mem_cons.mp hread with rfl | hread
  · exact ⟨nofun, fun _ h => by
      obtain rfl := Option.some.inj (Option.some.inj (Except.ok.inj h))
      decide⟩
  · obtain rfl := mem_singleton.mp hread
    exact ⟨nofun, fun _ h => by
      obtain rfl := Option.some.inj (Option.some.inj (Except.ok.inj h))
      decide⟩

/-- **One failed `GET`.**  The heartbeat is a second old throughout the tick; the
second read of it is answered with an error, and the tick takes the worker's
serving instance in hand and forgets the worker. -/
theorem failed_read_reaps_live_worker :
    (exampleTick (.error ())).Live 30 examplePool "w" (fun _ => some (some 10000)) 11000 11003 ∧
      ((exampleTick (.error ())).sweep 30 examplePool).instances = [("w", exampleInstance)] ∧
      ((exampleTick (.error ())).sweep 30 examplePool).pool.keys = [] :=
  ⟨live_exampleTick nofun, by decide +kernel, by decide +kernel⟩

end TickReplies

end Sardeenz
