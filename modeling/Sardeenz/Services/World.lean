/-
# `Sardeenz.Services.World` — what the calls of the services do

One model, the worker on which one of its instances is being started, and what
each call does to them.

A call to Redis, to a worker or to a runner can end in three ways: it is
`answered`; it takes effect and its answer is `lost`; or it has `failed`
without effect.  The caller sees the same error in the last two cases.

The worker (`runner-manager.ts`) is modelled for the one start request:

    notSent → inTransit → handling → finished        the request
    empty → allocating → pending → live → empty      the slot of the instance

A runner is known to the worker from `pending` on; before that, and from a
lookup's point of view also while ports are being allocated, it is absent.
-/
import Sardeenz.Services.SleepWake
import Mathlib.Data.Finset.Basic

namespace Sardeenz

/-- The model, the instance that is being started, and the placement its
worker gives it. -/
structure Setting where
  modelName : String
  instanceId : String
  info : RunnerInfo
deriving DecidableEq

/-! ## The worker -/

/-- Where `POST /runners` is. -/
inductive StartRequest where
  | notSent
  | inTransit
  | handling
  | finished
deriving DecidableEq

/-- What the worker holds for the instance: nothing (also while `startRunner`
allocates its ports), a pending start, or a live runner. -/
inductive Slot where
  | empty
  | allocating
  | pending (cancelRequested : Bool)
  | live
deriving DecidableEq

/-- The worker, as far as the instance is concerned. -/
structure Worker where
  request : StartRequest := .notSent
  slot : Slot := .empty
  failedLog : Bool := false
  waiting : Bool := false
  reply : Option (Except Failure Unit) := none
deriving DecidableEq

namespace Worker

variable (k : Worker)

/-- `POST /runners` leaves the control plane. -/
def send : Worker := { k with request := .inTransit, waiting := true }

/-- `startRunner` ends: its answer goes back to a client that still waits. -/
def finish (slot : Slot) (r : Except Failure Unit) : Worker :=
  { k with request := .finished, slot, reply := if k.waiting then some r else none }

/-- `GET /runners/by-instance/…/status`: a failed start is still named, by its
logs. -/
def lookup (info : RunnerInfo) : RunnerLookup :=
  match k.slot with
  | .live => .ready info
  | .pending _ => .starting info.runnerId
  | .empty | .allocating => if k.failedLog then .starting info.runnerId else .absent

/-- `stopRunner`: a pending start is told to cancel, a live runner goes; `none`
is `NotFoundError`. -/
def stop : Option Worker :=
  match k.slot with
  | .live => some { k with slot := .empty }
  | .pending _ => some { k with slot := .pending true }
  | .empty | .allocating => none

end Worker

/-- What the network and the worker do by themselves. -/
inductive WorkerAction where
  | deliver
  | drop
  | reject (status : Nat)
  | reserve
  | portsFail
  | launched
  | launchFails
  | exits
  | expireLog
deriving DecidableEq

/-- One action of the worker.  A start whose cancellation was requested never
becomes a live runner. -/
def Worker.step (k : Worker) : WorkerAction → Option Worker
  | .deliver =>
    if k.request = .inTransit then some { k with request := .handling, slot := .allocating }
    else none
  | .drop => if k.request = .inTransit then some { k with request := .finished } else none
  | .reject status =>
    if k.request = .inTransit then
      some (k.finish k.slot (.error (.workerHttp status s!"Worker /runners returned {status}")))
    else none
  | .reserve =>
    if k.slot = .allocating then some { k with slot := .pending false } else none
  | .portsFail =>
    if k.slot = .allocating then some (k.finish .empty (.error startFailed)) else none
  | .launched =>
    match k.slot with
    | .pending false => some { k.finish .live (.ok ()) with failedLog := false }
    | .pending true => some { k.finish .empty (.error startFailed) with failedLog := true }
    | _ => none
  | .launchFails =>
    match k.slot with
    | .pending _ => some { k.finish .empty (.error startFailed) with failedLog := true }
    | _ => none
  | .exits => if k.slot = .live then some { k with slot := .empty } else none
  | .expireLog => some { k with failedLog := false }
where
  startFailed : Failure := .workerHttp 500 "Worker /runners returned 500"

/-! ## The world -/

/-- Redis, the worker, and the claims of the processes. -/
structure World where
  instances : Instances
  routing : RoutingMap
  operation : Option MoveOperation := none
  worker : Worker := {}
  claims : Finset CancelClaim := ∅
  resuming : Finset Nat := ∅
  completed : Bool := false

def stateOf (instances : Instances) (id : String) : Option ModelLifecycleState :=
  (instances.lookup id).map (·.state)

/-- How a remote call ends. -/
inductive Outcome where
  | answered
  | lost
  | failed
deriving DecidableEq

/-- What comes from outside when a call is performed. -/
structure Input where
  outcome : Outcome := .answered
  failure : String := "connection lost"
  now : Nat := 0
  keys : List String := []
  health : RunnerHealth := ⟨.ready, some 0, none⟩
  lookup : RunnerLookup := .absent
  gone : Bool := false
  workerKnown : Bool := true
  isLeader : Bool := true
  aborted : Bool := false
  cancelled : Bool := false

variable {α : Type}

/-- The end of a remote call that would lead to `after` and answer `r`. -/
def Input.reply (i : Input) (before after : World) (r : Except Failure α) :
    Option (World × Except Failure α) :=
  match i.outcome with
  | .answered => some (after, r)
  | .lost => some (after, .error (.other i.failure))
  | .failed => some (before, .error (.other i.failure))

open Refresh in
/-- **What a call does.**  `none`: there is no answer yet. -/
def World.perform (σ : Setting) (i : Input) (w : World) :
    (c : Call) → Option (World × Except Failure (Reply c))
  | .getInstance id => i.reply w w (.ok (w.instances.lookup id))
  | .transition id target updates =>
    match transition (w.instances.lookup id) σ.modelName id target updates i.now with
    | .ok record =>
      i.reply w { w with instances := w.instances.insert id record } (.ok record)
    | .error error => i.reply w w (.error (.controlPlane error))
  | .writeInstance id record =>
    i.reply w { w with instances := w.instances.insert id record } (.ok ())
  | .removeInstance id => i.reply w { w with instances := w.instances.erase id } (.ok ())
  | .scan => i.reply w w (.ok w.instances.keys)
  | .scanned startIds =>
    if ScanReply startIds w.instances i.keys then i.reply w w (.ok i.keys) else none
  | .setModelState state protocol =>
    i.reply w
      { w with routing := setModelState w.routing σ.modelName state (some protocol) i.now }
      (.ok ())
  | .removeModel => i.reply w { w with routing := removeModel w.routing σ.modelName } (.ok ())
  | .addEndpoint endpoint protocol =>
    i.reply w
      { w with routing := addEndpoint w.routing σ.modelName endpoint (some protocol) i.now }
      (.ok ())
  | .removeEndpoint host port =>
    i.reply w { w with routing := removeEndpoint w.routing σ.modelName host port i.now } (.ok ())
  | .updateEndpointWeight host port weight =>
    match updateEndpointWeight w.routing σ.modelName host port weight i.now with
    | .ok (routing, found) => i.reply w { w with routing } (.ok found)
    | .error error => i.reply w w (.error (.controlPlane error))
  | .cutoverEndpointAndWait host port =>
    match cutoverEndpoint w.routing σ.modelName host port i.now with
    | some routing => i.reply w { w with routing } (.ok true)
    | none => i.reply w w (.ok false)
  | .getMoveOperation => i.reply w w (.ok w.operation)
  | .updateMoveOperation operationId updates =>
    match updateMoveOperation w.operation operationId updates i.now with
    | some operation => i.reply w { w with operation := some operation } (.ok (some operation))
    | none => i.reply w w (.ok none)
  | .removeMoveOperation operationId success =>
    match removeMoveOperation w.operation operationId with
    | (operation, removed) =>
      i.reply w { w with operation, completed := w.completed || (removed && success) } (.ok removed)
  | .sendStart =>
    if w.claims.Nonempty ∨ i.cancelled = true then some (w, .ok false)
    else some ({ w with worker := w.worker.send }, .ok true)
  | .awaitStart =>
    match i.outcome, w.worker.reply with
    | .answered, some r =>
      some ({ w with worker := { w.worker with waiting := false, reply := none } },
        r.map fun _ => σ.info)
    | .answered, none => none
    -- The client gives up: its timeout, or the connection.
    | _, _ =>
      some ({ w with worker := { w.worker with waiting := false, reply := none } },
        .error (.other i.failure))
  | .getRunnerByInstance id =>
    i.reply w w (.ok (if id = σ.instanceId then w.worker.lookup σ.info else i.lookup))
  | .stopRunner runnerId =>
    if runnerId = σ.info.runnerId then
      match w.worker.stop with
      | some worker => i.reply w { w with worker } (.ok ())
      | none => i.reply w w (.error (.workerHttp 404 s!"Runner {runnerId} not found"))
    else if i.gone then
      i.reply w w (.error (.workerHttp 404 s!"Runner {runnerId} not found"))
    else i.reply w w (.ok ())
  | .getHealth => i.reply w w (.ok i.health)
  | .wakeRunner => i.reply w w (.ok ())
  | .sleepRunner => i.reply w w (.ok ())
  | .getWorker _ => some (w, .ok i.workerKnown)
  | .isLeader => some (w, .ok i.isLeader)
  | .aborted => some (w, .ok i.aborted)
  | .now => some (w, .ok i.now)
  | .claim c =>
    if c ∈ w.claims then some (w, .ok false)
    else some ({ w with claims := insert c w.claims }, .ok true)
  | .release c => some ({ w with claims := w.claims.erase c }, .ok ())
  | .enterResume process =>
    if i.isLeader = true ∧ process ∉ w.resuming then
      some ({ w with resuming := insert process w.resuming }, .ok true)
    else some (w, .ok false)
  | .leaveResume process => some ({ w with resuming := w.resuming.erase process }, .ok ())
  | .bookkeeping => i.reply w w (.ok ())

def World.setInstance (w : World) (id : String) (record : Option InstanceState) : World :=
  { w with
    instances :=
      match record with
      | some record => w.instances.insert id record
      | none => w.instances.erase id }

variable {id : String}

theorem World.lookup_setInstance_ne (w : World) {id'} (h : id ≠ id')
    (record : Option InstanceState) :
    (w.setInstance id record).instances.lookup id' = w.instances.lookup id' := by
  cases record with
  | some record => exact AList.lookup_insert_ne (Ne.symm h)
  | none => exact AList.lookup_erase_ne (Ne.symm h)

theorem World.lookup_setInstance_self (w : World) (id : String) (record : Option InstanceState) :
    (w.setInstance id record).instances.lookup id = record := by
  cases record with
  | some record => exact AList.lookup_insert _
  | none => exact AList.lookup_erase _ _

/-! ## What a call leaves alone -/

variable {i : Input}

theorem Input.reply_eq_some {before after w} {r r' : Except Failure α}
    (h : i.reply before after r = some (w, r')) :
    (w = after ∧ r' = r) ∨ ((w = after ∨ w = before) ∧ r' = .error (.other i.failure)) := by
  unfold Input.reply at h
  grind

theorem Input.reply_read {w w' a} {r : Except Failure α}
    (h : i.reply w w (.ok a) = some (w', r)) : w' = w ∧ (r = .ok a ∨ ∃ e, r = .error e) := by
  rcases Input.reply_eq_some h with ⟨rfl, rfl⟩ | ⟨rfl | rfl, rfl⟩
  · exact ⟨rfl, .inl rfl⟩
  all_goals exact ⟨rfl, .inr ⟨_, rfl⟩⟩

theorem Input.reply_world {before after w} {r r' : Except Failure α}
    (h : i.reply before after r = some (w, r')) {p : World → Prop} (hb : p before) (ha : p after) :
    p w := by
  rcases Input.reply_eq_some h with ⟨rfl, -⟩ | ⟨rfl | rfl, -⟩
  · exact ha
  · exact ha
  · exact hb

/-- The parts of the world that a call can change. -/
inductive Part where
  | instances
  | routing
  | operation
  | worker
  | claims
  | resuming
deriving DecidableEq

def Call.part : Call → Option Part
  | .transition _ _ _ | .writeInstance _ _ | .removeInstance _ => some .instances
  | .setModelState _ _ | .removeModel | .addEndpoint _ _ | .removeEndpoint _ _
  | .updateEndpointWeight _ _ _ | .cutoverEndpointAndWait _ _ => some .routing
  | .updateMoveOperation _ _ | .removeMoveOperation _ _ => some .operation
  | .sendStart | .awaitStart | .stopRunner _ => some .worker
  | .claim _ | .release _ => some .claims
  | .enterResume _ | .leaveResume _ => some .resuming
  | _ => none

/-- The worlds agree on everything but the given part. -/
structure World.SameBut (part : Option Part) (w w' : World) : Prop where
  instances : part ≠ some .instances → w'.instances = w.instances
  routing : part ≠ some .routing → w'.routing = w.routing
  operation : part ≠ some .operation → w'.operation = w.operation ∧ w'.completed = w.completed
  worker : part ≠ some .worker → w'.worker = w.worker
  claims : part ≠ some .claims → w'.claims = w.claims
  resuming : part ≠ some .resuming → w'.resuming = w.resuming

variable {σ : Setting} {w w' : World} {c : Call}

/-- **The frame rule of the calls.** -/
theorem World.perform_sameBut {r} (h : w.perform σ i c = some (w', r)) :
    World.SameBut c.part w w' := by
  all_goals
    simp only [World.perform] at h
    repeat' split at h
  -- A branch leads to a world that differs in the part of the call, or not at all.
  all_goals
    first
    | cases h
    | rcases Input.reply_eq_some h with ⟨rfl, -⟩ | ⟨rfl | rfl, -⟩
  all_goals constructor <;> simp [Call.part]

/-! ## What a call changes -/

def Call.mutation (σ : Setting) : Call → Option Mutation
  | .setModelState state protocol => some (.setModelState σ.modelName state (some protocol))
  | .removeModel => some (.removeModel σ.modelName)
  | .addEndpoint endpoint protocol => some (.addEndpoint σ.modelName endpoint (some protocol))
  | .removeEndpoint host port => some (.removeEndpoint σ.modelName host port)
  | .updateEndpointWeight host port weight =>
    some (.updateEndpointWeight σ.modelName host port weight)
  | .cutoverEndpointAndWait host port => some (.cutoverEndpoint σ.modelName host port)
  | _ => none

theorem Call.part_ne_routing (h : c.mutation σ = none) : c.part ≠ some .routing := by
  cases c with
  | setModelState | removeModel | addEndpoint | removeEndpoint | updateEndpointWeight
  | cutoverEndpointAndWait => exact absurd h (Option.some_ne_none _)
  | _ => exact nofun

/-- A call changes the routing map by its mutator or not at all, and not at
all only when the caller sees an error. -/
theorem World.perform_routing {r mutation}
    (hm : c.mutation σ = some mutation) (h : w.perform σ i c = some (w', r)) :
    w'.routing = mutation.apply w.routing i.now ∨ (w'.routing = w.routing ∧ ∃ e, r = .error e) := by
  cases c
  all_goals cases hm
  all_goals
    simp only [World.perform] at h
    repeat' split at h
  all_goals rcases Input.reply_eq_some h with ⟨rfl, rfl⟩ | ⟨rfl | rfl, rfl⟩
  all_goals simp_all [Mutation.apply]

theorem World.perform_updateEndpointWeight {host port weight}
    (h : w.perform σ i (.updateEndpointWeight host port weight) = some (w', .ok true)) :
    ∃ e ∈ endpointsOf w'.routing σ.modelName, e.address = (host, port) ∧ e.weight = weight := by
  simp only [World.perform] at h
  split at h
  · rename_i routing found heq
    obtain ⟨rfl, hfound⟩ | ⟨-, hr⟩ := Input.reply_eq_some h
    · exact exists_mem_updateEndpointWeight (heq.trans (by rw [← Except.ok.inj hfound]))
    · cases hr
  · obtain ⟨-, hr⟩ | ⟨-, hr⟩ := Input.reply_eq_some h
    · cases hr
    · cases hr

theorem World.perform_getInstance {r : Except Failure (Option InstanceState)}
    (h : w.perform σ i (.getInstance id) = some (w', r)) :
    w' = w ∧ (r = .ok (w.instances.lookup id) ∨ ∃ e, r = .error e) := by
  rcases Input.reply_eq_some h with ⟨rfl, rfl⟩ | ⟨rfl | rfl, rfl⟩
  · exact ⟨rfl, .inl rfl⟩
  all_goals exact ⟨rfl, .inr ⟨_, rfl⟩⟩

variable {r : Except Failure Bool}

theorem World.perform_sendStart (h : w.perform σ i .sendStart = some (w', r)) :
    (w' = w ∧ r = .ok false) ∨
      (¬ w.claims.Nonempty ∧ w' = { w with worker := w.worker.send } ∧ r = .ok true) := by
  simp only [World.perform] at h
  grind

theorem World.perform_awaitStart {r : Except Failure RunnerInfo}
    (h : w.perform σ i .awaitStart = some (w', r)) :
    w' = { w with worker := { w.worker with waiting := false, reply := none } } ∧
      ((∃ answer, w.worker.reply = some answer ∧ r = answer.map fun _ => σ.info) ∨
        (i.outcome ≠ .answered ∧ ∃ e, r = .error e)) := by
  simp only [World.perform] at h
  cases hreply : w.worker.reply <;> grind -ring -linarith

theorem World.info_of_awaitStart {info : RunnerInfo}
    (h : w.perform σ i .awaitStart = some (w', .ok info)) : info = σ.info := by
  obtain ⟨-, ⟨answer, -, hr⟩ | ⟨-, e, hr⟩⟩ := World.perform_awaitStart h
  · cases answer with
    | error e => cases hr
    | ok => exact Except.ok.inj hr
  · cases hr

theorem World.perform_getRunnerByInstance {r : Except Failure RunnerLookup}
    (h : w.perform σ i (.getRunnerByInstance σ.instanceId) = some (w', r)) :
    w' = w ∧ (r = .ok (w.worker.lookup σ.info) ∨ ∃ e, r = .error e) := by
  rcases Input.reply_eq_some h with ⟨rfl, rfl⟩ | ⟨rfl | rfl, rfl⟩
  · exact ⟨rfl, .inl (by rw [if_pos rfl])⟩
  all_goals exact ⟨rfl, .inr ⟨_, rfl⟩⟩

theorem World.info_of_getRunnerByInstance {info}
    (h : w.perform σ i (.getRunnerByInstance id) = some (w', .ok (.ready info)))
    (hid : id = σ.instanceId) : info = σ.info := by
  subst hid
  obtain ⟨-, hr | ⟨e, hr⟩⟩ := World.perform_getRunnerByInstance h
  all_goals grind -ring -linarith [Worker.lookup]

theorem World.perform_stopRunner {r : Except Failure Unit}
    (h : w.perform σ i (.stopRunner σ.info.runnerId) = some (w', r)) :
    (∃ worker, w.worker.stop = some worker ∧ i.reply w { w with worker } (.ok ()) = some (w', r)) ∨
      (w.worker.stop = none ∧
        i.reply w w (.error (.workerHttp 404 s!"Runner {σ.info.runnerId} not found")) =
          some (w', r)) := by
  simp only [World.perform] at h
  grind

theorem World.perform_claim {c} (h : w.perform σ i (.claim c) = some (w', r)) :
    (w' = w ∧ r = .ok false) ∨
      (c ∉ w.claims ∧ w' = { w with claims := insert c w.claims } ∧ r = .ok true) := by
  simp only [World.perform] at h
  grind

theorem World.perform_transition {target updates}
    {r : Except Failure InstanceState}
    (h : w.perform σ i (.transition id target updates) = some (w', r)) :
    (w' = w ∧ ∃ e, r = .error e) ∨ ∃ record, w.instances.lookup id = some record ∧
        isValidTransition record.state target = true ∧
        w' = { w with instances :=
          w.instances.insert id (transitioned record target updates i.now) } ∧
        ((∃ e, r = .error e) ∨ r = .ok (transitioned record target updates i.now)) := by
  simp only [World.perform] at h
  split at h
  all_goals rcases Input.reply_eq_some h with ⟨rfl, rfl⟩ | ⟨rfl | rfl, rfl⟩
  all_goals grind -ring -linarith [transition_eq_ok]

variable {operationId : String}

theorem World.perform_updateMoveOperation {updates}
    {r : Except Failure (Option MoveOperation)}
    (h : w.perform σ i (.updateMoveOperation operationId updates) = some (w', r)) :
    (w' = w ∧ ∀ operation, r ≠ .ok (some operation)) ∨
      ∃ operation, updateMoveOperation w.operation operationId updates i.now = some operation ∧
        w' = { w with operation := some operation } ∧
        ∀ operation', r = .ok (some operation') → operation' = operation := by
  simp only [World.perform] at h
  split at h
  all_goals rcases Input.reply_eq_some h with ⟨rfl, rfl⟩ | ⟨rfl | rfl, rfl⟩
  all_goals simp_all

theorem World.perform_removeMoveOperation {success}
    (h : w.perform σ i (.removeMoveOperation operationId success) = some (w', r)) :
    w' = w ∨ w' = { w with operation := none, completed := w.completed || success } := by
  have hscript : removeMoveOperation w.operation operationId = (w.operation, false) ∨
      removeMoveOperation w.operation operationId = (none, true) := by
    cases w.operation <;> grind -ring -linarith [removeMoveOperation]
  simp only [World.perform] at h
  rcases Input.reply_eq_some h with ⟨rfl, -⟩ | ⟨rfl | rfl, -⟩
  all_goals rcases hscript with hscript | hscript <;> simp [hscript]

/-! ## A concrete instance, for runs that are exhibited -/

/-- Instance `i` of model `m`, on worker `w`. -/
def exampleSetting : Setting where
  modelName := "m"
  instanceId := "i"
  info :=
    { runnerId := "r", host := "10.0.0.7", port := 8000, enginePort := 8001,
      host_ne := by decide, port_pos := by decide }

/-- The instance has been placed and its record is `STARTING`. -/
def startingWorld : World where
  instances := AList.insert "i" { newInstance "m" "i" (some "w") none 0 with state := .starting } ∅
  routing := ∅

def exampleTimeouts : Timeouts where
  sleepTimeoutMs := 300000
  wakeTimeoutMs := 300000
  deployTimeoutMs := 600000
  ambiguousStartGraceMs := 120000
  rounds := 2

end Sardeenz
