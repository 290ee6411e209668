/-
# `Sardeenz.Proxy.Session` — one proxy: its Redis session, its presence key and its requests

The sync task (`start_redis_sync`, restarted by the loop in `main.rs`) and the
inference handlers (`run_inference`) share the routing cache and the flags
`redis_connected` and `routing_map_loaded`.

    idle → subscribed → loading → loaded → stamped → registered → listening
                                                                   ↕
                                          fetching → applying → acking
    (any of the last four) → quiescing → quiesced → idle

Every arrow is a step: the subscription, `HGETALL`, the locks and the swap of
`replace`, the clock, the `SET EX` of the presence key when Redis performs it,
its reply, a message, `SADD`, the end of the stream, the locks of `quiesce_all`,
`DEL`.  An error before `listening` goes back to `idle`; shutdown drops the task
at whatever await it is.  A request is admitted when it has passed the second
readiness check with a lease on an entry that lets it select an endpoint.

**Proved here.**  When a proxy without a live presence key serves nothing
(`absent_presence_no_request`); an outage that breaks it (`outage_outlives_presence`).
-/
import Sardeenz.Proxy.Cache

namespace Sardeenz.Proxy

open Interleave Option Function Cache

/-! ## The proxy -/

/-- The presence key in Redis: its value and when it expires. -/
structure Presence where
  connectedAt : Nat
  expiresAt : Nat
deriving DecidableEq

def presenceTtl : Nat := 15000

/-- A request in `run_inference`. -/
inductive Request where
  | idle
  /-- Past the first readiness check: being resolved, parked, or waiting for a
  forwarding permit. -/
  | resolving (name : String)
  | leasing
  | checked
  | forwarding (endpoint : RunnerEndpoint)
deriving DecidableEq

/-- Where the sync task is.  From `stamped` on it carries the time it read for
the presence key, and with a message the id of its propagation barrier. -/
inductive Sync where
  | idle
  | subscribed
  | loading
  | loaded
  | stamped (connectedAt : Nat)
  | registered (connectedAt : Nat)
  | listening (connectedAt : Nat)
  | fetching (connectedAt : Nat) (barrier : Option String)
  | applying (connectedAt : Nat) (barrier : Option String)
  | acking (connectedAt : Nat) (barrier : String)
  | quiescing
  | quiesced
  | stopped
deriving DecidableEq

def Sync.serving : Sync → Bool
  | .listening _ | .fetching .. | .applying .. | .acking .. => true
  | _ => false

def Sync.mayServe : Sync → Bool
  | .quiescing => true
  | sync => sync.serving

/-- The presence key stands for this session: from its registration until the
session has waited for its requests. -/
def Sync.established : Sync → Bool
  | .registered _ => true
  | sync => sync.mayServe

def Sync.hasLoaded : Sync → Bool
  | .loaded | .stamped _ => true
  | sync => sync.established

def Sync.replacing : Sync → Bool
  | .loading | .applying .. => true
  | _ => false

def Sync.locking : Sync → Bool
  | .quiescing => true
  | sync => sync.replacing

def Sync.connecting : Sync → Bool
  | .subscribed | .loading | .loaded | .stamped _ | .registered _ => true
  | _ => false

def Sync.refreshes : Sync → Option Nat
  | .listening c | .fetching c _ | .applying c _ => some c
  | _ => none

def Sync.connectedAt : Sync → Option Nat
  | .registered c | .listening c | .fetching c _ | .applying c _ | .acking c _ => some c
  | _ => none

section
variable {sync : Sync}

theorem Sync.mayServe_of_serving (h : sync.serving = true) : sync.mayServe = true := by
  cases sync <;> simp_all [Sync.mayServe]

theorem Sync.established_of_mayServe (h : sync.mayServe = true) : sync.established = true := by
  cases sync <;> simp_all [Sync.established]

theorem Sync.hasLoaded_of_established (h : sync.established = true) : sync.hasLoaded = true := by
  cases sync <;> simp_all [Sync.hasLoaded]

theorem Sync.not_mayServe_of_connecting (h : sync.connecting = true) : sync.mayServe = false := by
  cases sync <;> simp_all [Sync.connecting, Sync.mayServe, Sync.serving]

theorem Sync.connectedAt_of_refreshes {c} (h : sync.refreshes = some c) :
    sync.connectedAt = some c := by
  cases sync <;> simp_all [Sync.refreshes, Sync.connectedAt]

end

/-- A proxy process and its presence key. -/
structure Process (n : Nat) where
  cache : Cache n
  requests : Fin n → Request
  redisConnected : Bool
  routingMapLoaded : Bool
  sync : Sync
  presence : Option Presence
  reloaded : Bool

def Process.new (n : Nat) : Process n where
  cache := .new n
  requests := fun _ => .idle
  redisConnected := false
  routingMapLoaded := false
  sync := .idle
  presence := none
  reloaded := false

def Process.isReady {n : Nat} (p : Process n) : Bool := p.redisConnected && p.routingMapLoaded

/-- What a handler, or the sync task, does next. -/
inductive ProcessAction (n : Nat) where
  | arrive (r : Fin n) (name : String)
  | beginLease (r : Fin n)
  | lease (r : Fin n) (a : ReaderAction)
  | checkReady (r : Fin n)
  | select (r : Fin n) (endpoint : RunnerEndpoint)
  | finish (r : Fin n)
  | connect
  | load (map : RoutingMap)
  | acquire
  | publish
  | loadDone
  | stamp
  | register
  | connected
  | refresh
  | message (barrier : Option String)
  | fetched (map : RoutingMap)
  | applied
  | acknowledge
  | disconnect
  | quiesced
  | unregister (reached : Bool)
  | fail
  | shutdown

def ProcessAction.isShutdown {n : Nat} : ProcessAction n → Bool
  | .shutdown => true
  | _ => false

section
variable {n : Nat}

def Cache.quiesce (s : Cache n) : Option (Cache n) :=
  match s.writer with
  | .published .. => none
  | _ => Cache.step { s with writer := .idle } .beginQuiesce

def Cache.dropWriter (s : Cache n) : Option (Cache n) :=
  match s.writer with
  | .published .. => none
  | _ => some { s with writer := .idle }

def Process.requestStep (p : Process n) : ProcessAction n → Option (Process n)
  | .arrive r name =>
    match p.requests r with
    | .idle =>
      if p.isReady then some { p with requests := Function.update p.requests r (.resolving name) }
      else some p
    | _ => none
  | .beginLease r =>
    match p.requests r with
    | .resolving name =>
      (p.cache.step (.reader r (.look name))).map fun cache =>
        { p with cache, requests := Function.update p.requests r .leasing }
    | _ => none
  | .lease r a =>
    match p.requests r with
    | .leasing =>
      (p.cache.step (.reader r a)).map fun cache =>
        { p with
          cache
          requests := Function.update p.requests r
            (if cache.readers r = .idle then .idle else .leasing) }
    | _ => none
  | .checkReady r =>
    match p.requests r, p.cache.readers r with
    | .leasing, .leased _ _ =>
      if p.isReady then some { p with requests := Function.update p.requests r .checked }
      else
        (p.cache.step (.reader r .drop)).map fun cache =>
          { p with cache, requests := Function.update p.requests r .idle }
    | _, _ => none
  | .select r endpoint =>
    match p.requests r, p.cache.readers r with
    | .checked, .leased _ lease =>
      if lease.value.state = .active ∧ endpoint ∈ lease.value.endpoints ∧
          endpoint.selectable = true then
        some { p with requests := Function.update p.requests r (.forwarding endpoint) }
      else none
    | _, _ => none
  | .finish r =>
    some { p with
      cache := (p.cache.step (.reader r .cancel)).getD p.cache
      requests := Function.update p.requests r .idle }
  | _ => none

def Process.syncStep (now : Nat) (p : Process n) (a : ProcessAction n) : Option (Process n) :=
  match a, p.sync with
  | .connect, .idle => some { p with sync := .subscribed, redisConnected := false, reloaded := false }
  | .load map, .subscribed =>
    (p.cache.step (.beginReplace map)).map fun cache => { p with cache, sync := .loading }
  | .acquire, sync =>
    if sync.locking then (p.cache.step .acquire).map fun cache => { p with cache } else none
  | .publish, sync =>
    if sync.replacing then (p.cache.step .publish).map fun cache => { p with cache } else none
  | .loadDone, .loading =>
    (p.cache.step .finishReplace).map fun cache =>
      { p with cache, sync := .loaded, routingMapLoaded := true, reloaded := true }
  | .stamp, .loaded => some { p with sync := .stamped now }
  | .register, .stamped c =>
    some { p with sync := .registered c, presence := some ⟨c, now + presenceTtl⟩ }
  | .connected, .registered c => some { p with sync := .listening c, redisConnected := true }
  | .refresh, sync =>
    sync.refreshes.map fun c => { p with presence := some ⟨c, now + presenceTtl⟩ }
  | .message barrier, .listening c => some { p with sync := .fetching c barrier }
  | .fetched map, .fetching c barrier =>
    (p.cache.step (.beginReplace map)).map fun cache => { p with cache, sync := .applying c barrier }
  | .applied, .applying c none =>
    (p.cache.step .finishReplace).map fun cache => { p with cache, sync := .listening c }
  | .applied, .applying c (some barrier) =>
    (p.cache.step .finishReplace).map fun cache => { p with cache, sync := .acking c barrier }
  | .acknowledge, .acking c _ => some { p with sync := .listening c }
  | .disconnect, sync =>
    if sync.serving then
      p.cache.quiesce.map fun cache => { p with cache, sync := .quiescing, redisConnected := false }
    else none
  | .quiesced, .quiescing =>
    (p.cache.step .finishQuiesce).map fun cache => { p with cache, sync := .quiesced }
  | .unregister reached, .quiesced =>
    some { p with sync := .idle, presence := if reached then none else p.presence }
  | .fail, sync =>
    if sync.connecting then
      p.cache.dropWriter.map fun cache => { p with cache, sync := .idle, redisConnected := false }
    else none
  | .shutdown, _ => p.cache.dropWriter.map fun cache => { p with cache, sync := .stopped }
  | _, _ => none

def Process.step (now : Nat) (p : Process n) (a : ProcessAction n) : Option (Process n) :=
  match a with
  | .arrive .. | .beginLease .. | .lease .. | .checkReady .. | .select .. | .finish .. =>
    p.requestStep a
  | _ => p.syncStep now a

/-! ## The invariant -/

def Request.admitted : Request → Bool
  | .checked | .forwarding _ => true
  | _ => false

/-- What holds of a proxy in every state it reaches without being dropped by
shutdown while established. -/
structure Process.Inv (p : Process n) : Prop where
  cache : p.cache.Inv
  forwarding : ∀ r endpoint, p.requests r = .forwarding endpoint →
    ∃ name lease, p.cache.readers r = .leased name lease ∧ lease.value.state = .active ∧
      endpoint ∈ lease.value.endpoints ∧ endpoint.selectable = true
  /-- A request that is, or may still be, in flight belongs to a session whose
  presence key stands. -/
  admitted : ∀ r name lease, (p.requests r).admitted = true →
    p.cache.readers r = .leased name lease → ¬ Unroutable lease.value →
    p.sync.mayServe = true
  connected : p.redisConnected = true → p.sync.serving = true
  reloaded : p.sync.hasLoaded = true → p.reloaded = true

variable {p p' : Process n}

theorem Process.new_inv (n : Nat) : (Process.new n).Inv where
  cache := Cache.new_inv n
  forwarding := fun _ _ h => nomatch h
  admitted := fun _ _ _ h => nomatch h
  connected := fun h => nomatch h
  reloaded := fun h => nomatch h

variable {cache : Cache n} {r : Fin n}

theorem Process.Inv.request (hi : p.Inv) {q}
    (hcache : cache.Inv) (hother : ∀ r', r' ≠ r → cache.readers r' = p.cache.readers r')
    (hforwarding : ∀ endpoint, q = .forwarding endpoint →
      ∃ name lease, cache.readers r = .leased name lease ∧ lease.value.state = .active ∧
        endpoint ∈ lease.value.endpoints ∧ endpoint.selectable = true)
    (hadmitted : q.admitted = true → p.sync.mayServe = true) :
    Process.Inv { p with cache, requests := update p.requests r q } where
  cache := hcache
  forwarding := by
    intro r' endpoint h
    by_cases hr : r' = r
    · subst hr
      simp only [update_self] at h
      exact hforwarding endpoint h
    · simp only [update_of_ne hr] at h
      simpa only [hother r' hr] using hi.forwarding r' endpoint h
  admitted := by
    intro r' name lease h hl hun
    by_cases hr : r' = r
    · subst hr
      simp only [update_self] at h
      exact hadmitted h
    · simp only [update_of_ne hr] at h
      rw [hother r' hr] at hl
      exact hi.admitted r' name lease h hl hun
  connected := hi.connected
  reloaded := hi.reloaded

variable {a : ProcessAction n}

/-- A handler's step changes one request and its reader; only the second readiness check
and the choice of an endpoint lead past the check. -/
theorem Process.requestStep_eq_some (h : p.requestStep a = some p') :
    p' = p ∨ ∃ r q cache, p' = { p with cache, requests := update p.requests r q } ∧
      (cache = p.cache ∨ ∃ b, p.cache.step (.reader r b) = some cache) ∧
      (q.admitted = true → cache = p.cache ∧ (q = .checked ∧ p.isReady = true ∨
        ∃ endpoint name lease, q = .forwarding endpoint ∧ p.requests r = .checked ∧
          p.cache.readers r = .leased name lease ∧ lease.value.state = .active ∧
          endpoint ∈ lease.value.endpoints ∧ endpoint.selectable = true)) := by
  cases a
  case finish r =>
    cases h
    refine .inr ⟨r, .idle, _, rfl, ?_, nofun⟩
    cases hc : p.cache.step (.reader r .cancel) with
    | none => exact .inl rfl
    | some cache => exact .inr ⟨_, hc⟩
  all_goals
    simp only [Process.requestStep] at h
    repeat' split at h
  all_goals simp only [map_eq_some_iff, Option.some.injEq, reduceCtorEq] at h
  all_goals grind -ring -linarith [Request.admitted]

theorem Process.Inv.requestStep (hi : p.Inv) (h : p.requestStep a = some p') : p'.Inv := by
  rcases Process.requestStep_eq_some h with rfl | ⟨r, q, cache, rfl, _, hq⟩
  · exact hi
  have hinv : cache.Inv := by
    grind [hi.cache, hi.cache.step]
  refine hi.request hinv (fun _ _ => ?_) ?_ fun hadmitted => ?_
  · grind [step_reader_of_ne]
  · rintro _ rfl
    obtain ⟨rfl, ⟨hchecked, -⟩ | ⟨_, name, lease, _, -, _⟩⟩ := hq rfl
    · cases hchecked
    · grind
  · obtain ⟨-, ⟨-, hready⟩ | ⟨_, name, lease, -, hchecked, hl, hactive, -⟩⟩ := hq hadmitted
    · exact Sync.mayServe_of_serving (hi.connected (Bool.and_eq_true_iff.mp hready).1)
    · exact hi.admitted r name lease (by rw [hchecked]; rfl) hl fun hun => hun.inactive hactive

theorem Process.Inv.sync (hi : p.Inv) {sync redisConnected routingMapLoaded reloaded presence}
    (hcache : cache.Inv) (hreaders : cache.readers = p.cache.readers)
    (hserve : p.sync.mayServe = true → sync.mayServe = true)
    (hconnected : redisConnected = true → sync.serving = true)
    (hreloaded : sync.hasLoaded = true → reloaded = true) :
    Process.Inv
      ⟨cache, p.requests, redisConnected, routingMapLoaded, sync, presence, reloaded⟩ where
  cache := hcache
  forwarding := by
    intro r endpoint h
    simpa only [hreaders] using hi.forwarding r endpoint h
  admitted := by
    intro r name lease h hl hun
    rw [hreaders] at hl
    exact hserve (hi.admitted r name lease h hl hun)
  connected := hconnected
  reloaded := hreloaded

variable {s s' : Cache n}

theorem Cache.dropWriter_eq (h : s.dropWriter = some s') : s' = { s with writer := .idle } := by
  grind [dropWriter]

theorem Cache.quiesce_eq (h : s.quiesce = some s') :
    s' = { s with writer := .quiescing (gatesOf s.inner fun _ _ => true) [] } := by
  unfold quiesce at h
  split at h
  · cases h
  · rw [step_beginQuiesce h]

theorem Cache.Inv.quiesced_unroutable (hi : s.Inv) (h : s.step .finishQuiesce = some s')
    {name lease} (hl : s.readers r = .leased name lease) :
    Unroutable lease.value := by
  obtain ⟨held, hw, _⟩ := step_finishQuiesce h
  rcases (hi.reader r).current name lease hl with ⟨c, hc, hgate⟩ | hun
  · have hcomplete := hi.complete
    rw [hw] at hcomplete
    have hheld : lease.gate ∈ s.writer.held := by
      rw [hw, ← hgate]
      exact (hcomplete name c hc).resolve_left List.not_mem_nil
    exact absurd (by rw [hl]; rfl) ((hi.reader r).excluded lease.gate hheld)
  · exact hun

theorem Process.Inv.quiesced (hi : p.Inv) (h : p.cache.step .finishQuiesce = some cache)
    (hsync : p.sync = .quiescing) :
    Process.Inv { p with cache, sync := .quiesced } where
  cache := hi.cache.step h
  forwarding := by
    intro r endpoint hr
    simpa only [step_readers h (by simp)] using hi.forwarding r endpoint hr
  admitted := by
    intro r _ _ _ hl hun
    rw [step_readers h (by simp)] at hl
    exact absurd (hi.cache.quiesced_unroutable h hl) hun
  connected := by
    intro hc
    have := hi.connected hc
    rw [hsync] at this
    exact nomatch this
  reloaded := fun h => nomatch h

/-- Everything a step of the sync task can be. -/
inductive SyncStep (now : Nat) (p : Process n) : ProcessAction n → Process n → Prop
  | connect (hsync : p.sync = .idle) :
      SyncStep now p .connect { p with sync := .subscribed, redisConnected := false, reloaded := false }
  | load {map : RoutingMap} {cache : Cache n} (hsync : p.sync = .subscribed)
      (hc : p.cache.step (.beginReplace map) = some cache) :
      SyncStep now p (.load map) { p with cache, sync := .loading }
  | acquire {cache : Cache n} (hsync : p.sync.locking = true)
      (hc : p.cache.step .acquire = some cache) : SyncStep now p .acquire { p with cache }
  | publish {cache : Cache n} (hsync : p.sync.replacing = true)
      (hc : p.cache.step .publish = some cache) : SyncStep now p .publish { p with cache }
  | loadDone {cache : Cache n} (hsync : p.sync = .loading)
      (hc : p.cache.step .finishReplace = some cache) :
      SyncStep now p .loadDone
        { p with cache, sync := .loaded, routingMapLoaded := true, reloaded := true }
  | stamp (hsync : p.sync = .loaded) : SyncStep now p .stamp { p with sync := .stamped now }
  | register {c : Nat} (hsync : p.sync = .stamped c) :
      SyncStep now p .register
        { p with sync := .registered c, presence := some ⟨c, now + presenceTtl⟩ }
  | connected {c : Nat} (hsync : p.sync = .registered c) :
      SyncStep now p .connected { p with sync := .listening c, redisConnected := true }
  | refresh {c : Nat} (hsync : p.sync.refreshes = some c) :
      SyncStep now p .refresh { p with presence := some ⟨c, now + presenceTtl⟩ }
  | message {c : Nat} {barrier : Option String} (hsync : p.sync = .listening c) :
      SyncStep now p (.message barrier) { p with sync := .fetching c barrier }
  | fetched {map : RoutingMap} {cache : Cache n} {c : Nat} {barrier : Option String}
      (hsync : p.sync = .fetching c barrier)
      (hc : p.cache.step (.beginReplace map) = some cache) :
      SyncStep now p (.fetched map) { p with cache, sync := .applying c barrier }
  | applied {cache : Cache n} {c : Nat} (hsync : p.sync = .applying c none)
      (hc : p.cache.step .finishReplace = some cache) :
      SyncStep now p .applied { p with cache, sync := .listening c }
  | appliedBarrier {cache : Cache n} {c : Nat} {barrier : String}
      (hsync : p.sync = .applying c (some barrier))
      (hc : p.cache.step .finishReplace = some cache) :
      SyncStep now p .applied { p with cache, sync := .acking c barrier }
  | acknowledge {c : Nat} {barrier : String} (hsync : p.sync = .acking c barrier) :
      SyncStep now p .acknowledge { p with sync := .listening c }
  | disconnect {cache : Cache n} (hsync : p.sync.serving = true)
      (hc : p.cache.quiesce = some cache) :
      SyncStep now p .disconnect { p with cache, sync := .quiescing, redisConnected := false }
  | quiesced {cache : Cache n} (hsync : p.sync = .quiescing)
      (hc : p.cache.step .finishQuiesce = some cache) :
      SyncStep now p .quiesced { p with cache, sync := .quiesced }
  | unregister {reached : Bool} (hsync : p.sync = .quiesced) :
      SyncStep now p (.unregister reached)
        { p with sync := .idle, presence := if reached then none else p.presence }
  | fail {cache : Cache n} (hsync : p.sync.connecting = true)
      (hc : p.cache.dropWriter = some cache) :
      SyncStep now p .fail { p with cache, sync := .idle, redisConnected := false }
  | shutdown {cache : Cache n} (hc : p.cache.dropWriter = some cache) :
      SyncStep now p .shutdown { p with cache, sync := .stopped }

variable {now : Nat}

theorem syncStep_cases (h : p.syncStep now a = some p') : SyncStep now p a p' := by
  unfold Process.syncStep at h
  split at h
  all_goals
    simp only [ite_none_right_eq_some, map_eq_some_iff, Option.some.injEq,
      reduceCtorEq] at h
  all_goals
    rcases h with ⟨_, _, _, rfl⟩
    constructor
    all_goals assumption

theorem Process.Inv.syncStep (hi : p.Inv) (hshutdown : a = .shutdown → p.sync.established = false)
    (h : SyncStep now p a p') :
    p'.Inv := by
  have hsame : p.sync.mayServe = true → p.sync.mayServe = true := id
  have hconn := hi.connected
  have hload := hi.reloaded
  cases h with
  | connect hsync =>
    exact hi.sync hi.cache rfl (by rw [hsync]; exact nofun) nofun nofun
  | load hsync hc =>
    rw [hsync] at hconn
    exact hi.sync (hi.cache.step hc) (step_readers hc (by simp))
      (by rw [hsync]; exact nofun) hconn nofun
  | acquire hsync hc | publish hsync hc =>
    exact hi.sync (hi.cache.step hc) (step_readers hc (by simp)) hsame hconn hload
  | loadDone hsync hc =>
    rw [hsync] at hconn
    exact hi.sync (hi.cache.step hc) (step_readers hc (by simp))
      (by rw [hsync]; exact nofun) hconn fun _ => rfl
  | stamp hsync | register hsync =>
    rw [hsync] at hconn hload
    exact hi.sync hi.cache rfl (by rw [hsync]; exact nofun) hconn fun _ => hload rfl
  | connected hsync | message hsync | acknowledge hsync =>
    rw [hsync] at hload
    exact hi.sync hi.cache rfl (fun _ => rfl) (fun _ => rfl) fun _ => hload rfl
  | refresh hsync => exact hi.sync hi.cache rfl hsame hconn hload
  | fetched hsync hc | applied hsync hc | appliedBarrier hsync hc =>
    rw [hsync] at hload
    exact hi.sync (hi.cache.step hc) (step_readers hc (by simp)) (fun _ => rfl)
      (fun _ => rfl) fun _ => hload rfl
  | disconnect hsync hc =>
    have hestablished := Sync.established_of_mayServe (Sync.mayServe_of_serving hsync)
    refine hi.sync (by grind [quiesce, hi.cache.writer_idle.step]) ?_ (fun _ => rfl) nofun fun _ =>
      hload (Sync.hasLoaded_of_established hestablished)
    rw [quiesce_eq hc]
  | quiesced hsync hc => exact hi.quiesced hc hsync
  | unregister hsync =>
    rw [hsync] at hconn
    exact hi.sync hi.cache rfl (by rw [hsync]; exact nofun) hconn nofun
  | fail hsync hc =>
    obtain rfl := dropWriter_eq hc
    refine hi.sync hi.cache.writer_idle rfl (fun h => ?_) nofun nofun
    exact nomatch (Sync.not_mayServe_of_connecting hsync).symm.trans h
  | shutdown hc =>
    obtain rfl := dropWriter_eq hc
    have hdead := hshutdown rfl
    refine hi.sync hi.cache.writer_idle rfl (fun h => ?_) (fun h => ?_) nofun
    · exact nomatch hdead.symm.trans (Sync.established_of_mayServe h)
    · grind [Sync.established_of_mayServe, Sync.mayServe_of_serving]

theorem Process.step_cases (h : p.step now a = some p') :
    p.requestStep a = some p' ∨ SyncStep now p a p' := by
  cases a with
  | arrive | beginLease | lease | checkReady | select | finish => exact .inl h
  | _ => exact .inr (syncStep_cases h)

/-- What a handler's step leaves alone. -/
structure SameSession (p p' : Process n) : Prop where
  sync : p'.sync = p.sync
  presence : p'.presence = p.presence
  inner : p'.cache.inner = p.cache.inner
  writer : p'.cache.writer = p.cache.writer

theorem Process.requestStep_frame (h : p.requestStep a = some p') : SameSession p p' := by
  rcases Process.requestStep_eq_some h with rfl | ⟨r, q, _, rfl, rfl | ⟨b, hc⟩, -⟩
  · exact ⟨rfl, rfl, rfl, rfl⟩
  · exact ⟨rfl, rfl, rfl, rfl⟩
  · obtain ⟨hinner, hwriter⟩ := step_reader_frame hc
    exact ⟨rfl, rfl, hinner, hwriter⟩

/-- The presence key of an established session exists, has not expired, and
holds the time the session registered with. -/
def Process.Live (now : Nat) (p : Process n) : Prop :=
  p.sync.established = true → ∃ key, p.presence = some key ∧ now < key.expiresAt ∧
    ∀ c, p.sync.connectedAt = some c → key.connectedAt = c

theorem Process.Live.syncStep (hl : p.Live now) (h : SyncStep now p a p') : p'.Live now := by
  intro he
  cases h with
  | connect | load | loadDone | stamp | quiesced | unregister | fail | shutdown => exact nomatch he
  | acquire | publish => exact hl he
  | register hsync =>
    refine ⟨_, rfl, Nat.lt_add_of_pos_right (by decide), ?_⟩
    intro c hc
    exact Option.some.inj hc
  | refresh hsync =>
    refine ⟨_, rfl, Nat.lt_add_of_pos_right (by decide), ?_⟩
    grind [Sync.connectedAt_of_refreshes]
  | connected hsync | message hsync | fetched hsync | applied hsync | appliedBarrier hsync
  | acknowledge hsync =>
    obtain ⟨key, hkey, hlt, hat⟩ := hl (by rw [hsync]; rfl)
    exact ⟨key, hkey, hlt, fun c hc => hat c (by rw [hsync]; exact hc)⟩
  | disconnect hsync =>
    obtain ⟨key, hkey, hlt, _⟩ :=
      hl (Sync.established_of_mayServe (Sync.mayServe_of_serving hsync))
    exact ⟨key, hkey, hlt, nofun⟩

theorem Process.Live.requestStep (hl : p.Live now) (h : p.requestStep a = some p') :
    p'.Live now := by
  have hsame := Process.requestStep_frame h
  rw [Process.Live, hsame.sync, hsame.presence]
  exact hl

theorem Process.Inv.step (hi : p.Inv) (hshutdown : a = .shutdown → p.sync.established = false)
    (h : p.step now a = some p') :
    p'.Inv := by
  rcases Process.step_cases h with h | h
  · exact hi.requestStep h
  · exact hi.syncStep hshutdown h

theorem Process.Live.step (hl : p.Live now) (h : p.step now a = some p') : p'.Live now := by
  rcases Process.step_cases h with h | h
  · exact hl.requestStep h
  · exact hl.syncStep h

/-! ## One proxy in time -/

/-- The proxy and the clock it shares with Redis. -/
structure Timed (n : Nat) where
  now : Nat
  proxy : Process n

/-- Time passes, or the proxy takes a step. -/
inductive TimedAction (n : Nat) where
  | tick (ms : Nat)
  | act (a : ProcessAction n)

def Timed.step (s : Timed n) : TimedAction n → Option (Timed n)
  | .tick ms => some { s with now := s.now + ms }
  | .act a => (s.proxy.step s.now a).map fun proxy => { s with proxy }

def Timed.Absent (s : Timed n) : Prop :=
  ∀ key, s.proxy.presence = some key → key.expiresAt ≤ s.now

/-- The condition on a step, in the state it is taken in: time does not pass
the expiry of the presence key of an established session (its refreshes reach
Redis in time, and its requests end in time once it quiesces), and shutdown
does not drop an established session. -/
def PresenceKept (s : Timed n) : TimedAction n → Prop
  | .tick ms => s.proxy.sync.established = true →
      ∀ key ∈ s.proxy.presence, s.now + ms < key.expiresAt
  | .act a => a.isShutdown = true → s.proxy.sync.established = false

instance (s : Timed n) (a) : Decidable (PresenceKept s a) := by
  unfold PresenceKept
  split <;> infer_instance

/-- What holds in every state reached by permitted steps. -/
structure Timed.Inv (s : Timed n) : Prop where
  proxy : s.proxy.Inv
  live : s.proxy.Live s.now

theorem Timed.Inv.step {s s'} {a : TimedAction n} (hi : s.Inv) (hok : PresenceKept s a)
    (h : s.step a = some s') : s'.Inv := by
  cases a with
  | tick =>
    cases h
    refine ⟨hi.proxy, fun he => ?_⟩
    obtain ⟨key, hkey, _, hat⟩ := hi.live he
    exact ⟨key, hkey, hok he key hkey, hat⟩
  | act a =>
    obtain ⟨proxy, hp, rfl⟩ := map_eq_some_iff.mp h
    refine ⟨hi.proxy.step ?_ hp, hi.live.step hp⟩
    rintro rfl
    exact hok rfl

/-- The process starts at time `now`.  Its id is a fresh UUID, so it has no
presence key yet. -/
def Timed.start (n now : Nat) : Timed n := ⟨now, Process.new n⟩

/-- **The presence invariant.**  In every run of a proxy whose steps keep the
presence key of an established session: whenever the key is absent or expired,
no request is in flight; and a request is only admitted while the key is there
and the routing map has been loaded since the session began. -/
theorem absent_presence_no_request {now : Nat} {s : Timed n}
    (hr : Reach Timed.step PresenceKept (Timed.start n now) s) :
    (s.Absent → ∀ r endpoint, s.proxy.requests r ≠ .forwarding endpoint) ∧
    ∀ r endpoint s', s.step (.act (.select r endpoint)) = some s' →
      ¬ s.Absent ∧ s.proxy.reloaded = true := by
  have hi : s.Inv := hr.inductive_inv ⟨Process.new_inv n, nofun⟩ fun hi hok hs => hi.step hok hs
  have hlive : s.proxy.sync.established = true → ¬ s.Absent := by
    intro he habs
    obtain ⟨key, hkey, hlt, _⟩ := hi.live he
    exact absurd hlt (Nat.not_lt.mpr (habs key hkey))
  refine ⟨?_, ?_⟩
  · intro habs r endpoint hreq
    obtain ⟨name, lease, hl, hactive, _⟩ := hi.proxy.forwarding r endpoint hreq
    have hserve := hi.proxy.admitted r name lease (by rw [hreq]; rfl) hl fun h => h.inactive hactive
    exact hlive (Sync.established_of_mayServe hserve) habs
  · intro r endpoint s' hs
    obtain ⟨proxy, hp, _⟩ := map_eq_some_iff.mp hs
    simp only [Process.step, Process.requestStep] at hp
    split at hp
    · rename_i name lease hreq hl
      obtain ⟨hsel, _⟩ := ite_none_right_eq_some.mp hp
      have hserve := hi.proxy.admitted r name lease (by rw [hreq]; rfl) hl
        fun h => h.inactive hsel.1
      have hestablished := Sync.established_of_mayServe hserve
      exact ⟨hlive hestablished, hi.proxy.reloaded (Sync.hasLoaded_of_established hestablished)⟩
    · cases hp

end

/-! ## Two runs -/

def serveOne : List (TimedAction 1) :=
  [.act .connect, .act (.load (oneModel 1)), .act .publish, .act .loadDone, .act .stamp,
    .act .register, .act .connected, .act (.arrive lone "m"), .act (.beginLease lone),
    .act (.lease lone .lookup), .act (.lease lone .readLock), .act (.lease lone .recheck),
    .act (.checkReady lone), .act (.select lone ⟨"10.0.0.7", 8000, 1, true, some "r1"⟩)]

/-- The request ends within the time to live, the stream ends, the proxy
quiesces and removes its key. -/
def serveAndLeave : List (TimedAction 1) :=
  serveOne ++ [.tick 10000, .act .refresh, .tick 10000, .act .disconnect, .act (.finish lone),
    .act .acquire, .act .quiesced, .act (.unregister true), .tick 20000]

/-- In the run of `serveAndLeave` the key is gone at the end, and so is the
request. -/
theorem serveAndLeave_no_request :
    let s := (exec (guarded Timed.step PresenceKept) (Timed.start 1 1000) serveAndLeave).get
      (by decide)
    s.Absent ∧ ∀ r endpoint, s.proxy.requests r ≠ .forwarding endpoint :=
  have habs : Timed.Absent
      ((exec (guarded Timed.step PresenceKept) (Timed.start 1 1000) serveAndLeave).get
        (by decide)) := by
    have hnone : ((exec (guarded Timed.step PresenceKept) (Timed.start 1 1000)
        serveAndLeave).get (by decide)).proxy.presence = none := by decide
    exact fun _ hkey => nomatch hnone.symm.trans hkey
  ⟨habs, (absent_presence_no_request (reach_get (by decide))).1 habs⟩

/-- Redis is unreachable for sixteen seconds: no refresh arrives, the key
expires, and the request is still in flight. -/
theorem outage_outlives_presence :
    ∃ s, exec Timed.step (Timed.start 1 1000) (serveOne ++ [.tick 16000]) = some s ∧
      s.Absent ∧ s.proxy.requests 0 = .forwarding ⟨"10.0.0.7", 8000, 1, true, some "r1"⟩ ∧
      s.proxy.isReady = true := by
  refine ⟨(exec Timed.step (Timed.start 1 1000) (serveOne ++ [.tick 16000])).get (by decide),
    (some_get _).symm, ?_, by decide, by decide⟩
  have hkey : ((exec Timed.step (Timed.start 1 1000) (serveOne ++ [.tick 16000])).get
      (by decide)).proxy.presence = some ⟨1000, 16000⟩ := by decide
  intro _ h
  obtain rfl := Option.some.inj (hkey.symm.trans h)
  decide

end Sardeenz.Proxy
