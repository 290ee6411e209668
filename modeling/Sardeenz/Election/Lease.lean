/-
# `Sardeenz.Election.Lease` — the leader election of the control planes

`leader-election.ts`, for any number of processes that share one Kubernetes
Lease.  The API server is one register (`LeaseApi`): a request is performed at
one moment, a `PUT` whose `resourceVersion` is not the stored one and a `POST`
of an existing lease are refused, and every write gets a new version.

Each process runs any number of calls at once, because `setInterval` does not
wait for the callback before it; a call is suspended in one `fetch`:

    sent request               the request is travelling or waits at the server
    answered request reply     the server has performed it, the response travels

and ends when the code's last `fetch` has been answered.  A `fetch` that rejects
(a timeout, a lost connection, a status other than those the code
distinguishes) ends the call with `_isLeader = false`.  If the server had not
performed the request by then, it may still do so later (`stray`).

Clocks are synchronized: there is one.  It moves by any amount between any two
steps, and so the timer fires at any time; `renewIntervalMs` and the timeout of
a `fetch` play no part.
-/
import Mathlib.Logic.Function.Basic
import Sardeenz.Run

namespace Sardeenz.Election

/-! ## The process's environment -/

/-- What a process reads from its environment and its options. -/
structure ProcessEnv where
  kubernetesServiceHost : Option String
  singleInstance : Option String
  hostname : Option String
  leaseDurationMs : Nat

def ProcessEnv.detectKubernetes (env : ProcessEnv) : Bool :=
  match env.kubernetesServiceHost with
  | some host => host ≠ ""
  | none => false

/-- `SARDEENZ_SINGLE_INSTANCE` is `true` or `1`. -/
def ProcessEnv.isSingleInstance (env : ProcessEnv) : Bool :=
  env.singleInstance = some "true" || env.singleInstance = some "1"

/-- `process.env['HOSTNAME'] ?? 'unknown'`. -/
def ProcessEnv.identity (env : ProcessEnv) : String :=
  env.hostname.getD "unknown"

/-! ## The lease and its API -/

/-- `spec` of a lease, without `acquireTime`, which nothing reads. -/
structure LeaseSpec where
  holderIdentity : Option String
  leaseDurationSeconds : Option Nat
  renewTime : Option Nat
deriving DecidableEq, Repr

/-- `KubeLease`. -/
structure Lease where
  resourceVersion : Nat
  spec : LeaseSpec
deriving DecidableEq, Repr

def isLeaseExpired (spec : LeaseSpec) (now : Nat) : Bool :=
  match spec.renewTime, spec.leaseDurationSeconds with
  | some renewTime, some seconds => seconds = 0 || now > renewTime + seconds * 1000
  | _, _ => true

/-- A request to the API server. -/
inductive LeaseRequest where
  | get
  | post (spec : LeaseSpec)
  | put (resourceVersion : Nat) (spec : LeaseSpec)
  | delete
deriving DecidableEq, Repr

/-- Its response. -/
inductive LeaseReply where
  | found (lease : Lease)
  | ok
  | notFound
  | conflict
deriving DecidableEq, Repr

/-- The API server, as far as the one lease goes. -/
structure LeaseApi where
  lease : Option Lease
  nextVersion : Nat
deriving DecidableEq, Repr

def LeaseApi.write (api : LeaseApi) (spec : LeaseSpec) : LeaseApi where
  lease := some ⟨api.nextVersion, spec⟩
  nextVersion := api.nextVersion + 1

def LeaseApi.perform (api : LeaseApi) : LeaseRequest → LeaseApi × LeaseReply
  | .get =>
    match api.lease with
    | none => (api, .notFound)
    | some lease => (api, .found lease)
  | .post spec =>
    match api.lease with
    | none => (api.write spec, .ok)
    | some _ => (api, .conflict)
  | .put resourceVersion spec =>
    match api.lease with
    | none => (api, .notFound)
    | some lease =>
      if lease.resourceVersion = resourceVersion then (api.write spec, .ok)
      else (api, .conflict)
  | .delete => ({ api with lease := none }, .ok)

/-! ## The calls of a process -/

/-- The body of `acquireLease`. -/
def acquiredSpec (env : ProcessEnv) (now : Nat) : LeaseSpec where
  holderIdentity := some env.identity
  leaseDurationSeconds := some (env.leaseDurationMs / 1000)
  renewTime := some now

/-- What the code does when it goes on: it sends another request, or the call
ends and writes `_isLeader`, if it does. -/
inductive Continuation where
  | send (request : LeaseRequest)
  | settle (isLeader : Option Bool)
deriving DecidableEq, Repr

/-- `tryAcquire` on the response to its `GET`: `acquireLease` when there is no
lease or it has expired. -/
def tryAcquireGot (env : ProcessEnv) (now : Nat) : LeaseReply → Continuation
  | .notFound => .send (.post (acquiredSpec env now))
  | .found lease =>
    if isLeaseExpired lease.spec now then
      .send (.put lease.resourceVersion (acquiredSpec env now))
    else .settle none
  | _ => .settle (some false)

/-- `tryAcquire` on the response to the write of `acquireLease`. -/
def tryAcquireWrote : LeaseReply → Continuation
  | .ok => .settle (some true)
  | _ => .settle (some false)

/-- `renewLease` on the response to its `GET`. -/
def renewLeaseGot (env : ProcessEnv) (now : Nat) : LeaseReply → Continuation
  | .found lease =>
    if lease.spec.holderIdentity = some env.identity then
      .send (.put lease.resourceVersion { lease.spec with renewTime := some now })
    else .settle (some false)
  | _ => .settle (some false)

/-- `tryRenew` on the response to the write of `renewLease`. -/
def renewLeaseWrote : LeaseReply → Continuation
  | .ok => .settle none
  | _ => .settle (some false)

/-- Which call it is: `tryAcquire`, the part of `tryRenew` behind its check of
`_isLeader`, or the part of `stop` behind `releaseLease`. -/
inductive Operation where
  | acquire
  | renew
  | release
deriving DecidableEq, Repr

/-- Where a `fetch` is. -/
inductive Progress where
  | sent (request : LeaseRequest)
  | answered (request : LeaseRequest) (reply : LeaseReply)
deriving DecidableEq, Repr

/-- A call in progress. -/
structure Task where
  operation : Operation
  inStart : Bool
  progress : Progress
deriving DecidableEq, Repr

def Operation.respond (env : ProcessEnv) (now : Nat) (request : LeaseRequest)
    (reply : LeaseReply) : Operation → Continuation
  | .acquire =>
    match request with
    | .get => tryAcquireGot env now reply
    | _ => tryAcquireWrote reply
  | .renew =>
    match request with
    | .get => renewLeaseGot env now reply
    | _ => renewLeaseWrote reply
  | .release => .settle (some false)

/-- `LeaderElectionService`. -/
structure Process where
  isLeader : Bool
  renewTimer : Bool
  tasks : List Task
deriving DecidableEq, Repr

/-- A process that has not called `start`. -/
def Process.initial : Process := ⟨false, false, []⟩

variable (pr : Process)

def Process.spawn (task : Task) : Process :=
  { pr with tasks := pr.tasks ++ [task] }

/-- The `k`-th call ends. -/
def Process.settle (k : Nat) (inStart : Bool) (isLeader : Option Bool) : Process where
  isLeader := isLeader.getD pr.isLeader
  renewTimer := pr.renewTimer || inStart
  tasks := pr.tasks.eraseIdx k

def Process.start (env : ProcessEnv) (pr : Process) : Process :=
  if env.detectKubernetes then pr.spawn ⟨.acquire, true, .sent .get⟩
  else if env.isSingleInstance then { pr with isLeader := true }
  else pr

def Process.tryRenew : Process :=
  if pr.isLeader then pr.spawn ⟨.renew, false, .sent .get⟩
  else pr.spawn ⟨.acquire, false, .sent .get⟩

def Process.stop (env : ProcessEnv) (pr : Process) : Process :=
  let pr := { pr with renewTimer := false }
  if pr.isLeader && env.detectKubernetes then pr.spawn ⟨.release, false, .sent .delete⟩
  else { pr with isLeader := false }

/-! ## The system -/

section
variable {P : Type} [DecidableEq P] (env : P → ProcessEnv)

/-- All processes, the API server and the clock. -/
structure Cluster (P : Type) where
  now : Nat
  api : LeaseApi
  processes : P → Process
  stray : List LeaseRequest

/-- What happens next. -/
inductive Action (P : Type) where
  | tick (now : Nat)
  | start (p : P)
  | timer (p : P)
  | stop (p : P)
  | perform (p : P) (k : Nat)
  | respond (p : P) (k : Nat)
  | fail (p : P) (k : Nat)
  | performStray (k : Nat)
  | crash (p : P)

def Cluster.put (s : Cluster P) (p : P) (pr : Process) : Cluster P :=
  { s with processes := Function.update s.processes p pr }

def Task.pending (task : Task) : Option LeaseRequest :=
  match task.progress with
  | .sent request => some request
  | .answered _ _ => none

def step (s : Cluster P) : Action P → Option (Cluster P)
  | .tick now => if s.now ≤ now then some { s with now := now } else none
  | .start p => some (s.put p ((s.processes p).start (env p)))
  | .timer p =>
    if (s.processes p).renewTimer then some (s.put p (s.processes p).tryRenew) else none
  | .stop p => some (s.put p ((s.processes p).stop (env p)))
  | .perform p k =>
    match (s.processes p).tasks[k]? with
    | some ⟨operation, inStart, .sent request⟩ =>
      let performed := s.api.perform request
      let task := ⟨operation, inStart, .answered request performed.2⟩
      some { s.put p { s.processes p with tasks := (s.processes p).tasks.set k task } with
        api := performed.1 }
    | _ => none
  | .respond p k =>
    match (s.processes p).tasks[k]? with
    | some ⟨operation, inStart, .answered request reply⟩ =>
      match operation.respond (env p) s.now request reply with
      | .send next =>
        let task := ⟨operation, inStart, .sent next⟩
        some (s.put p { s.processes p with tasks := (s.processes p).tasks.set k task })
      | .settle isLeader => some (s.put p ((s.processes p).settle k inStart isLeader))
    | _ => none
  | .fail p k =>
    match (s.processes p).tasks[k]? with
    | some task =>
      some { s.put p ((s.processes p).settle k task.inStart (some false)) with
        stray := task.pending.toList ++ s.stray }
    | none => none
  | .performStray k =>
    match s.stray[k]? with
    | some request =>
      some { s with api := (s.api.perform request).1, stray := s.stray.eraseIdx k }
    | none => none
  | .crash p =>
    some { s.put p .initial with
      stray := (s.processes p).tasks.filterMap Task.pending ++ s.stray }

variable {s s' : Cluster P} {k : Nat}

theorem step_perform_eq_some {p} (h : step env s (.perform p k) = some s') :
    ∃ operation inStart request,
      (s.processes p).tasks[k]? = some ⟨operation, inStart, .sent request⟩ ∧
      s' = { s.put p { s.processes p with
          tasks := (s.processes p).tasks.set k
            ⟨operation, inStart, .answered request (s.api.perform request).2⟩ } with
        api := (s.api.perform request).1 } := by
  simp only [step] at h
  split at h
  · exact ⟨_, _, _, ‹_›, (Option.some.inj h).symm⟩
  · cases h

theorem step_respond_eq_some {p} (h : step env s (.respond p k) = some s') :
    ∃ operation inStart request reply,
      (s.processes p).tasks[k]? = some ⟨operation, inStart, .answered request reply⟩ ∧
      ((∃ next, operation.respond (env p) s.now request reply = .send next ∧
          s' = s.put p { s.processes p with
            tasks := (s.processes p).tasks.set k ⟨operation, inStart, .sent next⟩ }) ∨
        ∃ isLeader, operation.respond (env p) s.now request reply = .settle isLeader ∧
          s' = s.put p ((s.processes p).settle k inStart isLeader)) := by
  simp only [step] at h
  split at h
  · refine ⟨_, _, _, _, ‹_›, ?_⟩
    split at h
    · exact .inl ⟨_, ‹_›, (Option.some.inj h).symm⟩
    · exact .inr ⟨_, ‹_›, (Option.some.inj h).symm⟩
  · cases h

theorem step_fail_eq_some {p} (h : step env s (.fail p k) = some s') :
    ∃ task, (s.processes p).tasks[k]? = some task ∧
      s' = { s.put p ((s.processes p).settle k task.inStart (some false)) with
        stray := task.pending.toList ++ s.stray } := by
  simp only [step] at h
  split at h
  · exact ⟨_, ‹_›, (Option.some.inj h).symm⟩
  · cases h

theorem step_performStray_eq_some (h : step env s (.performStray k) = some s') :
    ∃ request, s.stray[k]? = some request ∧
      s' = { s with api := (s.api.perform request).1, stray := s.stray.eraseIdx k } := by
  simp only [step] at h
  split at h
  · exact ⟨_, ‹_›, (Option.some.inj h).symm⟩
  · cases h

def Cluster.start (now : Nat) (lease : Option LeaseSpec) : Cluster P where
  now := now
  api := ⟨lease.map (⟨0, ·⟩), 1⟩
  processes := fun _ => .initial
  stray := []

end

/-! ## What a process relies on -/

def Task.acquired (task : Task) : Bool :=
  match task.operation, task.progress with
  | .acquire, .answered _ .ok => true
  | _, _ => false

def Process.claims : Bool :=
  pr.isLeader || pr.tasks.any Task.acquired

end Sardeenz.Election
