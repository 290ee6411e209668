/-
# `Sardeenz.Proxy.CircuitBreaker` — the half-open probe of one endpoint

`CircuitBreaker` (`forwarding/circuit_breaker.rs`) stops sending requests to an
endpoint that fails, and lets one request through after `recovery_timeout` to see
whether it has come back: the probe.

    Closed     every request is admitted; enough failures within the window open the circuit
    Open       nothing is admitted until `recovery_timeout` has passed
    HalfOpen   the probe is in flight; its outcome closes the circuit or opens it again

The probe claims the circuit when it is admitted.  A claim may be taken over once
it is `probe_timeout` old, and the guard that a probe holds gives up its own claim
only.  `record_success` and `record_failure` do not look whose outcome they record:
in the state `HalfOpen` they drop the claim, whoever holds it.

**Proved here.**  When at most one probe with a young claim is in flight (`one_probe`); when the
circuit trips, what it admits while it is open and what closes it (`trip_and_recovery`).
-/
import Mathlib.Data.List.Perm.Subperm
import Sardeenz.Run

namespace Sardeenz.Proxy.CircuitBreaker

open Interleave Function

/-! ## The breaker of one endpoint -/

inductive CircuitState where
  | closed
  | opened
  | halfOpen
deriving DecidableEq, Repr

structure CircuitBreakerConfig where
  failureThreshold : Nat
  failureWindow : Nat
  recoveryTimeout : Nat
  probeTimeout : Nat
deriving DecidableEq, Repr

def CircuitBreakerConfig.fromEnv (failureThreshold failureWindow recoveryTimeout upstreamTimeout :
    Nat) : CircuitBreakerConfig :=
  { failureThreshold, failureWindow, recoveryTimeout
    probeTimeout := max recoveryTimeout upstreamTimeout }

/-- `EndpointCircuit`; an instant is a number. -/
structure EndpointCircuit where
  state : CircuitState
  failures : List Nat
  lastStateChange : Nat
  probeClaimedAt : Option Nat
deriving DecidableEq, Repr

def EndpointCircuit.new (now : Nat) : EndpointCircuit :=
  { state := .closed, failures := [], lastStateChange := now, probeClaimedAt := none }

def recordSuccess (now : Nat) : Option EndpointCircuit → Option EndpointCircuit
  | none => none
  | some circuit =>
    if circuit.state = .halfOpen then
      some { state := .closed, failures := [], lastStateChange := now, probeClaimedAt := none }
    else some circuit

def recordFailure (config : CircuitBreakerConfig) (now : Nat) (entry : Option EndpointCircuit) :
    EndpointCircuit :=
  let circuit := entry.getD (.new now)
  if circuit.state = .halfOpen then
    { state := .opened, failures := [], lastStateChange := now, probeClaimedAt := none }
  else
    let failures := (circuit.failures ++ [now]).filter fun t => now ≤ t + config.failureWindow
    if config.failureThreshold ≤ failures.length then
      { circuit with state := .opened, failures, lastStateChange := now }
    else { circuit with failures }

/-- `try_acquire_probe`: the claim that the guard holds, if it holds one, or `none`
when the endpoint is unavailable.  The clock is read twice. -/
def tryAcquireProbe (config : CircuitBreakerConfig) (checked now : Nat)
    (entry : Option EndpointCircuit) : EndpointCircuit × Option (Option Nat) :=
  let circuit := entry.getD (.new checked)
  match circuit.state with
  | .closed => (circuit, some none)
  | .opened =>
    if circuit.lastStateChange + config.recoveryTimeout ≤ checked then
      ({ circuit with state := .halfOpen, lastStateChange := now, probeClaimedAt := some now },
        some (some now))
    else (circuit, none)
  | .halfOpen =>
    if circuit.probeClaimedAt.any fun t => checked < t + config.probeTimeout then (circuit, none)
    else ({ circuit with probeClaimedAt := some now }, some (some now))

/-- `ProbeGuard::drop`. -/
def dropGuard (claimedAt : Option Nat) (entry : Option EndpointCircuit) : Option EndpointCircuit :=
  entry.map fun circuit =>
    if claimedAt.isSome ∧ circuit.probeClaimedAt = claimedAt then
      { circuit with probeClaimedAt := none }
    else circuit

/-! ## Requests -/

/-- Where `run_inference` is with a request: not at the endpoint, or in flight
there with the claim of its guard. -/
inductive Request where
  | idle
  | inFlight (claimedAt : Option Nat)
deriving DecidableEq, Repr

/-- One endpoint: the clock, its entry in the breaker, and the requests. -/
structure Endpoint where
  now : Nat
  circuit : Option EndpointCircuit
  requests : Nat → Request

/-- What may happen. -/
inductive Event where
  | elapse (time : Nat)
  | admission (request pause : Nat)
  | outcome (request : Nat) (success : Bool)
  | cancel (request : Nat)
  | prune
deriving DecidableEq, Repr

/-- One event.  Recording an outcome and disarming the guard have no await between
them, and neither has anything in the methods of the breaker. -/
def Endpoint.step (config : CircuitBreakerConfig) (s : Endpoint) : Event → Option Endpoint
  | .elapse time => some { s with now := s.now + time }
  | .admission request pause =>
    match s.requests request with
    | .inFlight _ => none
    | .idle =>
      let (circuit, guard) := tryAcquireProbe config s.now (s.now + pause) s.circuit
      some
        { now := s.now + pause
          circuit := some circuit
          requests := match guard with
            | some claimedAt => Function.update s.requests request (.inFlight claimedAt)
            | none => s.requests }
  | .outcome request success =>
    match s.requests request with
    | .idle => none
    | .inFlight _ =>
      some
        { s with
          circuit :=
            if success then recordSuccess s.now s.circuit
            else some (recordFailure config s.now s.circuit)
          requests := Function.update s.requests request .idle }
  | .cancel request =>
    match s.requests request with
    | .idle => none
    | .inFlight claimedAt =>
      some
        { s with
          circuit := dropGuard claimedAt s.circuit
          requests := Function.update s.requests request .idle }
  | .prune => some { s with circuit := none }

def Endpoint.fresh : Endpoint := { now := 0, circuit := none, requests := fun _ => .idle }

/-- The request is a probe in flight, with a claim younger than `probe_timeout`. -/
def Endpoint.YoungProbe (config : CircuitBreakerConfig) (s : Endpoint) (request : Nat) : Prop :=
  ∃ t, s.requests request = .inFlight (some t) ∧ s.now < t + config.probeTimeout

def Endpoint.OneProbe (config : CircuitBreakerConfig) (s : Endpoint) : Prop :=
  ∀ request request', s.YoungProbe config request → s.YoungProbe config request' →
    request = request'

/-- No outcome but its own is recorded while a young probe is in flight, and the
circuit is not pruned. -/
def Endpoint.Undisturbed (config : CircuitBreakerConfig) (s : Endpoint) : Event → Prop
  | .outcome request _ => ∀ probe, s.YoungProbe config probe → probe = request
  | .prune => ∀ probe, ¬ s.YoungProbe config probe
  | _ => True

/-! ## What a young probe can rely on -/

/-- What `try_acquire_probe` comes to. -/
inductive Acquired (config : CircuitBreakerConfig) (checked now : Nat) (circuit : EndpointCircuit) :
    EndpointCircuit × Option (Option Nat) → Prop
  | admitted : circuit.state = .closed → Acquired config checked now circuit (circuit, some none)
  | refused : circuit.state ≠ .closed → Acquired config checked now circuit (circuit, none)
  | opened : circuit.state = .opened →
      circuit.lastStateChange + config.recoveryTimeout ≤ checked →
      Acquired config checked now circuit
        ({ circuit with state := .halfOpen, lastStateChange := now, probeClaimedAt := some now },
          some (some now))
  | expired : circuit.state = .halfOpen →
      (∀ t, circuit.probeClaimedAt = some t → t + config.probeTimeout ≤ checked) →
      Acquired config checked now circuit
        ({ circuit with state := .halfOpen, probeClaimedAt := some now }, some (some now))

theorem acquired (config : CircuitBreakerConfig) (checked now : Nat)
    (entry : Option EndpointCircuit) :
    Acquired config checked now (entry.getD (.new checked))
      (tryAcquireProbe config checked now entry) := by
  simp only [tryAcquireProbe]
  generalize entry.getD (.new checked) = circuit
  cases hstate : circuit.state with
  | closed => exact .admitted hstate
  | opened =>
    by_cases hdue : circuit.lastStateChange + config.recoveryTimeout ≤ checked
    · simpa only [if_pos hdue] using .opened hstate hdue
    · simpa only [if_neg hdue] using .refused (by simp [hstate])
  | halfOpen =>
    by_cases hclaim : (circuit.probeClaimedAt.any fun t => checked < t + config.probeTimeout) = true
    · simpa only [if_pos hclaim] using .refused (by simp [hstate])
    · simp only [if_neg hclaim]
      refine .expired hstate fun t ht => ?_
      simpa [ht] using hclaim

/-- The circuit remembers a claim: it is the live one, or the circuit has left the
state `HalfOpen` since and will not be half-open again while the claim is young. -/
def Remembers (config : CircuitBreakerConfig) (entry : Option EndpointCircuit) (t : Nat) : Prop :=
  (∃ circuit, entry = some circuit ∧ circuit.state = .halfOpen ∧
      circuit.probeClaimedAt = some t) ∨
    config.probeTimeout ≤ config.recoveryTimeout ∧ ∀ circuit, entry = some circuit →
      circuit.state ≠ .halfOpen ∧ (circuit.state = .opened → t ≤ circuit.lastStateChange)

/-- Claims lie in the past, the circuit remembers the young ones, and there is at
most one of them. -/
structure Endpoint.Inv (config : CircuitBreakerConfig) (s : Endpoint) : Prop where
  past : ∀ request t, s.requests request = .inFlight (some t) → t ≤ s.now
  remembers : ∀ request t, s.requests request = .inFlight (some t) →
    s.now < t + config.probeTimeout → Remembers config s.circuit t
  one : s.OneProbe config

section
variable {config : CircuitBreakerConfig} {s : Endpoint} {entry : Option EndpointCircuit}

variable {t request : Nat}

section
variable (h : Remembers config entry t) (hle : config.probeTimeout ≤ config.recoveryTimeout)
include h hle

theorem Remembers.recordSuccess (now : Nat) : Remembers config (recordSuccess now entry) t := by
  cases entry with
  | none => exact h
  | some circuit =>
    by_cases hstate : circuit.state = .halfOpen
    · refine .inr ⟨hle, fun _ _ => ?_⟩
      grind [CircuitBreaker.recordSuccess]
    · rwa [CircuitBreaker.recordSuccess, if_neg hstate]

theorem Remembers.recordFailure {now} (hpast : t ≤ now) :
    Remembers config (some (recordFailure config now entry)) t := by
  refine .inr ⟨hle, fun _ heq => ?_⟩
  cases heq
  simp only [CircuitBreaker.recordFailure]
  by_cases hstate : (entry.getD (.new now)).state = .halfOpen
  · grind
  · rw [if_neg hstate]
    split
    · exact ⟨by simp, fun _ => hpast⟩
    · refine ⟨hstate, fun hopened => ?_⟩
      cases entry with
      | none => cases hopened
      | some circuit =>
        rcases h with ⟨_, heq, _, -⟩ | ⟨-, hcircuit⟩
        · grind
        · exact (hcircuit circuit rfl).2 hopened

end

theorem Remembers.dropGuard {claimedAt} (h : Remembers config entry t)
    (hne : claimedAt ≠ some t) :
    Remembers config (dropGuard claimedAt entry) t := by
  rcases h with ⟨circuit, rfl, hhalf, hclaim⟩ | ⟨hle, _⟩
  · refine .inl ⟨circuit, ?_, hhalf, hclaim⟩
    grind [CircuitBreaker.dropGuard]
  · refine .inr ⟨hle, fun _ heq => ?_⟩
    obtain ⟨circuit, _, rfl⟩ := Option.map_eq_some_iff.mp heq
    grind

variable {circuit : EndpointCircuit}

theorem not_remembers_opened {checked} (hstate : circuit.state = .opened)
    (hdue : circuit.lastStateChange + config.recoveryTimeout ≤ checked)
    (hyoung : checked < t + config.probeTimeout) : ¬ Remembers config (some circuit) t := by
  rintro (⟨_, _, _, -⟩ | ⟨_, _⟩)
  · grind
  · grind

theorem not_remembers_expired {checked} (hstate : circuit.state = .halfOpen)
    (hexpired : ∀ t, circuit.probeClaimedAt = some t → t + config.probeTimeout ≤ checked)
    (hyoung : checked < t + config.probeTimeout) : ¬ Remembers config (some circuit) t := by
  rintro (⟨_, _, -, _⟩ | ⟨-, hcircuit⟩)
  · grind
  · exact (hcircuit circuit rfl).1 hstate

theorem Remembers.getD (h : Remembers config entry t) (now : Nat) :
    Remembers config (some (entry.getD (.new now))) t := by
  cases entry with
  | some circuit => exact h
  | none =>
    rcases h with ⟨_, heq, -⟩ | ⟨hle, -⟩
    · cases heq
    · refine .inr ⟨hle, fun circuit heq => ?_⟩
      grind [EndpointCircuit.new]

/-! ## Every event keeps it -/

variable {s' : Endpoint}

theorem Endpoint.Inv.weaken (h : s.Inv config) (hnow : s.now ≤ s'.now)
    (hrequests : ∀ request t, s'.requests request = .inFlight (some t) →
      s.requests request = .inFlight (some t))
    (hcircuit : ∀ request t, s'.requests request = .inFlight (some t) →
      s'.now < t + config.probeTimeout → Remembers config s.circuit t →
        Remembers config s'.circuit t) :
    s'.Inv config := by
  have hyoung : ∀ {request}, s'.YoungProbe config request → s.YoungProbe config request := by
    rintro request ⟨t, ht, hlt⟩
    exact ⟨t, hrequests request t ht, Nat.lt_of_le_of_lt hnow hlt⟩
  refine ⟨fun request t ht => ?_, fun request t ht hlt => ?_, fun request request' hr hr' => ?_⟩
  · exact Nat.le_trans (h.past request t (hrequests request t ht)) hnow
  · exact hcircuit request t ht hlt
      (h.remembers request t (hrequests request t ht) (Nat.lt_of_le_of_lt hnow hlt))
  · exact h.one request request' (hyoung hr) (hyoung hr')

theorem Endpoint.Inv.claim (h : s.Inv config) (hnone : ∀ probe, ¬ s.YoungProbe config probe)
    (hnow : s.now ≤ s'.now)
    (hrequests : s'.requests = update s.requests request (.inFlight (some s'.now)))
    (hremembers : Remembers config s'.circuit s'.now) : s'.Inv config := by
  have hcases : ∀ probe t, s'.requests probe = .inFlight (some t) →
      probe = request ∧ t = s'.now ∨ s.requests probe = .inFlight (some t) := by
    intro probe t ht
    rw [hrequests] at ht
    by_cases hp : probe = request
    · subst hp
      rw [update_self] at ht
      cases ht
      exact .inl ⟨rfl, rfl⟩
    · rw [update_of_ne hp] at ht
      exact .inr ht
  have hyoung : ∀ probe t, s'.requests probe = .inFlight (some t) →
      s'.now < t + config.probeTimeout → probe = request ∧ t = s'.now := by
    intro probe t ht hlt
    rcases hcases probe t ht with hnew | hold
    · exact hnew
    · exact absurd ⟨t, hold, Nat.lt_of_le_of_lt hnow hlt⟩ (hnone probe)
  refine ⟨fun probe t ht => ?_, fun probe t ht hlt => ?_, fun probe probe' hp hp' => ?_⟩
  · have hpast := h.past
    grind
  · grind
  · obtain ⟨t, ht, hlt⟩ := hp
    obtain ⟨t', ht', hlt'⟩ := hp'
    rw [(hyoung probe t ht hlt).1, (hyoung probe' t' ht' hlt').1]

theorem Endpoint.Inv.admission (h : s.Inv config) {pause}
    (hs : s.step config (.admission request pause) = some s') : s'.Inv config := by
  simp only [Endpoint.step] at hs
  cases hrequest : s.requests request with
  | inFlight => simp [hrequest] at hs
  | idle =>
    simp only [hrequest, Option.some.injEq] at hs
    have hacquired := acquired config s.now (s.now + pause) s.circuit
    generalize tryAcquireProbe config s.now (s.now + pause) s.circuit = result at hs hacquired
    subst hs
    cases hacquired with
    | admitted hstate =>
      refine h.weaken (Nat.le_add_right _ _) (fun probe t ht => ?_) fun _ _ _ _ hr => hr.getD _
      grind
    | refused hstate =>
      exact h.weaken (Nat.le_add_right _ _) (fun _ _ ht => ht) fun _ _ _ _ hr => hr.getD _
    | opened hstate hdue =>
      refine h.claim (fun probe hyoung => ?_) (Nat.le_add_right _ _) rfl (.inl ⟨_, rfl, rfl, rfl⟩)
      obtain ⟨t, ht, hlt⟩ := hyoung
      exact not_remembers_opened hstate hdue hlt ((h.remembers probe t ht hlt).getD _)
    | expired hstate hexpired =>
      refine h.claim (fun probe hyoung => ?_) (Nat.le_add_right _ _) rfl (.inl ⟨_, rfl, rfl, rfl⟩)
      obtain ⟨t, ht, hlt⟩ := hyoung
      exact not_remembers_expired hstate hexpired hlt ((h.remembers probe t ht hlt).getD _)

theorem inFlight_of_update {requests : Nat → Request} {probe claim}
    (h : update requests request .idle probe = .inFlight claim) :
    probe ≠ request ∧ requests probe = .inFlight claim := by
  grind

theorem Endpoint.Inv.outcome (h : s.Inv config) {success}
    (hok : config.probeTimeout ≤ config.recoveryTimeout ∨
      s.Undisturbed config (.outcome request success))
    (hs : s.step config (.outcome request success) = some s') : s'.Inv config := by
  simp only [Endpoint.step] at hs
  cases hrequest : s.requests request with
  | idle => simp [hrequest] at hs
  | inFlight =>
    simp only [hrequest, Option.some.injEq] at hs
    subst hs
    refine h.weaken (Nat.le_refl _) (fun probe t ht => (inFlight_of_update ht).2) ?_
    intro probe t ht hlt hremembers
    obtain ⟨hne, hold⟩ := inFlight_of_update ht
    rcases hok with _ | hown
    · grind [hremembers.recordSuccess, hremembers.recordFailure, h.past]
    · exact absurd (hown probe ⟨t, hold, hlt⟩) hne

theorem Endpoint.Inv.cancel (h : s.Inv config) (hs : s.step config (.cancel request) = some s') :
    s'.Inv config := by
  simp only [Endpoint.step] at hs
  cases hrequest : s.requests request with
  | idle => simp [hrequest] at hs
  | inFlight =>
    simp only [hrequest, Option.some.injEq] at hs
    subst hs
    refine h.weaken (Nat.le_refl _) (fun probe t ht => (inFlight_of_update ht).2) ?_
    intro probe t ht hlt hremembers
    obtain ⟨hne, hold⟩ := inFlight_of_update ht
    refine hremembers.dropGuard fun heq => hne ?_
    -- Two guards with one claim would be two young probes.
    subst heq
    exact h.one probe request ⟨t, hold, hlt⟩ ⟨t, hrequest, hlt⟩

theorem Endpoint.Inv.step (h : s.Inv config) {event}
    (hok : config.probeTimeout ≤ config.recoveryTimeout ∨ s.Undisturbed config event)
    (hs : s.step config event = some s') : s'.Inv config := by
  cases event with
  | elapse =>
    cases hs
    exact h.weaken (Nat.le_add_right _ _) (fun _ _ ht => ht) fun _ _ _ _ hr => hr
  | admission request => exact h.admission hs
  | outcome request => exact h.outcome hok hs
  | cancel request => exact h.cancel hs
  | prune =>
    cases hs
    refine h.weaken (Nat.le_refl _) (fun _ _ ht => ht) fun probe t ht hlt _ => ?_
    rcases hok with hle | hnone
    · exact .inr ⟨hle, fun _ heq => by cases heq⟩
    · exact absurd ⟨t, ht, hlt⟩ (hnone probe)

theorem Endpoint.inv_fresh : Endpoint.fresh.Inv config := by
  refine ⟨fun _ _ h => ?_, fun _ _ h => ?_, fun _ _ h => ?_⟩
  · cases h
  · cases h
  · obtain ⟨_, h, -⟩ := h
    cases h

theorem Endpoint.oneProbe_of_reach {ok} (hok : ∀ s event, ok s event →
      config.probeTimeout ≤ config.recoveryTimeout ∨ s.Undisturbed config event)
    (h : Reach (Endpoint.step config) ok .fresh s) : s.OneProbe config :=
  (Reach.inductive_inv Endpoint.inv_fresh
    (fun hinv hallowed hs => hinv.step (hok _ _ hallowed) hs) h).one

end

/-! ## Two probes -/

section
variable (config : CircuitBreakerConfig) (n : Nat)

/-- One request is in flight from the beginning, and another has failed some times
without opening the circuit. -/
def Endpoint.failing : Endpoint :=
  { now := 0
    circuit := some
      { state := .closed, failures := List.replicate n 0, lastStateChange := 0
        probeClaimedAt := none }
    requests := Function.update (fun _ => .idle) 0 (.inFlight none) }

def Endpoint.tripped (failures : List Nat) : Endpoint :=
  { now := 0
    circuit := some { state := .opened, failures, lastStateChange := 0, probeClaimedAt := none }
    requests := Function.update (fun _ => .idle) 0 (.inFlight none) }

theorem filter_replicate_zero (window : Nat) :
    (List.replicate n 0 ++ [0]).filter (fun t => decide (0 ≤ t + window)) =
      List.replicate (n + 1) 0 := by
  grind [List.replicate_succ']

theorem reach_failure {n}
    (h : Reach (Endpoint.step config) anyStep .fresh (Endpoint.failing n)) :
    Reach (Endpoint.step config) anyStep .fresh { Endpoint.failing n with
        circuit := some (recordFailure config 0 (Endpoint.failing n).circuit) } := by
  have hadmit := Reach.snoc (a := Event.admission 1 0) h trivial rfl
  have hfailed := Reach.snoc (a := Event.outcome 1 false) hadmit trivial rfl
  have hrequests : update (update (Endpoint.failing n).requests 1
      (.inFlight none)) 1 .idle = (Endpoint.failing n).requests := by
    rw [update_idem]
    exact update_eq_self 1 (Endpoint.failing n).requests
  simp only [hrequests] at hfailed
  exact hfailed

theorem recordFailure_failing : recordFailure config 0 (Endpoint.failing n).circuit =
      if config.failureThreshold ≤ n + 1 then
        { state := .opened, failures := List.replicate (n + 1) 0, lastStateChange := 0
          probeClaimedAt := none }
      else
        { state := .closed, failures := List.replicate (n + 1) 0, lastStateChange := 0
          probeClaimedAt := none } := by
  simp only [recordFailure, Endpoint.failing, Option.getD_some, filter_replicate_zero,
    List.length_replicate]
  rfl

theorem reach_failing (hn : n < config.failureThreshold ∨ n = 0) :
    Reach (Endpoint.step config) anyStep .fresh (Endpoint.failing n) := by
  induction n with
  | zero => exact .snoc (a := .admission 0 0) .start trivial rfl
  | succ n ih =>
    have hnext := reach_failure config (ih (.inl (by omega)))
    rw [recordFailure_failing, if_neg (by omega)] at hnext
    exact hnext

theorem reach_tripped :
    ∃ failures, Reach (Endpoint.step config) anyStep .fresh (Endpoint.tripped failures) := by
  have hlast := reach_failure config (reach_failing config (config.failureThreshold - 1) (by omega))
  rw [recordFailure_failing, if_pos (by omega)] at hlast
  exact ⟨_, hlast⟩

/-- A probe is admitted after the recovery timeout, the first request fails, and
after another recovery timeout the next probe is admitted. -/
def Endpoint.doubled (config : CircuitBreakerConfig) : Endpoint :=
  { now := config.recoveryTimeout + config.recoveryTimeout
    circuit := some
      { state := .halfOpen, failures := []
        lastStateChange := config.recoveryTimeout + config.recoveryTimeout
        probeClaimedAt := some (config.recoveryTimeout + config.recoveryTimeout) }
    requests := Function.update (Function.update (fun _ => .idle) 1
      (.inFlight (some config.recoveryTimeout))) 2
      (.inFlight (some (config.recoveryTimeout + config.recoveryTimeout))) }

theorem reach_doubled : Reach (Endpoint.step config) anyStep .fresh (Endpoint.doubled config) := by
  obtain ⟨failures, htripped⟩ := reach_tripped config
  have hdue := Reach.snoc (a := Event.elapse config.recoveryTimeout) htripped trivial rfl
  have hprobe : Reach (Endpoint.step config) anyStep .fresh
      { now := config.recoveryTimeout
        circuit := some
          { state := .halfOpen, failures, lastStateChange := config.recoveryTimeout
            probeClaimedAt := some config.recoveryTimeout }
        requests := update (update (fun _ => .idle) 0 (.inFlight none)) 1
          (.inFlight (some config.recoveryTimeout)) } := by
    refine Reach.snoc (a := Event.admission 1 0) hdue trivial ?_
    simp [Endpoint.step, Endpoint.tripped, tryAcquireProbe]
  have hlate : Reach (Endpoint.step config) anyStep .fresh
      { now := config.recoveryTimeout
        circuit := some
          { state := .opened, failures := [], lastStateChange := config.recoveryTimeout
            probeClaimedAt := none }
        requests := update (fun _ => .idle) 1
          (.inFlight (some config.recoveryTimeout)) } := by
    refine Reach.snoc (a := Event.outcome 0 false) hprobe trivial ?_
    have hrequests : update (update (update (fun _ => Request.idle) 0
        (.inFlight none)) 1 (.inFlight (some config.recoveryTimeout))) 0 .idle =
        update (fun _ => .idle) 1 (.inFlight (some config.recoveryTimeout)) := by
      funext request
      by_cases h : request = 0
      · simp [h]
      · simp [update_apply, h]
    rw [← hrequests]
    rfl
  have hwait := Reach.snoc (a := Event.elapse config.recoveryTimeout) hlate trivial rfl
  refine Reach.snoc (a := Event.admission 2 0) hwait trivial ?_
  simp [Endpoint.step, Endpoint.doubled, tryAcquireProbe]

theorem not_oneProbe_doubled (h : config.recoveryTimeout < config.probeTimeout) :
    ¬ (Endpoint.doubled config).OneProbe config := by
  intro hone
  have hfirst : (Endpoint.doubled config).YoungProbe config 1 :=
    ⟨config.recoveryTimeout, rfl, by simp only [Endpoint.doubled]; omega⟩
  have hsecond : (Endpoint.doubled config).YoungProbe config 2 :=
    ⟨config.recoveryTimeout + config.recoveryTimeout, rfl, by simp only [Endpoint.doubled]; omega⟩
  exact absurd (hone 1 2 hfirst hsecond) (by decide)

end

/-- **One probe.**  At most one young probe is in flight in every run in which no
outcome but its own is recorded, and no prune comes, while a young probe is in
flight.  It is at most one in every run exactly if a claim does not stay young
longer than the circuit stays open. -/
theorem one_probe (config : CircuitBreakerConfig) :
    (∀ s, Reach (Endpoint.step config) (Endpoint.Undisturbed config) .fresh s → s.OneProbe config) ∧
      ((∀ s, Reach (Endpoint.step config) anyStep .fresh s → s.OneProbe config) ↔
        config.probeTimeout ≤ config.recoveryTimeout) := by
  refine ⟨fun s hs => Endpoint.oneProbe_of_reach (fun _ _ hok => .inr hok) hs, ?_, ?_⟩
  · intro hall
    by_contra hlt
    exact not_oneProbe_doubled config (Nat.lt_of_not_le hlt) (hall _ (reach_doubled config))
  · intro hle s hs
    exact Endpoint.oneProbe_of_reach (fun _ _ _ => .inl hle) hs

def defaultBreaker : CircuitBreakerConfig := .fromEnv 5 30 15 300

/-- Six requests are admitted, and five of them fail.  After 15 s the sixth is
still running and a probe is admitted; then the sixth fails.  15 s later the next
probe is admitted, while the first is 15 s old. -/
def lateFailure : List Event :=
  [.admission 0 0, .admission 1 0, .admission 2 0, .admission 3 0, .admission 4 0, .admission 5 0, .outcome 1 false,
    .outcome 2 false, .outcome 3 false, .outcome 4 false, .outcome 5 false, .elapse 15,
    .admission 6 0, .outcome 0 false, .elapse 15, .admission 7 0]

/-- **Two probes** with young claims, in the default configuration. -/
theorem two_probes_after_lateFailure :
    ∃ s, exec (Endpoint.step defaultBreaker) .fresh lateFailure = some s ∧
      s.YoungProbe defaultBreaker 6 ∧ s.YoungProbe defaultBreaker 7 :=
  ⟨_, rfl, ⟨15, rfl, by decide⟩, ⟨30, rfl, by decide⟩⟩

/-! ## Trip and recovery -/

open List

def isAvailable (config : CircuitBreakerConfig) (now : Nat) : Option EndpointCircuit → Bool
  | none => true
  | some circuit =>
    match circuit.state with
    | .closed => true
    | .opened => circuit.lastStateChange + config.recoveryTimeout ≤ now
    | .halfOpen => circuit.probeClaimedAt.all fun t => t + config.probeTimeout ≤ now

/-- The methods that are called for one endpoint; a guard may be dropped at any time. -/
inductive Call where
  | success
  | failure
  | available
  | acquire (pause : Nat)
  | drop (claimedAt : Option Nat)
deriving DecidableEq

def Call.apply (config : CircuitBreakerConfig) (now : Nat) (entry : Option EndpointCircuit) :
    Call → Option EndpointCircuit
  | .success => recordSuccess now entry
  | .failure => some (recordFailure config now entry)
  | .available => entry
  | .acquire pause => some (tryAcquireProbe config now (now + pause) entry).1
  | .drop claimedAt => dropGuard claimedAt entry

/-- The entry after the calls, of which the last stands first. -/
def entryAfter (config : CircuitBreakerConfig) : List (Nat × Call) → Option EndpointCircuit
  | [] => none
  | (now, call) :: calls => call.apply config now (entryAfter config calls)

/-- No entry is a closed circuit. -/
def stateOf (entry : Option EndpointCircuit) : CircuitState := (entry.map (·.state)).getD .closed

def failuresOf (entry : Option EndpointCircuit) : List Nat := (entry.map (·.failures)).getD []

/-- The failures recorded since the circuit last became closed. -/
def failuresSince (config : CircuitBreakerConfig) : List (Nat × Call) → List Nat
  | [] => []
  | (now, call) :: calls =>
    let entry := entryAfter config calls
    if stateOf entry ≠ .closed ∧ stateOf (call.apply config now entry) = .closed then []
    else if call = .failure then now :: failuresSince config calls
    else failuresSince config calls

attribute [grind] Call.apply stateOf failuresOf recordSuccess recordFailure tryAcquireProbe dropGuard
  EndpointCircuit.new

section
variable (config : CircuitBreakerConfig) (now : Nat) (entry : Option EndpointCircuit) (call : Call)

theorem isAvailable_eq (pause : Nat) : isAvailable config now entry =
    (tryAcquireProbe config now (now + pause) entry).2.isSome := by
  cases entry with
  | none => rfl
  | some circuit =>
    simp only [isAvailable, tryAcquireProbe, Option.getD_some]
    cases circuit.state <;> cases circuit.probeClaimedAt <;> grind

/-- A circuit that is closed trips at a failure only, when the list is long enough. -/
theorem trips_of_apply (h : stateOf entry = .closed)
    (hnext : stateOf (call.apply config now entry) ≠ .closed) :
    call = .failure ∧ config.failureThreshold ≤
      (failuresOf entry ++ [now]).countP (now ≤ · + config.failureWindow) := by
  rw [countP_eq_length_filter]
  cases entry <;> cases call <;> grind

/-- A success in the state `HalfOpen` closes it, and nothing else; the list is empty then. -/
theorem closes_of_apply (h : stateOf entry ≠ .closed)
    (hnext : stateOf (call.apply config now entry) = .closed) :
    stateOf entry = .halfOpen ∧ call = .success ∧ failuresOf (call.apply config now entry) = [] := by
  cases entry <;> cases call <;> grind

theorem failuresOf_apply (h : stateOf entry = .closed) :
    failuresOf (call.apply config now entry) <+~
      if call = .failure then now :: failuresOf entry else failuresOf entry := by
  have hadd := ((failuresOf entry ++ [now]).filter_sublist
    (p := fun t => now ≤ t + config.failureWindow)).subperm.trans
      (perm_append_singleton now (failuresOf entry)).subperm
  have hrefl := Subperm.refl (failuresOf entry)
  cases entry <;> cases call <;> grind

/-- The list of a closed circuit has failures since it became closed. -/
theorem failuresOf_entryAfter {calls}
    (h : stateOf (entryAfter config calls) = .closed) :
    failuresOf (entryAfter config calls) <+~ failuresSince config calls := by
  induction calls with
  | nil => exact Subperm.refl _
  | cons x calls ih =>
    obtain ⟨now, call⟩ := x
    simp only [entryAfter, failuresSince] at h ⊢
    by_cases hc : stateOf (entryAfter config calls) = .closed
    · refine (failuresOf_apply config now _ call hc).trans ?_
      rw [if_neg fun hne : stateOf (entryAfter config calls) ≠ .closed ∧ _ => hne.1 hc]
      split
      · exact (subperm_cons _).mpr (ih hc)
      · exact ih hc
    · rw [(closes_of_apply config now _ call hc h).2.2]
      exact nil_subperm

variable {config} {now} {entry} {call} {since : Nat}

/-- The circuit is open, and was opened not before a time. -/
@[grind]
def OpenSince (since : Nat) (entry : Option EndpointCircuit) : Prop :=
  ∃ circuit, entry = some circuit ∧ circuit.state = .opened ∧ since ≤ circuit.lastStateChange

theorem openSince_of_enters (h : stateOf entry ≠ .opened)
    (hnext : stateOf (call.apply config now entry) = .opened) :
    OpenSince now (call.apply config now entry) := by
  cases entry <;> cases call <;> grind

theorem OpenSince.apply (h : OpenSince since entry) (hle : since ≤ now)
    (hlt : now < since + config.recoveryTimeout) : OpenSince since (call.apply config now entry) := by
  cases call <;> grind

theorem OpenSince.entryAfter {calls later}
    (h : OpenSince since (entryAfter config calls))
    (hlater : ∀ x ∈ later, since ≤ x.1 ∧ x.1 < since + config.recoveryTimeout) :
    OpenSince since (entryAfter config (later ++ calls)) := by
  induction later with
  | nil => exact h
  | cons x later ih =>
    obtain ⟨hx, hlater⟩ := forall_mem_cons.mp hlater
    exact (ih hlater).apply hx.1 hx.2

end

/-- **Trip and recovery.**  A closed circuit trips only at a failure with enough others within the
window since it became closed; an open one admits nothing for `recovery_timeout`; only a success
in the state `HalfOpen` closes it; and what is available is admitted. -/
theorem trip_and_recovery (config : CircuitBreakerConfig) (calls : List (Nat × Call)) (now : Nat)
    (call : Call) :
    let before := entryAfter config calls
    let after := entryAfter config ((now, call) :: calls)
    (stateOf before = .closed → stateOf after ≠ .closed → call = .failure ∧
      config.failureThreshold ≤
        (now :: failuresSince config calls).countP (now ≤ · + config.failureWindow)) ∧
    (stateOf before ≠ .opened → stateOf after = .opened → ∀ later checked pause,
      (∀ x ∈ later, now ≤ x.1 ∧ x.1 ≤ checked) → checked < now + config.recoveryTimeout →
      (tryAcquireProbe config checked (checked + pause)
        (entryAfter config (later ++ (now, call) :: calls))).2 = none) ∧
    (stateOf before ≠ .closed → stateOf after = .closed →
      stateOf before = .halfOpen ∧ call = .success) ∧
    ∀ pause, isAvailable config now before =
      (tryAcquireProbe config now (now + pause) before).2.isSome := by
  refine ⟨fun hb ha => ?_, fun hb ha later checked pause hlater hlt => ?_, fun hb ha => ?_,
    isAvailable_eq config now _⟩
  · obtain ⟨hcall, hlen⟩ := trips_of_apply config now _ call hb ha
    have hsub := (perm_append_singleton now _).subperm.trans
      ((subperm_cons now).mpr (failuresOf_entryAfter config hb))
    exact ⟨hcall, Nat.le_trans hlen (hsub.countP_le _)⟩
  · have hsince : OpenSince now (entryAfter config ((now, call) :: calls)) :=
      openSince_of_enters hb ha
    obtain ⟨circuit, heq, hopen, hle⟩ := hsince.entryAfter fun x hx =>
      ⟨(hlater x hx).1, Nat.lt_of_le_of_lt (hlater x hx).2 hlt⟩
    rw [heq]
    simp only [tryAcquireProbe, Option.getD_some, hopen]
    rw [if_neg (by omega)]
  · obtain ⟨hhalf, hsuccess, -⟩ := closes_of_apply config now _ call hb ha
    exact ⟨hhalf, hsuccess⟩

/-! ## An endpoint is never stranded -/

section
variable {config : CircuitBreakerConfig} {s s' : Endpoint}

/-- What the circuit remembers lies in the past. -/
@[grind]
def Endpoint.Past (s : Endpoint) : Prop := ∀ circuit, s.circuit = some circuit →
  circuit.lastStateChange ≤ s.now ∧ ∀ t, circuit.probeClaimedAt = some t → t ≤ s.now

theorem Endpoint.Past.step {a : Event} (h : s.Past) (hs : s.step config a = some s') : s'.Past := by
  cases hc : s.circuit <;> cases a <;> grind [Endpoint.step]

theorem Endpoint.Past.isAvailable (h : s.Past) : isAvailable config
    (s.now + max config.recoveryTimeout config.probeTimeout) s.circuit := by
  cases hc : s.circuit with
  | none => rfl
  | some circuit =>
    obtain ⟨hchange, hclaim⟩ := h circuit hc
    unfold CircuitBreaker.isAvailable
    cases circuit.state <;> cases hp : circuit.probeClaimedAt <;> grind

/-- **Never stranded.**  Whatever has happened to the requests, and however their outcomes went
missing, a request is admitted once the longer of the two timeouts has passed. -/
theorem never_stranded (hs : Reach (Endpoint.step config) anyStep .fresh s) {request : Nat}
    (hidle : s.requests request = .idle) :
    ∃ s' claimedAt, exec (Endpoint.step config) s
        [.elapse (max config.recoveryTimeout config.probeTimeout), .admission request 0] = some s' ∧
      s'.requests request = .inFlight claimedAt := by
  have hpast : s.Past := hs.inductive_inv (fun _ h => by cases h) fun h _ hs => h.step hs
  obtain ⟨claimedAt, hadmitted⟩ := Option.isSome_iff_exists.mp
    ((isAvailable_eq config _ s.circuit 0).symm.trans hpast.isAvailable)
  simp only [exec, Endpoint.step, hidle, hadmitted]
  exact ⟨_, claimedAt, rfl, update_self ..⟩

theorem lateFailure_not_stranded :
    ∃ s, exec (Endpoint.step defaultBreaker) .fresh lateFailure = some s ∧
      ∃ s' claimedAt, exec (Endpoint.step defaultBreaker) s [.elapse 300, .admission 8 0] = some s' ∧
        s'.requests 8 = .inFlight claimedAt :=
  ⟨_, rfl, never_stranded (@reach_get _ _ _ anyStep _ _ lateFailure rfl) rfl⟩

end

end Sardeenz.Proxy.CircuitBreaker
