/-
# `Sardeenz.Cutover.Poll` — the acknowledgement loop of a cutover

After the cutover script `cutoverEndpointAndWait` polls Redis: the set of
acknowledgements, and for each required proxy that is not in it the proxy's
presence key.  A proxy whose presence key has expired, or holds a connection
time later than the cutover, is not to be waited for; the loop's comment says
so.  The code reads the key with `Number(await redis.get(key))`, and
`Number(null)` is `0`, which is earlier than every cutover:

    presence key             waited for, by the comment     by the code
    missing                  no                             yes
    later than the cutover   no                             no
    not later                yes                            yes

The loop therefore does what the comment says exactly when no proxy that still
owes its acknowledgement loses its key while the loop is polling
(`expiredNotAwaited_iff`).
-/
import Mathlib.Data.List.Basic

namespace Sardeenz.Cutover

/-- What one pass of the loop reads: `SMEMBERS` of the acknowledgement set, and
for a proxy id the reply to the `GET` of its presence key. -/
structure Poll where
  acknowledged : List String
  presence : String → Option Nat

/-- `Number(reply)`: the connection time, and `0` for a missing key. -/
def numberOf (reply : Option Nat) : Nat := reply.getD 0

/-- The test `Number.isFinite(connectedAt) && connectedAt <= cutoverStartedMs`
on the reply of a `GET`. -/
def connectedBefore (cutoverStartedMs : Nat) (reply : Option Nat) : Bool :=
  decide (numberOf reply ≤ cutoverStartedMs)

def Poll.counts (cutoverStartedMs : Nat) (p : Poll) (proxyId : String) : Bool :=
  !p.acknowledged.contains proxyId && connectedBefore cutoverStartedMs (p.presence proxyId)

def Poll.outstanding (cutoverStartedMs : Nat) (requiredProxies : List String) (p : Poll) : Nat :=
  requiredProxies.countP (p.counts cutoverStartedMs)

/-- The loop, over the passes there is time for before the signal aborts: the
index of the pass at which it returns `true`, or `none` when it times out. -/
def pollLoop (cutoverStartedMs : Nat) (requiredProxies : List String) : List Poll → Option Nat
  | [] => none
  | p :: ps =>
    if p.outstanding cutoverStartedMs requiredProxies = 0 then some 0
    else (pollLoop cutoverStartedMs requiredProxies ps).map (· + 1)

def polled (cutoverStartedMs : Nat) (requiredProxies : List String) : List Poll → List Poll
  | [] => []
  | p :: ps =>
    p :: if p.outstanding cutoverStartedMs requiredProxies = 0 then []
      else polled cutoverStartedMs requiredProxies ps

/-- The part of `cutoverEndpointAndWait` after the snapshot of the required
proxies: `true`, or the error it throws. -/
def awaitAcknowledgements (cutoverStartedMs : Nat) (requiredProxies : List String)
    (polls : List Poll) : Except String Bool :=
  if requiredProxies.isEmpty then .ok true
  else
    match pollLoop cutoverStartedMs requiredProxies polls with
    | some _ => .ok true
    | none =>
      let size := requiredProxies.length
      .error s!"traffic cutover barrier timed out ({size} serving proxy acknowledgement(s) required)"

/-! ## What is promised -/

section
variable (cutoverStartedMs : Nat) (requiredProxies : List String) (p : Poll)

def Poll.Gone (proxyId : String) : Prop :=
  ∀ c, p.presence proxyId = some c → cutoverStartedMs < c

/-- Every required proxy that is still present from before the cutover has
acknowledged. -/
def Poll.Clear : Prop :=
  ∀ id ∈ requiredProxies, id ∈ p.acknowledged ∨ p.Gone cutoverStartedMs id

instance (p : Poll) (proxyId : String) : Decidable (p.Gone cutoverStartedMs proxyId) :=
  inferInstanceAs (Decidable (∀ c ∈ p.presence proxyId, cutoverStartedMs < c))

instance (p : Poll) : Decidable (p.Clear cutoverStartedMs requiredProxies) :=
  inferInstanceAs (Decidable (∀ id ∈ requiredProxies, _ ∨ _))

def firstClear (polls : List Poll) : Option Nat :=
  polls.findIdx? fun p => decide (p.Clear cutoverStartedMs requiredProxies)

def untilClear : List Poll → List Poll
  | [] => []
  | p :: ps => p :: if p.Clear cutoverStartedMs requiredProxies then [] else untilClear ps

/-- An expired proxy does not hold up the barrier: no pass counts a proxy that
is gone, and the loop returns at the first pass at which every proxy still
present from before the cutover has acknowledged, so that it times out only
when there is no such pass. -/
structure ExpiredNotAwaited (polls : List Poll) : Prop where
  not_counted : ∀ p ∈ polled cutoverStartedMs requiredProxies polls, ∀ id ∈ requiredProxies,
    p.Gone cutoverStartedMs id → p.counts cutoverStartedMs id = false
  returns : pollLoop cutoverStartedMs requiredProxies polls =
    firstClear cutoverStartedMs requiredProxies polls

def Poll.NoneMissing : Prop :=
  ∀ id ∈ requiredProxies, id ∉ p.acknowledged → p.presence id ≠ none

end

section
variable {cutoverStartedMs : Nat} {requiredProxies : List String} {p : Poll}

theorem Poll.counts_iff {proxyId} : p.counts cutoverStartedMs proxyId = true ↔
      proxyId ∉ p.acknowledged ∧ numberOf (p.presence proxyId) ≤ cutoverStartedMs := by
  simp [Poll.counts, connectedBefore]

theorem Poll.not_counts_of_gone (hnone : p.NoneMissing requiredProxies) {id}
    (hid : id ∈ requiredProxies) (hgone : p.Gone cutoverStartedMs id) :
    p.counts cutoverStartedMs id = false := by
  rw [Bool.eq_false_iff, Ne, Poll.counts_iff]
  rintro ⟨hack, hle⟩
  obtain ⟨c, hc⟩ := Option.ne_none_iff_exists'.mp (hnone id hid hack)
  rw [hc] at hle
  exact absurd (hgone c hc) (Nat.not_lt.mpr hle)

theorem Poll.outstanding_eq_zero_iff (hnone : p.NoneMissing requiredProxies) :
    p.outstanding cutoverStartedMs requiredProxies = 0 ↔
      p.Clear cutoverStartedMs requiredProxies := by
  rw [Poll.outstanding, List.countP_eq_zero]
  constructor
  · intro h id hid
    by_cases hack : id ∈ p.acknowledged
    · exact .inl hack
    · refine .inr fun c hc => Nat.not_le.mp fun hle => h id hid ?_
      exact Poll.counts_iff.mpr ⟨hack, by rw [hc]; exact hle⟩
  · intro h id hid
    rcases h id hid with hack | hgone
    · rw [Poll.counts_iff]
      exact fun h' => h'.1 hack
    · simp [Poll.not_counts_of_gone hnone hid hgone]

theorem Poll.noneMissing_of_not_counted (h : ∀ id ∈ requiredProxies, p.Gone cutoverStartedMs id →
      p.counts cutoverStartedMs id = false) : p.NoneMissing requiredProxies := by
  intro id _ hack hmissing
  have hgone : p.Gone cutoverStartedMs id := fun c hc => nomatch hmissing.symm.trans hc
  have hcounts : p.counts cutoverStartedMs id = true :=
    Poll.counts_iff.mpr ⟨hack, by rw [hmissing]; exact Nat.zero_le _⟩
  grind

theorem expiredNotAwaited_cons {ps} :
    ExpiredNotAwaited cutoverStartedMs requiredProxies (p :: ps) ↔ p.NoneMissing requiredProxies ∧
        (¬ p.Clear cutoverStartedMs requiredProxies →
          ExpiredNotAwaited cutoverStartedMs requiredProxies ps) := by
  constructor
  · intro h
    have hnone : p.NoneMissing requiredProxies :=
      Poll.noneMissing_of_not_counted (h.not_counted p List.mem_cons_self)
    refine ⟨hnone, fun hclear => ?_⟩
    have hout := mt (Poll.outstanding_eq_zero_iff hnone).mp hclear
    constructor
    · grind [h.not_counted, polled]
    · have hret := h.returns
      rw [pollLoop, if_neg hout, firstClear, List.findIdx?_cons] at hret
      simp only [decide_eq_false hclear] at hret
      exact Option.map_injective (fun _ _ h => Nat.succ.inj h) hret
  · rintro ⟨hnone, hrest⟩
    by_cases hclear : p.Clear cutoverStartedMs requiredProxies
    · have hout := (Poll.outstanding_eq_zero_iff hnone).mpr hclear
      constructor
      · grind [polled, Poll.not_counts_of_gone]
      · simp [pollLoop, firstClear, hout, List.findIdx?_cons, hclear]
    · have hout := mt (Poll.outstanding_eq_zero_iff hnone).mp hclear
      have hrest := hrest hclear
      constructor
      · grind [polled, Poll.not_counts_of_gone, hrest.not_counted]
      · grind [pollLoop, hrest.returns, firstClear]

end

/-- **When an expired proxy does not hold up the barrier.**  For every cutover
time, every set of required proxies and every sequence of passes: the loop
treats expired and reconnected proxies as promised if and only if, up to the
first pass at which every proxy still present from before the cutover has
acknowledged, no required proxy that owes its acknowledgement is without its
presence key. -/
theorem expiredNotAwaited_iff (cutoverStartedMs : Nat) (requiredProxies : List String)
    (polls : List Poll) :
    ExpiredNotAwaited cutoverStartedMs requiredProxies polls ↔
      ∀ p ∈ untilClear cutoverStartedMs requiredProxies polls, p.NoneMissing requiredProxies := by
  induction polls with
  | nil =>
    refine iff_of_true ⟨?_, rfl⟩ ?_
    all_goals
      intro p hp
      exact absurd hp List.not_mem_nil
  | cons p _ ih =>
    rw [expiredNotAwaited_cons, ih, untilClear]
    by_cases hclear : p.Clear cutoverStartedMs requiredProxies
    · simp [hclear]
    · simp [hclear]

def expiredProxy : Poll := ⟨[], fun _ => none⟩

/-- One required proxy, expired at every pass: nobody is left to wait for from
the first pass on, and the call times out. -/
theorem expired_proxy_times_out : firstClear 1000 ["p1"] [expiredProxy, expiredProxy] = some 0 ∧
    awaitAcknowledgements 1000 ["p1"] [expiredProxy, expiredProxy] =
      .error "traffic cutover barrier timed out (1 serving proxy acknowledgement(s) required)" ∧
    ¬ ExpiredNotAwaited 1000 ["p1"] [expiredProxy, expiredProxy] := by
  refine ⟨by decide, by rfl, fun h => ?_⟩
  exact absurd h.returns (by decide)

end Sardeenz.Cutover
