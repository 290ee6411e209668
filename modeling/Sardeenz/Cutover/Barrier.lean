/-
# `Sardeenz.Cutover.Barrier` — cutoverEndpointAndWait against any number of proxies

The system is one Redis (the routing map, the presence keys, the set of
acknowledgements), any number of proxies, any other mutators, and one call of
`cutoverEndpointAndWait`, whose awaits are its steps:

    started      Date.now()
    scanning     the script has run; SCAN returns a page of presence keys, and each is read
    waiting      the top of the polling loop
    polling      SMEMBERS is done; the required proxies' keys are read one by one
    returned     `true`

A proxy's `HGETALL` returns the map in Redis at that moment, and it can receive
the call's barrier only after the script has published it.

**Proved here.**  When a returned call leaves no request to the endpoint in flight
(`cutover_barrier_safe`), and a registration that escapes (`late_registration_escapes`).
-/
import Sardeenz.Cutover.Clean
import Sardeenz.Cutover.Poll

namespace Sardeenz.Cutover

open Interleave Proxy List Option Function System

/-! ## The system -/

/-- Where the call is.  From `scanning` on it carries `cutoverStartedMs`. -/
inductive Call (k : Nat) where
  | idle
  | started (ms : Nat)
  | refused
  /-- The keys of the current page still to read, every key returned so far,
  and the required proxies so far. -/
  | scanning (ms : Nat) (page seen required : List (Fin k))
  | waiting (ms : Nat) (required : List (Fin k))
  | polling (ms : Nat) (required todo acknowledged : List (Fin k)) (outstanding : Nat)
  | returned (ms : Nat)
  | threw (ms : Nat)
deriving DecidableEq

/-- `cutoverStartedMs`, once the script has run. -/
def Call.cutAt {k : Nat} : Call k → Option Nat
  | .idle | .started _ | .refused => none
  | .scanning ms .. | .waiting ms _ | .polling ms .. | .returned ms | .threw ms => some ms

/-- Redis, `k` proxies with `n` request slots each, and the call. -/
structure System (k n : Nat) where
  now : Nat
  routing : RoutingTable
  proxies : Fin k → Process n
  acks : List (Fin k)
  call : Call k
  steady : Fin k → Bool
  raised : Bool

/-- A step of the system. -/
inductive SystemAction (k n : Nat) where
  | tick (ms : Nat)
  | mutate (mutation : Mutation)
  | proxy (i : Fin k) (a : ProcessAction n)
  | start
  | script
  | scanPage (keys : List (Fin k))
  | getKey
  | scanEnd
  | smembers
  | get
  | endPoll
  | timeout
  | cleanup

/-- The reply to a `GET` of the proxy's presence key. -/
def presenceReply {n : Nat} (now : Nat) (p : Process n) : Option Nat :=
  match p.presence with
  | some key => if now < key.expiresAt then some key.connectedAt else none
  | none => none

def Target.weighted (t : Target) (map : RoutingMap) : Bool :=
  match map.lookup t.modelName with
  | some entry => entry.endpoints.any fun e => decide (e.address = t.address) && decide (0 < e.weight)
  | none => false

def barrierOf : Sync → Option String
  | .fetching _ barrier | .applying _ barrier => barrier
  | .acking _ barrier => some barrier
  | _ => none

section
variable {k n : Nat}

/-- `HGETALL` answers with the map in Redis. -/
def System.answered (s : System k n) : ProcessAction n → ProcessAction n
  | .load _ => .load s.routing.map
  | .fetched _ => .fetched s.routing.map
  | a => a

variable (t : Target) (barrierId : String)

def System.delivers (s : System k n) : ProcessAction n → Bool
  | .message barrier => !decide (barrier = some barrierId) || s.call.cutAt.isSome
  | _ => true

/-- The acknowledgement set after a step of proxy `i`. -/
def System.acksAfter (s : System k n) (i : Fin k) : ProcessAction n → List (Fin k)
  | .acknowledge =>
    match (s.proxies i).sync with
    | .acking _ barrier => if barrier = barrierId then i :: s.acks else s.acks
    | _ => s.acks
  | _ => s.acks

def System.callStep (s : System k n) (a : SystemAction k n) : Option (System k n) :=
  match a, s.call with
  | .start, .idle => some { s with call := .started s.now }
  | .script, .started ms =>
    match cutoverEndpoint s.routing.map t.modelName t.host t.port s.now with
    | some _ =>
      some { s with
        routing := s.routing.mutate s.now (.cutoverEndpoint t.modelName t.host t.port)
        call := .scanning ms [] [] []
        steady := fun i => (presenceReply s.now (s.proxies i)).isSome }
    | none => some { s with call := .refused }
  | .scanPage keys, .scanning ms [] seen required =>
    if ∀ i ∈ keys, (presenceReply s.now (s.proxies i)).isSome then
      some { s with call := .scanning ms keys (seen ++ keys) required }
    else none
  | .getKey, .scanning ms (i :: page) seen required =>
    some { s with
      call := .scanning ms page seen
        (if connectedBefore ms (presenceReply s.now (s.proxies i)) then required.insert i
         else required) }
  | .scanEnd, .scanning ms [] seen required =>
    if ∀ i, s.steady i = true → i ∈ seen then
      some { s with call := if required.isEmpty then .returned ms else .waiting ms required }
    else none
  | .smembers, .waiting ms required =>
    some { s with call := .polling ms required required s.acks 0 }
  | .get, .polling ms required (i :: todo) acknowledged outstanding =>
    some { s with
      call := .polling ms required todo acknowledged
        (if i ∈ acknowledged then outstanding
         else if connectedBefore ms (presenceReply s.now (s.proxies i)) then outstanding + 1
         else outstanding) }
  | .endPoll, .polling ms required [] _ outstanding =>
    some { s with call := if outstanding = 0 then .returned ms else .waiting ms required }
  | .timeout, .waiting ms _ => some { s with call := .threw ms }
  | .cleanup, .returned _ | .cleanup, .threw _ => some { s with acks := [] }
  | _, _ => none

def System.step (s : System k n) (a : SystemAction k n) : Option (System k n) :=
  match a with
  | .tick ms =>
    some { s with
      now := s.now + ms
      steady := fun i => s.steady i && (presenceReply (s.now + ms) (s.proxies i)).isSome }
  | .mutate mutation =>
    some { s with
      routing := s.routing.mutate s.now mutation
      raised := s.raised ||
        (s.call.cutAt.isSome && t.weighted (mutation.apply s.routing.map s.now)) }
  | .proxy i a =>
    if s.delivers barrierId a then
      ((s.proxies i).step s.now (s.answered a)).map fun p =>
        { s with
          proxies := Function.update s.proxies i p
          acks := s.acksAfter barrierId i a
          steady := Function.update s.steady i (s.steady i && (presenceReply s.now p).isSome) }
    else none
  | a => s.callStep t a

/-- A sync task between its initial `HGETALL` and its registration. -/
def bootstrapping : Sync → Bool
  | .loading | .loaded | .stamped _ => true
  | _ => false

/-- The proxy is not between its initial `HGETALL` and its registration, and if
it is registered then not since the call began. -/
@[mk_iff]
structure Settled (ms : Nat) (p : Process n) : Prop where
  booted : bootstrapping p.sync = false
  before : p.sync.established = true → ∀ key ∈ p.presence, key.connectedAt ≤ ms

instance (ms : Nat) (p : Process n) : Decidable (Settled ms p) :=
  decidable_of_iff' _ (settled_iff ..)

/-- The condition on a step, in the state it is taken in.  For the presence
keys: time does not pass the expiry of an established session's key, and
shutdown does not drop an established session.  For the script: every proxy is
settled. -/
def Undisturbed (s : System k n) : SystemAction k n → Prop
  | .tick ms => ∀ i, (s.proxies i).sync.established = true →
      ∀ key ∈ (s.proxies i).presence, s.now + ms < key.expiresAt
  | .proxy i a => a.isShutdown = true → (s.proxies i).sync.established = false
  | .script =>
    match s.call with
    | .started ms => ∀ i, Settled ms (s.proxies i)
    | _ => True
  | _ => True

instance (s : System k n) (a) : Decidable (Undisturbed s a) := by
  unfold Undisturbed
  repeat' split
  all_goals infer_instance

/-! ## The endpoint's weight -/

theorem Target.not_offered_of_not_weighted {map} (h : t.weighted map = false) :
    ¬ t.Offered map := by
  rintro ⟨_, hentry, e, he, haddr, hsel⟩
  rw [Target.weighted, hentry, List.any_eq_false] at h
  have hw : 0 < e.weight := by
    have := (Bool.and_eq_true_iff.mp hsel).2
    exact of_decide_eq_true this
  exact h e he (by simp [haddr, hw])

theorem Target.not_weighted_cutover (r : RoutingTable) (now : Nat) {m}
    (h : cutoverEndpoint r.map t.modelName t.host t.port now = some m) :
    t.weighted m = false := by
  unfold cutoverEndpoint updateEndpoint at h
  split at h
  · cases h
  · rename_i entry hentry
    obtain ⟨_, hup, rfl⟩ := map_eq_some_iff.mp h
    rw [Target.weighted, AList.lookup_insert]
    rw [List.any_eq_false]
    intro e he
    rcases mem_updateFirst hup (r.unique _ _ hentry) he with ⟨_, hne⟩ | ⟨x, _, _, rfl⟩
    · have : e.address ≠ t.address := hne
      simp [this]
    · simp

/-! ## The invariant -/

def CallInv (clean : Fin k → Prop) : Call k → Prop
  | .scanning _ page seen required => ∀ i, ¬ clean i → i ∈ seen → i ∈ page ∨ i ∈ required
  | .waiting _ required => ∀ i, ¬ clean i → i ∈ required
  | .polling _ required todo acknowledged outstanding =>
    (∀ i, ¬ clean i → i ∈ required) ∧ (∀ i ∈ acknowledged, clean i) ∧
      (outstanding = 0 → ∀ i, ¬ clean i → i ∈ todo)
  | .returned _ => ∀ i, clean i
  | _ => True

/-- What holds after the script, until the endpoint is given weight again. -/
structure After (ms : Nat) (s : System k n) : Prop where
  zero : t.weighted s.routing.map = false
  clean_or_old : ∀ i, Clean t (s.proxies i) ∨ Old ms (s.proxies i)
  acked : ∀ i ∈ s.acks, Clean t (s.proxies i)
  applied : ∀ i, BarrierApplied t barrierId (s.proxies i)
  steady : ∀ i, ¬ Clean t (s.proxies i) → s.steady i = true
  call : CallInv (fun i => Clean t (s.proxies i)) s.call

/-- What holds in every state reached by undisturbed steps. -/
structure System.Inv (s : System k n) : Prop where
  proxy : ∀ i, (s.proxies i).Inv
  live : ∀ i, (s.proxies i).Live s.now
  before : s.call.cutAt = none → s.acks = [] ∧ ∀ i, barrierOf (s.proxies i).sync ≠ some barrierId
  after : ∀ ms, s.call.cutAt = some ms → s.raised = false → After t barrierId ms s

variable {t barrierId}

theorem CallInv.mono {clean clean'} {call : Call k}
    (h : ∀ i, clean i → clean' i) (hc : CallInv clean call) : CallInv clean' call := by
  cases call with
  | idle | started | refused | threw => trivial
  | scanning ms page seen required | waiting ms required => exact fun i hi => hc i (mt (h i) hi)
  | polling ms required =>
    exact ⟨fun i hi => hc.1 i (mt (h i) hi), fun i hi => h i (hc.2.1 i hi),
      fun h0 i hi => hc.2.2 h0 i (mt (h i) hi)⟩
  | returned ms => exact fun i => h i (hc i)

/-! ### The steps of the call -/

section
variable {clean : Fin k → Prop} {ms : Nat} {i : Fin k} {seen required acknowledged : List (Fin k)}
  {outstanding : Nat}

theorem CallInv.scanPage (h : CallInv clean (.scanning ms [] seen required))
    (keys : List (Fin k)) : CallInv clean (.scanning ms keys (seen ++ keys) required) := by
  intro i hc hseen
  rcases mem_append.mp hseen with hseen | hkeys
  · exact .inr ((h i hc hseen).resolve_left not_mem_nil)
  · exact .inl hkeys

theorem CallInv.getKey {page before}
    (h : CallInv clean (.scanning ms (i :: page) seen required))
    (hbefore : ¬ clean i → before = true) :
    CallInv clean (.scanning ms page seen (if before then required.insert i else required)) := by
  intro j hc hseen
  rcases h j hc hseen with _ | _
  · grind [mem_insert_iff.mpr]
  · grind [mem_insert_iff.mpr]

theorem CallInv.scanEnd (h : CallInv clean (.scanning ms [] seen required))
    (hseen : ∀ i, ¬ clean i → i ∈ seen) :
    CallInv clean (if required.isEmpty then .returned ms else .waiting ms required) := by
  have hall : ∀ i, ¬ clean i → i ∈ required :=
    fun i hc => (h i hc (hseen i hc)).resolve_left not_mem_nil
  split
  · rename_i hempty
    intro i
    grind [List.isEmpty_iff.mp]
  · exact hall

theorem CallInv.get {todo before}
    (h : CallInv clean (.polling ms required (i :: todo) acknowledged outstanding))
    (hbefore : ¬ clean i → before = true) :
    CallInv clean (.polling ms required todo acknowledged
      (if i ∈ acknowledged then outstanding else if before then outstanding + 1
       else outstanding)) := by
  refine ⟨h.1, h.2.1, fun hzero j hc => ?_⟩
  by_cases hack : i ∈ acknowledged
  · rw [if_pos hack] at hzero
    rcases mem_cons.mp (h.2.2 hzero j hc) with rfl | hj
    · exact absurd (h.2.1 j hack) hc
    · exact hj
  · rw [if_neg hack] at hzero
    split at hzero
    · exact absurd hzero (Nat.succ_ne_zero _)
    · rename_i hcounted
      rcases mem_cons.mp (h.2.2 hzero j hc) with rfl | hj
      · exact absurd (hbefore hc) hcounted
      · exact hj

theorem CallInv.endPoll (h : CallInv clean (.polling ms required [] acknowledged outstanding)) :
    CallInv clean (if outstanding = 0 then .returned ms else .waiting ms required) := by
  split
  · rename_i hzero
    intro i
    by_contra hc
    exact absurd (h.2.2 hzero i hc) not_mem_nil
  · exact h.1

end

variable {p : Process n} {now : Nat}

theorem presenceReply_of_live (hl : p.Live now) (he : p.sync.established = true) :
    ∃ key, p.presence = some key ∧ presenceReply now p = some key.connectedAt := by
  obtain ⟨key, hkey, hlt, _⟩ := hl he
  exact ⟨key, hkey, by simp [presenceReply, hkey, hlt]⟩

variable {ms : Nat}

theorem Old.connectedBefore (ho : Old ms p) (hl : p.Live now) :
    connectedBefore ms (presenceReply now p) = true := by
  obtain ⟨key, hkey, hreply⟩ := presenceReply_of_live hl ho.established
  rw [hreply]
  exact decide_eq_true (ho.before key hkey)

theorem After.of_proxies {s s' : System k n} (ha : After t barrierId ms s)
    (hrouting : s'.routing = s.routing) (hcall : s'.call = s.call)
    (hclean : ∀ i, Clean t (s.proxies i) → Clean t (s'.proxies i))
    (hold : ∀ i, Clean t (s'.proxies i) ∨ Old ms (s'.proxies i))
    (hacks : ∀ i ∈ s'.acks, Clean t (s'.proxies i))
    (happlied : ∀ i, BarrierApplied t barrierId (s'.proxies i))
    (hlive : ∀ i, (s'.proxies i).Live s'.now)
    (hsteady : ∀ i, s.steady i = true → (presenceReply s'.now (s'.proxies i)).isSome = true →
      s'.steady i = true) : After t barrierId ms s' where
  zero := hrouting ▸ ha.zero
  clean_or_old := hold
  acked := hacks
  applied := happlied
  steady := by
    intro i hi
    obtain ⟨_, _, hreply⟩ := presenceReply_of_live (hlive i) ((hold i).resolve_left hi).established
    exact hsteady i (ha.steady i (mt (hclean i) hi)) (by rw [hreply]; rfl)
  call := hcall ▸ ha.call.mono hclean

variable {s : System k n}

theorem System.Inv.tick (hi : s.Inv t barrierId) (hok : Undisturbed s (.tick ms)) :
    System.Inv t barrierId { s with
      now := s.now + ms
      steady := fun i => s.steady i && (presenceReply (s.now + ms) (s.proxies i)).isSome } := by
  have hlive : ∀ i, (s.proxies i).Live (s.now + ms) := by
    intro i he
    obtain ⟨key, hkey, _, hat⟩ := hi.live i he
    exact ⟨key, hkey, hok i he key hkey, hat⟩
  refine ⟨hi.proxy, hlive, hi.before, fun ms' hms hraised => ?_⟩
  have ha := hi.after ms' hms hraised
  refine ha.of_proxies rfl rfl (fun _ => id) ha.clean_or_old ha.acked ha.applied hlive ?_
  grind

theorem System.Inv.mutate (hi : s.Inv t barrierId) (mutation : Mutation) :
    System.Inv t barrierId { s with
      routing := s.routing.mutate s.now mutation
      raised := s.raised ||
        (s.call.cutAt.isSome && t.weighted (mutation.apply s.routing.map s.now)) } := by
  refine ⟨hi.proxy, hi.live, hi.before, fun ms hms hraised => ?_⟩
  obtain ⟨hraised, hweight⟩ := Bool.or_eq_false_iff.mp hraised
  rw [hms, isSome_some] at hweight
  have ha := hi.after ms hms hraised
  exact ⟨hweight, ha.clean_or_old, ha.acked, ha.applied, ha.steady, ha.call⟩

variable {a : ProcessAction n} {p' : Process n}

theorem barrierOf_syncStep (h : SyncStep now p a p')
    (hb : barrierOf p.sync ≠ some barrierId) (hm : a ≠ .message (some barrierId)) :
    barrierOf p'.sync ≠ some barrierId := by
  cases h with
  | connect | load | loadDone | stamp | register | connected | applied | acknowledge | disconnect
  | quiesced | unregister | fail | shutdown => exact nofun
  | acquire | publish | refresh => exact hb
  | message hsync => exact fun h' => hm (h' ▸ rfl)
  | fetched hsync | appliedBarrier hsync => rwa [hsync] at hb

theorem barrierOf_step (h : p.step now a = some p')
    (hb : barrierOf p.sync ≠ some barrierId) (hm : a ≠ .message (some barrierId)) :
    barrierOf p'.sync ≠ some barrierId := by
  rcases Process.step_cases h with h | h
  · rw [(Process.requestStep_frame h).sync]
    exact hb
  · exact barrierOf_syncStep h hb hm

theorem mem_acksAfter {i j} (h : j ∈ s.acksAfter barrierId i a) :
    j ∈ s.acks ∨ j = i ∧ ∃ c, (s.proxies i).sync = .acking c barrierId := by
  unfold System.acksAfter at h
  grind [mem_cons.mp]

theorem System.answered_message {barrier} (h : s.answered a = .message barrier) :
    a = .message barrier := by
  cases a <;> simp_all [answered]

theorem System.answered_shutdown (h : s.answered a = .shutdown) : a.isShutdown = true := by
  cases a <;> simp_all [answered, ProcessAction.isShutdown]

section
variable (hi : s.Inv t barrierId)
include hi

theorem System.Inv.proxy_step {i} (hok : Undisturbed s (.proxy i a))
    (hdelivers : s.delivers barrierId a = true)
    (h : (s.proxies i).step s.now (s.answered a) = some p') :
    System.Inv t barrierId { s with
      proxies := update s.proxies i p'
      acks := s.acksAfter barrierId i a
      steady := update s.steady i (s.steady i && (presenceReply s.now p').isSome) } := by
  have hshutdown : s.answered a = .shutdown → (s.proxies i).sync.established = false :=
    fun ha => hok (answered_shutdown ha)
  have hlive : ∀ j, (update s.proxies i p' j).Live s.now := by
    intro j
    by_cases hj : j = i
    · subst hj
      simpa using (hi.live j).step h
    · simpa [hj] using hi.live j
  refine ⟨?_, hlive, ?_, ?_⟩
  · intro j
    by_cases hj : j = i
    · subst hj
      simpa using (hi.proxy j).step hshutdown h
    · simpa [hj] using hi.proxy j
  · intro hcut
    obtain ⟨_, hbarrier⟩ := hi.before hcut
    refine ⟨eq_nil_iff_forall_not_mem.mpr fun j hj => ?_, fun j => ?_⟩
    · rcases mem_acksAfter hj with hj | ⟨_, c, hsync⟩
      · grind
      · exact hbarrier i (by rw [hsync]; rfl)
    · grind [barrierOf_step, answered_message, delivers]
  · intro ms hms hraised
    have ha := hi.after ms hms hraised
    have hmap := t.not_offered_of_not_weighted ha.zero
    have hload : ∀ map, s.answered a = .load map → ¬ t.Offered map := by
      cases a <;> simp_all [answered]
    have hfetched : ∀ map, s.answered a = .fetched map → ¬ t.Offered map := by
      cases a <;> simp_all [answered]
    have hclean : ∀ j, Clean t (s.proxies j) → Clean t (update s.proxies i p' j) := by
      intro j hc
      grind [hc.step]
    refine ha.of_proxies rfl rfl hclean ?_ ?_ ?_ hlive ?_
    · grind [ha.clean_or_old, Old.step, hi.live]
    · intro j hj
      rcases mem_acksAfter hj with hj | ⟨rfl, c, hsync⟩
      · exact hclean j (ha.acked j hj)
      · -- the proxy that acknowledges has the barrier's map in its cache
        have happlied := ha.applied j
        grind [BarrierApplied, Clean]
    · intro j
      by_cases hj : j = i
      · subst hj
        simpa using (ha.applied j).step hfetched h
      · simpa [hj] using ha.applied j
    · grind [update_self]

theorem System.Inv.call (hms : s.call.cutAt = some ms) {call} (hcut : call.cutAt = some ms)
    (hcall : s.raised = false → After t barrierId ms s → CallInv (fun i => Clean t (s.proxies i)) call) :
    System.Inv t barrierId { s with call } where
  proxy := hi.proxy
  live := hi.live
  before := fun h => nomatch hcut.symm.trans h
  after := by
    intro _ hms' hraised
    obtain rfl := Option.some.inj (hcut.symm.trans hms')
    have ha := hi.after ms hms hraised
    exact ⟨ha.zero, ha.clean_or_old, ha.acked, ha.applied, ha.steady, hcall hraised ha⟩

theorem System.Inv.script (hcall : s.call = .started ms) (hok : ∀ i, Settled ms (s.proxies i))
    {m} (hm : cutoverEndpoint s.routing.map t.modelName t.host t.port s.now = some m) :
    System.Inv t barrierId { s with
      routing := s.routing.mutate s.now (.cutoverEndpoint t.modelName t.host t.port)
      call := .scanning ms [] [] []
      steady := fun i => (presenceReply s.now (s.proxies i)).isSome } := by
  obtain ⟨_, hbarrier⟩ := hi.before (by rw [hcall]; rfl)
  refine ⟨hi.proxy, hi.live, nofun, fun _ hms' _ => ?_⟩
  obtain rfl := Option.some.inj hms'
  have hco : ∀ i, Clean t (s.proxies i) ∨ Old ms (s.proxies i) := by
    intro i
    by_cases he : (s.proxies i).sync.established = true
    · exact .inr ⟨he, (hok i).before he⟩
    · have hbooted := (hok i).booted
      unfold Clean
      cases hsync : (s.proxies i).sync <;> rw [hsync] at he hbooted <;>
        simp_all [bootstrapping, Sync.established, Sync.mayServe, Sync.serving]
  refine ⟨?_, hco, ?_, ?_, ?_, fun i _ hseen => absurd hseen not_mem_nil⟩
  · grind [RoutingTable.mutate, Mutation.apply, t.not_weighted_cutover]
  · grind
  · intro i
    have hb := hbarrier i
    unfold BarrierApplied
    split
    · rename_i hsync
      rw [hsync] at hb
      exact fun h => absurd (h ▸ rfl) hb
    · rename_i hsync
      rw [hsync] at hb
      exact fun h => absurd (h ▸ rfl) hb
    · trivial
  · intro i h
    obtain ⟨_, _, _⟩ :=
      presenceReply_of_live (hi.live i) ((hco i).resolve_left h).established
    grind [presenceReply]

theorem System.Inv.call_before (hms : s.call.cutAt = none) {call}
    (hcut : call.cutAt = none) :
    System.Inv t barrierId { s with call } :=
  ⟨hi.proxy, hi.live, fun _ => hi.before hms,
    fun _ h => absurd (h.symm.trans hcut) (some_ne_none _)⟩

end

theorem After.connectedBefore (ha : After t barrierId ms s) (hi : s.Inv t barrierId)
    {i} (h : ¬ Clean t (s.proxies i)) :
    connectedBefore ms (presenceReply s.now (s.proxies i)) = true :=
  ((ha.clean_or_old i).resolve_left h).connectedBefore (hi.live i)

theorem After.callInv (ha : After t barrierId ms s) {call}
    (hcall : s.call = call) : CallInv (fun i => Clean t (s.proxies i)) call := by
  rw [← hcall]
  exact ha.call

theorem System.Inv.cleanup (hi : s.Inv t barrierId) :
    System.Inv t barrierId { s with acks := [] } := by
  refine ⟨hi.proxy, hi.live, fun hcut => ⟨rfl, (hi.before hcut).2⟩, fun ms hms hraised => ?_⟩
  have ha := hi.after ms hms hraised
  exact ⟨ha.zero, ha.clean_or_old, fun _ h => absurd h not_mem_nil, ha.applied, ha.steady,
    ha.call⟩

section
variable {s s' : System k n} {a : SystemAction k n} (hi : s.Inv t barrierId) (hok : Undisturbed s a)
include hi hok

theorem System.Inv.callStep (h : s.callStep t a = some s') : s'.Inv t barrierId := by
  unfold System.callStep at h
  split at h
  · -- start
    rename_i hcall
    cases h
    exact hi.call_before (by rw [hcall]; rfl) rfl
  · -- script
    rename_i ms hcall
    split at h
    · grind [Undisturbed, hi.script]
    · cases h
      exact hi.call_before (by rw [hcall]; rfl) rfl
  · -- scanPage
    rename_i keys ms seen required hcall
    obtain ⟨_, h⟩ := ite_none_right_eq_some.mp h
    cases h
    exact hi.call (by rw [hcall]; rfl) rfl fun _ ha => (ha.callInv hcall).scanPage keys
  · -- getKey
    rename_i ms i page seen required hcall
    cases h
    exact hi.call (by rw [hcall]; rfl) rfl fun _ ha =>
      (ha.callInv hcall).getKey (ha.connectedBefore hi)
  · -- scanEnd
    rename_i ms seen required hcall
    obtain ⟨hsteady, h⟩ := ite_none_right_eq_some.mp h
    cases h
    refine hi.call (by rw [hcall]; rfl) (by split <;> rfl) fun _ ha => ?_
    exact (ha.callInv hcall).scanEnd fun i hc => hsteady i (ha.steady i hc)
  · -- smembers
    rename_i ms required hcall
    cases h
    refine hi.call (by rw [hcall]; rfl) rfl fun _ ha => ?_
    exact ⟨ha.callInv hcall, ha.acked, fun _ => ha.callInv hcall⟩
  · -- get
    rename_i ms required i todo acknowledged outstanding hcall
    cases h
    exact hi.call (by rw [hcall]; rfl) rfl fun _ ha =>
      (ha.callInv hcall).get (ha.connectedBefore hi)
  · -- endPoll
    rename_i ms required acknowledged outstanding hcall
    cases h
    exact hi.call (by rw [hcall]; rfl) (by split <;> rfl) fun _ ha =>
      (ha.callInv hcall).endPoll
  · -- timeout
    rename_i ms required hcall
    cases h
    exact hi.call (by rw [hcall]; rfl) rfl fun _ _ => trivial
  · grind [hi.cleanup]
  · grind [hi.cleanup]
  · cases h

/-- **The step lemma.**  Every undisturbed step keeps the invariant. -/
theorem System.Inv.step (h : s.step t barrierId a = some s') : s'.Inv t barrierId := by
  cases a with
  | tick =>
    cases h
    exact hi.tick hok
  | mutate mutation =>
    cases h
    exact hi.mutate mutation
  | proxy i a =>
    obtain ⟨hdelivers, h⟩ := ite_none_right_eq_some.mp h
    obtain ⟨_, hp, rfl⟩ := map_eq_some_iff.mp h
    exact hi.proxy_step hok hdelivers hp
  | _ => exact hi.callStep hok h

end

def System.start (k n now : Nat) (routing : RoutingTable) : System k n where
  now := now
  routing := routing
  proxies := fun _ => Process.new n
  acks := []
  call := .idle
  steady := fun _ => false
  raised := false

theorem System.start_inv (k n now : Nat) (routing : RoutingTable) :
    (System.start k n now routing).Inv t barrierId where
  proxy := fun _ => Process.new_inv n
  live := fun _ => nofun
  before := fun _ => ⟨rfl, fun _ => nofun⟩
  after := nofun

end

/-! ## Two runs -/

def sourceEndpoint : RunnerEndpoint := ⟨"10.0.0.7", 8000, 1, true, some "r1"⟩

def replacementEndpoint : RunnerEndpoint := ⟨"10.0.0.8", 8000, 1, true, some "r2"⟩

/-- An `ACTIVE` model on both endpoints. -/
def movingModel : RoutingTable :=
  ((RoutingTable.empty.mutate 0 (.addEndpoint "m" sourceEndpoint none)).mutate 0
    (.addEndpoint "m" replacementEndpoint none)).mutate 0 (.setModelState "m" .active none)

def sourceTarget : Target := ⟨"m", "10.0.0.7", 8000⟩

def forward (endpoint : RunnerEndpoint) : List (SystemAction 1 1) :=
  let request : List (ProcessAction 1) :=
    [.arrive lone "m", .beginLease lone, .lease lone .lookup, .lease lone .readLock,
      .lease lone .recheck, .checkReady lone, .select lone endpoint]
  request.map (.proxy lone)

/-- The proxy is connected when the call begins, applies its barrier and
acknowledges it; the call returns, and a request goes to the replacement. -/
def orderlyCutover : List (SystemAction 1 1) :=
  [.proxy lone .connect, .proxy lone (.load ∅), .proxy lone .publish, .proxy lone .loadDone,
    .proxy lone .stamp, .proxy lone .register, .proxy lone .connected, .start, .tick 1, .script,
    .proxy lone (.message (some "b1")), .proxy lone (.fetched ∅), .scanPage [lone], .getKey,
    .scanEnd, .proxy lone .acquire, .proxy lone .publish, .proxy lone .applied,
    .proxy lone .acknowledge, .smembers, .get, .endPoll] ++ forward replacementEndpoint

/-- The proxy reads the map before the script and its clock after the call's:
it is registered too late to be required, and serves the map it has read. -/
def lateRegistration : List (SystemAction 1 1) :=
  [.proxy lone .connect, .proxy lone (.load ∅), .start, .script, .tick 1, .proxy lone .publish,
    .proxy lone .loadDone, .proxy lone .stamp, .proxy lone .register, .proxy lone .connected,
    .scanPage [lone], .getKey, .scanEnd] ++ forward sourceEndpoint

end Sardeenz.Cutover
