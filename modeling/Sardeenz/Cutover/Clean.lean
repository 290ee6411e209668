/-
# `Sardeenz.Cutover.Clean` — one proxy, seen from a cutover

A cutover takes one endpoint of one model out of selection.  Once the routing
map in Redis no longer offers the endpoint, a proxy is **clean** if it cannot
send another request there without the endpoint being offered again, and
**old** if it is an established session that registered before the cutover.

    sync state                              clean when
    idle, subscribed, quiesced, stopped     always: it has to load the map before it serves
    loading                                 the map being loaded does not offer the endpoint
    any other                               neither the cache nor the map on its way into it does

A clean proxy stays clean, and an old one becomes clean or stays old, whatever
step it takes (`Clean.step`, `Old.step`).  A proxy that has applied the
cutover's barrier is clean (`BarrierApplied`).
-/
import Sardeenz.Proxy.Session

namespace Sardeenz.Cutover

open Proxy Cache

/-- The endpoint to cut over: of which model, and where. -/
structure Target where
  modelName : String
  host : String
  port : Nat

def Target.address (t : Target) : String × Nat := (t.host, t.port)

variable (t : Target)

def Target.Offered (map : RoutingMap) : Prop :=
  ∃ entry, map.lookup t.modelName = some entry ∧ Selectable entry t.address

def Target.Cached (inner : Cached) : Prop :=
  ∃ c, inner.lookup t.modelName = some c ∧ Selectable c.value t.address

/-- The map on its way into the cache, if there is one, does not offer the
endpoint. -/
def NotIncoming : Writer → Prop
  | .acquiring map _ _ => ¬ t.Offered map
  | _ => True

/-- Neither the cache nor what is on its way into it has the endpoint. -/
structure Fresh {n : Nat} (cache : Cache n) : Prop where
  current : ¬ t.Cached cache.inner
  incoming : NotIncoming t cache.writer

/-- The replacement that is under way, or has just swapped, leaves the endpoint
out. -/
def Replaced {n : Nat} (cache : Cache n) : Prop :=
  match cache.writer with
  | .acquiring map _ _ => ¬ t.Offered map
  | _ => ¬ t.Cached cache.inner

/-- No request of the proxy can go to the endpoint before the map in Redis
offers it again. -/
def Clean {n : Nat} (p : Process n) : Prop :=
  match p.sync with
  | .idle | .subscribed | .quiesced | .stopped => True
  | .loading => Replaced t p.cache
  | _ => Fresh t p.cache

/-- An established session that registered no later than the cutover began. -/
structure Old (cutoverStartedMs : Nat) {n : Nat} (p : Process n) : Prop where
  established : p.sync.established = true
  before : ∀ key, p.presence = some key → key.connectedAt ≤ cutoverStartedMs

def BarrierApplied (barrierId : String) {n : Nat} (p : Process n) : Prop :=
  match p.sync with
  | .applying _ (some barrier) => barrier = barrierId → Replaced t p.cache
  | .acking _ barrier => barrier = barrierId → Fresh t p.cache
  | _ => True

/-! ## The cache -/

section
variable {t} {n : Nat} {s s' : Cache n}

theorem Fresh.replaced (h : Fresh t s) : Replaced t s := by
  unfold Replaced
  split
  · rename_i hw
    have := h.incoming
    rw [hw] at this
    exact this
  · exact h.current

theorem Replaced.notIncoming (h : Replaced t s) : NotIncoming t s.writer := by
  unfold Replaced at h
  grind [NotIncoming]

theorem replaced_beginReplace {map} (hmap : ¬ t.Offered map)
    (h : s.step (.beginReplace map) = some s') : Replaced t s' := by
  rw [step_beginReplace h]
  exact hmap

theorem Fresh.acquire (hf : Fresh t s) (h : s.step .acquire = some s') : Fresh t s' := by
  rcases step_acquire h with ⟨_, g, todo, held, hw, _, rfl⟩ | ⟨g, todo, held, _, _, rfl⟩
  · have hin := hf.incoming
    rw [hw] at hin
    exact ⟨hf.current, hin⟩
  · exact ⟨hf.current, trivial⟩

theorem Replaced.acquire (hr : Replaced t s) (h : s.step .acquire = some s') : Replaced t s' := by
  grind [step_acquire, Replaced]

theorem fresh_publish (hin : NotIncoming t s.writer) (h : s.step .publish = some s') :
    Fresh t s' := by
  obtain ⟨_, _, hw, rfl⟩ := step_publish h
  rw [hw] at hin
  refine ⟨?_, trivial⟩
  rintro ⟨c, hc, _⟩
  rw [lookup_nextCached] at hc
  obtain ⟨value, hvalue, rfl⟩ := Option.map_eq_some_iff.mp hc
  refine hin ⟨value, hvalue, ?_⟩
  grind [cachedEntry]

theorem Replaced.finish (hr : Replaced t s) (h : s.step .finishReplace = some s') : Fresh t s' := by
  obtain ⟨_, _, hw, rfl⟩ := step_finishReplace h
  rw [Replaced, hw] at hr
  exact ⟨hr, trivial⟩

/-! ## The proxy -/

variable {p p' : Process n}

theorem Clean.of_sameSession (hc : Clean t p) (h : SameSession p p') : Clean t p' := by
  have hfresh : Fresh t p.cache → Fresh t p'.cache := by
    intro hf
    exact ⟨h.inner ▸ hf.current, h.writer ▸ hf.incoming⟩
  grind [Replaced, h.writer, h.inner, Clean, h.sync]

theorem Clean.fresh_of_mayServe (hc : Clean t p) (h : p.sync.mayServe = true) :
    Fresh t p.cache := by
  unfold Clean at hc
  cases hsync : p.sync with
  | idle | subscribed | loading | loaded | stamped | registered | quiesced | stopped =>
    rw [hsync] at h
    cases h
  | listening | fetching | applying | acking | quiescing =>
    rw [hsync] at hc
    exact hc

variable {a : ProcessAction n}

theorem Clean.syncStep {now} (hc : Clean t p) (hload : ∀ map, a = .load map → ¬ t.Offered map)
    (hfetched : ∀ map, a = .fetched map → ¬ t.Offered map) (h : SyncStep now p a p') :
    Clean t p' := by
  unfold Clean at hc
  cases h with
  | connect | quiesced | unregister | fail | shutdown => trivial
  | load hsync hs => exact replaced_beginReplace (hload _ rfl) hs
  | acquire hsync hs =>
    cases hp : p.sync with
    | idle | subscribed | quiesced | stopped => trivial
    | loading =>
      rw [hp] at hc
      exact hc.acquire hs
    | _ =>
      rw [hp] at hc
      exact Fresh.acquire hc hs
  | publish hsync hs =>
    cases hp : p.sync with
    | idle | subscribed | quiesced | stopped => trivial
    | loading =>
      rw [hp] at hc
      exact (fresh_publish hc.notIncoming hs).replaced
    | _ =>
      rw [hp] at hc
      exact fresh_publish (Fresh.incoming hc) hs
  | loadDone hsync hs =>
    rw [hsync] at hc
    exact Replaced.finish hc hs
  | stamp hsync | register hsync | connected hsync | message hsync | acknowledge hsync =>
    rw [hsync] at hc
    exact hc
  | refresh => exact hc
  | fetched hsync hs =>
    rw [hsync] at hc
    rw [step_beginReplace hs]
    exact ⟨hc.current, hfetched _ rfl⟩
  | applied hsync hs | appliedBarrier hsync hs =>
    rw [hsync] at hc
    exact hc.replaced.finish hs
  | disconnect hsync hs =>
    rw [quiesce_eq hs]
    exact ⟨(Clean.fresh_of_mayServe hc (Sync.mayServe_of_serving hsync)).current, trivial⟩

theorem Old.syncStep {now cutoverStartedMs}
    (ho : Old cutoverStartedMs p) (hl : p.Live now) (hshutdown : a ≠ .shutdown)
    (h : SyncStep now p a p') : Clean t p' ∨ Old cutoverStartedMs p' := by
  have he := ho.established
  cases h with
  | connect hsync | load hsync | loadDone hsync | stamp hsync | register hsync
  | unregister hsync =>
    rw [hsync] at he
    cases he
  | quiesced | fail => exact .inl trivial
  | shutdown => exact absurd rfl hshutdown
  | acquire | publish => exact .inr ⟨ho.established, ho.before⟩
  | connected | message | fetched | applied | appliedBarrier | acknowledge | disconnect =>
    exact .inr ⟨rfl, ho.before⟩
  | refresh hsync =>
    refine .inr ⟨ho.established, ?_⟩
    obtain ⟨key, hkey, _, hat⟩ := hl he
    intro _ hkey'
    obtain rfl := Option.some.inj hkey'
    have := hat _ (Sync.connectedAt_of_refreshes hsync)
    exact this ▸ ho.before key hkey

variable {barrierId : String}

theorem BarrierApplied.syncStep {now}
    (hb : BarrierApplied t barrierId p) (hfetched : ∀ map, a = .fetched map → ¬ t.Offered map)
    (h : SyncStep now p a p') : BarrierApplied t barrierId p' := by
  unfold BarrierApplied at hb
  cases h with
  | connect | load | loadDone | stamp | register | connected | message | applied | acknowledge
  | disconnect | quiesced | unregister | fail | shutdown => trivial
  | refresh => exact hb
  | acquire hsync hs =>
    cases hp : p.sync with
    | applying c barrier =>
      rw [hp] at hb
      cases barrier with
      | none => trivial
      | some b => exact fun hbar => (hb hbar).acquire hs
    | _ =>
      rw [hp] at hsync
      trivial
  | publish hsync hs =>
    cases hp : p.sync with
    | applying c barrier =>
      rw [hp] at hb
      cases barrier with
      | none => trivial
      | some b => exact fun hbar => (fresh_publish (hb hbar).notIncoming hs).replaced
    | _ =>
      rw [hp] at hsync
      trivial
  | fetched hsync hs =>
    rename_i map cache c barrier
    cases barrier with
    | none => trivial
    | some b => exact fun _ => replaced_beginReplace (hfetched _ rfl) hs
  | appliedBarrier hsync hs =>
    rw [hsync] at hb
    exact fun hbar => (hb hbar).finish hs

theorem BarrierApplied.of_sameSession (hb : BarrierApplied t barrierId p)
    (h : SameSession p p') : BarrierApplied t barrierId p' := by
  unfold BarrierApplied at hb ⊢
  rw [h.sync]
  split at hb
  · intro hbar
    rw [Replaced, h.writer, h.inner]
    exact hb hbar
  · intro hbar
    exact ⟨h.inner ▸ (hb hbar).current, h.writer ▸ (hb hbar).incoming⟩
  · trivial

section
variable {now : Nat} {a : ProcessAction n} (hload : ∀ map, a = .load map → ¬ t.Offered map)
    (hfetched : ∀ map, a = .fetched map → ¬ t.Offered map) (h : p.step now a = some p')
include hload hfetched h

/-- **A clean proxy stays clean.** -/
theorem Clean.step (hc : Clean t p) : Clean t p' := by
  rcases Process.step_cases h with h | h
  · exact hc.of_sameSession (Process.requestStep_frame h)
  · exact hc.syncStep hload hfetched h

omit hload in
theorem BarrierApplied.step (hb : BarrierApplied t barrierId p) :
    BarrierApplied t barrierId p' := by
  rcases Process.step_cases h with h | h
  · exact hb.of_sameSession (Process.requestStep_frame h)
  · exact hb.syncStep hfetched h

omit hload hfetched in
/-- **An old session becomes clean or stays old.** -/
theorem Old.step {cutoverStartedMs : Nat} (ho : Old cutoverStartedMs p) (hl : p.Live now)
    (hshutdown : a = .shutdown → p.sync.established = false) :
    Clean t p' ∨ Old cutoverStartedMs p' := by
  rcases Process.step_cases h with h | h
  · have hsame := Process.requestStep_frame h
    exact .inr ⟨hsame.sync ▸ ho.established, hsame.presence ▸ ho.before⟩
  · grind [ho.syncStep, ho.established]

end

theorem Clean.no_request (hc : Clean t p) (hi : p.Inv) {r endpoint}
    (hreq : p.requests r = .forwarding endpoint) {lease}
    (hl : p.cache.readers r = .leased t.modelName lease) : endpoint.address ≠ t.address := by
  intro haddr
  obtain ⟨_, _, hl', hactive, hmem, hsel⟩ := hi.forwarding r endpoint hreq
  obtain ⟨rfl, rfl⟩ := Reader.leased.inj (hl.symm.trans hl')
  have hserve := hi.admitted r _ lease (by rw [hreq]; rfl) hl fun hun => hun.inactive hactive
  exact (hc.fresh_of_mayServe hserve).current
    (hi.cache.lease_selectable hl ⟨endpoint, hmem, haddr, hsel⟩)

end

end Sardeenz.Cutover
