/-
# `Sardeenz.Election.Exclusion` — when two processes are never leader at once

`isLeader` is a flag that only a response clears.  Nothing compares it with the
time the lease runs out, and `stop` deletes the lease, whoever holds it, while
the flag is still set.  So two processes can report leadership at once
(`leader_during_release`), and what keeps them apart is a matter of timing:

    step                              condition (`Timely`)
    time passes                       not past the expiry of the stored lease while some
                                      process claims leadership
    an acquiring write is performed   before the lease it writes has expired
    a `DELETE` is performed           while no process claims leadership

where a process claims leadership when it reports it, or has acquired the lease
and is waiting for the response.  **Proved here**: in a run whose steps are
timely, and whose processes have names of their own, two processes never report
leadership at once (`at_most_one_leader`).

The invariant is that a claim is backed by the lease: it is there, names the
claimant, and has not expired.  A write keeps it because of what a request
knows of the lease it would replace (`Request.Harmless`): while the version
still matches, that lease has expired or the new one extends it.
-/
import Mathlib.Data.Fintype.Basic
import Sardeenz.Election.Lease

namespace Sardeenz.Election

open Interleave List Option Process

/-! ## Expiry -/

variable {spec : LeaseSpec}

def LeaseSpec.Past (spec : LeaseSpec) (now : Nat) : Prop :=
  ∀ t, spec.renewTime = some t → t ≤ now

theorem LeaseSpec.Past.mono {now later} (h : spec.Past now) (hle : now ≤ later) :
    spec.Past later :=
  fun t ht => Nat.le_trans (h t ht) hle

/-- The new lease has the same holder and lasts at least as long. -/
structure Extends (old new : LeaseSpec) : Prop where
  holder : new.holderIdentity = old.holderIdentity
  lasts : ∀ now, isLeaseExpired old now = false → isLeaseExpired new now = false

theorem extends_renewed {now} (h : spec.Past now) :
    Extends spec { spec with renewTime := some now } where
  holder := rfl
  lasts := by
    intro t ht
    obtain ⟨holder, seconds, renewTime⟩ := spec
    cases renewTime with
    | none => cases ht
    | some r =>
      cases seconds with
      | none => cases ht
      | some =>
        simp only [isLeaseExpired, Bool.or_eq_false_iff, decide_eq_false_iff_not] at ht ⊢
        have hr := h r rfl
        exact ⟨ht.1, fun _ => ht.2 (by omega)⟩

/-! ## What the server does with a request -/

/-- The effect of a request. -/
inductive Performed (api : LeaseApi) : LeaseRequest → LeaseApi × LeaseReply → Prop
  | read {request : LeaseRequest} {reply : LeaseReply} :
      reply ≠ .ok → (∀ lease, reply = .found lease → api.lease = some lease) →
      Performed api request (api, reply)
  | created {spec : LeaseSpec} : api.lease = none →
      Performed api (.post spec) (api.write spec, .ok)
  | replaced {lease : Lease} {spec : LeaseSpec} : api.lease = some lease →
      Performed api (.put lease.resourceVersion spec) (api.write spec, .ok)
  | deleted : Performed api .delete ({ api with lease := none }, .ok)

theorem perform_performed (api : LeaseApi) (request : LeaseRequest) :
    Performed api request (api.perform request) := by
  obtain ⟨lease, _⟩ := api
  cases request with
  | get =>
    cases lease with
    | none => exact .read nofun nofun
    | some lease => exact .read nofun fun _ h => congrArg some (LeaseReply.found.inj h)
  | post spec =>
    cases lease with
    | none => exact .created rfl
    | some lease => exact .read nofun nofun
  | put resourceVersion spec =>
    cases lease with
    | none => exact .read nofun nofun
    | some lease =>
      by_cases hv : lease.resourceVersion = resourceVersion
      · subst hv
        simp only [LeaseApi.perform]
        exact .replaced rfl
      · simp only [LeaseApi.perform, if_neg hv]
        exact .read nofun nofun
  | delete => exact .deleted

/-! ## What requests and calls know of the lease -/

def LeaseApi.Versioned (api : LeaseApi) : Prop :=
  ∀ lease, api.lease = some lease → lease.resourceVersion < api.nextVersion

/-- A lease that was read: while its version is stored, it is what is stored. -/
structure Lease.Copy (api : LeaseApi) (now : Nat) (lease : Lease) : Prop where
  old : lease.resourceVersion < api.nextVersion
  past : lease.spec.Past now
  same : ∀ stored, api.lease = some stored → stored.resourceVersion = lease.resourceVersion →
    stored = lease

/-- Performing the request cannot take the lease from a holder whose time is
not up. -/
def LeaseRequest.Harmless (api : LeaseApi) (now : Nat) : LeaseRequest → Prop
  | .get | .delete => True
  | .post spec => spec.Past now
  | .put resourceVersion spec =>
    resourceVersion < api.nextVersion ∧ spec.Past now ∧
      ∀ stored, api.lease = some stored → stored.resourceVersion = resourceVersion →
        isLeaseExpired stored.spec now = true ∨ Extends stored.spec spec

def LeaseRequest.spec? : LeaseRequest → Option LeaseSpec
  | .post spec | .put _ spec => some spec
  | .get | .delete => none

def Task.Sound (api : LeaseApi) (now : Nat) (identity : String) (task : Task) : Prop :=
  match task.progress with
  | .sent request =>
    request.Harmless api now ∧
      (task.operation = .acquire → request ≠ .delete ∧
        ∀ spec, request.spec? = some spec → spec.holderIdentity = some identity)
  | .answered _ (.found lease) => lease.Copy api now
  | .answered _ _ => True

/-- The server or the clock has moved on, and what was known of the lease is
still so: versions are not reused, and a lease that is still stored was stored
before. -/
structure Later (api : LeaseApi) (now : Nat) (api' : LeaseApi) (now' : Nat) : Prop where
  time : now ≤ now'
  version : api.nextVersion ≤ api'.nextVersion
  stored : ∀ lease, api'.lease = some lease → lease.resourceVersion < api.nextVersion →
    api.lease = some lease

theorem Later.tick (api : LeaseApi) {now now'} (h : now ≤ now') : Later api now api now' :=
  ⟨h, Nat.le_refl _, fun _ hl _ => hl⟩

theorem Later.write (api : LeaseApi) (now : Nat) (spec : LeaseSpec) :
    Later api now (api.write spec) now where
  time := Nat.le_refl _
  version := Nat.le_succ _
  stored := by
    intro _ hl hlt
    cases hl
    exact absurd hlt (Nat.lt_irrefl _)

variable {request : LeaseRequest}

theorem Later.perform {api} (now : Nat) : Later api now (api.perform request).1 now := by
  have h := perform_performed api request
  generalize api.perform request = r at h
  cases h with
  | read => exact .tick api (Nat.le_refl _)
  | created | replaced => exact .write api now _
  | deleted => exact ⟨Nat.le_refl _, Nat.le_refl _, fun _ hl _ => nomatch hl⟩

section
variable {api api' : LeaseApi} {now now' : Nat}

theorem Lease.Copy.later {lease : Lease} (h : lease.Copy api now) (hl : Later api now api' now') :
    lease.Copy api' now' where
  old := Nat.lt_of_lt_of_le h.old hl.version
  past := h.past.mono hl.time
  same stored hs hv := h.same stored (hl.stored stored hs (hv ▸ h.old)) hv

theorem LeaseRequest.Harmless.later (h : request.Harmless api now) (hl : Later api now api' now') :
    request.Harmless api' now' := by
  cases request with
  | get | delete => exact trivial
  | post spec => exact LeaseSpec.Past.mono h hl.time
  | put _ spec =>
    obtain ⟨hold, hpast, hsame⟩ := h
    refine ⟨Nat.lt_of_lt_of_le hold hl.version, hpast.mono hl.time, fun stored hs hv => ?_⟩
    rcases hsame stored (hl.stored stored hs (hv ▸ hold)) hv with _ | hext
    · grind [isLeaseExpired, hl.time]
    · exact .inr hext

theorem Task.Sound.later {identity} {task : Task} (h : task.Sound api now identity)
    (hl : Later api now api' now') : task.Sound api' now' identity := by
  obtain ⟨_, _, progress⟩ := task
  cases progress with
  | sent request => exact ⟨h.1.later hl, h.2⟩
  | answered request reply =>
    cases reply with
    | found => exact Lease.Copy.later h hl
    | ok | notFound | conflict => exact trivial

end

variable {identity : String} {operation : Operation} {inStart : Bool} {api : LeaseApi} {now : Nat}

theorem Task.sound_of_spec?_eq_none (h : request.spec? = none)
    (hdelete : operation = .acquire → request ≠ .delete) :
    (Task.mk operation inStart (.sent request)).Sound api now identity := by
  cases request with
  | get => exact ⟨trivial, fun _ => ⟨nofun, nofun⟩⟩
  | delete => exact ⟨trivial, fun hop => absurd rfl (hdelete hop)⟩
  | post spec | put resourceVersion spec => cases h

theorem Task.sound_perform (request : LeaseRequest)
    (hv : api.Versioned) (hpast : ∀ lease, api.lease = some lease → lease.spec.Past now) :
    (Task.mk operation inStart (.answered request (api.perform request).2)).Sound
      (api.perform request).1 now identity := by
  have hp := perform_performed api request
  generalize api.perform request = r at hp
  cases hp with
  | @read _ reply _ hfound =>
    cases reply with
    | found lease =>
      have hl := hfound lease rfl
      exact ⟨hv lease hl, hpast lease hl, fun _ hs _ => Option.some.inj (hs.symm.trans hl)⟩
    | ok | notFound | conflict => exact trivial
  | created | replaced | deleted => exact trivial

variable {reply : LeaseReply} {next : LeaseRequest}

theorem Task.sound_respond {env}
    (h : (Task.mk operation inStart (.answered request reply)).Sound api now env.identity)
    (hn : operation.respond env now request reply = .send next) :
    (Task.mk operation inStart (.sent next)).Sound api now env.identity := by
  have hpast : (acquiredSpec env now).Past now := fun t ht => Nat.le_of_eq (Option.some.inj ht).symm
  cases operation with
  | acquire =>
    cases request with
    | get =>
      cases reply with
      | notFound =>
        obtain rfl := Continuation.send.inj hn
        exact ⟨hpast, fun _ => ⟨nofun, fun _ h => congrArg _ (Option.some.inj h).symm⟩⟩
      | found lease =>
        change (if isLeaseExpired lease.spec now = true then _ else _) = _ at hn
        by_cases hexp : isLeaseExpired lease.spec now = true
        · rw [if_pos hexp] at hn
          obtain rfl := Continuation.send.inj hn
          refine ⟨⟨h.old, hpast, fun stored hs hv => .inl ?_⟩,
            fun _ => ⟨nofun, fun _ h => congrArg _ (Option.some.inj h).symm⟩⟩
          rw [h.same stored hs hv]
          exact hexp
        · rw [if_neg hexp] at hn
          cases hn
      | ok | conflict => cases hn
    | post spec | put resourceVersion spec | delete => cases reply <;> exact nomatch hn
  | renew =>
    cases request with
    | get =>
      cases reply with
      | found lease =>
        change (if lease.spec.holderIdentity = some env.identity then _ else _) = _ at hn
        by_cases hholder : lease.spec.holderIdentity = some env.identity
        · rw [if_pos hholder] at hn
          obtain rfl := Continuation.send.inj hn
          refine ⟨⟨h.old, fun t ht => Nat.le_of_eq (Option.some.inj ht).symm,
            fun stored hs hv => .inr ?_⟩, fun h => nomatch h⟩
          rw [h.same stored hs hv]
          exact extends_renewed h.past
        · grind
      | notFound | ok | conflict => cases hn
    | post spec | put resourceVersion spec | delete => cases reply <;> exact nomatch hn
  | release => cases hn

/-! ## Claims -/

variable {pr : Process}

theorem Process.claims_iff :
    pr.claims = true ↔ pr.isLeader = true ∨ ∃ task ∈ pr.tasks, task.acquired = true := by
  rw [claims, Bool.or_eq_true, List.any_eq_true]

variable {task : Task}

theorem Process.claims_spawn (h : task.acquired = false)
    (hc : (pr.spawn task).claims = true) : pr.claims = true := by
  rw [claims_iff] at hc ⊢
  refine hc.imp_right ?_
  rintro ⟨t, ht, hacq⟩
  rcases mem_append.mp ht with ht | ht
  · exact ⟨t, ht, hacq⟩
  · grind

variable {k : Nat}

theorem Process.claims_set
    (hc : ({ pr with tasks := pr.tasks.set k task } : Process).claims = true) :
    pr.claims = true ∨ task.acquired = true := by
  grind [claims_iff]

variable {isLeader : Option Bool}

theorem Process.claims_settle (hc : (pr.settle k inStart isLeader).claims = true) :
    pr.claims = true ∨ isLeader = some true := by
  rw [claims_iff] at hc ⊢
  rcases hc with hc | ⟨t, ht, hacq⟩
  · cases isLeader with
    | none => exact .inl (.inl hc)
    | some => exact .inr (congrArg some hc)
  · exact .inl (.inr ⟨t, mem_of_mem_eraseIdx ht, hacq⟩)

theorem acquired_answered
    (h : (Task.mk operation inStart (.answered request reply)).acquired = true) :
    operation = .acquire ∧ reply = .ok := by
  cases operation with
  | acquire =>
    cases reply with
    | ok => exact ⟨rfl, rfl⟩
    | found lease | notFound | conflict => cases h
  | renew | release => cases h

theorem acquired_of_respond {env}
    (h : operation.respond env now request reply = .settle (some true)) :
    (Task.mk operation inStart (.answered request reply)).acquired = true := by
  cases operation with
  | acquire =>
    cases reply with
    | ok => rfl
    | found lease =>
      cases request with
      | get =>
        change (if isLeaseExpired lease.spec now = true then _ else _) = _ at h
        grind [isLeaseExpired]
      | _ => cases h
    | notFound | conflict => cases request <;> exact nomatch h
  | renew =>
    cases reply with
    | found lease =>
      cases request with
      | get =>
        change (if lease.spec.holderIdentity = some env.identity then _ else _) = _ at h
        grind
      | _ => cases h
    | ok | notFound | conflict => cases request <;> exact nomatch h
  | release => cases h

/-! ## Holding the lease -/

def Holds (api : LeaseApi) (now : Nat) (identity : String) : Prop :=
  ∃ lease, api.lease = some lease ∧ lease.spec.holderIdentity = some identity ∧
    isLeaseExpired lease.spec now = false

theorem Holds.perform (h : Holds api now identity)
    (hharmless : request.Harmless api now) (hdelete : request ≠ .delete) :
    Holds (api.perform request).1 now identity := by
  have hp := perform_performed api request
  generalize api.perform request = r at hp
  obtain ⟨lease, hlease, hholder, hexp⟩ := h
  cases hp with
  | read => exact ⟨lease, hlease, hholder, hexp⟩
  | created hnone => exact absurd (hnone.symm.trans hlease) (some_ne_none _).symm
  | replaced hstored =>
    obtain rfl := Option.some.inj (hstored.symm.trans hlease)
    obtain ⟨-, -, hsame⟩ := hharmless
    rcases hsame _ hstored rfl with hexp' | hext
    · exact Bool.noConfusion (hexp.symm.trans hexp')
    · exact ⟨_, rfl, hext.holder.trans hholder, hext.lasts now hexp⟩
  | deleted => exact absurd rfl hdelete

theorem holds_of_perform_ok (hok : (api.perform request).2 = .ok) (hdelete : request ≠ .delete)
    (hspec : ∀ spec, request.spec? = some spec →
      spec.holderIdentity = some identity ∧ isLeaseExpired spec now = false) :
    Holds (api.perform request).1 now identity := by
  have hp := perform_performed api request
  generalize api.perform request = r at hp hok
  cases hp with
  | read hne => exact absurd hok hne
  | created | replaced => exact ⟨_, rfl, hspec _ rfl⟩
  | deleted => exact absurd rfl hdelete

theorem stored_perform (hv : api.Versioned)
    (hpast : ∀ lease, api.lease = some lease → lease.spec.Past now)
    (hharmless : request.Harmless api now) :
    (api.perform request).1.Versioned ∧
      ∀ lease, (api.perform request).1.lease = some lease → lease.spec.Past now := by
  have hp := perform_performed api request
  generalize api.perform request = r at hp
  have hwrite : ∀ spec : LeaseSpec, spec.Past now → (api.write spec).Versioned ∧
      ∀ lease, (api.write spec).lease = some lease → lease.spec.Past now := by
    intro spec hspec
    constructor
    · rintro _ ⟨⟩
      exact Nat.lt_succ_self _
    · rintro _ ⟨⟩
      exact hspec
  cases hp with
  | read => exact ⟨hv, hpast⟩
  | created => exact hwrite _ hharmless
  | replaced => exact hwrite _ hharmless.2.1
  | deleted => exact ⟨nofun, nofun⟩

/-! ## The invariant -/

section
variable {P : Type} (env : P → ProcessEnv)

/-- Every claim is backed by the lease. -/
structure Inv (s : Cluster P) : Prop where
  backed : ∀ p, (s.processes p).claims = true → Holds s.api s.now (env p).identity
  versioned : s.api.Versioned
  past : ∀ lease, s.api.lease = some lease → lease.spec.Past s.now
  sound : ∀ p, ∀ task ∈ (s.processes p).tasks, task.Sound s.api s.now (env p).identity
  stray : ∀ request ∈ s.stray, request.Harmless s.api s.now

def Timely (s : Cluster P) : Action P → Prop
  | .tick now => ∀ p, (s.processes p).claims = true → ∀ lease, s.api.lease = some lease →
      isLeaseExpired lease.spec now = false
  | .perform p k => ∀ task ∈ (s.processes p).tasks[k]?, ∀ request ∈ task.pending,
      (request = .delete → ∀ q, (s.processes q).claims = false) ∧
      (task.operation = .acquire → ∀ spec ∈ request.spec?, isLeaseExpired spec s.now = false)
  | .performStray k => s.stray[k]? = some .delete → ∀ q, (s.processes q).claims = false
  | _ => True

instance [Fintype P] (s : Cluster P) (a : Action P) : Decidable (Timely s a) := by
  unfold Timely
  split <;> infer_instance

variable {env} {s s' : Cluster P}

theorem Inv.start (now : Nat) (lease : Option LeaseSpec)
    (hpast : ∀ spec, lease = some spec → spec.Past now) :
    Inv env (.start now lease : Cluster P) where
  backed p h := nomatch h
  versioned := by
    intro l hl
    obtain ⟨spec, -, rfl⟩ := map_eq_some_iff.mp hl
    exact Nat.one_pos
  past := by
    intro l hl
    obtain ⟨spec, hspec, rfl⟩ := map_eq_some_iff.mp hl
    exact hpast spec hspec
  sound p task ht := nomatch ht
  stray request hr := nomatch hr

theorem Inv.perform (hi : Inv env s) (hharmless : request.Harmless s.api s.now)
    (hdelete : request = .delete → ∀ q, (s.processes q).claims = false) :
    Inv env { s with api := (s.api.perform request).1 } where
  backed := by
    intro q hq
    refine (hi.backed q hq).perform hharmless fun hreq => ?_
    exact Bool.noConfusion ((hdelete hreq q).symm.trans hq)
  versioned := (stored_perform hi.versioned hi.past hharmless).1
  past := (stored_perform hi.versioned hi.past hharmless).2
  sound q task ht := (hi.sound q task ht).later (.perform s.now)
  stray r hr := (hi.stray r hr).later (.perform s.now)

theorem Inv.tick (hi : Inv env s) {now} (hle : s.now ≤ now)
    (ht : ∀ p, (s.processes p).claims = true → ∀ lease, s.api.lease = some lease →
      isLeaseExpired lease.spec now = false) : Inv env { s with now := now } where
  backed := by
    intro p hp
    obtain ⟨lease, hlease, hholder, -⟩ := hi.backed p hp
    exact ⟨lease, hlease, hholder, ht p hp lease hlease⟩
  versioned := hi.versioned
  past lease hl := (hi.past lease hl).mono hle
  sound p task h := (hi.sound p task h).later (.tick s.api hle)
  stray r hr := (hi.stray r hr).later (.tick s.api hle)

variable {p : P}

theorem Inv.harmless_pending (hi : Inv env s) (ht : task ∈ (s.processes p).tasks)
    (hr : task.pending = some request) : request.Harmless s.api s.now := by
  obtain ⟨_, _, progress⟩ := task
  cases progress with
  | sent r =>
    cases hr
    exact (hi.sound p _ ht).1
  | answered r => cases hr

variable [DecidableEq P] {stray : List LeaseRequest}

theorem Inv.put (hi : Inv env s) {pr}
    (hclaims : pr.claims = true → Holds s.api s.now (env p).identity)
    (htasks : ∀ task ∈ pr.tasks, task.Sound s.api s.now (env p).identity)
    (hstray : ∀ request ∈ stray, request.Harmless s.api s.now) :
    Inv env { s.put p pr with stray := stray } where
  backed := by
    intro q hq
    by_cases hqp : q = p
    · subst hqp
      exact hclaims (by simpa [Cluster.put] using hq)
    · exact hi.backed q (by simpa [Cluster.put, hqp] using hq)
  versioned := hi.versioned
  past := hi.past
  sound := by
    intro q task ht
    by_cases hqp : q = p
    · subst hqp
      exact htasks task (by simpa [Cluster.put] using ht)
    · exact hi.sound q task (by simpa [Cluster.put, hqp] using ht)
  stray := hstray

section
variable (hi : Inv env s)
include hi

theorem Inv.spawn {pr : Process} (hspec : request.spec? = none)
    (hdelete : operation = .acquire → request ≠ .delete)
    (hclaims : pr.claims = true → (s.processes p).claims = true)
    (htasks : ∀ task ∈ pr.tasks, task ∈ (s.processes p).tasks) :
    Inv env (s.put p (pr.spawn ⟨operation, inStart, .sent request⟩)) := by
  refine hi.put (fun hc => hi.backed p (hclaims (claims_spawn ?_ hc))) ?_ hi.stray
  · cases operation <;> rfl
  · intro task ht
    rcases mem_append.mp ht with ht | ht
    · exact hi.sound p task (htasks task ht)
    · grind [Task.sound_of_spec?_eq_none]

theorem Inv.step_start (p : P) (hk : (env p).detectKubernetes = true) :
    Inv env (s.put p ((s.processes p).start (env p))) := by
  rw [Process.start, if_pos hk]
  exact hi.spawn rfl nofun id fun _ h => h

theorem Inv.step_timer (p : P) : Inv env (s.put p (s.processes p).tryRenew) := by
  unfold tryRenew
  split
  all_goals exact hi.spawn rfl nofun id fun _ h => h

theorem Inv.step_stop (p : P) : Inv env (s.put p ((s.processes p).stop (env p))) := by
  simp only [stop]
  split
  · exact hi.spawn rfl nofun id fun _ h => h
  · refine hi.put (fun _ => hi.backed p ?_) (hi.sound p) hi.stray
    grind [claims_iff]

theorem Inv.step_perform (ht : (s.processes p).tasks[k]? = some ⟨operation, inStart, .sent request⟩)
    (htimely : Timely s (.perform p k)) :
    Inv env { s.put p { s.processes p with
        tasks := (s.processes p).tasks.set k
          ⟨operation, inStart, .answered request (s.api.perform request).2⟩ } with
      api := (s.api.perform request).1 } := by
  obtain ⟨hdelete, hunexpired⟩ := htimely _ ht request rfl
  obtain ⟨hharmless, hown⟩ := hi.sound p _ (mem_of_getElem? ht)
  have hi' := hi.perform hharmless hdelete
  refine hi'.put (fun hc => ?_) ?_ hi'.stray
  · rcases claims_set hc with hc | hacq
    · exact hi'.backed p hc
    · -- the call has just acquired the lease
      obtain ⟨rfl, hok⟩ := acquired_answered hacq
      exact holds_of_perform_ok hok (hown rfl).1 fun spec hs =>
        ⟨(hown rfl).2 spec hs, hunexpired rfl spec hs⟩
  · intro task htask
    rcases mem_or_eq_of_mem_set htask with htask | rfl
    · exact hi'.sound p task htask
    · exact Task.sound_perform request hi.versioned hi.past

theorem Inv.step_respond {reply}
    (ht : (s.processes p).tasks[k]? = some ⟨operation, inStart, .answered request reply⟩) (hnext : operation.respond (env p) s.now request reply = .send next) :
    Inv env (s.put p { s.processes p with
      tasks := (s.processes p).tasks.set k ⟨operation, inStart, .sent next⟩ }) := by
  refine hi.put (fun hc => ?_) ?_ hi.stray
  · rcases claims_set hc with hc | hacq
    · exact hi.backed p hc
    · cases operation <;> exact nomatch hacq
  · grind [hi.sound, Task.sound_respond]

theorem Inv.settle (hclaims : isLeader = some true → (s.processes p).claims = true)
    (hstray : ∀ request ∈ stray, request.Harmless s.api s.now) :
    Inv env { s.put p ((s.processes p).settle k inStart isLeader) with stray := stray } := by
  refine hi.put (fun hc => hi.backed p ?_) ?_ hstray
  · exact (claims_settle hc).elim id hclaims
  · intro task ht
    exact hi.sound p task (mem_of_mem_eraseIdx ht)

end

/-- **The step lemma.** -/
theorem Inv.step (hk : ∀ p, (env p).detectKubernetes = true) (hi : Inv env s) {a}
    (htimely : Timely s a) (h : Election.step env s a = some s') : Inv env s' := by
  cases a with
  | tick =>
    obtain ⟨hle, h⟩ := ite_none_right_eq_some.mp h
    cases h
    exact hi.tick hle htimely
  | start p =>
    cases h
    exact hi.step_start p (hk p)
  | timer p =>
    obtain ⟨-, h⟩ := ite_none_right_eq_some.mp h
    cases h
    exact hi.step_timer p
  | stop p =>
    cases h
    exact hi.step_stop p
  | perform p k =>
    obtain ⟨operation, inStart, request, ht, rfl⟩ := step_perform_eq_some env h
    exact hi.step_perform ht htimely
  | respond p k =>
    obtain ⟨operation, inStart, request, _, ht, h⟩ := step_respond_eq_some env h
    rcases h with ⟨_, hnext, rfl⟩ | ⟨_, _, rfl⟩
    · exact hi.step_respond ht hnext
    · refine hi.settle (fun _ => claims_iff.mpr (.inr ?_)) hi.stray
      grind [acquired_of_respond]
  | fail p k =>
    obtain ⟨_, ht, rfl⟩ := step_fail_eq_some env h
    refine hi.settle nofun fun request hr => ?_
    rcases mem_append.mp hr with hr | hr
    · exact hi.harmless_pending (mem_of_getElem? ht) (mem_toList.mp hr)
    · exact hi.stray request hr
  | performStray k =>
    obtain ⟨request, hr, rfl⟩ := step_performStray_eq_some env h
    have hi' := hi.perform (hi.stray request (mem_of_getElem? hr))
      fun hreq => htimely (hreq ▸ hr)
    exact { hi' with stray := fun r hr => hi'.stray r (mem_of_mem_eraseIdx hr) }
  | crash p =>
    cases h
    refine hi.put (fun hc => Bool.noConfusion hc) (fun _ ht => absurd ht not_mem_nil)
      fun request hr => ?_
    rcases mem_append.mp hr with hr | hr
    · grind [hi.harmless_pending]
    · exact hi.stray request hr

/-- **At most one leader.**  In a run of any number of control planes whose
steps are all timely, no two processes report leadership at the same moment. -/
theorem at_most_one_leader (hk : ∀ p, (env p).detectKubernetes = true)
    (hname : Function.Injective fun p => (env p).identity) {now : Nat} {lease : Option LeaseSpec}
    (hpast : ∀ spec, lease = some spec → spec.Past now)
    (hr : Reach (Election.step env) Timely (.start now lease) s) (p q : P)
    (hp : (s.processes p).isLeader = true) (hq : (s.processes q).isLeader = true) : p = q := by
  have hi : Inv env s := hr.inductive_inv (.start now lease hpast) fun hi ht h => hi.step hk ht h
  obtain ⟨l, hl, hlp, -⟩ := hi.backed p (claims_iff.mpr (.inl hp))
  obtain ⟨_, hl', hlq, -⟩ := hi.backed q (claims_iff.mpr (.inl hq))
  obtain rfl := Option.some.inj (hl.symm.trans hl')
  exact hname (Option.some.inj (hlp.symm.trans hlq))

end

/-! ## Two control planes -/

def replicas (p : Fin 2) : ProcessEnv where
  kubernetesServiceHost := some "10.96.0.1"
  singleInstance := none
  hostname := some (if p = left then "control-plane-a" else "control-plane-b")
  leaseDurationMs := 30000

def twoRequests (p : Fin 2) : List (Action (Fin 2)) :=
  [.perform p 0, .respond p 0, .perform p 0, .respond p 0]

/-- One replica acquires the lease and renews it, then its next renewal fails;
the other takes over when the lease has run out. -/
def takeover : List (Action (Fin 2)) :=
  [.start left] ++ twoRequests left ++
  [.start right, .perform right 0, .respond right 0, .tick 20000, .timer left] ++
  twoRequests left ++
  [.tick 40000, .timer left, .fail left 0, .performStray 0, .tick 60000, .timer right] ++
  twoRequests right

theorem takeover_isSome :
    (exec (guarded (step replicas) Timely) (.start 0 none) takeover).isSome := by
  decide +kernel

/-- After the takeover the second replica is leader and no other process is. -/
theorem takeover_one_leader :
    let s := (exec (guarded (step replicas) Timely) (.start 0 none) takeover).get takeover_isSome
    (s.processes right).isLeader = true ∧ ∀ p, (s.processes p).isLeader = true → p = right :=
  ⟨by decide +kernel, fun p hp =>
    at_most_one_leader (by decide) (by decide +kernel)
      (fun _ h => absurd h.symm (some_ne_none _))
      (reach_get takeover_isSome) p right hp (by decide +kernel)⟩

/-- One replica is leader and stops; the server performs its `DELETE`, and
before the response arrives the other one starts. -/
def releaseOverlap : List (Action (Fin 2)) :=
  [.start left] ++ twoRequests left ++ [.stop left, .perform left 0, .start right] ++
  twoRequests right

/-- **Two leaders.**  While `stop` waits for the response to its `DELETE`, the
stopping process still reports leadership and another one acquires the lease. -/
theorem leader_during_release : (exec (step replicas) (.start 0 none) releaseOverlap).map (fun s =>
      ((s.processes left).isLeader, (s.processes right).isLeader)) = some (true, true) := by
  decide +kernel

end Sardeenz.Election
