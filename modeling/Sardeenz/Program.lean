/-
# `Sardeenz.Program` — asynchronous programs, and the contracts they obey

An asynchronous function is a tree: it has settled (`done`), or it awaits the
answer to one call and then goes on.  Between two awaits nothing else of its
process runs, so a program is interleaved with others exactly at its calls.
`R c` is what call `c` answers; any call may fail instead.

    handle p f     `p`, then `f` on its outcome, whichever it is
    bind           `handle`, going on only after a value          `await`
    tryCatch       `handle`, going on only after an error         `try … catch`
    andFinally     `handle`, with the outcome of `p` kept         `try … finally`

Concurrency is reasoned about in two steps that do not meet.  A `Contract` is
an automaton over calls and answers: which calls are `allowed` where, which
answers are `expected`, and where the automaton goes `next`.  That a program
obeys a contract is a property of its text alone (`Obeys`).  That a system of
threads obeying a contract keeps an invariant of the shared world is a property
of single calls alone (`Threads.step_obey`): no program text appears in it.
-/
import Sardeenz.Run

namespace Interleave

/-- A program over the calls `C`, failing with `ε` or returning an `α`. -/
inductive Program (C : Type) (R : C → Type) (ε α : Type) : Type
  | done (r : Except ε α)
  | call (c : C) (k : Except ε (R c) → Program C R ε α)

namespace Program

variable {C : Type} {R : C → Type} {ε α β : Type}

/-- Run a program and go on with its outcome. -/
def handle : Program C R ε α → (Except ε α → Program C R ε β) → Program C R ε β
  | done r, f => f r
  | call c k, f => call c fun r => (k r).handle f

def perform (c : C) : Program C R ε (R c) := call c done

/-- Go on with the value; an error goes through. -/
def bind (p : Program C R ε α) (f : α → Program C R ε β) : Program C R ε β :=
  p.handle fun
    | .ok a => f a
    | .error e => done (.error e)

instance : Monad (Program C R ε) where
  pure a := done (.ok a)
  bind := Program.bind

theorem handle_handle {γ : Type} {f : Except ε α → Program C R ε β}
    {g : Except ε β → Program C R ε γ} :
    ∀ p : Program C R ε α, (p.handle f).handle g = p.handle fun r => (f r).handle g
  | done _ => rfl
  | call c k => congrArg (call c) (funext fun r => handle_handle (k r))

theorem handle_done : ∀ p : Program C R ε α, p.handle done = p
  | done _ => rfl
  | call c k => congrArg (call c) (funext fun r => handle_done (k r))

theorem id_map (p : Program C R ε α) : id <$> p = p := by
  refine Eq.trans (congrArg p.handle (funext fun r => ?_)) p.handle_done
  cases r with
  | ok a | error e => rfl

theorem bind_assoc {γ : Type} (p : Program C R ε α) (f : α → Program C R ε β)
    (g : β → Program C R ε γ) : p >>= f >>= g = p >>= fun a => f a >>= g := by
  refine (handle_handle p).trans (congrArg p.handle (funext fun r => ?_))
  cases r with
  | ok a | error e => rfl

instance : LawfulMonad (Program C R ε) := .mk' _ id_map (fun _ _ => rfl) bind_assoc

instance : MonadExceptOf ε (Program C R ε) where
  throw e := done (.error e)
  tryCatch p h := p.handle fun
    | .ok a => done (.ok a)
    | .error e => h e

variable (p : Program C R ε α)

/-- `try { p } finally { f }`: an error of `f` replaces the outcome of `p`. -/
def andFinally (f : Program C R ε Unit) : Program C R ε α :=
  p.handle fun r => f.bind fun _ => done r

/-- `try { p } catch {}`: the outcome is dropped. -/
def attempt : Program C R ε Unit := p.handle fun _ => done (.ok ())

/-- `for (const a of as) { f(a) }`. -/
def each (f : α → Program C R ε Unit) : List α → Program C R ε Unit
  | [] => pure ()
  | a :: as => do
    f a
    each f as

/-- The program with its calls as calls of a larger program. -/
def embed {C' : Type} {R' : C' → Type} (f : C → C') (g : ∀ c, R' (f c) → R c) :
    Program C R ε α → Program C' R' ε α
  | done r => done r
  | call c k => call (f c) fun r => (k (r.map (g c))).embed f g

/-- The call the program awaits, if it has not settled. -/
def awaited : Program C R ε α → Option C
  | done _ => none
  | call c _ => some c

/-- The program has returned or thrown. -/
def Settled : Program C R ε α → Prop
  | done _ => True
  | call _ _ => False

instance : ∀ p : Program C R ε α, Decidable p.Settled
  | done _ => isTrue trivial
  | call _ _ => isFalse id

def Threw : Program C R ε α → Prop
  | done (.error _) => True
  | done (.ok _) | call _ _ => False

instance : ∀ p : Program C R ε α, Decidable p.Threw
  | done (.error _) => isTrue trivial
  | done (.ok _) | call _ _ => isFalse id

end Program

/-! ## Contracts -/

/-- An automaton over calls and their answers. -/
structure Contract (C : Type) (R : C → Type) (ε L : Type) where
  allowed : L → C → Prop
  expected : L → (c : C) → Except ε (R c) → Prop
  next : L → (c : C) → Except ε (R c) → L

section
variable {C : Type} {R : C → Type} {ε L α β : Type} {P : Contract C R ε L}

/-- From state `l` on, the program makes only allowed calls as long as it gets
expected answers, and settles in a state that fits its outcome. -/
def Obeys (P : Contract C R ε L) (Q : L → Except ε α → Prop) : Program C R ε α → L → Prop
  | .done r, l => Q l r
  | .call c k, l => P.allowed l c ∧ ∀ r, P.expected l c r → Obeys P Q (k r) (P.next l c r)

variable {Q Q' : L → Except ε α → Prop} {S : L → Except ε β → Prop} {l : L}

theorem Obeys.mono (h : ∀ l r, Q l r → Q' l r) :
    ∀ {p : Program C R ε α} {l : L}, Obeys P Q p l → Obeys P Q' p l
  | .done _, _, hp => h _ _ hp
  | .call _ _, _, hp => ⟨hp.1, fun r hr => Obeys.mono h (hp.2 r hr)⟩

/-- **Sequencing.**  The rules for `await`, `catch` and `finally` are cases of
this one. -/
theorem obeys_handle {f : Except ε α → Program C R ε β} : ∀ {p : Program C R ε α} {l : L},
      Obeys P S (p.handle f) l ↔ Obeys P (fun l r => Obeys P S (f r) l) p l
  | .done _, _ => Iff.rfl
  | .call _ _, _ => and_congr_right fun _ => forall_congr' fun _ => imp_congr_right fun _ =>
    obeys_handle

variable {p : Program C R ε α} {f : α → Program C R ε β}

theorem obeys_bind : Obeys P S (p >>= f) l ↔ Obeys P (fun l r => match r with
        | .ok a => Obeys P S (f a) l
        | .error e => S l (.error e)) p l := by
  refine obeys_handle.trans ⟨Obeys.mono ?_, Obeys.mono ?_⟩
  all_goals
    rintro l (e | a) h
    · exact h
    · exact h

variable {h : ε → Program C R ε α}

theorem obeys_tryCatch : Obeys P Q (tryCatch p h) l ↔ Obeys P (fun l r => match r with
        | .ok a => Q l (.ok a)
        | .error e => Obeys P Q (h e) l) p l := by
  refine obeys_handle.trans ⟨Obeys.mono ?_, Obeys.mono ?_⟩
  all_goals
    rintro l (e | a) h
    · exact h
    · exact h

theorem Obeys.tryCatch {S : L → Except ε α → Prop} (hp : Obeys P S p l)
    (hok : ∀ l a, S l (.ok a) → Q l (.ok a)) (herr : ∀ l e, S l (.error e) → Obeys P Q (h e) l) :
    Obeys P Q (tryCatch p h) l := by
  refine obeys_tryCatch.mpr (hp.mono ?_)
  rintro l (e | a) hs
  · exact herr l e hs
  · exact hok l a hs

theorem obeys_andFinally {f : Program C R ε Unit} : Obeys P Q (p.andFinally f) l ↔
      Obeys P (fun l r => Obeys P (fun l r' => match r' with
        | .ok _ => Q l r
        | .error e => Q l (.error e)) f l) p l := by
  refine obeys_handle.trans ⟨Obeys.mono fun l r h => ?_, Obeys.mono fun l r h => ?_⟩
  · refine (obeys_handle.mp h).mono ?_
    rintro l (e | u) h
    · exact h
    · exact h
  · refine obeys_handle.mpr (h.mono ?_)
    rintro l (e | u) h
    · exact h
    · exact h

@[simp] theorem obeys_pure {a : α} : Obeys P Q (pure a) l ↔ Q l (.ok a) := Iff.rfl

@[simp] theorem obeys_throw {e : ε} : Obeys P Q (throw e) l ↔ Q l (.error e) := Iff.rfl

/-! ### Programs that keep a property of the contract's state -/

/-- Whatever its outcome, and at every call, the program stays within `I`. -/
def Keeps (P : Contract C R ε L) (I : L → Prop) (p : Program C R ε α) : Prop :=
  ∀ l, I l → Obeys P (fun l' _ => I l') p l

/-- The call is allowed within `I` and stays within it. -/
def KeepsCall (P : Contract C R ε L) (I : L → Prop) (c : C) : Prop :=
  ∀ l, I l → P.allowed l c ∧ ∀ r, P.expected l c r → I (P.next l c r)

variable {I : L → Prop}

theorem Keeps.pure (a : α) : Keeps P I (pure a : Program C R ε α) := fun _ h => h

theorem Keeps.throw (e : ε) : Keeps P I (throw e : Program C R ε α) := fun _ h => h

variable {c : C}

theorem KeepsCall.perform (h : KeepsCall P I c) : Keeps P I (Program.perform c) := h

theorem keepsCall_of_next_eq (hallowed : ∀ l, I l → P.allowed l c)
    (hnext : ∀ l r, P.next l c r = l) : KeepsCall P I c :=
  fun l hl => ⟨hallowed l hl, fun r _ => (hnext l r).symm ▸ hl⟩

theorem Keeps.handle {f : Except ε α → Program C R ε β} (hp : Keeps P I p)
    (hf : ∀ r, Keeps P I (f r)) : Keeps P I (p.handle f) :=
  fun l hl => obeys_handle.mpr ((hp l hl).mono fun l r hl => hf r l hl)

theorem Keeps.bind (hp : Keeps P I p) (hf : ∀ a, Keeps P I (f a)) : Keeps P I (p >>= f) := by
  refine hp.handle fun r => ?_
  cases r with
  | ok a => exact hf a
  | error e => exact Keeps.throw e

/-- After a program that keeps `I`, only `I` is known. -/
theorem Keeps.obeys_bind (hp : Keeps P I p) (hl : I l) (hf : ∀ l a, I l → Obeys P S (f a) l)
    (he : ∀ l e, I l → S l (.error e)) :
    Obeys P S (p >>= f) l := by
  refine Interleave.obeys_bind.mpr ((hp l hl).mono ?_)
  rintro l (e | a) h
  · exact he l e h
  · exact hf l a h

theorem KeepsCall.bind {f : R c → Program C R ε α} (hc : KeepsCall P I c)
    (hf : ∀ a, Keeps P I (f a)) : Keeps P I (Program.perform c >>= f) :=
  hc.perform.bind hf

theorem KeepsCall.obeys_bind {f : R c → Program C R ε α} (hc : KeepsCall P I c)
    (hl : I l) (hf : ∀ l a, I l → Obeys P Q (f a) l) (he : ∀ l e, I l → Q l (.error e)) :
    Obeys P Q (Program.perform c >>= f) l :=
  hc.perform.obeys_bind hl hf he

theorem Obeys.bind_keeps (hp : Obeys P (fun l _ => I l) p l) (hf : ∀ a, Keeps P I (f a)) :
    Obeys P (fun l _ => I l) (p >>= f) l := by
  refine Interleave.obeys_bind.mpr (hp.mono ?_)
  rintro l (e | a) h
  · exact h
  · exact hf a l h

theorem Keeps.tryCatch (hp : Keeps P I p) (hh : ∀ e, Keeps P I (h e)) :
    Keeps P I (tryCatch p h) := by
  refine hp.handle fun r => ?_
  cases r with
  | ok a => exact Keeps.pure a
  | error e => exact hh e

theorem Keeps.attempt (hp : Keeps P I p) : Keeps P I p.attempt :=
  hp.handle fun _ => Keeps.pure ()

theorem Keeps.each {f : α → Program C R ε Unit} :
    ∀ {as : List α}, (∀ a ∈ as, Keeps P I (f a)) → Keeps P I (Program.each f as)
  | [], _ => Keeps.pure ()
  | _ :: _, h => (h _ List.mem_cons_self).bind fun _ =>
    Keeps.each fun a ha => h a (List.mem_cons_of_mem _ ha)

theorem Keeps.ite {c : Prop} [Decidable c] {q : Program C R ε α} (hp : Keeps P I p)
    (hq : Keeps P I q) : Keeps P I (if c then p else q) := by
  by_cases h : c
  · rw [if_pos h]
    exact hp
  · rw [if_neg h]
    exact hq

end

/-! ## Threads -/

/-- Threads on a shared world.  `loc` is where each thread is in its contract:
it is determined by the calls the thread has made and the answers it got. -/
structure Threads (C : Type) (R : C → Type) (ε L W T : Type) where
  world : W
  prog : T → Program C R ε Unit
  loc : T → L

namespace Threads

variable {C : Type} {R : C → Type} {ε L W T I : Type} [DecidableEq T]

/-- Thread `t` is in contract state `l` and goes on with `p`. -/
def put (s : Threads C R ε L W T) (w : W) (t : T) (p : Program C R ε Unit) (l : L) :
    Threads C R ε L W T :=
  { world := w, prog := Function.update s.prog t p, loc := Function.update s.loc t l }

/-- Thread `t` makes its next call; `sem` is what a call does to the world and
what it answers, given an input from outside. -/
def step (P : Contract C R ε L)
    (sem : T → I → W → (c : C) → Option (W × Except ε (R c)))
    (s : Threads C R ε L W T) (t : T) (i : I) : Option (Threads C R ε L W T) :=
  match s.prog t with
  | .done _ => none
  | .call c k =>
    (sem t i s.world c).map fun x => s.put x.1 t (k x.2) (P.next (s.loc t) c x.2)

/-- Every thread obeys the contract from where it is. -/
def Obey (P : Contract C R ε L) (Q : T → L → Except ε Unit → Prop)
    (s : Threads C R ε L W T) : Prop :=
  ∀ t, Obeys P (Q t) (s.prog t) (s.loc t)

variable {P : Contract C R ε L} {Q : T → L → Except ε Unit → Prop}
  {sem : T → I → W → (c : C) → Option (W × Except ε (R c))}

theorem Obey.put {s : Threads C R ε L W T} (hs : s.Obey P Q) {w : W} {t : T}
    {p : Program C R ε Unit} {l : L} (hp : Obeys P (Q t) p l) : (s.put w t p l).Obey P Q := by
  intro t'
  by_cases ht : t' = t
  · subst ht
    simpa [Threads.put] using hp
  · simpa [Threads.put, Function.update_of_ne ht] using hs t'

/-- **The contract rule.**  A step of a system whose threads obey the contract
is an allowed call.  So what every allowed call keeps, and what makes its
answer an expected one, is kept by every step, and the threads go on obeying
the contract. -/
theorem step_obey {J : Threads C R ε L W T → Prop} {s s' : Threads C R ε L W T} {t : T} {i : I}
    (hs : s.Obey P Q) (hcall : ∀ c w r, ¬ (s.prog t).Settled → P.allowed (s.loc t) c →
      (∃ k, s.prog t = .call c k) → sem t i s.world c = some (w, r) →
      P.expected (s.loc t) c r ∧ ∀ p, J (s.put w t p (P.next (s.loc t) c r)))
    (h : s.step P sem t i = some s') : s'.Obey P Q ∧ J s' := by
  unfold Threads.step at h
  split at h
  · cases h
  · rename_i c k hp
    obtain ⟨⟨w, r⟩, hsem, rfl⟩ := Option.map_eq_some_iff.mp h
    have hobey : Obeys P (Q t) (.call c k) (s.loc t) := hp ▸ hs t
    obtain ⟨hexp, hinv⟩ := hcall c w r (by rw [hp]; exact id) hobey.1 ⟨k, hp⟩ hsem
    exact ⟨hs.put (hobey.2 r hexp), hinv (k r)⟩

end Threads

end Interleave
