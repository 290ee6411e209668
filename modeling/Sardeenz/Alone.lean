/-
# `Sardeenz.Alone` — a program run alone

What one program leads to when nothing else runs: from call to call, on inputs
that meet a condition.

    Alone        whenever the program settles, `Q` holds
    Completes    and until then each of its calls can be answered
    run          what comes of it, where each call has one answer
    feed         what comes of it on given inputs

A program is a finite tree, so one whose calls can all be answered settles.
`Alone` has the rules of a program logic, one for each way programs are put
together; `Completes` follows from it for a program that makes only calls which
can be answered (`Alone.completes`), and refutes `Alone` of the contrary
(`Completes.not_alone`).
-/
import Sardeenz.Program

namespace Interleave

open List

section
variable {C : Type} {R : C → Type} {ε α β W I : Type}

/-- Whenever the program, run alone on inputs that meet `ok`, settles, `Q` holds. -/
def Alone (sem : I → W → (c : C) → Option (W × Except ε (R c))) (ok : I → Prop)
    (Q : W → Except ε α → Prop) : Program C R ε α → W → Prop
  | .done r, w => Q w r
  | .call c k, w => ∀ i w' r, ok i → sem i w c = some (w', r) → Alone sem ok Q (k r) w'

/-- The program, run alone on inputs that meet `ok`, can go on until it settles,
and then `Q` holds. -/
def Completes (sem : I → W → (c : C) → Option (W × Except ε (R c))) (ok : I → Prop)
    (Q : W → Except ε α → Prop) : Program C R ε α → W → Prop
  | .done r, w => Q w r
  | .call c k, w => (∃ i, ok i ∧ (sem i w c).isSome = true) ∧
      ∀ i w' r, ok i → sem i w c = some (w', r) → Completes sem ok Q (k r) w'

/-- The world and the outcome that the program ends with, where `serve` is what
each call does and answers. -/
def Program.run (serve : W → (c : C) → W × Except ε (R c)) :
    Program C R ε α → W → W × Except ε α
  | .done r, w => (w, r)
  | .call c k, w => (k (serve w c).2).run serve (serve w c).1

/-- The world and the outcome that the program ends with on these inputs, one for
each of its calls. -/
def Program.feed (sem : I → W → (c : C) → Option (W × Except ε (R c))) :
    List I → Program C R ε α → W → Option (W × Except ε α)
  | [], .done r, w => some (w, r)
  | i :: is, .call c k, w =>
    match sem i w c with
    | some (w', r) => (k r).feed sem is w'
    | none => none
  | _, _, _ => none

variable {sem : I → W → (c : C) → Option (W × Except ε (R c))} {ok ok' : I → Prop} {w : W}
  {Q Q' : W → Except ε α → Prop} {S : W → Except ε β → Prop}

/-! ## The rules -/

theorem Alone.mono (h : ∀ w r, Q w r → Q' w r) :
    ∀ {p : Program C R ε α} {w : W}, Alone sem ok Q p w → Alone sem ok Q' p w
  | .done _, _, hp => h _ _ hp
  | .call _ _, _, hp => fun i w' r hi hs => Alone.mono h (hp i w' r hi hs)

theorem Alone.and : ∀ {p : Program C R ε α} {w : W}, Alone sem ok Q p w → Alone sem ok Q' p w →
    Alone sem ok (fun w r => Q w r ∧ Q' w r) p w
  | .done _, _, h, h' => ⟨h, h'⟩
  | .call _ _, _, h, h' => fun i w' r hi hs => (h i w' r hi hs).and (h' i w' r hi hs)

theorem alone_handle {f : Except ε α → Program C R ε β} : ∀ {p : Program C R ε α} {w : W},
      Alone sem ok S (p.handle f) w ↔ Alone sem ok (fun w r => Alone sem ok S (f r) w) p w
  | .done _, _ => Iff.rfl
  | .call _ _, _ => forall_congr' fun _ => forall_congr' fun _ => forall_congr' fun _ =>
    imp_congr_right fun _ => imp_congr_right fun _ => alone_handle

variable {p : Program C R ε α}

theorem Alone.bind {f : α → Program C R ε β}
    (hp : Alone sem ok Q p w) (hf : ∀ w a, Q w (.ok a) → Alone sem ok S (f a) w)
    (he : ∀ w e, Q w (.error e) → S w (.error e)) : Alone sem ok S (p >>= f) w := by
  refine alone_handle.mpr (hp.mono ?_)
  rintro w (e | a) h
  · exact he w e h
  · exact hf w a h

theorem Alone.andThen {f : α → Program C R ε β}
    (hp : Alone sem ok (fun w r => ∃ a, r = .ok a ∧ Alone sem ok S (f a) w) p w) :
    Alone sem ok S (p >>= f) w := by
  refine hp.bind ?_ ?_
  · rintro w _ ⟨a, h, ha⟩
    obtain rfl := Except.ok.inj h
    exact ha
  · rintro w e ⟨a, h, -⟩
    cases h

theorem Alone.tryCatch {h : ε → Program C R ε α} (hp : Alone sem ok Q p w)
    (hok : ∀ w a, Q w (.ok a) → Q' w (.ok a))
    (herr : ∀ w e, Q w (.error e) → Alone sem ok Q' (h e) w) :
    Alone sem ok Q' (tryCatch p h) w := by
  refine alone_handle.mpr (hp.mono ?_)
  rintro w (e | a) hq
  · exact herr w e hq
  · exact hok w a hq

/-- A program that does not throw needs no `catch`. -/
theorem Alone.tryCatch_of_ok {h : ε → Program C R ε α}
    (hp : Alone sem ok (fun w r => ∃ a, r = .ok a ∧ Q w (.ok a)) p w) :
    Alone sem ok Q (MonadExcept.tryCatch p h) w := by
  refine hp.tryCatch ?_ ?_
  · rintro w _ ⟨a, ha, hq⟩
    obtain rfl := Except.ok.inj ha
    exact hq
  · rintro w e ⟨a, ha, -⟩
    cases ha

variable {J : W → Prop}

theorem Alone.attempt (hp : Alone sem ok (fun w _ => J w) p w) :
    Alone sem ok (fun w r => r = .ok () ∧ J w) p.attempt w :=
  alone_handle.mpr (hp.mono fun _ _ h => ⟨rfl, h⟩)

theorem Alone.attempt_keeps (hp : Alone sem ok (fun w _ => J w) p w) :
    Alone sem ok (fun w _ => J w) p.attempt w :=
  hp.attempt.mono fun _ _ h => h.2

theorem Alone.attempt_then {q : Program C R ε β} (hp : Alone sem ok (fun w _ => J w) p w)
    (hq : ∀ w, J w → Alone sem ok S q w) :
    Alone sem ok S (p.attempt >>= fun _ => q) w := by
  refine Alone.andThen (hp.attempt.mono ?_)
  rintro w _ ⟨rfl, hw⟩
  exact ⟨(), rfl, hq w hw⟩

variable {f : α → Program C R ε Unit}

/-- **Loops.**  What the body keeps, and does not throw, holds after the loop. -/
theorem Alone.each : ∀ {as : List α} {w : W},
      (∀ a ∈ as, ∀ w, J w → Alone sem ok (fun w r => r = .ok () ∧ J w) (f a) w) → J w →
        Alone sem ok (fun w r => r = .ok () ∧ J w) (Program.each f as) w
  | [], _, _, hw => ⟨rfl, hw⟩
  | a :: as, w, h, hw => by
    refine Alone.andThen ((h a mem_cons_self w hw).mono ?_)
    rintro w _ ⟨rfl, hw⟩
    exact ⟨(), rfl, Alone.each (fun a ha => h a (mem_cons_of_mem _ ha)) hw⟩

theorem Alone.each_keeps : ∀ {as : List α} {w : W},
      (∀ a ∈ as, ∀ w, J w → Alone sem ok (fun w _ => J w) (f a) w) → J w →
        Alone sem ok (fun w _ => J w) (Program.each f as) w
  | [], _, _, hw => hw
  | a :: _, w, h, hw => (h a mem_cons_self w hw).bind
      (fun _ _ hw => Alone.each_keeps (fun a ha => h a (mem_cons_of_mem _ ha)) hw)
      fun _ _ hw => hw

/-- A loop that reaches `G` at one of its elements, and keeps it from there on. -/
theorem Alone.each_of_mem {G : W → Prop} {a₀ : α}
    (hgoal : ∀ w, J w → Alone sem ok (fun w r => r = .ok () ∧ G w) (f a₀) w) :
    ∀ {as : List α} {w : W}, a₀ ∈ as →
      (∀ a ∈ as, ∀ w, J w → Alone sem ok (fun w r => r = .ok () ∧ J w) (f a) w) →
      (∀ a ∈ as, ∀ w, G w → Alone sem ok (fun w r => r = .ok () ∧ G w) (f a) w) → J w →
        Alone sem ok (fun w r => r = .ok () ∧ G w) (Program.each f as) w
  | _ :: _, w, .head _, _, hG, hw => by
    refine Alone.andThen ((hgoal w hw).mono ?_)
    rintro w _ ⟨rfl, hw⟩
    exact ⟨(), rfl, Alone.each (fun a ha => hG a (mem_cons_of_mem _ ha)) hw⟩
  | a :: as, w, .tail _ hmem, hJ, hG, hw => by
    refine Alone.andThen ((hJ a mem_cons_self w hw).mono ?_)
    rintro w _ ⟨rfl, hw⟩
    exact ⟨(), rfl, Alone.each_of_mem hgoal hmem (fun a ha => hJ a (mem_cons_of_mem _ ha))
      (fun a ha => hG a (mem_cons_of_mem _ ha)) hw⟩

theorem Alone.andFinally {f : Program C R ε Unit} (hp : Alone sem ok Q p w)
    (hf : ∀ w r, Q w r → Alone sem ok (fun w r' => r' = .ok () ∧ Q' w r) f w) :
    Alone sem ok Q' (p.andFinally f) w := by
  refine alone_handle.mpr (hp.mono fun w r hq => alone_handle.mpr ((hf w r hq).mono ?_))
  rintro w r' ⟨rfl, h⟩
  exact h

/-- **Invariants.**  What every call keeps holds at the end of any program. -/
theorem alone_of_keeps (hJ : ∀ i w c w' r, ok i → J w → sem i w c = some (w', r) → J w') :
    ∀ {p : Program C R ε α} {w : W}, J w → Alone sem ok (fun w _ => J w) p w
  | .done _, _, hw => hw
  | .call c _, w, hw => fun i w' r hi hs => alone_of_keeps hJ (hJ i w c w' r hi hw hs)

/-- **Simulation.**  A program that obeys a contract, in a world that follows it. -/
theorem Obeys.alone {L : Type} {P : Contract C R ε L} {rel : L → W → Prop}
    {Q : L → Except ε α → Prop}
    (hcall : ∀ {i w c w' r l}, ok i → rel l w → P.allowed l c → sem i w c = some (w', r) →
      P.expected l c r ∧ rel (P.next l c r) w') :
    ∀ {p : Program C R ε α} {l : L} {w : W}, Obeys P Q p l → rel l w →
      Alone sem ok (fun w r => ∃ l, rel l w ∧ Q l r) p w
  | .done _, l, _, hp, hw => ⟨l, hw, hp⟩
  | .call _ _, _, _, hp, hw => fun _ _ r hi hs => by
    obtain ⟨hexpected, hw'⟩ := hcall hi hw hp.1 hs
    exact Obeys.alone hcall (hp.2 r hexpected) hw'

/-! ## What holds when a program returns -/

/-- If the program returns, `Q` holds; nothing is said about errors. -/
abbrev Returns (sem : I → W → (c : C) → Option (W × Except ε (R c))) (ok : I → Prop)
    (Q : W → α → Prop) (p : Program C R ε α) (w : W) : Prop :=
  Alone sem ok (fun w r => ∀ a, r = .ok a → Q w a) p w

section
variable {Q : W → α → Prop} {S : W → β → Prop}

theorem Returns.pure {a : α} (h : Q w a) : Returns sem ok Q (Pure.pure a : Program C R ε α) w := by
  rintro _ ⟨⟩
  exact h

theorem Returns.trivial : ∀ {p : Program C R ε α} {w : W}, Returns sem ok (fun _ _ => True) p w
  | .done _, _ => fun _ _ => True.intro
  | .call _ _, _ => fun _ _ _ _ _ => Returns.trivial

theorem Returns.bind {f : α → Program C R ε β}
    (hp : Returns sem ok (fun w a => Returns sem ok S (f a) w) p w) :
    Returns sem ok S (p >>= f) w :=
  Alone.bind hp (fun _ a h => h a rfl) fun _ _ _ _ h => nomatch h

theorem Returns.call {c : C} {Q : W → R c → Prop}
    (h : ∀ i w' a, ok i → sem i w c = some (w', .ok a) → Q w' a) :
    Returns sem ok Q (Program.perform c) w := by
  rintro i w' r hi hs a rfl
  exact h i w' a hi hs

end

/-! ## Programs that can go on -/

/-- The contract of a program that makes only calls of `A`. -/
def Contract.only (A : C → Prop) : Contract C R ε Unit where
  allowed _ c := A c
  expected _ _ _ := True
  next _ _ _ := ()

/-- The program makes only calls of `A`. -/
abbrev Only (A : C → Prop) (p : Program C R ε α) : Prop :=
  Keeps (Contract.only A) (fun _ => True) p

variable {c : C}

theorem only_call {A : C → Prop} (h : A c) :
    KeepsCall (Contract.only A : Contract C R ε Unit) (fun _ => True) c :=
  fun _ _ => ⟨h, fun _ _ => trivial⟩

variable {A : C → Prop}

theorem only_perform (h : A c) : Only A (Program.perform c : Program C R ε (R c)) :=
  (only_call h).perform

/-- A call of `A`, and then the rest. -/
theorem only_then {f : R c → Program C R ε α} (h : A c) (hf : ∀ a, Only A (f a)) :
    Only A (Program.perform c >>= f) :=
  (only_perform h).bind hf

theorem only_true : ∀ {p : Program C R ε α}, Only (fun _ => True) p
  | .done _ => fun _ _ => trivial
  | .call _ _ => fun _ _ => ⟨trivial, fun _ _ => only_true () trivial⟩

theorem Only.mono {A' : C → Prop} (h : ∀ c, A c → A' c) :
    ∀ {p : Program C R ε α}, Only A p → Only A' p
  | .done _, _ => fun _ _ => trivial
  | .call _ _, hp => fun _ _ => ⟨h _ (hp () trivial).1, fun r _ =>
    Only.mono h (fun _ _ => (hp () trivial).2 r trivial) () trivial⟩

theorem Only.awaited (hp : Only A p) (hc : p.awaited = some c) : A c := by
  cases p with
  | done => cases hc
  | call =>
    cases hc
    exact (hp () trivial).1

theorem Only.next {k : Except ε (R c) → Program C R ε α} (hp : Only A (.call c k))
    (r : Except ε (R c)) : Only A (k r) :=
  fun _ _ => (hp () trivial).2 r trivial

/-- What the calls of `A` keep, a program that makes only such calls keeps. -/
theorem alone_of_only (hJ : ∀ i w c w' r, A c → ok i → J w → sem i w c = some (w', r) → J w') :
    ∀ {p : Program C R ε α} {w : W}, Only A p → J w → Alone sem ok (fun w _ => J w) p w
  | .done _, _, _, hw => hw
  | .call c _, w, hp, hw => fun i w' r hi hs =>
    alone_of_only hJ (fun _ _ => (hp () trivial).2 r trivial)
      (hJ i w c w' r (hp () trivial).1 hi hw hs)

theorem Alone.completes (hA : ∀ w c, A c → ∃ i, ok i ∧ (sem i w c).isSome = true) :
    ∀ {p : Program C R ε α} {w : W}, Only A p → Alone sem ok Q p w → Completes sem ok Q p w
  | .done _, _, _, h => h
  | .call c _, w, hp, h =>
    ⟨hA w c (hp () trivial).1, fun i w' r hi hs =>
      Alone.completes hA (fun _ _ => (hp () trivial).2 r trivial) (h i w' r hi hs)⟩

/-- A program that always ends in `Q` does not always end in the contrary, also
on fewer inputs. -/
theorem Completes.not_alone (hok : ∀ i, ok' i → ok i)
    (hA : ∀ w c, A c → ∃ i, ok' i ∧ (sem i w c).isSome = true) :
    ∀ {p : Program C R ε α} {w : W}, Only A p → Completes sem ok Q p w →
      ¬ Alone sem ok' (fun w r => ¬ Q w r) p w
  | .done _, _, _, h => fun hn => hn h
  | .call c _, w, hp, h => by
    intro hn
    obtain ⟨i, hi, hsome⟩ := hA w c (hp () trivial).1
    obtain ⟨⟨w', r⟩, hs⟩ := Option.isSome_iff_exists.mp hsome
    exact Completes.not_alone hok hA (fun _ _ => (hp () trivial).2 r trivial)
      (h.2 i w' r (hok i hi) hs) (hn i w' r hi hs)

/-! ## Programs that throw only what their calls throw -/

/-- The program makes only calls of `A`, and throws exactly when one of them does. -/
def Straight (A : C → Prop) : Program C R ε α → Prop
  | .done r => ∃ a, r = .ok a
  | .call c k => A c ∧ (∀ a, Straight A (k (.ok a))) ∧ ∀ e, k (.error e) = .done (.error e)

theorem straight_pure (a : α) : Straight A (pure a : Program C R ε α) := ⟨a, rfl⟩

theorem straight_perform (hc : A c) : Straight A (Program.perform c : Program C R ε (R c)) :=
  ⟨hc, fun a => ⟨a, rfl⟩, fun _ => rfl⟩

theorem Straight.bind {f : α → Program C R ε β} (hf : ∀ a, Straight A (f a)) :
    ∀ {p : Program C R ε α}, Straight A p → Straight A (p >>= f)
  | .done _, hp => by
    obtain ⟨a, rfl⟩ := hp
    exact hf a
  | .call _ k, hp => by
    refine ⟨hp.1, fun a => Straight.bind hf (hp.2.1 a), fun e => ?_⟩
    change (k (.error e)).bind f = .done (.error e)
    rw [hp.2.2 e]
    rfl

theorem Straight.each (hf : ∀ a, Straight A (f a)) : ∀ as : List α, Straight A (Program.each f as)
  | [] => straight_pure ()
  | a :: as => (hf a).bind fun _ => Straight.each hf as

theorem alone_of_straight {E : W → Prop}
    (hcall : ∀ i w c w' r, A c → ok i → J w → sem i w c = some (w', r) →
      J w' ∧ ∀ e, r = .error e → E w') :
    ∀ {p : Program C R ε α} {w : W}, Straight A p → J w →
      Alone sem ok (fun w r => J w ∧ ∀ e, r = .error e → E w) p w
  | .done _, _, hp, hw => by
    obtain ⟨a, rfl⟩ := hp
    exact ⟨hw, fun e he => by cases he⟩
  | .call c k, w, hp, hw => by
    intro i w' r hi hs
    obtain ⟨hw', herr⟩ := hcall i w c w' r hp.1 hi hw hs
    rcases r with e | a
    · rw [hp.2.2 e]
      exact ⟨hw', fun _ _ => herr e rfl⟩
    · exact alone_of_straight hcall (hp.2.1 a) hw'

end

end Interleave
