/-
# `Sardeenz.Parallel` — programs side by side

A function that starts two asynchronous calls and awaits them both, or leaves one
of them running while it goes on, is one program as well: its next call is the
next call of either.  Which of the two it is comes from outside, as the answer to
a call `turn` that does nothing else.

    overlap p q    `q` runs beside `p`; when `p` has settled, what is left of `q`
    par p q        both, until both have settled
    settleAll ps   all of them; the outcomes are dropped          `Promise.allSettled`

None of them throws (`Calm`).  A contract that both programs keep is kept side by side if each single call keeps
it, wherever the other program is (`Only.par`).  If the calls of one of them do not
move the contract at all, the other is as good as alone (`Obeys.par_left`,
`Obeys.par_right`).
-/
import Sardeenz.Alone

namespace Interleave

open Program Obeys

namespace Program

section
variable {C : Type} {R : C → Type} {ε α β γ : Type} (turn : C) (main : Except ε (R turn) → Bool)

/-- The main program is about to make call `c`. -/
def overlapCall (c : C) (k : Except ε (R c) → Program C R ε β → Program C R ε γ) :
    Program C R ε β → Program C R ε γ
  | done r => call c fun x => k x (done r)
  | call d l => call turn fun which =>
    if main which then call c fun x => k x (call d l)
    else call d fun y => overlapCall c k (l y)

/-- `q` runs beside `p`.  The outcome of `p`, and what is left of `q` then. -/
def overlap : Program C R ε α → Program C R ε β →
    Program C R ε (Except ε α × Program C R ε β)
  | done r, q => done (.ok (r, q))
  | call c k, q => overlapCall turn main c (fun x q => overlap (k x) q) q

def par (p : Program C R ε α) (q : Program C R ε β) :
    Program C R ε (Except ε α × Except ε β) := do
  let (r, rest) ← overlap turn main p q
  rest.handle fun r' => done (.ok (r, r'))

theorem overlapCall_bind {c : C} {k : Except ε (R c) → Program C R ε β → Program C R ε α}
    {f : α → Program C R ε γ} (q : Program C R ε β) :
    (overlapCall turn main c k q >>= f) = overlapCall turn main c (fun x q => k x q >>= f) q := by
  induction q with
  | done => rfl
  | call d l ih =>
    refine congrArg (call turn) (funext fun which => ?_)
    dsimp only
    cases main which with
    | true => rfl
    | false => exact congrArg (call d) (funext fun y => ih y)

/-- All programs, whatever their outcomes. -/
def settleAll : List (Program C R ε α) → Program C R ε Unit
  | [] => pure ()
  | p :: ps => do
    let _ ← par turn main p (settleAll ps)

end

end Program

open Program

section
variable {C : Type} {R : C → Type} {ε L α β γ : Type} {P : Contract C R ε L}
  {turn : C} {main : Except ε (R turn) → Bool}

/-! ## Programs that do not throw -/

/-- The program does not throw, whatever its calls answer. -/
def Calm : Program C R ε α → Prop
  | .done r => ∃ a, r = .ok a
  | .call _ k => ∀ r, Calm (k r)

theorem calm_pure (a : α) : Calm (pure a : Program C R ε α) := ⟨a, rfl⟩

theorem calm_handle {f : Except ε α → Program C R ε β} (hf : ∀ r, Calm (f r)) :
    ∀ p : Program C R ε α, Calm (p.handle f)
  | .done r => hf r
  | .call _ k => fun r => calm_handle hf (k r)

theorem calm_tryCatch {h : ε → Program C R ε α} (hh : ∀ e, Calm (h e)) (p : Program C R ε α) :
    Calm (tryCatch p h) := by
  refine calm_handle (fun r => ?_) p
  cases r with
  | ok a => exact calm_pure a
  | error e => exact hh e

theorem Calm.bind {f : α → Program C R ε β} (hf : ∀ a, Calm (f a)) :
    ∀ {p : Program C R ε α}, Calm p → Calm (p >>= f)
  | .done _, hp => by
    obtain ⟨a, rfl⟩ := hp
    exact hf a
  | .call _ _, hp => fun r => Calm.bind hf (hp r)

variable {c : C} {k : Except ε (R c) → Program C R ε β → Program C R ε γ}

theorem calm_overlapCall
    (hk : ∀ x q, Calm (k x q)) : ∀ q : Program C R ε β, Calm (overlapCall turn main c k q)
  | .done _ => fun x => hk x _
  | .call d l => fun _ => by
    dsimp only
    split
    · exact fun x => hk x _
    · exact fun y => calm_overlapCall hk (l y)

theorem calm_overlap : ∀ (p : Program C R ε α) (q : Program C R ε β), Calm (overlap turn main p q)
  | .done _, _ => ⟨_, rfl⟩
  | .call _ k, q => calm_overlapCall (fun x q => calm_overlap (k x) q) q

theorem calm_par (p : Program C R ε α) (q : Program C R ε β) :
    Calm (par turn main p q) := by
  refine Calm.bind (fun x => ?_) (calm_overlap p q)
  exact calm_handle (fun r => calm_pure (x.1, r)) x.2

theorem calm_settleAll : ∀ ps : List (Program C R ε α), Calm (settleAll turn main ps)
  | [] => calm_pure ()
  | p :: ps => Calm.bind (fun _ => calm_pure ()) (calm_par p (settleAll turn main ps))

variable {Q : L → Except ε α → Prop}

theorem Obeys.calm : ∀ {p : Program C R ε α} {l : L}, Obeys P Q p l → Calm p →
      Obeys P (fun l r => Q l r ∧ ∃ a, r = .ok a) p l
  | .done _, _, hp, hcalm => ⟨hp, hcalm⟩
  | .call _ _, _, hp, hcalm => ⟨hp.1, fun r hr => (hp.2 r hr).calm (hcalm r)⟩

/-! ## Calls that keep a property wherever the others are -/

section
variable {A : C → Prop}

theorem Only.call {k : Except ε (R c) → Program C R ε α} (hc : A c)
    (hk : ∀ r, Only A (k r)) : Only A (.call c k) :=
  fun _ _ => ⟨hc, fun r _ => hk r () trivial⟩

theorem Only.overlapCall (hturn : A turn) (hc : A c) (hk : ∀ x q, Only A q → Only A (k x q)) :
    ∀ {q : Program C R ε β}, Only A q → Only A (overlapCall turn main c k q)
  | .done _, hq => Only.call hc fun x => hk x _ hq
  | .call d l, hq => by
    refine Only.call hturn fun _ => ?_
    split
    · exact Only.call hc fun x => hk x _ hq
    · exact Only.call (hq.awaited rfl) fun y => Only.overlapCall hturn hc hk (hq.next y)

theorem Only.overlap_bind {f : Except ε α × Program C R ε β → Program C R ε γ} (hturn : A turn)
    (hf : ∀ r q, Only A q → Only A (f (r, q))) :
    ∀ {p : Program C R ε α} {q : Program C R ε β}, Only A p → Only A q →
      Only A (overlap turn main p q >>= f)
  | .done r, q, _, hq => hf r q hq
  | .call c k, q, hp, hq => by
    change Only A (Program.overlapCall turn main c _ q >>= f)
    rw [overlapCall_bind]
    exact Only.overlapCall hturn (hp.awaited rfl)
      (fun x q hq => Only.overlap_bind hturn hf (hp.next x) hq) hq

theorem Only.par (hturn : A turn) {p : Program C R ε α} {q : Program C R ε β} (hp : Only A p)
    (hq : Only A q) : Only A (par turn main p q) :=
  Only.overlap_bind hturn (fun _ _ hq => hq.handle fun _ => .pure _) hp hq

theorem Only.settleAll (hturn : A turn) :
    ∀ {ps : List (Program C R ε α)}, (∀ p ∈ ps, Only A p) → Only A (settleAll turn main ps)
  | [], _ => .pure _
  | _ :: _, h => (Only.par hturn (h _ List.mem_cons_self)
      (Only.settleAll hturn fun p hp => h p (List.mem_cons_of_mem _ hp))).bind fun _ => .pure _

end

/-- A program all of whose calls keep `I` keeps it. -/
theorem keeps_of_only {I : L → Prop} : ∀ {p : Program C R ε α}, Only (KeepsCall P I) p → Keeps P I p
  | .done _, _ => fun _ h => h
  | .call c k, hp => fun l hl => by
    obtain ⟨hallowed, hnext⟩ := hp.awaited rfl l hl
    exact ⟨hallowed, fun r hr => keeps_of_only (hp.next r) _ (hnext r hr)⟩

/-! ## Beside a program that does not move the contract -/

/-- The call is always allowed and does not move the contract. -/
def Still (P : Contract C R ε L) (c : C) : Prop :=
  ∀ l, P.allowed l c ∧ ∀ r, P.next l c r = l

theorem Still.keepsCall (h : Still P c) (I : L → Prop) : KeepsCall P I c :=
  keepsCall_of_next_eq (fun l _ => (h l).1) fun l r => (h l).2 r

variable {p : Program C R ε α} {l : L}

theorem Obeys.of_still (hp : Only (Still P) p) (hQ : ∀ r, Q l r) : Obeys P Q p l := by
  have hkeeps : Keeps P (· = l) p := keeps_of_only (hp.mono fun c hc => hc.keepsCall _)
  refine (hkeeps l rfl).mono ?_
  rintro _ r rfl
  exact hQ r

theorem Obeys.still_bind {S : L → Except ε β → Prop} {f : α → Program C R ε β}
    (hp : Only (Still P) p) (hf : ∀ a, Obeys P S (f a) l) (he : ∀ e, S l (.error e)) :
    Obeys P S (p >>= f) l := by
  refine obeys_bind.mpr (of_still hp fun r => ?_)
  cases r with
  | ok a => exact hf a
  | error e => exact he e

theorem Obeys.call_still {k : Except ε (R c) → Program C R ε α} (hc : Still P c)
    (hk : ∀ r, Obeys P Q (k r) l) : Obeys P Q (.call c k) l :=
  ⟨(hc l).1, fun r _ => by rw [(hc l).2 r]; exact hk r⟩

/-- The program makes only still calls, and ends with `G`. -/
def StillTo (P : Contract C R ε L) (G : Except ε α → Prop) : Program C R ε α → Prop
  | .done r => G r
  | .call c k => Still P c ∧ ∀ l r, P.expected l c r → StillTo P G (k r)

theorem StillTo.obeys {G : Except ε α → Prop} :
    ∀ {p : Program C R ε α}, StillTo P G p → Obeys P (fun l' r => l' = l ∧ G r) p l
  | .done _, hp => ⟨rfl, hp⟩
  | .call _ _, hp => ⟨(hp.1 l).1, fun r hr => by rw [(hp.1 l).2 r]; exact (hp.2 l r hr).obeys⟩

variable {f : Except ε α × Program C R ε β → Program C R ε γ}

/-- Beside a program that stays within `G`, by calls that do not move the contract,
the main program obeys what it obeys alone. -/
theorem Obeys.overlap_of {G : Program C R ε β → Prop} {S : L → Except ε γ → Prop}
    (hturn : Still P turn)
    (hG : ∀ d m, G (.call d m) → Still P d ∧ ∀ l y, P.expected l d y → G (m y))
    (hp : Obeys P (fun l r => ∀ q, G q → Obeys P S (f (r, q)) l) p l) :
    ∀ {q : Program C R ε β}, G q → Obeys P S (overlap turn main p q >>= f) l := by
  induction p generalizing l with
  | done r => exact fun hq => hp _ hq
  | call c k ih =>
    intro q
    induction q with
    | done r =>
      intro hq
      exact ⟨hp.1, fun x hx => ih x (hp.2 x hx) hq⟩
    | call d m ihq =>
      intro hq
      refine call_still hturn fun which => ?_
      cases hwhich : main which with
      | true =>
        simp only [hwhich]
        exact ⟨hp.1, fun x hx => ih x (hp.2 x hx) hq⟩
      | false =>
        simp only [hwhich]
        obtain ⟨hd, hm⟩ := hG d m hq
        refine ⟨(hd l).1, fun y hy => ?_⟩
        rw [(hd l).2 y]
        exact ihq y (hm l y hy)

variable {q : Program C R ε β}

theorem Obeys.overlap_left {S : L → Except ε γ → Prop} (hturn : Still P turn)
    (hp : Obeys P (fun l r => ∀ q, Only (Still P) q → Obeys P S (f (r, q)) l) p l) (hq : Only (Still P) q) : Obeys P S (overlap turn main p q >>= f) l :=
  overlap_of hturn (fun _ _ hq => ⟨hq.awaited rfl, fun _ y _ => hq.next y⟩) hp hq

variable {S : L → Except ε (Except ε α × Except ε β) → Prop}

theorem Obeys.par_left {G : Except ε β → Prop} (hturn : Still P turn)
    (hq : StillTo P G q) (hp : Obeys P (fun l r => ∀ r', G r' → S l (.ok (r, r'))) p l) :
    Obeys P S (par turn main p q) l := by
  refine overlap_of hturn (fun _ _ hq => hq) (hp.mono ?_) hq
  intro l r h q hq
  refine obeys_handle.mpr (hq.obeys.mono ?_)
  rintro _ r' ⟨rfl, hr'⟩
  exact h r' hr'

theorem Obeys.par_right (hturn : Still P turn) : ∀ {q : Program C R ε β} {l : L}, Only (Still P) p →
      Obeys P (fun l r' => ∀ r, S l (.ok (r, r'))) q l →
      Obeys P S (par turn main p q) l := by
  induction p with
  | done r =>
    intro q l _ hq
    change Obeys P S (q.handle fun r' => .done (.ok (r, r'))) l
    exact obeys_handle.mpr (hq.mono fun l r' h => h r)
  | call c k ih =>
    intro q
    induction q with
    | done r' =>
      intro l hp hq
      exact call_still (hp.awaited rfl) fun x => ih x (hp.next x) hq
    | call d m ihq =>
      intro l hp hq
      refine call_still hturn fun which => ?_
      cases hwhich : main which with
      | true =>
        simp only [hwhich]
        exact call_still (hp.awaited rfl) fun x => ih x (hp.next x) hq
      | false =>
        simp only [hwhich]
        exact ⟨hq.1, fun y hy => ihq y hp (hq.2 y hy)⟩

end

end Interleave
