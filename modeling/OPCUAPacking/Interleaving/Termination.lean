import OPCUAPacking.Interleaving.Program
import OPCUAPacking.Interleaving.Pool
import Mathlib.Order.Basic

/-!
# Programs that end

`Setting.Ends Q p s` says that a thread that runs `p` from `s` performs finitely many operations and
returns with `Q`, whatever it is answered. What it may be answered is the matter of a `Setting`.

* `Setting.Ends` — the predicate, with a rule for each construction of `Proc`; loops end by a
  variant (`Setting.Ends.loop`).
* `Setting.Settles` — programs that end without a trace, and compose.
-/

namespace Interleaving

variable {S : Sig} {σ ρ α β ε : Type}

/-- What a thread can rely on while it runs a program. -/
structure Setting (S : Sig) (σ : Type) where
  /-- The thread performs an operation with a response. -/
  step : (o : S.Op) → S.Resp o → σ → σ → Prop
  /-- What a program has to see to before it performs an operation. -/
  Ready : S.Op → σ → Prop

namespace Setting

variable (T : Setting S σ)

/-- The program ends, with results and states in `Q`. -/
inductive Ends {α : Type} (Q : α → σ → Prop) : Prog S α → σ → Prop where
  | ret {a : α} {s : σ} (h : Q a s) : Ends Q (.ret a) s
  | op {o : S.Op} {k : S.Resp o → Prog S α} {s : σ} (hready : T.Ready o s)
      (hk : ∀ r s', T.step o r s s' → Ends Q (k r) s') : Ends Q (.op o k) s
  | round {ι τ : Type} {b : ι → Prog S (ι ⊕ τ)} {i : ι} {k : τ → Prog S α} {s : σ}
      (h : Ends Q (.unroll b i k) s) : Ends Q (.loop b i k) s

variable {T} {Q Q' : α → σ → Prop} {s : σ}

/-- A weaker postcondition. -/
theorem Ends.mono {p : Prog S α} (h : T.Ends Q p s) (hQ : ∀ a s', Q a s' → Q' a s') :
    T.Ends Q' p s := by
  induction h with
  | ret h => exact .ret (hQ _ _ h)
  | op hready _ ih => exact .op hready ih
  | round _ ih => exact .round ih

/-- Sequencing is associative. -/
theorem bind_assoc {γ : Type} (p : Prog S α) (f : α → Prog S β) (g : β → Prog S γ) :
    (p.bind f).bind g = p.bind fun a => (f a).bind g := by
  induction p with
  | ret a => rfl
  | op o k ih => simp only [Prog.bind, ih]
  | loop b i k _ ih => simp only [Prog.bind, ih]

/-- A round of a loop that is followed by another program. -/
theorem unroll_bind {ι τ : Type} (b : ι → Prog S (ι ⊕ τ)) (i : ι) (k : τ → Prog S α)
    (f : α → Prog S β) :
    (Prog.unroll b i k).bind f = Prog.unroll b i fun r => (k r).bind f := by
  rw [Prog.unroll, bind_assoc, Prog.unroll]
  congr 1
  funext x
  rcases x with j | r <;> rfl

/-- A program followed by another: both end. -/
theorem Ends.prog_bind {p : Prog S α} {f : α → Prog S β} {Q : β → σ → Prop}
    (h : T.Ends (fun a s' => T.Ends Q (f a) s') p s) : T.Ends Q (p.bind f) s := by
  induction h with
  | ret h => exact h
  | op hready _ ih => exact .op hready ih
  | round _ ih =>
      rw [unroll_bind] at ih
      exact .round ih

/-! ### Rules for programs with exceptions -/

section Proc

variable {Q : Except ε α → σ → Prop}

/-- Nothing is left to do. -/
theorem ends_pure {a : α} (h : Q (.ok a) s) : T.Ends Q (pure a : Proc S ε α) s := .ret h

/-- An exception ends the program. -/
theorem ends_throw {e : ε} (h : Q (.error e) s) : T.Ends Q (Proc.throw e : Proc S ε α) s := .ret h

/-- One operation. -/
theorem ends_perform {o : S.Op} {Q : Except ε (S.Resp o) → σ → Prop} (hready : T.Ready o s)
    (h : ∀ r s', T.step o r s s' → Q (.ok r) s') :
    T.Ends Q (Proc.perform o : Proc S ε _) s :=
  .op hready fun r s' hstep => .ret (h r s' hstep)

/-- One operation, then the rest. -/
theorem Ends.step {o : S.Op} {f : S.Resp o → Proc S ε β} {Q : Except ε β → σ → Prop}
    (hready : T.Ready o s) (h : ∀ r s', T.step o r s s' → T.Ends Q (f r) s') :
    T.Ends Q (Proc.perform o >>= f : Proc S ε β) s :=
  .op hready h

/-- Sequencing through an intermediate assertion. -/
theorem Ends.bind {p : Proc S ε α} {f : α → Proc S ε β} {Q : Except ε β → σ → Prop}
    (R : Except ε α → σ → Prop) (hp : T.Ends R p s)
    (hf : ∀ a s', R (.ok a) s' → T.Ends Q (f a) s')
    (he : ∀ e s', R (.error e) s' → Q (.error e) s') :
    T.Ends Q (p >>= f : Proc S ε β) s := by
  refine Ends.prog_bind (hp.mono ?_)
  rintro (e | a) s' hr
  · exact .ret (he e s' hr)
  · exact hf a s' hr

/-- A scope guard: from wherever the body ended, the release runs and does not throw. -/
theorem Ends.ensuring {release : Proc S ε Unit} {body : Proc S ε α} (R : Except ε α → σ → Prop)
    (hb : T.Ends R body s)
    (hr : ∀ r s', R r s' → T.Ends (fun u s'' => u = .ok () ∧ Q r s'') release s') :
    T.Ends Q (Proc.ensuring release body) s := by
  refine Ends.prog_bind (hb.mono fun r s' h => Ends.prog_bind ((hr r s' h).mono ?_))
  rintro _ s'' ⟨rfl, hQ⟩
  exact .ret hQ

/-- A loop with the invariant `I n`, where `n` decreases from round to round. -/
theorem Ends.loop {ι τ : Type} {i : ι} {body : ι → Proc S ε (ι ⊕ τ)} {Q : Except ε τ → σ → Prop}
    (I : Nat → ι → σ → Prop) {n : Nat} (hI : I n i s)
    (hbody : ∀ n j s, I n j s →
      T.Ends (fun r s' => Sum.elim (fun j' s'' => ∃ m < n, I m j' s'') Q (Proc.roundExit r) s')
        (body j) s) :
    T.Ends Q (Proc.loop i body) s := by
  induction n using Nat.strong_induction_on generalizing i s with
  | _ n ih =>
      refine .round (Ends.prog_bind (Ends.prog_bind ((hbody n i s hI).mono fun r s' hr => .ret ?_)))
      cases hexit : Proc.roundExit r with
      | inl j =>
          rw [hexit] at hr
          obtain ⟨m, hm, hj⟩ := hr
          exact ih m hm hj
      | inr x =>
          rw [hexit] at hr
          exact .ret hr

end Proc

/-! ### Programs that settle -/

/-- From wherever `H` holds the program ends, where `H` holds again, and nothing of what `view`
shows has changed. -/
def Settles (T : Setting S σ) {γ : Type} (H : σ → Prop) (view : σ → γ) (p : Proc S ε α) : Prop :=
  ∀ s, H s → T.Ends (fun _ s' => H s' ∧ view s' = view s) p s

section Settles

variable {γ : Type} {H : σ → Prop} {view : σ → γ}

/-- A program that settles, then the rest. -/
theorem Settles.continue {p : Proc S ε α} {f : α → Proc S ε β} {Q : Except ε β → σ → Prop}
    (hp : T.Settles H view p) (hs : H s)
    (hf : ∀ a s', H s' → view s' = view s → T.Ends Q (f a) s')
    (he : ∀ e s', H s' → view s' = view s → Q (.error e) s') :
    T.Ends Q (p >>= f : Proc S ε β) s :=
  Ends.bind _ (hp s hs) (fun a s' h => hf a s' h.1 h.2) fun e s' h => he e s' h.1 h.2

theorem settles_pure (a : α) : T.Settles H view (pure a : Proc S ε α) :=
  fun _ hs => ends_pure ⟨hs, rfl⟩

theorem settles_throw (e : ε) : T.Settles H view (Proc.throw e : Proc S ε α) :=
  fun _ hs => ends_throw ⟨hs, rfl⟩

/-- An operation that keeps `H` and the view. -/
theorem settles_perform {o : S.Op} (hready : ∀ s, H s → T.Ready o s)
    (hstep : ∀ r s s', T.step o r s s' → H s → H s' ∧ view s' = view s) :
    T.Settles H view (Proc.perform o : Proc S ε _) :=
  fun s hs => ends_perform (hready s hs) fun r s' h => hstep r s s' h hs

theorem Settles.bind {p : Proc S ε α} {f : α → Proc S ε β} (hp : T.Settles H view p)
    (hf : ∀ a, T.Settles H view (f a)) : T.Settles H view (p >>= f : Proc S ε β) := by
  intro s hs
  refine hp.continue hs (fun a s' hs' hv => ?_) fun e s' hs' hv => ⟨hs', hv⟩
  exact (hf a s' hs').mono fun _ s'' h => ⟨h.1, h.2.trans hv⟩

theorem Settles.ite {c : Prop} [Decidable c] {p q : Proc S ε α} (hp : T.Settles H view p)
    (hq : T.Settles H view q) : T.Settles H view (if c then p else q) := by
  split
  · exact hp
  · exact hq

theorem Settles.when {c : Bool} {p : Proc S ε Unit} (hp : T.Settles H view p) :
    T.Settles H view (Proc.when c p) :=
  Settles.ite hp (settles_pure ())

theorem Settles.forEach {p : α → Proc S ε Unit} (hp : ∀ a, T.Settles H view (p a))
    (as : List α) : T.Settles H view (Proc.forEach p as) := by
  induction as with
  | nil => exact settles_pure ()
  | cons a as ih => exact (hp a).bind fun _ => ih

end Settles

end Setting

end Interleaving
