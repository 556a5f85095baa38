import OPCUAPacking.Interleaving.Protocol

/-!
# What a program returns

Facts about the outcome of a program that hold whatever its operations answer, such as that it ends
without an exception.

* `Prog.Returns p Q` — `p` returns only values that satisfy `Q`. It is kept by the steps of a pool
  (`Config.Reach.returns`), and sharpens the postcondition of a protocol (`Follows.and_returns`).
* `Prog.ReturnsUnless A p Q` — it does so unless an operation has been answered as in `A`.
* `Proc.NoThrow p` — `p` ends without an exception. It follows from the parts of a program, except
  that `Proc.attempt p` ends so for every `p`.
* `Proc.Yields Q p`, `Proc.YieldsUnless A Q p` — whenever `p` ends without one, its value satisfies
  `Q`.
* `Event.moments` — the moments at which a thread was answered as in `A`;
  `Protocol.follows_moments` — a result that is not in `Q` adds one.
-/

namespace Interleaving

namespace Prog

variable {S T : Sig} {α β : Type}

/-- Unless one of its operations is answered as in `A`, the program returns only values in `Q`. -/
def ReturnsUnless (A : (o : S.Op) → S.Resp o → Prop) : {α : Type} → Prog S α → (α → Prop) → Prop
  | _, .ret a, Q => Q a
  | _, .op o k, Q => ∀ r, ¬A o r → (k r).ReturnsUnless A Q
  | _, .loop (ρ := ρ) b _ k, Q => ∃ R : ρ → Prop,
      (∀ j, (b j).ReturnsUnless A (Sum.elim (fun _ => True) R)) ∧
        ∀ r, R r → (k r).ReturnsUnless A Q

/-- The program returns only values in `Q`, whatever its operations answer. -/
abbrev Returns (p : Prog S α) (Q : α → Prop) : Prop := p.ReturnsUnless (fun _ _ => False) Q

variable {A : (o : S.Op) → S.Resp o → Prop}

/-- A weaker postcondition. -/
theorem ReturnsUnless.mono {Q Q' : α → Prop} {p : Prog S α} (h : p.ReturnsUnless A Q)
    (hQ : ∀ a, Q a → Q' a) : p.ReturnsUnless A Q' := by
  induction p with
  | ret a => exact hQ a h
  | op o k ih => exact fun r hr => ih r (h r hr) hQ
  | loop b i k _ ih =>
      obtain ⟨R, hb, hk⟩ := h
      exact ⟨R, hb, fun r hr => ih r (hk r hr) hQ⟩

/-- A postcondition that excludes nothing. -/
theorem returns_of_forall {Q : α → Prop} (hQ : ∀ a, Q a) (p : Prog S α) :
    p.ReturnsUnless A Q := by
  induction p with
  | ret a => exact hQ a
  | op o k ih => exact fun r _ => ih r hQ
  | loop b i k ihb ihk =>
      refine ⟨fun _ => True, fun j => ihb j ?_, fun r _ => ihk r hQ⟩
      rintro (j' | r)
      · trivial
      · trivial

/-- Two postconditions at once. -/
theorem Returns.and {Q R : α → Prop} {p : Prog S α} (hQ : p.Returns Q) (hR : p.Returns R) :
    p.Returns fun a => Q a ∧ R a := by
  induction p with
  | ret a => exact ⟨hQ, hR⟩
  | op o k ih => exact fun r hr => ih r (hQ r hr) (hR r hr)
  | loop b i k ihb ihk =>
      obtain ⟨Q', hb, hk⟩ := hQ
      obtain ⟨R', hb', hk'⟩ := hR
      refine ⟨fun r => Q' r ∧ R' r, fun j => (ihb j (hb j) (hb' j)).mono ?_,
        fun r hr => ihk r (hk r hr.1) (hk' r hr.2)⟩
      rintro (j' | r) h
      · trivial
      · exact h

/-- A program followed by another. -/
theorem returns_bind {p : Prog S α} {f : α → Prog S β} {Q : β → Prop} :
    (p.bind f).ReturnsUnless A Q ↔ p.ReturnsUnless A fun a => (f a).ReturnsUnless A Q := by
  induction p with
  | ret a => rfl
  | op o k ih => exact forall₂_congr fun r _ => ih r
  | loop b i k _ ih =>
      exact exists_congr fun R => and_congr_right' (forall₂_congr fun r _ => ih r)

/-- A loop may be unrolled once. -/
theorem returns_unroll {ι ρ : Type} {b : ι → Prog S (ι ⊕ ρ)} {i : ι} {k : ρ → Prog S α}
    {Q : α → Prop} (h : (Prog.loop b i k).Returns Q) : (unroll b i k).Returns Q := by
  obtain ⟨R, hb, hk⟩ := h
  refine returns_bind.mpr ((hb i).mono ?_)
  rintro (j | r) hr
  · exact ⟨R, hb, hk⟩
  · exact hk r hr

/-- The handlers of the operations do not change what is returned, where they answer as in `A` only
after an answer as in `A'`. -/
theorem ReturnsUnless.handle {A' : (o : T.Op) → T.Resp o → Prop}
    {f : (o : S.Op) → Prog T (S.Resp o)} {Q : α → Prop} {p : Prog S α} (h : p.ReturnsUnless A Q)
    (hf : ∀ o, (f o).ReturnsUnless A' fun r => ¬A o r) : (p.handle f).ReturnsUnless A' Q := by
  induction p with
  | ret a => exact h
  | op o k ih => exact returns_bind.mpr ((hf o).mono fun r hr => ih r (h r hr))
  | loop b i k ihb ihk =>
      obtain ⟨R, hb, hk⟩ := h
      exact ⟨R, fun j => ihb j (hb j), fun r hr => ihk r (hk r hr)⟩

theorem Returns.handle {f : (o : S.Op) → Prog T (S.Resp o)} {Q : α → Prop} {p : Prog S α}
    (h : p.Returns Q) : (p.handle f).Returns Q :=
  ReturnsUnless.handle h fun o => returns_of_forall (fun _ => id) (f o)

end Prog

namespace Proc

variable {S T : Sig} {ε α β : Type} {A : (o : S.Op) → S.Resp o → Prop}

/-- The program ends without an exception. -/
def NoThrow (p : Proc S ε α) : Prop := Prog.Returns p fun r => ∃ a, r = .ok a

/-- Ending without an exception is a matter of the parts. -/
theorem composed_noThrow : Composed fun _ (p : Proc S ε _) => NoThrow p where
  pure a := ⟨a, rfl⟩
  bind hp hf := by
    refine Prog.returns_bind.mpr (Prog.ReturnsUnless.mono hp ?_)
    rintro _ ⟨a, rfl⟩
    exact hf a
  attempt {_ p} _ := Prog.returns_bind.mpr (Prog.returns_of_forall (fun r => ⟨r, rfl⟩) p)
  loop hb := by
    refine ⟨fun r => ∃ a, r = .ok a, fun j => Prog.returns_bind.mpr ((hb j).mono ?_), fun _ h => h⟩
    rintro _ ⟨j' | r, rfl⟩
    · trivial
    · exact ⟨r, rfl⟩

/-- An operation by itself. -/
theorem noThrow_perform (o : S.Op) : NoThrow (perform o : Proc S ε _) := fun r _ => ⟨r, rfl⟩

/-- What is attempted ends without an exception, whether or not it throws. -/
theorem noThrow_attempt (p : Proc S ε α) : NoThrow (attempt p) :=
  Prog.returns_bind.mpr (Prog.returns_of_forall (fun r => ⟨r, rfl⟩) p)

/-- A scope guard whose release does not throw. -/
theorem NoThrow.ensuring {release : Proc S ε Unit} {body : Proc S ε α} (hr : NoThrow release)
    (hb : NoThrow body) : NoThrow (ensuring release body) := by
  refine Prog.returns_bind.mpr (Prog.ReturnsUnless.mono hb ?_)
  rintro _ ⟨a, rfl⟩
  refine Prog.returns_bind.mpr (Prog.ReturnsUnless.mono hr ?_)
  rintro _ ⟨u, rfl⟩
  exact ⟨a, rfl⟩

/-- Unless one of its operations is answered as in `A`, the value of the program satisfies `Q`
whenever it ends without an exception. -/
def YieldsUnless (A : (o : S.Op) → S.Resp o → Prop) (Q : α → Prop) (p : Proc S ε α) : Prop :=
  Prog.ReturnsUnless A p fun r => ∀ a, r = .ok a → Q a

/-- Whenever the program ends without an exception, its value satisfies `Q`. -/
abbrev Yields (Q : α → Prop) (p : Proc S ε α) : Prop := YieldsUnless (fun _ _ => False) Q p

/-- Where nothing is asked of the value, nothing is asked of the program. -/
theorem yields_of_forall {Q : α → Prop} (hQ : ∀ a, Q a) (p : Proc S ε α) : YieldsUnless A Q p :=
  Prog.returns_of_forall (fun _ a _ => hQ a) p

theorem yields_pure {Q : α → Prop} {a : α} (h : Q a) :
    YieldsUnless A Q (pure a : Proc S ε α) := by
  rintro _ ⟨⟩
  exact h

theorem yields_throw {Q : α → Prop} (e : ε) : YieldsUnless A Q (throw e : Proc S ε α) := by
  rintro _ ⟨⟩

/-- Either branch of a test. -/
theorem yields_ite {Q : α → Prop} {c : Prop} [Decidable c] {p q : Proc S ε α}
    (hp : YieldsUnless A Q p) (hq : YieldsUnless A Q q) :
    YieldsUnless A Q (if c then p else q) := by
  split_ifs
  · exact hp
  · exact hq

/-- An operation that has not been answered as in `A`, then the rest. -/
theorem yields_perform {o : S.Op} {f : S.Resp o → Proc S ε β} {Q : β → Prop}
    (hf : ∀ r, ¬A o r → YieldsUnless A Q (f r)) :
    YieldsUnless A Q (perform o >>= f : Proc S ε β) :=
  hf

/-- Sequencing, through an intermediate assertion. -/
theorem YieldsUnless.bind {R : α → Prop} {Q : β → Prop} {p : Proc S ε α} {f : α → Proc S ε β}
    (hp : YieldsUnless A R p) (hf : ∀ a, R a → YieldsUnless A Q (f a)) :
    YieldsUnless A Q (p >>= f) := by
  refine Prog.returns_bind.mpr (Prog.ReturnsUnless.mono hp ?_)
  rintro (e | a) hR
  · rintro _ ⟨⟩
  · exact hf a (hR a rfl)

/-- Sequencing, where the value of the first part does not matter. -/
theorem yields_bind {Q : β → Prop} {p : Proc S ε α} {f : α → Proc S ε β}
    (hf : ∀ a, YieldsUnless A Q (f a)) : YieldsUnless A Q (p >>= f) :=
  (yields_of_forall (fun _ => trivial) p).bind fun a _ => hf a

/-- The release of a scope guard does not change the value. -/
theorem YieldsUnless.ensuring {Q : α → Prop} {release : Proc S ε Unit} {body : Proc S ε α}
    (hb : YieldsUnless A Q body) : YieldsUnless A Q (ensuring release body) := by
  refine Prog.returns_bind.mpr (Prog.ReturnsUnless.mono hb fun r hr => ?_)
  refine Prog.returns_bind.mpr (Prog.returns_of_forall (fun u => ?_) release)
  cases u with
  | error e => rintro _ ⟨⟩
  | ok u => exact hr

/-- What is attempted yields its outcome. -/
theorem YieldsUnless.attempt {Q : α → Prop} {p : Proc S ε α} (hp : YieldsUnless A Q p) :
    YieldsUnless A (fun r => ∀ a, r = .ok a → Q a) (attempt p) := by
  refine Prog.returns_bind.mpr (Prog.ReturnsUnless.mono hp ?_)
  rintro r hr _ ⟨⟩
  exact hr

/-- A loop yields what the rounds that leave it yield. -/
theorem YieldsUnless.loop {ι : Type} {Q : β → Prop} {i : ι} {body : ι → Proc S ε (ι ⊕ β)}
    (hb : ∀ j, YieldsUnless A (Sum.elim (fun _ => True) Q) (body j)) :
    YieldsUnless A Q (loop i body) := by
  refine ⟨fun r => ∀ a, r = .ok a → Q a, fun j => Prog.returns_bind.mpr ((hb j).mono ?_),
    fun _ h => h⟩
  rintro (e | (j' | r)) hr
  · rintro _ ⟨⟩
  · trivial
  · rintro _ ⟨⟩
    exact hr _ rfl

/-- Continuing on success, through an intermediate assertion: what the first part yields satisfies
what is asked of the result where it is an error. -/
theorem YieldsUnless.andThen {E α' β' : Type} {R : Except E α' → Prop} {Q : Except E β' → Prop}
    {p : Proc S ε (Except E α')} {f : α' → Proc S ε (Except E β')} (hp : YieldsUnless A R p)
    (he : ∀ e, R (.error e) → Q (.error e)) (hf : ∀ a, R (.ok a) → YieldsUnless A Q (f a)) :
    YieldsUnless A Q (andThen p f) := by
  refine hp.bind fun r hr => ?_
  cases r with
  | error e => exact yields_pure (he e hr)
  | ok a => exact hf a hr

/-- Continuing on success, where the value of the first part does not matter. -/
theorem yields_andThen {E α' β' : Type} {Q : Except E β' → Prop} {p : Proc S ε (Except E α')}
    {f : α' → Proc S ε (Except E β')} (he : ∀ e, Q (.error e)) (hf : ∀ a, YieldsUnless A Q (f a)) :
    YieldsUnless A Q (andThen p f) :=
  (yields_of_forall (fun _ => trivial) p).andThen (fun e _ => he e) fun a _ => hf a

end Proc

/-! ### Pools and protocols -/

/-- What a thread returns is decided by its program, whatever the others do. -/
theorem Config.Reach.returns {S : Sig} {σ ρ : Type}
    {step : Tid → (o : S.Op) → S.Resp o → σ → σ → Prop} {c d : Config S σ ρ} {t : Tid}
    {Q : ρ → Prop} (hp : (c.pool t).Returns Q) (h : Config.Reach step c d) :
    (d.pool t).Returns Q := by
  refine h.invariant (P := fun c => (c.pool t).Returns Q) ?_ hp
  intro d e hd hs
  cases hs with
  | @perform u o k r s' hk hs =>
      by_cases hut : t = u
      · subst hut
        rw [hk] at hd
        simpa using hd r id
      · simpa [hut] using hd
  | @round u _ _ b i k hk =>
      by_cases hut : t = u
      · subst hut
        rw [hk] at hd
        simpa using Prog.returns_unroll hd
      · simpa [hut] using hd

namespace Protocol

variable {S : Sig} {σ L ε : Type} {P : Protocol S σ L} {t : Tid} {α β : Type} {ℓ : L}

/-- What a program returns sharpens its postcondition. -/
theorem Follows.and_returns {Q : α → L → Prop} {R : α → Prop} {p : Prog S α}
    (h : P.Follows t p Q ℓ) (hR : p.Returns R) :
    P.Follows t p (fun a ℓ' => Q a ℓ' ∧ R a) ℓ := by
  induction p generalizing ℓ with
  | ret a => exact ⟨h, hR⟩
  | op o k ih =>
      intro s r s' hinv hview hstep
      obtain ⟨hinv', hk⟩ := h s r s' hinv hview hstep
      exact ⟨hinv', ih r hk (hR r id)⟩
  | loop b i k ihb ihk =>
      obtain ⟨I, hI, hbody⟩ := h
      obtain ⟨R', hb, hk⟩ := hR
      refine ⟨I, hI, fun j ℓ' hj => (ihb j (hbody j ℓ' hj) (hb j)).mono ?_⟩
      rintro (j' | r) ℓ'' ⟨hr, hR'⟩
      · exact hr
      · exact ihk r hr (hk r hR')

/-- Sequencing after a program that does not throw. -/
theorem Follows.bind_noThrow {p : Proc S ε α} {f : α → Proc S ε β} {Q : Except ε β → L → Prop}
    (R : α → L → Prop) (hp : P.Follows t p (fun r ℓ' => ∀ a, r = .ok a → R a ℓ') ℓ)
    (hn : Proc.NoThrow p) (hf : ∀ a ℓ', R a ℓ' → P.Follows t (f a) Q ℓ') :
    P.Follows t (p >>= f : Proc S ε β) Q ℓ := by
  refine follows_prog_bind.mpr ((hp.and_returns hn).mono ?_)
  rintro _ ℓ' ⟨hR, a, rfl⟩
  exact hf a ℓ' (hR a rfl)

end Protocol

/-! ### Moments -/

namespace Event

variable {S : Sig} {A : (o : S.Op) → S.Resp o → Bool} {t : Tid} {h es : List (Event S)}

/-- The moments at which thread `t` was answered as in `A`, newest first: the histories until
then. -/
def moments (A : (o : S.Op) → S.Resp o → Bool) (t : Tid) (h : List (Event S)) :
    List (List (Event S)) :=
  stage (fun es ℓ o r => if A o r then es :: ℓ else ℓ) [] t h

/-- An event adds the moment before it, if it is one of the thread that was answered so. -/
theorem mem_moments_cons {u : Tid} {o : S.Op} {r : S.Resp o} :
    es ∈ moments A t (⟨u, o, r⟩ :: h) ↔
      (u = t ∧ A o r = true ∧ es = h) ∨ es ∈ moments A t h := by
  by_cases hu : u = t
  · subst hu
    rw [moments, stage_cons_self]
    split_ifs with hA <;> simp [hA, moments]
  · rw [moments, stage_cons_ne hu]
    simp [hu, moments]

/-- They are what the name says. -/
theorem mem_moments : es ∈ moments A t h ↔ ∃ o r, A o r = true ∧ ⟨t, o, r⟩ :: es <:+ h := by
  induction h with
  | nil => simp [moments]
  | cons e h ih =>
      obtain ⟨u, o, r⟩ := e
      rw [mem_moments_cons, ih]
      constructor
      · rintro (⟨rfl, hA, rfl⟩ | ⟨o', r', hA, hs⟩)
        · exact ⟨o, r, hA, List.suffix_refl _⟩
        · exact ⟨o', r', hA, hs.trans (List.suffix_cons _ _)⟩
      · rintro ⟨o', r', hA, hs⟩
        rcases List.suffix_cons_iff.mp hs with heq | hs
        · cases heq
          exact .inl ⟨rfl, hA, rfl⟩
        · exact .inr ⟨o', r', hA, hs⟩

end Event

namespace Protocol

variable {S : Sig} {W α : Type} {exec : Tid → (o : S.Op) → S.Resp o → W → Option W}
  {A : (o : S.Op) → S.Resp o → Bool} {t : Tid}

/-- The protocol that keeps the moments. -/
abbrev momentsProtocol (exec : Tid → (o : S.Op) → S.Resp o → W → Option W)
    (A : (o : S.Op) → S.Resp o → Bool) : Protocol S (Traced S W) (List (List (Event S))) :=
  own exec (fun es ℓ o r => if A o r then es :: ℓ else ℓ) fun _ => []

/-- No moment is forgotten. -/
theorem follows_moments_suffix (p : Prog S α) (ℓ : List (List (Event S))) :
    (momentsProtocol exec A).Follows t p (fun _ ℓ' => ℓ <:+ ℓ') ℓ := by
  have hkeeps : ∀ ℓ₁, ℓ <:+ ℓ₁ →
      (momentsProtocol exec A).Follows t p (fun _ ℓ' => ℓ <:+ ℓ') ℓ₁ := by
    induction p with
    | ret a => exact fun _ h => h
    | op o k ih =>
        refine fun ℓ₁ hℓ₁ => follows_own_op fun es r => ih r _ ?_
        split_ifs
        · exact hℓ₁.trans (List.suffix_cons _ _)
        · exact hℓ₁
    | loop b i k ihb ihk =>
        refine fun ℓ₁ hℓ₁ => ⟨fun _ ℓ' => ℓ <:+ ℓ', hℓ₁, fun j ℓ' hj => (ihb j ℓ' hj).mono ?_⟩
        rintro (j' | r) ℓ'' hr
        · exact hr
        · exact ihk r ℓ'' hr
  exact hkeeps ℓ (List.suffix_refl ℓ)

/-- A result that is not in `Q` comes with a moment of its own. -/
theorem follows_moments {Q : α → Prop} {p : Prog S α} (h : p.ReturnsUnless (A · ·) Q)
    (ℓ : List (List (Event S))) :
    (momentsProtocol exec A).Follows t p (fun a ℓ' => ℓ <:+ ℓ' ∧ (ℓ' = ℓ → Q a)) ℓ := by
  -- once there is a new moment, the result does not matter
  have hany : ∀ {β : Type} (p : Prog S β) (R : β → Prop) {ℓ₁ : List (List (Event S))}, ℓ <:+ ℓ₁ →
      ℓ₁ ≠ ℓ → (momentsProtocol exec A).Follows t p (fun a ℓ' => ℓ <:+ ℓ' ∧ (ℓ' = ℓ → R a)) ℓ₁ := by
    refine fun p R ℓ₁ hℓ₁ hne => (follows_moments_suffix p ℓ₁).mono fun a ℓ' hℓ' => ?_
    refine ⟨hℓ₁.trans hℓ', fun heq => absurd ?_ hne⟩
    exact (hℓ₁.eq_of_length_le (heq ▸ hℓ'.length_le)).symm
  induction p with
  | ret a => exact ⟨List.suffix_refl ℓ, fun _ => h⟩
  | op o k ih =>
      refine follows_own_op fun es r => ?_
      split_ifs with hA
      · exact hany (k r) Q (List.suffix_cons _ _) (List.cons_ne_self es ℓ)
      · exact ih r (h r hA)
  | loop b i k ihb ihk =>
      obtain ⟨R, hb, hk⟩ := h
      -- the rounds so far have added a moment or not
      refine ⟨fun _ ℓ₁ => ℓ <:+ ℓ₁, List.suffix_refl ℓ, fun j ℓ₁ hℓ₁ => ?_⟩
      have hround : (momentsProtocol exec A).Follows t (b j)
          (fun x ℓ₂ => ℓ <:+ ℓ₂ ∧ (ℓ₂ = ℓ → Sum.elim (fun _ => True) R x)) ℓ₁ := by
        by_cases hsame : ℓ₁ = ℓ
        · exact hsame ▸ ihb j (hb j)
        · exact hany (b j) _ hℓ₁ hsame
      refine hround.mono ?_
      rintro (j' | r) ℓ₂ ⟨hℓ₂, hr⟩
      · exact hℓ₂
      · by_cases hsame : ℓ₂ = ℓ
        · exact hsame ▸ ihk r (hk r (hr hsame))
        · exact hany (k r) Q hℓ₂ hsame

end Protocol

end Interleaving
