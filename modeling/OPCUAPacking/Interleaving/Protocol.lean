import OPCUAPacking.Interleaving.Pool

/-!
# Protocols: invariants of a pool, thread by thread

A protocol consists of an invariant of the shared state and of the view that each thread has of
its own progress, such as the stage it has reached. A thread *follows* the protocol when each of
its operations, started from any state that satisfies the invariant and agrees with its view,
keeps the invariant. Only the thread's own operations move its view, so nothing has to be said
about the others, and a pool whose threads all follow the protocol keeps the invariant in every
run (`Protocol.reach`).

`Protocol.Follows` is defined by recursion on the program; its rules for the constructions of
`Proc` are stated as equivalences where they are, and `Protocol.Keeps`, which asks the same of every
view in a set, follows from the parts of a program.
-/

namespace Interleaving

variable {S : Sig} {σ W ρ L : Type}

/-- An invariant of the shared state, with the view each thread has of its own progress. -/
structure Protocol (S : Sig) (σ L : Type) where
  /-- The steps of the operations. -/
  step : Tid → (o : S.Op) → S.Resp o → σ → σ → Prop
  /-- What holds of the shared state throughout. -/
  Inv : σ → Prop
  /-- The progress of a thread. -/
  view : Tid → σ → L
  /-- A thread's progress is its own. -/
  view_frame : ∀ {t u o r s s'}, u ≠ t → step t o r s s' → view u s' = view u s

namespace Protocol

variable (P : Protocol S σ L)

/-- Thread `t`, running the program from the view `ℓ`, keeps the invariant with each operation
and returns only with results and views in `Q`. -/
def Follows (t : Tid) : {α : Type} → Prog S α → (α → L → Prop) → L → Prop
  | _, .ret a, Q, ℓ => Q a ℓ
  | _, .op o k, Q, ℓ => ∀ s r s', P.Inv s → P.view t s = ℓ → P.step t o r s s' →
      P.Inv s' ∧ Follows t (k r) Q (P.view t s')
  | _, .loop (ι := ι) b i k, Q, ℓ => ∃ I : ι → L → Prop, I i ℓ ∧
      ∀ j ℓ', I j ℓ' → Follows t (b j) (Sum.elim I fun r => Follows t (k r) Q) ℓ'

variable {P} {t : Tid} {α β ι τ ε : Type} {ℓ : L}

/-- A weaker postcondition. -/
theorem Follows.mono {Q Q' : α → L → Prop} {p : Prog S α} (h : P.Follows t p Q ℓ)
    (hQ : ∀ a ℓ', Q a ℓ' → Q' a ℓ') : P.Follows t p Q' ℓ := by
  induction p generalizing ℓ with
  | ret a => exact hQ a ℓ h
  | op o k ih =>
      intro s r s' hinv hview hstep
      obtain ⟨hinv', hk⟩ := h s r s' hinv hview hstep
      exact ⟨hinv', ih r hk hQ⟩
  | loop b i k ihb ihk =>
      obtain ⟨I, hI, hbody⟩ := h
      refine ⟨I, hI, fun j ℓ' hj => ihb j (hbody j ℓ' hj) ?_⟩
      rintro (j' | r) ℓ'' hr
      · exact hr
      · exact ihk r hr hQ

/-- Two postconditions at once. -/
theorem Follows.and {Q Q' : α → L → Prop} {p : Prog S α} (h : P.Follows t p Q ℓ)
    (h' : P.Follows t p Q' ℓ) : P.Follows t p (fun a ℓ' => Q a ℓ' ∧ Q' a ℓ') ℓ := by
  induction p generalizing ℓ with
  | ret a => exact ⟨h, h'⟩
  | op o k ih =>
      intro s r s' hinv hview hstep
      obtain ⟨hinv', hk⟩ := h s r s' hinv hview hstep
      exact ⟨hinv', ih r hk (h' s r s' hinv hview hstep).2⟩
  | loop b i k ihb ihk =>
      obtain ⟨I, hI, hbody⟩ := h
      obtain ⟨I', hI', hbody'⟩ := h'
      refine ⟨fun j ℓ' => I j ℓ' ∧ I' j ℓ', ⟨hI, hI'⟩, fun j ℓ' hj =>
        (ihb j (hbody j ℓ' hj.1) (hbody' j ℓ' hj.2)).mono ?_⟩
      rintro (j' | r) ℓ'' ⟨hr, hr'⟩
      · exact ⟨hr, hr'⟩
      · exact ihk r hr hr'

/-- A program followed by another: the second starts where the first returns. -/
theorem follows_prog_bind {p : Prog S α} {f : α → Prog S β} {Q : β → L → Prop} :
    P.Follows t (p.bind f) Q ℓ ↔ P.Follows t p (fun a => P.Follows t (f a) Q) ℓ := by
  induction p generalizing ℓ with
  | ret a => rfl
  | op o k ih => simp only [Prog.bind, Follows, ih]
  | loop b i k _ ihk =>
      have hk : ∀ r, P.Follows t ((k r).bind f) Q =
          P.Follows t (k r) fun a => P.Follows t (f a) Q := fun r => funext fun _ => propext (ihk r)
      simp only [Prog.bind, Follows, hk]

/-- A loop may be unrolled once. -/
theorem follows_unroll {b : ι → Prog S (ι ⊕ τ)} {i : ι} {k : τ → Prog S α} {Q : α → L → Prop}
    (h : P.Follows t (.loop b i k) Q ℓ) : P.Follows t (.unroll b i k) Q ℓ := by
  obtain ⟨I, hI, hbody⟩ := h
  rw [Prog.unroll, follows_prog_bind]
  refine (hbody i ℓ hI).mono ?_
  rintro (j | r) ℓ' hr
  · exact ⟨I, hr, hbody⟩
  · exact hr

/-! ### Soundness -/

/-- A step of a pool whose threads follow the protocol keeps the invariant, and the threads
follow it from there on. -/
theorem step_follows {c d : Config S σ ρ} {Q : Tid → ρ → L → Prop}
    (h : P.Inv c.state ∧ ∀ u, P.Follows u (c.pool u) (Q u) (P.view u c.state))
    (hstep : Config.Step P.step c d) :
    P.Inv d.state ∧ ∀ u, P.Follows u (d.pool u) (Q u) (P.view u d.state) := by
  obtain ⟨hinv, hf⟩ := h
  cases hstep with
  | @perform t o k r s' hp hs =>
      have ht := hf t
      rw [hp] at ht
      obtain ⟨hinv', hk⟩ := ht _ r s' hinv rfl hs
      refine ⟨hinv', fun u => ?_⟩
      by_cases hu : u = t
      · subst hu
        simpa using hk
      · simp only [Function.update_of_ne hu, P.view_frame hu hs]
        exact hf u
  | @round t _ _ b i k hp =>
      refine ⟨hinv, fun u => ?_⟩
      by_cases hu : u = t
      · subst hu
        have ht := hf u
        rw [hp] at ht
        simpa using follows_unroll ht
      · simp only [Function.update_of_ne hu]
        exact hf u

/-- Every configuration that a pool of following threads reaches satisfies the invariant, and its
threads still follow the protocol. -/
theorem reach {c d : Config S σ ρ} {Q : Tid → ρ → L → Prop} (hinv : P.Inv c.state)
    (hf : ∀ u, P.Follows u (c.pool u) (Q u) (P.view u c.state))
    (h : Config.Reach P.step c d) :
    P.Inv d.state ∧ ∀ u, P.Follows u (d.pool u) (Q u) (P.view u d.state) :=
  h.invariant (P := fun c => P.Inv c.state ∧ ∀ u, P.Follows u (c.pool u) (Q u) (P.view u c.state))
    step_follows ⟨hinv, hf⟩

/-- A thread that has returned did so with its postcondition. -/
theorem returned {c d : Config S σ ρ} {Q : Tid → ρ → L → Prop} {a : ρ} (hinv : P.Inv c.state)
    (hf : ∀ u, P.Follows u (c.pool u) (Q u) (P.view u c.state))
    (h : Config.Reach P.step c d) (ha : d.Returned t a) : Q t a (P.view t d.state) := by
  have ht := (reach hinv hf h).2 t
  rw [ha] at ht
  exact ht

/-! ### Rules for programs with exceptions -/

section Proc

variable {Q : Except ε α → L → Prop}

@[simp]
theorem follows_pure {a : α} :
    P.Follows t (pure a : Proc S ε α) Q ℓ ↔ Q (.ok a) ℓ := Iff.rfl

@[simp]
theorem follows_throw {e : ε} :
    P.Follows t (Proc.throw e : Proc S ε α) Q ℓ ↔ Q (.error e) ℓ := Iff.rfl

/-- Sequencing: the second program runs from where the first returned. -/
theorem follows_bind {p : Proc S ε α} {f : α → Proc S ε β} {Q : Except ε β → L → Prop} :
    P.Follows t (p >>= f : Proc S ε β) Q ℓ ↔
      P.Follows t p (fun r => P.Follows t (Proc.next f r) Q) ℓ :=
  follows_prog_bind

/-- Sequencing through an intermediate assertion. -/
theorem Follows.bind {p : Proc S ε α} {f : α → Proc S ε β} (R : Except ε α → L → Prop)
    {Q : Except ε β → L → Prop} (hp : P.Follows t p R ℓ)
    (hf : ∀ a ℓ', R (.ok a) ℓ' → P.Follows t (f a) Q ℓ')
    (he : ∀ e ℓ', R (.error e) ℓ' → Q (.error e) ℓ') :
    P.Follows t (p >>= f : Proc S ε β) Q ℓ := by
  refine follows_bind.mpr (Follows.mono hp ?_)
  rintro (e | a) ℓ' hr
  · exact he e ℓ' hr
  · exact hf a ℓ' hr

/-- One operation, then the rest. -/
theorem Follows.perform {o : S.Op} {f : S.Resp o → Proc S ε β} {Q : Except ε β → L → Prop}
    (h : ∀ s r s', P.Inv s → P.view t s = ℓ → P.step t o r s s' →
      P.Inv s' ∧ P.Follows t (f r) Q (P.view t s')) :
    P.Follows t (Proc.perform o >>= f : Proc S ε β) Q ℓ :=
  follows_bind.mpr h

/-- A scope guard: from wherever the body ended, the release runs and does not throw. -/
theorem Follows.ensuring {release : Proc S ε Unit} {body : Proc S ε α}
    (R : Except ε α → L → Prop) (hb : P.Follows t body R ℓ)
    (hr : ∀ r ℓ', R r ℓ' → P.Follows t release (fun u ℓ'' => u = .ok () ∧ Q r ℓ'') ℓ') :
    P.Follows t (Proc.ensuring release body) Q ℓ := by
  refine follows_prog_bind.mpr (Follows.mono hb fun r ℓ' h => ?_)
  refine follows_prog_bind.mpr (Follows.mono (hr r ℓ' h) ?_)
  rintro _ ℓ'' ⟨rfl, hQ⟩
  exact hQ

/-- A handler runs from wherever the body threw. -/
theorem Follows.tryCatch {p : Proc S ε α} {h : ε → Proc S ε α} (R : Except ε α → L → Prop)
    (hp : P.Follows t p R ℓ) (hok : ∀ a ℓ', R (.ok a) ℓ' → Q (.ok a) ℓ')
    (herr : ∀ e ℓ', R (.error e) ℓ' → P.Follows t (h e) Q ℓ') :
    P.Follows t (Proc.tryCatch p h) Q ℓ := by
  refine follows_prog_bind.mpr (Follows.mono hp ?_)
  rintro (e | a) ℓ' hr
  · exact herr e ℓ' hr
  · exact hok a ℓ' hr

/-- Continuing on success, through an intermediate assertion. -/
theorem Follows.andThen {E α' β' : Type} {p : Proc S ε (Except E α')}
    {f : α' → Proc S ε (Except E β')} {Q : Except ε (Except E β') → L → Prop}
    (R : Except ε (Except E α') → L → Prop) (hp : P.Follows t p R ℓ)
    (hf : ∀ a ℓ', R (.ok (.ok a)) ℓ' → P.Follows t (f a) Q ℓ')
    (he : ∀ e ℓ', R (.ok (.error e)) ℓ' → Q (.ok (.error e)) ℓ')
    (hx : ∀ e ℓ', R (.error e) ℓ' → Q (.error e) ℓ') :
    P.Follows t (Proc.andThen p f) Q ℓ := by
  refine Follows.bind R hp ?_ hx
  rintro (e | a) ℓ' hr
  · exact he e ℓ' hr
  · exact hf a ℓ' hr

/-- Reifying the outcome. -/
theorem follows_attempt {p : Proc S ε α} {Q : Except ε (Except ε α) → L → Prop} :
    P.Follows t (Proc.attempt p) Q ℓ ↔ P.Follows t p (fun r => Q (.ok r)) ℓ :=
  follows_prog_bind

/-- A loop with the invariant `I`. -/
theorem Follows.loop {i : ι} {body : ι → Proc S ε (ι ⊕ τ)} {Q : Except ε τ → L → Prop}
    (I : ι → L → Prop) (hI : I i ℓ)
    (hbody : ∀ j ℓ', I j ℓ' → P.Follows t (body j)
      (fun r => Sum.elim I Q (Proc.roundExit r)) ℓ') :
    P.Follows t (Proc.loop i body) Q ℓ := by
  refine ⟨I, hI, fun j ℓ' hj => follows_prog_bind.mpr ((hbody j ℓ' hj).mono fun r ℓ'' hr => ?_)⟩
  cases hr' : Proc.roundExit r with
  | inl j' => simpa [hr', Follows] using hr
  | inr b => simpa [hr', Follows] using hr

end Proc

/-! ### Programs that keep a set of views -/

/-- From every view in `I`, the program follows the protocol and ends, normally or with an
exception, with a view in `I`. -/
def Keeps (P : Protocol S σ L) (I : L → Prop) (t : Tid) (p : Prog S α) : Prop :=
  ∀ ℓ, I ℓ → P.Follows t p (fun _ ℓ' => I ℓ') ℓ

/-- Keeping a set of views is a matter of the parts. -/
theorem closed_keeps (P : Protocol S σ L) (I : L → Prop) (t : Tid) :
    Proc.Closed fun α (p : Proc S ε α) => P.Keeps I t p where
  pure _ _ hℓ := hℓ
  throw _ _ hℓ := hℓ
  bind hp hf ℓ hℓ := Follows.bind _ (hp ℓ hℓ) (fun a ℓ' h => hf a ℓ' h) fun _ _ h => h
  ensuring {_ release body} hr hb ℓ hℓ := by
    refine follows_prog_bind.mpr ((hb ℓ hℓ).mono fun r ℓ' h => ?_)
    refine follows_prog_bind.mpr ((hr ℓ' h).mono fun u ℓ'' h' => ?_)
    cases u <;> exact h'
  tryCatch hp hh ℓ hℓ := Follows.tryCatch _ (hp ℓ hℓ) (fun _ _ h => h) fun e ℓ' h => hh e ℓ' h
  attempt hp ℓ hℓ := follows_attempt.mpr (hp ℓ hℓ)
  loop {ι ρ i body} hb ℓ hℓ := by
    refine Follows.loop (fun _ => I) hℓ fun j ℓ' hj => (hb j ℓ' hj).mono fun r ℓ'' hr => ?_
    rcases r with e | (j' | r) <;> exact hr

/-! ### Protocols over recorded histories -/

/-- The protocol whose views are the stages of the threads, folded from the history. -/
def traced (ok : Traced S W → Event S → Prop)
    (exec : Tid → (o : S.Op) → S.Resp o → W → Option W) (Inv : Traced S W → Prop)
    (track : Event.Track S L) (start : Tid → L) : Protocol S (Traced S W) L where
  step := Traced.StepIf ok exec
  Inv := Inv
  view t s := Event.stage track (start t) t s.history
  view_frame := by
    intro t u o r s s' hu h
    rw [h.history_eq, Event.stage_cons_ne hu.symm]

section traced

variable {ok : Traced S W → Event S → Prop}
  {exec : Tid → (o : S.Op) → S.Resp o → W → Option W} {Inv : Traced S W → Prop}
  {track : Event.Track S L} {start : Tid → L}

/-- What one operation has to keep, in terms of the transition function and the stages. -/
theorem follows_traced_op {o : S.Op} {k : S.Resp o → Prog S α} {Q : α → L → Prop}
    (h : ∀ w es r w', Inv ⟨w, es⟩ → Event.stage track (start t) t es = ℓ →
      exec t o r w = some w' → ok ⟨w, es⟩ ⟨t, o, r⟩ →
      Inv ⟨w', ⟨t, o, r⟩ :: es⟩ ∧
        (traced ok exec Inv track start).Follows t (k r) Q (track es ℓ o r)) :
    (traced ok exec Inv track start).Follows t (.op o k) Q ℓ := by
  rintro ⟨w, es⟩ r ⟨w', es'⟩ hinv hview ⟨hexec, hes, hok⟩
  obtain rfl : es' = ⟨t, o, r⟩ :: es := hes
  obtain ⟨hinv', hk⟩ := h w es r w' hinv hview hexec hok
  refine ⟨hinv', ?_⟩
  have hview' : (traced ok exec Inv track start).view t ⟨w', ⟨t, o, r⟩ :: es⟩ = track es ℓ o r :=
    (Event.stage_cons_self o r es).trans (congrArg (track es · o r) hview)
  rwa [hview']

end traced

/-- The protocol in which every operation meets a condition on the stage of its thread. It assumes
nothing of the others: what a thread knows is what its own operations answered. -/
def recorded (exec : Tid → (o : S.Op) → S.Resp o → W → Option W)
    (cond : L → (o : S.Op) → S.Resp o → Prop) (track : Event.Track S L) (start : Tid → L) :
    Protocol S (Traced S W) L :=
  traced (fun _ _ => True) exec
    (fun s => Event.Each (fun es e => cond (Event.stage track (start e.tid) e.tid es) e.op e.resp)
      s.history)
    track start

section recorded

variable {exec : Tid → (o : S.Op) → S.Resp o → W → Option W}
  {cond : L → (o : S.Op) → S.Resp o → Prop} {track : Event.Track S L} {start : Tid → L}

/-- One operation: it meets the condition when it can end with its response. -/
theorem follows_recorded_exec {o : S.Op} {k : S.Resp o → Prog S α} {Q : α → L → Prop}
    (h : ∀ w es r w', exec t o r w = some w' →
      cond ℓ o r ∧ (recorded exec cond track start).Follows t (k r) Q (track es ℓ o r)) :
    (recorded exec cond track start).Follows t (.op o k) Q ℓ := by
  refine follows_traced_op fun w es r w' hinv hstage hexec _ => ?_
  obtain ⟨hcond, hk⟩ := h w es r w' hexec
  refine ⟨Event.each_cons.mpr ⟨?_, hinv⟩, hk⟩
  rw [hstage]
  exact hcond

/-- One operation: it meets the condition, whatever it answers. -/
theorem follows_recorded_op {o : S.Op} {k : S.Resp o → Prog S α} {Q : α → L → Prop}
    (h : ∀ es r, cond ℓ o r ∧ (recorded exec cond track start).Follows t (k r) Q (track es ℓ o r)) :
    (recorded exec cond track start).Follows t (.op o k) Q ℓ :=
  follows_recorded_exec fun _ es r _ _ => h es r

/-- One operation as a statement, then the rest. -/
theorem follows_recorded_perform {o : S.Op} {f : S.Resp o → Proc S ε β}
    {Q : Except ε β → L → Prop}
    (h : ∀ es r, cond ℓ o r ∧ (recorded exec cond track start).Follows t (f r) Q (track es ℓ o r)) :
    (recorded exec cond track start).Follows t (Proc.perform o >>= f : Proc S ε β) Q ℓ :=
  follows_recorded_op h

/-- One operation that keeps a set of stages, whatever it answers. -/
theorem keeps_recorded_perform {I : L → Prop} {o : S.Op}
    (h : ∀ es ℓ r, I ℓ → cond ℓ o r ∧ I (track es ℓ o r)) :
    (recorded exec cond track start).Keeps I t (Proc.perform o : Proc S ε _) :=
  fun _ hℓ => follows_recorded_op fun es r => h es _ r hℓ

/-- In every run of a pool whose threads follow the protocol, every operation met the
condition. -/
theorem recorded_each {c d : Config S (Traced S W) ρ} {Q : Tid → ρ → L → Prop}
    (hc : c.state.history = [])
    (hf : ∀ u, (recorded exec cond track start).Follows u (c.pool u) (Q u) (start u))
    (h : Config.Reach (Traced.Step exec) c d) :
    Event.Each (fun es e => cond (Event.stage track (start e.tid) e.tid es) e.op e.resp)
        d.state.history ∧
      ∀ t a, d.Returned t a → Q t a (Event.stage track (start t) t d.state.history) := by
  have hinv : (recorded exec cond track start).Inv c.state := by
    simp only [recorded, traced, hc]
    exact Event.each_nil
  have hview : ∀ u, (recorded exec cond track start).view u c.state = start u := by
    intro u
    simp only [recorded, traced, hc, Event.stage_nil]
  have hf' := fun u => (hview u).symm ▸ hf u
  exact ⟨(reach hinv hf' h).1, fun t a ha => returned hinv hf' h ha⟩

end recorded

/-- The protocol that asks nothing of the operations. -/
def own (exec : Tid → (o : S.Op) → S.Resp o → W → Option W) (track : Event.Track S L)
    (start : Tid → L) : Protocol S (Traced S W) L :=
  recorded exec (fun _ _ _ => True) track start

section own

variable {exec : Tid → (o : S.Op) → S.Resp o → W → Option W}
  {track : Event.Track S L} {start : Tid → L}

/-- One operation, when it can end with its response. -/
theorem follows_own_exec {o : S.Op} {k : S.Resp o → Prog S α} {Q : α → L → Prop}
    (h : ∀ w es r w', exec t o r w = some w' →
      (own exec track start).Follows t (k r) Q (track es ℓ o r)) :
    (own exec track start).Follows t (.op o k) Q ℓ :=
  follows_recorded_exec fun w es r w' hexec => ⟨trivial, h w es r w' hexec⟩

/-- One operation, whatever it answers. -/
theorem follows_own_op {o : S.Op} {k : S.Resp o → Prog S α} {Q : α → L → Prop}
    (h : ∀ es r, (own exec track start).Follows t (k r) Q (track es ℓ o r)) :
    (own exec track start).Follows t (.op o k) Q ℓ :=
  follows_own_exec fun _ es r _ _ => h es r

/-- One operation as a statement, whatever it answers. -/
theorem follows_own_perform {o : S.Op} {Q : Except ε (S.Resp o) → L → Prop}
    (h : ∀ es r, Q (.ok r) (track es ℓ o r)) :
    (own exec track start).Follows t (Proc.perform o : Proc S ε _) Q ℓ :=
  follows_own_op h

/-- Where nothing is asked of the result, nothing is asked of the program. -/
theorem follows_own_trivial {p : Prog S α} {Q : α → L → Prop} (hQ : ∀ a ℓ', Q a ℓ') (ℓ : L) :
    (own exec track start).Follows t p Q ℓ := by
  induction p generalizing ℓ with
  | ret a => exact hQ a ℓ
  | op o k ih => exact follows_own_op fun _ r => ih r hQ _
  | loop b i k ihb ihk =>
      refine ⟨fun _ _ => True, trivial, fun j ℓ' _ => ihb j ?_ ℓ'⟩
      rintro (j' | r) ℓ''
      · trivial
      · exact ihk r hQ ℓ''

/-- A thread that has returned did so with the postcondition that its program has by itself. -/
theorem own_returned {c d : Config S (Traced S W) ρ} {Q : ρ → L → Prop} {a : ρ}
    (hf : (own exec track start).Follows t (c.pool t) Q
      (Event.stage track (start t) t c.state.history))
    (h : Config.Reach (Traced.Step exec) c d) (ha : d.Returned t a) :
    Q a (Event.stage track (start t) t d.state.history) := by
  have hall : ∀ u, (own exec track start).Follows u (c.pool u) (fun a ℓ => u = t → Q a ℓ)
      (Event.stage track (start u) u c.state.history) := by
    intro u
    by_cases hu : u = t
    · subst hu
      exact hf.mono fun a ℓ' hQ _ => hQ
    · exact follows_own_trivial (fun a ℓ' h => absurd h hu) _
  exact returned (P := own exec track start) (fun _ _ _ => trivial) hall h ha rfl

end own

end Protocol

end Interleaving
