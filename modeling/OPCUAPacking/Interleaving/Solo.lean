import OPCUAPacking.Interleaving.Protocol

/-!
# A thread that runs alone

While the other threads of a pool have nothing to run, what a thread sees of the shared state is
what the state is. `Protocol.solo` is the protocol whose view is the whole state, so that
`Protocol.Follows` becomes the weakest precondition of a sequential program.

* `Protocol.solo_reach` — what follows the protocol of a lone thread holds of its runs.
* `Protocol.Follows.frame` — a fact that the operations of a program do not change is carried along;
  `Protocol.keeps_solo_of_uses` — so is a predicate by itself.
* `Event.replay` — the state after a history.
-/

namespace Interleaving

variable {S : Sig} {σ W ρ α β ε : Type}

namespace Protocol

/-- The protocol of a thread that runs alone: its view is the state. The others have seen nothing
since the start. -/
def solo (me : Tid) (step : Tid → (o : S.Op) → S.Resp o → σ → σ → Prop) (Inv : σ → Prop)
    (start : σ) : Protocol S σ σ where
  step t o r s s' := t = me ∧ step t o r s s'
  Inv := Inv
  view t s := if t = me then s else start
  view_frame := by
    rintro t u o r s s' hu ⟨rfl, -⟩
    simp only [if_neg hu]

section solo

variable {me : Tid} {step : Tid → (o : S.Op) → S.Resp o → σ → σ → Prop} {Inv : σ → Prop}
  {start s : σ}

/-- One operation. -/
theorem follows_solo_op {o : S.Op} {k : S.Resp o → Prog S α} {Q : α → σ → Prop}
    (h : ∀ r s', Inv s → step me o r s s' →
      Inv s' ∧ (solo me step Inv start).Follows me (k r) Q s') :
    (solo me step Inv start).Follows me (.op o k) Q s := by
  rintro s₀ r s' hinv hview ⟨-, hstep⟩
  obtain rfl : s₀ = s := (if_pos rfl).symm.trans hview
  obtain ⟨hinv', hk⟩ := h r s' hinv hstep
  refine ⟨hinv', ?_⟩
  have hview' : (solo me step Inv start).view me s' = s' := if_pos rfl
  rwa [hview']

/-- One operation as a statement. -/
theorem follows_solo_perform {o : S.Op} {Q : Except ε (S.Resp o) → σ → Prop}
    (h : ∀ r s', Inv s → step me o r s s' → Inv s' ∧ Q (.ok r) s') :
    (solo me step Inv start).Follows me (Proc.perform o : Proc S ε _) Q s :=
  follows_solo_op h

/-- One operation as a statement, then the rest. -/
theorem follows_solo_step {o : S.Op} {f : S.Resp o → Proc S ε β} {Q : Except ε β → σ → Prop}
    (h : ∀ r s', Inv s → step me o r s s' →
      Inv s' ∧ (solo me step Inv start).Follows me (f r) Q s') :
    (solo me step Inv start).Follows me (Proc.perform o >>= f : Proc S ε β) Q s :=
  follows_solo_op h

/-- A lone thread, in a pool whose other threads have returned, keeps the invariant and returns
with its postcondition. -/
theorem solo_reach {c d : Config S σ ρ} {Q : ρ → σ → Prop}
    (hrest : ∀ u, u ≠ me → ∃ a, c.pool u = .ret a) (hinv : Inv c.state)
    (hf : (solo me step Inv start).Follows me (c.pool me) Q c.state)
    (h : Config.Reach step c d) : Inv d.state ∧ ∀ a, d.Returned me a → Q a d.state := by
  have hall : (∀ u, u ≠ me → ∃ a, d.pool u = .ret a) ∧ Inv d.state ∧
      (solo me step Inv start).Follows me (d.pool me) Q d.state := by
    refine h.invariant (P := fun c => (∀ u, u ≠ me → ∃ a, c.pool u = .ret a) ∧ Inv c.state ∧
      (solo me step Inv start).Follows me (c.pool me) Q c.state) ?_ ⟨hrest, hinv, hf⟩
    rintro d e ⟨hrest, hinv, hf⟩ hstep
    have hview : ∀ s, (solo me step Inv start).view me s = s := fun s => if_pos rfl
    cases hstep with
    | @perform t o k r s' hp hs =>
        -- only the lone thread has an operation to perform
        have ht : t = me := by
          by_contra hne
          obtain ⟨a, ha⟩ := hrest t hne
          cases hp.symm.trans ha
        subst ht
        rw [hp] at hf
        obtain ⟨hinv', hk⟩ := hf d.state r s' hinv (hview _) ⟨rfl, hs⟩
        rw [hview] at hk
        refine ⟨fun u hu => ?_, hinv', by simpa using hk⟩
        simpa only [Function.update_of_ne hu] using hrest u hu
    | @round t _ _ b i k hp =>
        have ht : t = me := by
          by_contra hne
          obtain ⟨a, ha⟩ := hrest t hne
          cases hp.symm.trans ha
        subst ht
        rw [hp] at hf
        refine ⟨fun u hu => ?_, hinv, by simpa using follows_unroll hf⟩
        simpa only [Function.update_of_ne hu] using hrest u hu
  refine ⟨hall.2.1, fun a ha => ?_⟩
  have hQ := hall.2.2
  rw [ha] at hQ
  exact hQ

/-- A fact that the operations in `A` do not change is carried along a program that uses only
these. -/
theorem Follows.frame {A : S.Op → Prop} {F : σ → Prop} {p : Prog S α} {Q : α → σ → Prop}
    (hA : ∀ o, A o → ∀ r s s', step me o r s s' → F s → F s') (hp : p.Uses A)
    (h : (solo me step Inv start).Follows me p Q s) (hF : F s) :
    (solo me step Inv start).Follows me p (fun a s' => Q a s' ∧ F s') s := by
  induction p generalizing s with
  | ret a => exact ⟨h, hF⟩
  | op o k ih =>
      refine follows_solo_op fun r s' hinv hstep => ?_
      have hview : (solo me step Inv start).view me s' = s' := if_pos rfl
      obtain ⟨hinv', hk⟩ := h s r s' hinv (if_pos rfl) ⟨rfl, hstep⟩
      rw [hview] at hk
      exact ⟨hinv', ih r (hp.2 r) hk (hA o hp.1 r s s' hstep hF)⟩
  | loop b i k ihb ihk =>
      obtain ⟨I, hI, hbody⟩ := h
      refine ⟨fun j s => I j s ∧ F s, ⟨hI, hF⟩, fun j s hj => ?_⟩
      refine (ihb j (hp.1 j) (hbody j s hj.1) hj.2).mono ?_
      rintro (j' | r) s' ⟨hr, hF'⟩
      · exact ⟨hr, hF'⟩
      · exact ihk r (hp.2 r) hr hF'

/-- So is a fact that no operation changes. -/
theorem Follows.frame_all {F : σ → Prop} {p : Prog S α} {Q : α → σ → Prop}
    (hF : ∀ o r s s', step me o r s s' → F s → F s')
    (h : (solo me step Inv start).Follows me p Q s) (hs : F s) :
    (solo me step Inv start).Follows me p (fun a s' => Q a s' ∧ F s') s :=
  h.frame (fun o _ => hF o) (p.uses_of_forall fun _ : S.Op => trivial) hs

/-- A program whose operations keep a predicate keeps it. -/
theorem keeps_solo_of_uses {A : S.Op → Prop} {I : σ → Prop} {p : Prog S α}
    (hinv : ∀ s, I s → Inv s) (hA : ∀ o, A o → ∀ r s s', I s → step me o r s s' → I s')
    (hp : p.Uses A) : (solo me step Inv start).Keeps I me p := by
  intro s hs
  induction p generalizing s with
  | ret a => exact hs
  | op o k ih =>
      refine follows_solo_op fun r s' _ hstep => ?_
      have hs' := hA o hp.1 r s s' hs hstep
      exact ⟨hinv s' hs', ih r (hp.2 r) s' hs'⟩
  | loop b i k ihb ihk =>
      refine ⟨fun _ => I, hs, fun j s hj => (ihb j (hp.1 j) s hj).mono ?_⟩
      rintro (j' | r) s' hs'
      · exact hs'
      · exact ihk r (hp.2 r) s' hs'

end solo

end Protocol

/-! ### The states along a history -/

namespace Event

variable {exec : Tid → (o : S.Op) → S.Resp o → W → Option W} {w : W}

/-- The state after a history, from the state at its beginning. -/
def replay (exec : Tid → (o : S.Op) → S.Resp o → W → Option W) (w : W) :
    List (Event S) → Option W
  | [] => some w
  | e :: es => (replay exec w es).bind (exec e.tid e.op e.resp)

/-- A step leads on to the state after its event. -/
theorem replay_step {ok : Traced S W → Event S → Prop} {t : Tid} {o : S.Op} {r : S.Resp o}
    {s s' : Traced S W} (hs : replay exec w s.history = some s.world)
    (h : Traced.StepIf ok exec t o r s s') : replay exec w s'.history = some s'.world := by
  rw [h.history_eq, replay, hs]
  exact h.exec_eq

end Event

end Interleaving
