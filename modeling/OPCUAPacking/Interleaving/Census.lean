import OPCUAPacking.Interleaving.Protocol
import Mathlib.Data.Finset.Card

/-!
# The threads at a stage

What a counter counts is the number of threads that are at some of their stages.

* `Event.census` — the threads whose stage satisfies a predicate; `Event.card_census_cons` says how
  an event changes their number.
* `Protocol.keeps_recorded_of_uses` — the parts of a program whose operations do not concern the
  protocol.
* `Protocol.recorded_keeps`, `Protocol.recorded_invariant` — what every step that meets the
  condition keeps holds along every run.
-/

namespace Interleaving

variable {S : Sig} {W ρ L : Type}

namespace Event

variable {track : Track S L} {start : L} {p : L → Bool} {t : Tid} {h es : List (Event S)}

/-- The threads whose stage satisfies `p`. -/
def census (track : Track S L) (start : L) (p : L → Bool) : List (Event S) → Finset Tid
  | [] => ∅
  | e :: es =>
      if p (track es (stage track start e.tid es) e.op e.resp) then
        insert e.tid (census track start p es)
      else (census track start p es).erase e.tid

/-- A thread is counted when its stage satisfies `p`. -/
theorem mem_census (hstart : p start = false) :
    t ∈ census track start p h ↔ p (stage track start t h) = true := by
  induction h with
  | nil => simp [census, hstart]
  | cons e es ih =>
      obtain ⟨u, o, r⟩ := e
      by_cases hu : u = t
      · subst hu
        rw [stage_cons_self, census]
        split_ifs with hp
        · simp [hp]
        · simp [hp]
      · rw [stage_cons_ne hu, ← ih, census]
        split_ifs
        · simp [Ne.symm hu]
        · simp [Ne.symm hu]

/-- An event changes the number of threads by what it does to the stage of its own thread. -/
theorem card_census_cons (hstart : p start = false) (o : S.Op) (r : S.Resp o) :
    ((census track start p (⟨t, o, r⟩ :: es)).card : Int) =
      (census track start p es).card +
        (if p (track es (stage track start t es) o r) then 1 else 0) -
        (if p (stage track start t es) then 1 else 0) := by
  have hmem : t ∈ census track start p es ↔ p (stage track start t es) = true :=
    mem_census hstart
  simp only [census]
  split_ifs with hafter hbefore hbefore
  · rw [Finset.insert_eq_of_mem (hmem.mpr hbefore)]
    omega
  · rw [Finset.card_insert_of_notMem fun ht => hbefore (hmem.mp ht)]
    omega
  · rw [Finset.card_erase_of_mem (hmem.mpr hbefore)]
    have hpos := Finset.card_pos.mpr ⟨t, hmem.mpr hbefore⟩
    omega
  · rw [Finset.erase_eq_of_notMem fun ht => hbefore (hmem.mp ht)]
    omega

/-- Nobody is counted when the number is zero. -/
theorem stage_of_census_eq_empty (hstart : p start = false)
    (h0 : census track start p h = ∅) (t : Tid) : p (stage track start t h) = false := by
  refine Bool.eq_false_iff.mpr fun hp => ?_
  have ht : t ∈ census track start p h := (mem_census hstart).mpr hp
  rw [h0] at ht
  exact absurd ht (Finset.notMem_empty t)

end Event

namespace Protocol

variable {exec : Tid → (o : S.Op) → S.Resp o → W → Option W}
  {cond : L → (o : S.Op) → S.Resp o → Prop} {track : Event.Track S L} {start : Tid → L} {t : Tid}
  {α : Type}

/-- A program whose operations keep a set of stages, whatever they answer, keeps it. -/
theorem keeps_recorded_of_uses {A : S.Op → Prop} {I : L → Prop} {p : Prog S α}
    (hA : ∀ o, A o → ∀ es ℓ r, I ℓ → cond ℓ o r ∧ I (track es ℓ o r)) (hp : p.Uses A) :
    (recorded exec cond track start).Keeps I t p := by
  intro ℓ hℓ
  induction p generalizing ℓ with
  | ret a => exact hℓ
  | op o k ih =>
      refine follows_recorded_op fun es r => ?_
      obtain ⟨hcond, hℓ'⟩ := hA o hp.1 es ℓ r hℓ
      exact ⟨hcond, ih r (hp.2 r) _ hℓ'⟩
  | loop b i k ihb ihk =>
      refine ⟨fun _ => I, hℓ, fun j ℓ' hj => (ihb j (hp.1 j) ℓ' hj).mono ?_⟩
      rintro (j' | r) ℓ'' hr
      · exact hr
      · exact ihk r (hp.2 r) ℓ'' hr

/-- In a pool whose threads follow the protocol, what every operation that meets the condition keeps
holds from wherever it holds first. -/
theorem recorded_keeps (Inv : Traced S W → Prop) {c d e : Config S (Traced S W) ρ}
    {Q : Tid → ρ → L → Prop} (hc : c.state.history = [])
    (hf : ∀ u, (recorded exec cond track start).Follows u (c.pool u) (Q u) (start u))
    (hstep : ∀ {t o r s s'}, Inv s → Traced.Step exec t o r s s' →
      cond (Event.stage track (start t) t s.history) o r → Inv s')
    (hcd : Config.Reach (Traced.Step exec) c d) (hd : Inv d.state)
    (h : Config.Reach (Traced.Step exec) d e) : Inv e.state := by
  induction h with
  | refl => exact hd
  | tail he hs ih =>
      have heach := (recorded_each hc hf ((hcd.trans he).tail hs)).1
      cases hs with
      | perform hp hs =>
          rw [hs.history_eq] at heach
          exact hstep ih hs (Event.each_cons.mp heach).1
      | round hp => exact ih

/-- So it holds throughout when it holds at the start. -/
theorem recorded_invariant (Inv : Traced S W → Prop) {c d : Config S (Traced S W) ρ}
    {Q : Tid → ρ → L → Prop} (hc : c.state.history = [])
    (hf : ∀ u, (recorded exec cond track start).Follows u (c.pool u) (Q u) (start u))
    (hstart : Inv c.state)
    (hstep : ∀ {t o r s s'}, Inv s → Traced.Step exec t o r s s' →
      cond (Event.stage track (start t) t s.history) o r → Inv s')
    (h : Config.Reach (Traced.Step exec) c d) : Inv d.state :=
  recorded_keeps Inv hc hf hstep .refl hstart h

end Protocol

end Interleaving
