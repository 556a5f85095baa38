import OPCUAPacking.Interleaving.Protocol
import Mathlib.Algebra.BigOperators.Group.Finset.Basic
import Mathlib.Algebra.Order.BigOperators.Group.Finset
import Mathlib.Algebra.Order.Ring.Int

/-!
# Sums over the threads

What the threads hold together, when the stage of a thread says what it holds.

* `Event.tally` — the sum of a function of the stages, kept up to date event by event, so that what
  an event does to it is what it does to its own thread.
* `Event.tally_eq_sum` — it is the sum over the threads that have moved.
* `Event.le_tally`, `Event.add_le_tally`, `Event.exists_of_tally_pos` — a conservation law about a
  tally, read as a statement about one thread, about two threads, about some thread.
-/

namespace Interleaving.Event

variable {S : Sig} {L : Type} {track : Track S L} {start : L} {f : L → Int} {t u : Tid}
  {h es : List (Event S)}

/-- The sum of `f` over the stages of the threads. -/
def tally (track : Track S L) (start : L) (f : L → Int) : List (Event S) → Int
  | [] => 0
  | e :: es =>
      tally track start f es + f (track es (stage track start e.tid es) e.op e.resp) -
        f (stage track start e.tid es)

@[simp]
theorem tally_nil : tally track start f ([] : List (Event S)) = 0 := rfl

/-- An event changes the sum by what it does to its own thread. -/
theorem tally_cons (o : S.Op) (r : S.Resp o) :
    tally track start f (⟨t, o, r⟩ :: es) = tally track start f es +
      f (track es (stage track start t es) o r) - f (stage track start t es) :=
  rfl

/-- It is the sum over the threads that have moved. -/
theorem tally_eq_sum (h0 : f start = 0) :
    tally track start f h = ∑ t ∈ (h.map tid).toFinset, f (stage track start t h) := by
  induction h with
  | nil => rfl
  | cons e es ih =>
      obtain ⟨t, o, r⟩ := e
      have hunmoved : t ∉ (es.map tid).toFinset → f (stage track start t es) = 0 := by
        intro ht
        rw [stage_of_not_mem (fun hmem => ht (List.mem_toFinset.mpr hmem)), h0]
      -- count the thread of the event among those that have moved before
      have hbefore : tally track start f es =
          ∑ u ∈ insert t (es.map tid).toFinset, f (stage track start u es) := by
        rw [ih, Finset.sum_insert_of_eq_zero_if_notMem hunmoved]
      have hothers : ∀ u ∈ (insert t (es.map tid).toFinset).erase t,
          f (stage track start u (⟨t, o, r⟩ :: es)) = f (stage track start u es) := by
        intro u hu
        rw [stage_cons_ne (Finset.ne_of_mem_erase hu).symm]
      have hmem : t ∈ insert t (es.map tid).toFinset := Finset.mem_insert_self _ _
      rw [tally_cons, hbefore, List.map_cons, List.toFinset_cons,
        ← Finset.add_sum_erase _ _ hmem,
        ← Finset.add_sum_erase _ (fun u => f (stage track start u (⟨t, o, r⟩ :: es))) hmem,
        Finset.sum_congr rfl hothers, stage_cons_self]
      omega

/-- A thread that has not moved holds nothing. -/
theorem mem_tids_of_ne_zero (h0 : f start = 0) (ht : f (stage track start t h) ≠ 0) :
    t ∈ (h.map tid).toFinset := by
  refine List.mem_toFinset.mpr (by_contra fun hmem => ht ?_)
  rw [stage_of_not_mem hmem, h0]

/-- What one thread holds is part of the sum. -/
theorem le_tally (h0 : f start = 0) (hf : ∀ ℓ, 0 ≤ f ℓ) (t : Tid) :
    f (stage track start t h) ≤ tally track start f h := by
  rw [tally_eq_sum h0]
  by_cases ht : f (stage track start t h) = 0
  · exact ht ▸ Finset.sum_nonneg fun u _ => hf _
  · exact Finset.single_le_sum (f := fun u => f (stage track start u h)) (fun u _ => hf _)
      (mem_tids_of_ne_zero h0 ht)

/-- So is what two threads hold. -/
theorem add_le_tally (h0 : f start = 0) (hf : ∀ ℓ, 0 ≤ f ℓ) (hne : t ≠ u) :
    f (stage track start t h) + f (stage track start u h) ≤ tally track start f h := by
  by_cases ht : f (stage track start t h) = 0
  · rw [ht, zero_add]
    exact le_tally h0 hf u
  by_cases hu : f (stage track start u h) = 0
  · rw [hu, add_zero]
    exact le_tally h0 hf t
  rw [tally_eq_sum h0, ← Finset.add_sum_erase _ _ (mem_tids_of_ne_zero h0 ht)]
  refine add_le_add le_rfl (Finset.single_le_sum (f := fun u => f (stage track start u h))
    (fun u _ => hf _) ?_)
  exact Finset.mem_erase.mpr ⟨hne.symm, mem_tids_of_ne_zero h0 hu⟩

/-- When the sum is positive, some thread holds something. -/
theorem exists_of_tally_pos (h0 : f start = 0) (hpos : 0 < tally track start f h) :
    ∃ t, 0 < f (stage track start t h) := by
  by_contra hnone
  rw [tally_eq_sum h0] at hpos
  refine absurd hpos (not_lt.mpr (Finset.sum_nonpos fun t _ => ?_))
  exact not_lt.mp fun ht => hnone ⟨t, ht⟩

end Interleaving.Event
