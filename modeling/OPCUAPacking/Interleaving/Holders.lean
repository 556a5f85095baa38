import Mathlib.Data.List.Nodup
import Mathlib.Logic.Equiv.Basic

/-!
# Things that have one holder

What the holders hold, when `own a` is the thing that `a` holds, if it holds one. Things are handed
on, made and given up.

* `Apart own` — no two hold the same.
* `Holding own live` — the things that are held are those in `live`, and each has one holder.
* `comp_swap`, `gain`, `lose` — handing on, making and giving up keep both.
-/

namespace Interleaving

variable {ι κ : Type} {own : ι → Option κ} {live : List κ} {a b : ι} {k l : κ}

/-- No two hold the same. -/
def Apart (own : ι → Option κ) : Prop := ∀ ⦃a b k⦄, own a = some k → own b = some k → a = b

/-- Somebody holds it. -/
def Held (own : ι → Option κ) (k : κ) : Prop := ∃ a, own a = some k

/-- The things that are held are those in `live`, and each has one holder. -/
structure Holding (own : ι → Option κ) (live : List κ) : Prop where
  nodup : live.Nodup
  apart : Apart own
  mem_iff : ∀ k, k ∈ live ↔ Held own k

/-! ### Handing on -/

theorem Apart.comp (h : Apart own) (σ : Equiv.Perm ι) : Apart (own ∘ σ) := fun _ _ _ ha hb =>
  σ.injective (h ha hb)

theorem held_comp (σ : Equiv.Perm ι) : Held (own ∘ σ) k ↔ Held own k :=
  (σ.surjective.exists (p := fun a => own a = some k)).symm

/-- When holders exchange what they hold, nothing is lost or held twice. -/
theorem Holding.comp (h : Holding own live) (σ : Equiv.Perm ι) : Holding (own ∘ σ) live :=
  ⟨h.nodup, h.apart.comp σ, fun k => (h.mem_iff k).trans (held_comp σ).symm⟩

section update

variable [DecidableEq ι]

/-- `a` hands what it has to `b`, which has nothing. -/
theorem comp_swap (own : ι → Option κ) (hne : a ≠ b) (hb : own b = none) :
    own ∘ Equiv.swap a b = Function.update (Function.update own b (own a)) a none := by
  funext c
  by_cases hca : c = a
  · subst hca
    simp [hb]
  · by_cases hcb : c = b
    · subst hcb
      simp [Function.update_of_ne hne.symm]
    · simp [Equiv.swap_apply_of_ne_of_ne hca hcb, hca, hcb]

/-! ### Making -/

/-- Something new. -/
theorem Apart.gain (h : Apart own) (hk : ¬Held own k) (a : ι) :
    Apart (Function.update own a (some k)) := by
  intro b c l hb hc
  by_cases hba : b = a <;> by_cases hca : c = a
  · exact hba.trans hca.symm
  · subst hba
    rw [Function.update_self, Option.some.injEq] at hb
    rw [Function.update_of_ne hca] at hc
    exact absurd ⟨c, hb.symm ▸ hc⟩ hk
  · subst hca
    rw [Function.update_self, Option.some.injEq] at hc
    rw [Function.update_of_ne hba] at hb
    exact absurd ⟨b, hc.symm ▸ hb⟩ hk
  · rw [Function.update_of_ne hba] at hb
    rw [Function.update_of_ne hca] at hc
    exact h hb hc

theorem held_gain (ha : own a = none) :
    Held (Function.update own a (some k)) l ↔ l = k ∨ Held own l := by
  constructor
  · rintro ⟨b, hb⟩
    by_cases hba : b = a
    · subst hba
      rw [Function.update_self, Option.some.injEq] at hb
      exact .inl hb.symm
    · rw [Function.update_of_ne hba] at hb
      exact .inr ⟨b, hb⟩
  · rintro (rfl | ⟨b, hb⟩)
    · exact ⟨a, Function.update_self ..⟩
    · refine ⟨b, ?_⟩
      rwa [Function.update_of_ne]
      rintro rfl
      exact absurd (ha.symm.trans hb) (Option.some_ne_none l).symm

/-- Something new is held by the one who made it. -/
theorem Holding.gain (h : Holding own live) (ha : own a = none) (hk : k ∉ live) :
    Holding (Function.update own a (some k)) (k :: live) where
  nodup := List.nodup_cons.mpr ⟨hk, h.nodup⟩
  apart := h.apart.gain (fun hheld => hk ((h.mem_iff k).mpr hheld)) a
  mem_iff l := by rw [List.mem_cons, held_gain ha, h.mem_iff]

/-! ### Giving up -/

theorem Apart.lose (h : Apart own) (a : ι) : Apart (Function.update own a none) := by
  intro b c l hb hc
  have hkept : ∀ {d}, Function.update own a none d = some l → own d = some l := by
    intro d hd
    by_cases hda : d = a
    · subst hda
      rw [Function.update_self] at hd
      exact absurd hd (Option.some_ne_none l).symm
    · rwa [Function.update_of_ne hda] at hd
  exact h (hkept hb) (hkept hc)

theorem Apart.held_lose (h : Apart own) (ha : own a = some k) :
    Held (Function.update own a none) l ↔ l ≠ k ∧ Held own l := by
  constructor
  · rintro ⟨b, hb⟩
    by_cases hba : b = a
    · subst hba
      rw [Function.update_self] at hb
      exact absurd hb (Option.some_ne_none l).symm
    · rw [Function.update_of_ne hba] at hb
      refine ⟨?_, b, hb⟩
      rintro rfl
      exact hba (h hb ha)
  · rintro ⟨hlk, b, hb⟩
    refine ⟨b, ?_⟩
    rwa [Function.update_of_ne]
    rintro rfl
    exact hlk (Option.some.inj (hb.symm.trans ha))

/-- What the only holder gives up is held by nobody. -/
theorem Holding.lose [DecidableEq κ] (h : Holding own live) (ha : own a = some k) :
    Holding (Function.update own a none) (live.erase k) where
  nodup := h.nodup.erase k
  apart := h.apart.lose a
  mem_iff l := by rw [h.nodup.mem_erase_iff, h.apart.held_lose ha, h.mem_iff]

end update

end Interleaving
