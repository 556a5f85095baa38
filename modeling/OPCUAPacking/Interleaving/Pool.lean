import OPCUAPacking.Interleaving.Program
import Mathlib.Data.Finset.Basic

/-!
# Pools of threads

A pool runs one program per thread over a shared state. A step performs one operation of one
thread, or enters the next round of one of its loops; which thread moves, and with which response
an operation ends, is left open, so a property of every run holds for every schedule and every
behaviour of the environment.

* `Config.Step` — one step of a pool, under a step relation of the operations.
* `Config.Reach` — the configurations that a run reaches.
* `Traced` — a state together with the history of the operations performed, newest first;
  `Event.stage` folds the events of one thread, and `Event.Each` says that every event meets a
  condition on the history before it.
* `Config.playIf`, `Config.play` — run a schedule whose steps name the thread and the responses.
-/

namespace Interleaving

/-- A thread. -/
abbrev Tid := Nat

variable {S : Sig} {σ W ρ α L : Type}

/-- The programs that the threads still have to run, and the shared state. -/
structure Config (S : Sig) (σ ρ : Type) where
  /-- What each thread has left to run. -/
  pool : Tid → Prog S ρ
  /-- The shared state. -/
  state : σ

namespace Config

/-- One step of a pool; `step t o r s s'` says that thread `t` may perform `o` in `s` with the
response `r`, leading to `s'`. -/
inductive Step (step : Tid → (o : S.Op) → S.Resp o → σ → σ → Prop) :
    Config S σ ρ → Config S σ ρ → Prop where
  /-- Thread `t` performs an operation. -/
  | perform {c : Config S σ ρ} {t : Tid} {o : S.Op} {k : S.Resp o → Prog S ρ} {r : S.Resp o}
      {s' : σ} (hp : c.pool t = .op o k) (hs : step t o r c.state s') :
      Step step c ⟨Function.update c.pool t (k r), s'⟩
  /-- Thread `t` enters the next round of a loop. -/
  | round {c : Config S σ ρ} {t : Tid} {ι τ : Type} {b : ι → Prog S (ι ⊕ τ)} {i : ι}
      {k : τ → Prog S ρ} (hp : c.pool t = .loop b i k) :
      Step step c ⟨Function.update c.pool t (.unroll b i k), c.state⟩

/-- The configurations that a run from `c` reaches. -/
inductive Reach (step : Tid → (o : S.Op) → S.Resp o → σ → σ → Prop) (c : Config S σ ρ) :
    Config S σ ρ → Prop where
  | refl : Reach step c c
  | tail {d e : Config S σ ρ} : Reach step c d → Step step d e → Reach step c e

variable {step step' : Tid → (o : S.Op) → S.Resp o → σ → σ → Prop} {c d e : Config S σ ρ}

/-- Runs compose. -/
theorem Reach.trans (hcd : Reach step c d) (hde : Reach step d e) : Reach step c e := by
  induction hde with
  | refl => exact hcd
  | tail _ hs ih => exact ih.tail hs

/-- A property that every step keeps holds of every configuration reached. -/
theorem Reach.invariant {P : Config S σ ρ → Prop}
    (hstep : ∀ {d e : Config S σ ρ}, P d → Step step d e → P e) (hc : P c)
    (h : Reach step c d) : P d := by
  induction h with
  | refl => exact hc
  | tail _ hs ih => exact hstep ih hs

/-- Fewer steps reach fewer configurations. -/
theorem Reach.mono (hsub : ∀ t o r s s', step t o r s s' → step' t o r s s')
    (h : Reach step c d) : Reach step' c d := by
  induction h with
  | refl => exact .refl
  | tail _ hs ih =>
      refine ih.tail ?_
      cases hs with
      | perform hp hs => exact .perform hp (hsub _ _ _ _ _ hs)
      | round hp => exact .round hp

/-- A property of the state that the operations in `A` keep holds throughout a run of programs
that use only these. -/
theorem Reach.uses {A : S.Op → Prop} {P : σ → Prop}
    (hA : ∀ {t o r s s'}, A o → P s → step t o r s s' → P s') (hp : ∀ t, (c.pool t).Uses A)
    (hc : P c.state) (h : Reach step c d) : P d.state ∧ ∀ t, (d.pool t).Uses A := by
  refine h.invariant (P := fun c => P c.state ∧ ∀ t, (c.pool t).Uses A) ?_ ⟨hc, hp⟩
  rintro d e ⟨hd, hu⟩ hs
  cases hs with
  | @perform t o k r s' hk hs =>
      have ht := hu t
      rw [hk] at ht
      refine ⟨hA ht.1 hd hs, fun u => ?_⟩
      by_cases hut : u = t
      · subst hut
        simpa using ht.2 r
      · simpa [hut] using hu u
  | @round t _ _ b i k hk =>
      have ht := hu t
      rw [hk] at ht
      refine ⟨hd, fun u => ?_⟩
      by_cases hut : u = t
      · subst hut
        simpa using Prog.uses_unroll ht
      · simpa [hut] using hu u

/-- A thread uses the operations of its program, whatever the others do. -/
theorem Reach.uses_thread {A : S.Op → Prop} {t : Tid} (hp : (c.pool t).Uses A)
    (h : Reach step c d) : (d.pool t).Uses A := by
  refine h.invariant (P := fun c => (c.pool t).Uses A) ?_ hp
  intro d e hd hs
  cases hs with
  | @perform u o k r s' hk hs =>
      by_cases hut : t = u
      · subst hut
        rw [hk] at hd
        simpa using hd.2 r
      · simpa [hut] using hd
  | @round u _ _ b i k hk =>
      by_cases hut : t = u
      · subst hut
        rw [hk] at hd
        simpa using Prog.uses_unroll hd
      · simpa [hut] using hd

/-- Thread `t` has returned `a`. -/
def Returned (c : Config S σ ρ) (t : Tid) (a : ρ) : Prop := c.pool t = .ret a

/-- Every thread has returned. -/
def Quiescent (c : Config S σ ρ) : Prop := ∀ t, ∃ a, c.Returned t a

end Config

/-- An operation performed by a thread, with its response. -/
structure Event (S : Sig) where
  /-- The thread. -/
  tid : Tid
  /-- The operation. -/
  op : S.Op
  /-- Its response. -/
  resp : S.Resp op

namespace Event

/-- How an event of a thread moves its stage; the first argument is the history before it. -/
abbrev Track (S : Sig) (L : Type) := List (Event S) → L → (o : S.Op) → S.Resp o → L

/-- The stage of thread `t` after a history (newest event first): its own events folded from
`start`. -/
def stage (track : Track S L) (start : L) (t : Tid) : List (Event S) → L
  | [] => start
  | e :: es =>
      if e.tid = t then track es (stage track start t es) e.op e.resp else stage track start t es

variable {track : Track S L} {start : L} {t u : Tid}

@[simp]
theorem stage_nil : stage track start t ([] : List (Event S)) = start := rfl

/-- An event of the thread moves its stage. -/
@[simp]
theorem stage_cons_self (o : S.Op) (r : S.Resp o) (es : List (Event S)) :
    stage track start t (⟨t, o, r⟩ :: es) = track es (stage track start t es) o r := by
  simp [stage]

/-- An event of another thread does not. -/
theorem stage_cons_ne (h : u ≠ t) (o : S.Op) (r : S.Resp o) (es : List (Event S)) :
    stage track start t (⟨u, o, r⟩ :: es) = stage track start t es := by
  simp [stage, h]

/-- A thread that has done nothing is where it started. -/
theorem stage_of_not_mem {es : List (Event S)} (h : t ∉ es.map tid) :
    stage track start t es = start := by
  induction es with
  | nil => rfl
  | cons e es ih =>
      rw [List.map_cons, List.mem_cons, not_or] at h
      obtain ⟨u, o, r⟩ := e
      rw [stage_cons_ne (Ne.symm h.1), ih h.2]

/-- Whether a thread has performed an operation of a kind. -/
def seen (p : (o : S.Op) → S.Resp o → Bool) : Track S Bool := fun _ b o r => b || p o r

/-- A thread has seen an operation of the kind exactly when it is in the history. -/
theorem stage_seen {p : (o : S.Op) → S.Resp o → Bool} {es : List (Event S)} :
    stage (seen p) false t es = true ↔ ∃ o r, ⟨t, o, r⟩ ∈ es ∧ p o r = true := by
  induction es with
  | nil => simp
  | cons e es ih =>
      obtain ⟨u, o, r⟩ := e
      by_cases hu : u = t
      · subst hu
        rw [stage_cons_self, seen, Bool.or_eq_true, ih]
        constructor
        · rintro (⟨o', r', hmem, hp⟩ | hp)
          · exact ⟨o', r', List.mem_cons_of_mem _ hmem, hp⟩
          · exact ⟨o, r, List.mem_cons_self, hp⟩
        · rintro ⟨o', r', hmem, hp⟩
          rcases List.mem_cons.mp hmem with heq | hmem
          · cases heq
            exact .inr hp
          · exact .inl ⟨o', r', hmem, hp⟩
      · rw [stage_cons_ne hu, ih]
        refine exists_congr fun o' => exists_congr fun r' => and_congr_left fun _ => ?_
        rw [List.mem_cons, or_iff_right]
        rintro heq
        cases heq
        exact hu rfl

/-! ### Properties of the events of a history -/

/-- Every event of a history satisfies the condition together with the history before it. -/
def Each (cond : List (Event S) → Event S → Prop) (h : List (Event S)) : Prop :=
  ∀ e es, e :: es <:+ h → cond es e

variable {cond cond' : List (Event S) → Event S → Prop} {h h' : List (Event S)}

@[simp]
theorem each_nil : Each cond [] := fun _ _ hs => absurd (List.suffix_nil.mp hs) nofun

/-- A longer history, from its newest event. -/
@[simp]
theorem each_cons {e : Event S} : Each cond (e :: h) ↔ cond h e ∧ Each cond h := by
  constructor
  · exact fun he => ⟨he e h (List.suffix_refl _), fun e' es hs => he e' es (hs.trans
      (List.suffix_cons e h))⟩
  · rintro ⟨hcond, he⟩ e' es hs
    rcases List.suffix_cons_iff.mp hs with heq | hs
    · cases heq
      exact hcond
    · exact he e' es hs

/-- Whether every event meets a condition can be computed. -/
instance [∀ es e, Decidable (cond es e)] : (h : List (Event S)) → Decidable (Each cond h)
  | [] => .isTrue each_nil
  | e :: es =>
      have : Decidable (Each cond es) := instDecidableEach es
      decidable_of_iff' (cond es e ∧ Each cond es) each_cons

/-- What holds of the events of a history holds at every earlier moment. -/
theorem Each.of_suffix (he : Each cond h) (hs : h' <:+ h) : Each cond h' :=
  fun e es hs' => he e es (hs'.trans hs)

/-- Two events of a history with equally long histories before them are one. -/
theorem unique {e e' : Event S} {es es' : List (Event S)} (hs : e :: es <:+ h)
    (hs' : e' :: es' <:+ h) (hlen : es.length = es'.length) : e = e' ∧ es = es' := by
  have hsuf : e :: es <:+ e' :: es' := List.suffix_of_suffix_length_le hs hs' (by simp [hlen])
  have heq := hsuf.eq_of_length (by simp [hlen])
  exact ⟨(List.cons.inj heq).1, (List.cons.inj heq).2⟩

/-- A weaker condition. -/
theorem Each.mono (he : Each cond h) (hsub : ∀ es e, es <:+ h → cond es e → cond' es e) :
    Each cond' h :=
  fun e es hs => hsub es e ((List.suffix_cons e es).trans hs) (he e es hs)

end Event

/-- A state and the history of the operations performed so far, newest first. -/
structure Traced (S : Sig) (W : Type) where
  /-- The state proper. -/
  world : W
  /-- The operations performed so far, newest first. -/
  history : List (Event S)

namespace Traced

/-- The state with an empty history. -/
def start (w : W) : Traced S W := ⟨w, []⟩

/-- The steps of a transition function, recorded in the history, that meet a condition on the
state before the step. The function answers `none` when the operation cannot end with that
response. -/
structure StepIf (ok : Traced S W → Event S → Prop)
    (exec : Tid → (o : S.Op) → S.Resp o → W → Option W) (t : Tid) (o : S.Op) (r : S.Resp o)
    (s s' : Traced S W) : Prop where
  /-- The operation leads from the one state to the other. -/
  exec_eq : exec t o r s.world = some s'.world
  /-- It is recorded. -/
  history_eq : s'.history = ⟨t, o, r⟩ :: s.history
  /-- It meets the condition. -/
  meets : ok s ⟨t, o, r⟩

/-- The recorded steps of a transition function. -/
abbrev Step (exec : Tid → (o : S.Op) → S.Resp o → W → Option W) :
    Tid → (o : S.Op) → S.Resp o → Traced S W → Traced S W → Prop :=
  StepIf (fun _ _ => True) exec

end Traced

/-- The responses a schedule gives to the operations of a step. -/
abbrev Oracle (S : Sig) (W : Type) := (o : S.Op) → W → S.Resp o

namespace Config

/-- Let thread `t` move once; `none` if it has returned, if its operation cannot end with the
response the oracle gives, or if it does not meet the condition. -/
def moveIf (ok : Traced S W → Event S → Prop) [∀ s e, Decidable (ok s e)]
    (exec : Tid → (o : S.Op) → S.Resp o → W → Option W)
    (c : Config S (Traced S W) ρ) (t : Tid) (oracle : Oracle S W) :
    Option (Config S (Traced S W) ρ) :=
  match c.pool t with
  | .ret _ => none
  | .op o k =>
      let r := oracle o c.state.world
      if ok c.state ⟨t, o, r⟩ then
        (exec t o r c.state.world).map fun w =>
          ⟨Function.update c.pool t (k r), ⟨w, ⟨t, o, r⟩ :: c.state.history⟩⟩
      else none
  | .loop b i k => some ⟨Function.update c.pool t (.unroll b i k), c.state⟩

/-- Run a schedule whose steps meet the condition. -/
def playIf (ok : Traced S W → Event S → Prop) [∀ s e, Decidable (ok s e)]
    (exec : Tid → (o : S.Op) → S.Resp o → W → Option W)
    (c : Config S (Traced S W) ρ) : List (Tid × Oracle S W) →
    Option (Config S (Traced S W) ρ)
  | [] => some c
  | (t, oracle) :: rest => (c.moveIf ok exec t oracle).bind fun d => d.playIf ok exec rest

/-- Run a schedule. -/
abbrev play (exec : Tid → (o : S.Op) → S.Resp o → W → Option W) (c : Config S (Traced S W) ρ) :
    List (Tid × Oracle S W) → Option (Config S (Traced S W) ρ) :=
  c.playIf (fun _ _ => True) exec

variable {exec : Tid → (o : S.Op) → S.Resp o → W → Option W}
  {ok : Traced S W → Event S → Prop} [∀ s e, Decidable (ok s e)]

/-- A move is a step. -/
theorem step_of_move {c d : Config S (Traced S W) ρ} {t : Tid} {oracle : Oracle S W}
    (h : c.moveIf ok exec t oracle = some d) : Step (Traced.StepIf ok exec) c d := by
  unfold moveIf at h
  split at h
  · cases h
  · next o k hp =>
    dsimp only at h
    split_ifs at h with hok
    obtain ⟨w, hw, rfl⟩ := Option.map_eq_some_iff.mp h
    exact .perform hp ⟨hw, rfl, hok⟩
  · next b i k hp =>
    cases h
    exact .round hp

/-- What a schedule plays is reached by a run. -/
theorem reach_of_play {c d : Config S (Traced S W) ρ} {sched : List (Tid × Oracle S W)}
    (h : c.playIf ok exec sched = some d) : Reach (Traced.StepIf ok exec) c d := by
  induction sched generalizing c with
  | nil =>
      cases h
      exact .refl
  | cons m rest ih =>
      obtain ⟨c', hm, hrest⟩ := Option.bind_eq_some_iff.mp h
      exact (Reach.refl.tail (step_of_move hm)).trans (ih hrest)

/-- A thread that a move does not move stays where it is. -/
theorem pool_of_move {c d : Config S (Traced S W) ρ} {t u : Tid} {oracle : Oracle S W}
    (h : c.moveIf ok exec t oracle = some d) (hu : u ≠ t) : d.pool u = c.pool u := by
  unfold moveIf at h
  split at h
  · cases h
  · dsimp only at h
    split_ifs at h
    obtain ⟨w, hw, rfl⟩ := Option.map_eq_some_iff.mp h
    exact Function.update_of_ne hu _ _
  · cases h
    exact Function.update_of_ne hu _ _

/-- A thread that a schedule does not name stays where it is. -/
theorem pool_of_play {c d : Config S (Traced S W) ρ} {sched : List (Tid × Oracle S W)} {u : Tid}
    (h : c.playIf ok exec sched = some d) (hu : ∀ m ∈ sched, u ≠ m.1) : d.pool u = c.pool u := by
  induction sched generalizing c with
  | nil =>
      cases h
      rfl
  | cons m rest ih =>
      obtain ⟨c', hm, hrest⟩ := Option.bind_eq_some_iff.mp h
      rw [ih hrest fun m' hm' => hu m' (List.mem_cons_of_mem _ hm')]
      exact pool_of_move hm (hu m List.mem_cons_self)

/-- What a thread has returned, if it has. -/
def result? (c : Config S σ ρ) (t : Tid) : Option ρ :=
  match c.pool t with
  | .ret a => some a
  | _ => none

theorem returned_of_result? {c : Config S σ ρ} {t : Tid} {a : ρ} (h : c.result? t = some a) :
    c.Returned t a := by
  unfold result? at h
  split at h
  · next heq =>
    cases h
    exact heq
  · cases h

/-- A schedule whose outcome passes a check reaches a configuration that does. -/
theorem exists_reach_of_play {c : Config S (Traced S W) ρ} {sched : List (Tid × Oracle S W)}
    {check : Config S (Traced S W) ρ → Bool} (h : (c.playIf ok exec sched).any check = true) :
    ∃ d, c.playIf ok exec sched = some d ∧ Reach (Traced.StepIf ok exec) c d ∧ check d = true := by
  obtain ⟨d, hd, hcheck⟩ := (Option.any_eq_true _ _).mp h
  exact ⟨d, hd, reach_of_play hd, hcheck⟩

end Config

end Interleaving
