import OPCUAPacking.Interleaving.Termination
import Mathlib.Data.List.Count
import Mathlib.Data.Nat.Find
import Mathlib.Logic.Function.Iterate

/-!
# Executions

An execution is an infinite run of a pool, in which nothing may happen for a while or for ever. What
one thread does in it is a program that runs along the moments of the execution, while the others do
what they like in between.

* `Execution` — the configurations, and what happens at each moment.
* `Execution.ops` — what a thread has performed so far, newest first.
* `Execution.along` — the setting of one thread; a program that ends along an execution returns in
  it if the thread is scheduled (`Execution.returns`).
* `Execution.Recurs` — fairness of an answer: who is answered for ever is given it again and again.
  It ends the loops that only a refusal keeps going (`Execution.ends_loop`).
* `Execution.answering` — the execution in which one thread moves whenever it can, with the answers
  of an oracle.
-/

namespace Interleaving

variable {S : Sig} {σ ρ : Type}

/-- What happens at a moment. -/
inductive Label (S : Sig) where
  /-- Nothing. -/
  | rest
  /-- A thread enters the next round of a loop. -/
  | round (t : Tid)
  /-- A thread performs an operation. -/
  | perform (e : Event S)

namespace Config

variable {step : Tid → (o : S.Op) → S.Resp o → σ → σ → Prop} {c d : Config S σ ρ}

/-- What a moment does to a pool. -/
inductive Moves (step : Tid → (o : S.Op) → S.Resp o → σ → σ → Prop) :
    Label S → Config S σ ρ → Config S σ ρ → Prop where
  | rest {c : Config S σ ρ} : Moves step .rest c c
  | round {c : Config S σ ρ} {t : Tid} {ι τ : Type} {b : ι → Prog S (ι ⊕ τ)} {i : ι}
      {k : τ → Prog S ρ} (hp : c.pool t = .loop b i k) :
      Moves step (.round t) c ⟨Function.update c.pool t (.unroll b i k), c.state⟩
  | perform {c : Config S σ ρ} {t : Tid} {o : S.Op} {k : S.Resp o → Prog S ρ} {r : S.Resp o}
      {s' : σ} (hp : c.pool t = .op o k) (hs : step t o r c.state s') :
      Moves step (.perform ⟨t, o, r⟩) c ⟨Function.update c.pool t (k r), s'⟩

/-- Where something happens, it is a step. -/
theorem Moves.reach {l : Label S} (h : Moves step l c d) : Reach step c d := by
  cases h with
  | rest => exact .refl
  | round hp => exact Reach.refl.tail (.round hp)
  | perform hp hs => exact Reach.refl.tail (.perform hp hs)

section Next

variable {W : Type} (exec : Tid → (o : S.Op) → S.Resp o → W → Option W)
  (oracle : Oracle S (Traced S W)) (t : Tid)

/-- The next moment of a thread that moves whenever it can: what happens, and what it leads to. -/
def next (c : Config S (Traced S W) ρ) : Label S × Config S (Traced S W) ρ :=
  match c.pool t with
  | .ret _ => (.rest, c)
  | .op o k =>
      match exec t o (oracle o c.state) c.state.world with
      | none => (.rest, c)
      | some w => (.perform ⟨t, o, oracle o c.state⟩,
          ⟨Function.update c.pool t (k (oracle o c.state)),
            ⟨w, ⟨t, o, oracle o c.state⟩ :: c.state.history⟩⟩)
  | .loop b i k => (.round t, ⟨Function.update c.pool t (.unroll b i k), c.state⟩)

/-- It rests only if the thread has returned, or asks for an operation that cannot end so. -/
theorem next_label (c : Config S (Traced S W) ρ) : (∃ a, c.Returned t a) ∨
    (∃ o k, c.pool t = .op o k ∧ exec t o (oracle o c.state) c.state.world = none) ∨
    (c.next exec oracle t).1 = .round t ∨
    ∃ o, (c.next exec oracle t).1 = .perform ⟨t, o, oracle o c.state⟩ := by
  unfold next
  cases hp : c.pool t with
  | ret a => exact .inl ⟨a, hp⟩
  | loop b i k => exact .inr (.inr (.inl rfl))
  | op o k =>
      cases hw : exec t o (oracle o c.state) c.state.world with
      | none => exact .inr (.inl ⟨o, k, rfl, hw⟩)
      | some w => exact .inr (.inr (.inr ⟨o, by simp [hw]⟩))

variable {exec oracle t} {c : Config S (Traced S W) ρ}

theorem next_moves :
    Moves (Traced.Step exec) (c.next exec oracle t).1 c (c.next exec oracle t).2 := by
  unfold next
  split
  · exact .rest
  · next o k hp =>
    split
    · exact .rest
    · next w hw => exact .perform hp ⟨hw, rfl, trivial⟩
  · next b i k hp => exact .round hp

/-- Where something is performed, it is answered by the oracle. -/
theorem next_perform {u : Tid} {o : S.Op} {r : S.Resp o}
    (h : (c.next exec oracle t).1 = .perform ⟨u, o, r⟩) : u = t ∧ r = oracle o c.state := by
  unfold next at h
  split at h
  · cases h
  · split at h
    · cases h
    · cases h
      exact ⟨rfl, rfl⟩
  · cases h

end Next

end Config

/-- An infinite run of a pool. -/
structure Execution (step : Tid → (o : S.Op) → S.Resp o → σ → σ → Prop) (c : Config S σ ρ) where
  /-- The configuration at a moment. -/
  config : Nat → Config S σ ρ
  /-- What happens then. -/
  label : Nat → Label S
  start : config 0 = c
  moves : ∀ n, Config.Moves step (label n) (config n) (config (n + 1))

namespace Execution

variable {step : Tid → (o : S.Op) → S.Resp o → σ → σ → Prop} {c : Config S σ ρ}
  (E : Execution step c) (t : Tid)

/-- The operations of a thread before a moment, newest first. -/
def ops : Nat → List (Event S)
  | 0 => []
  | n + 1 =>
      match E.label n with
      | .perform e => if e.tid = t then e :: ops n else ops n
      | _ => ops n

/-- The thread performs nothing from the one moment to the other. -/
def Still (n m : Nat) : Prop := n ≤ m ∧ ∀ i, n ≤ i → i < m → ∀ o r, E.label i ≠ .perform ⟨t, o, r⟩

/-- The thread moves again and again, until it has returned or asks for an operation that is not
`ready` after what it has performed. -/
def ScheduledIf (ready : S.Op → List (Event S) → Prop) : Prop :=
  ∀ n, (∃ a, (E.config n).Returned t a) ∨
    (∃ o k, (E.config n).pool t = .op o k ∧ ¬ready o (E.ops t n)) ∨
    ∃ m, n ≤ m ∧ (E.label m = .round t ∨ ∃ o r, E.label m = .perform ⟨t, o, r⟩)

/-- The thread moves again and again, until it has returned. -/
abbrev Scheduled : Prop := E.ScheduledIf t fun _ _ => True

/-- One thread, along the moments of an execution: an operation is performed at the next moment at
which the thread performs any. -/
def along (ready : S.Op → List (Event S) → Prop) : Setting S Nat where
  step o r n n' := ∃ m, E.Still t n m ∧ E.label m = .perform ⟨t, o, r⟩ ∧ n' = m + 1
  Ready o n := ready o (E.ops t n)

variable {E t} {n m : Nat} {ready ready' : S.Op → List (Event S) → Prop}

/-- A thread that moves whenever more is ready also moves whenever less is. -/
theorem ScheduledIf.mono (h : E.ScheduledIf t ready) (hready : ∀ o es, ready' o es → ready o es) :
    E.ScheduledIf t ready' := by
  intro n
  rcases h n with hret | ⟨o, k, hk, hnot⟩ | hmove
  · exact .inl hret
  · exact .inr (.inl ⟨o, k, hk, fun h' => hnot (hready _ _ h')⟩)
  · exact .inr (.inr hmove)

/-- A later one is reached from an earlier one. -/
theorem reach_of_le (h : n ≤ m) : Config.Reach step (E.config n) (E.config m) := by
  induction m, h using Nat.le_induction with
  | base => exact .refl
  | succ m _ ih => exact ih.trans (E.moves m).reach

/-- Every configuration of an execution is reached. -/
theorem reach (n : Nat) : Config.Reach step c (E.config n) := by
  have h := E.reach_of_le (Nat.zero_le n)
  rwa [E.start] at h

/-- An operation that is performed. -/
theorem step_of_label {o : S.Op} {r : S.Resp o} (h : E.label n = .perform ⟨t, o, r⟩) :
    ∃ k, (E.config n).pool t = .op o k ∧
      (E.config (n + 1)).pool = Function.update (E.config n).pool t (k r) ∧
      step t o r (E.config n).state (E.config (n + 1)).state := by
  have hmoves := E.moves n
  rw [h] at hmoves
  generalize E.config (n + 1) = d at hmoves ⊢
  cases hmoves with
  | perform hp hs => exact ⟨_, hp, rfl, hs⟩

/-- A round of a loop that is entered. -/
theorem round_of_label (h : E.label n = .round t) :
    ∃ (ι τ : Type) (b : ι → Prog S (ι ⊕ τ)) (i : ι) (k : τ → Prog S ρ),
      (E.config n).pool t = .loop b i k ∧ (E.config (n + 1)).pool t = .unroll b i k := by
  have hmoves := E.moves n
  rw [h] at hmoves
  generalize E.config (n + 1) = d at hmoves ⊢
  cases hmoves with
  | round hp => exact ⟨_, _, _, _, _, hp, Function.update_self _ _ _⟩

/-- It is recorded. -/
theorem ops_succ {o : S.Op} {r : S.Resp o} (h : E.label n = .perform ⟨t, o, r⟩) :
    E.ops t (n + 1) = ⟨t, o, r⟩ :: E.ops t n := by
  simp [ops, h]

/-- Nothing else is. -/
theorem ops_succ_of_ne (h : ∀ o r, E.label n ≠ .perform ⟨t, o, r⟩) :
    E.ops t (n + 1) = E.ops t n := by
  rw [ops]
  cases hl : E.label n with
  | rest => rfl
  | round u => rfl
  | perform e =>
      obtain ⟨u, o, r⟩ := e
      have hne : u ≠ t := by
        rintro rfl
        exact h o r hl
      simp [hne]

/-- What a thread has performed stays so. -/
theorem ops_suffix (h : n ≤ m) : E.ops t n <:+ E.ops t m := by
  induction m, h using Nat.le_induction with
  | base => exact List.suffix_refl _
  | succ m _ ih =>
      refine ih.trans ?_
      by_cases hl : ∃ o r, E.label m = .perform ⟨t, o, r⟩
      · obtain ⟨o, r, hl⟩ := hl
        rw [ops_succ hl]
        exact List.suffix_cons _ _
      · rw [ops_succ_of_ne fun o r hor => hl ⟨o, r, hor⟩]

namespace Still

theorem refl (n : Nat) : E.Still t n n := ⟨Nat.le_refl n, fun _ _ _ => by omega⟩

/-- One more moment without an operation of the thread. -/
theorem succ (h : E.Still t n m) (hm : ∀ o r, E.label m ≠ .perform ⟨t, o, r⟩) :
    E.Still t n (m + 1) := by
  refine ⟨by have := h.1; omega, fun i hn hi => ?_⟩
  rcases Nat.lt_succ_iff_lt_or_eq.mp hi with hi | rfl
  · exact h.2 i hn hi
  · exact hm

/-- Two stretches in a row. -/
theorem trans {k : Nat} (h : E.Still t n m) (h' : E.Still t m k) : E.Still t n k := by
  refine ⟨Nat.le_trans h.1 h'.1, fun i hi hik => ?_⟩
  by_cases him : i < m
  · exact h.2 i hi him
  · exact h'.2 i (Nat.not_lt.mp him) hik

/-- A thread that performs nothing has performed what it had. -/
theorem ops_eq (h : E.Still t n m) : E.ops t m = E.ops t n := by
  obtain ⟨hle, hstill⟩ := h
  induction m, hle using Nat.le_induction with
  | base => rfl
  | succ m hle ih =>
      rw [ops_succ_of_ne (hstill m hle (Nat.lt_succ_self m))]
      exact ih fun i hn hi => hstill i hn (Nat.lt_succ_of_lt hi)

end Still

/-- A move of another thread leaves the program of the thread. -/
theorem pool_succ (hround : E.label n ≠ .round t) (hop : ∀ o r, E.label n ≠ .perform ⟨t, o, r⟩) :
    (E.config (n + 1)).pool t = (E.config n).pool t := by
  have hmoves := E.moves n
  generalize hd : E.config (n + 1) = d at hmoves
  generalize hl : E.label n = l at hmoves
  cases hmoves with
  | rest => rfl
  | @round _ u _ _ _ _ _ hp =>
      have hne : t ≠ u := by
        rintro rfl
        exact hround hl
      exact Function.update_of_ne hne _ _
  | @perform _ u o k r s' hp hs =>
      have hne : t ≠ u := by
        rintro rfl
        exact hop o r hl
      exact Function.update_of_ne hne _ _

/-- A scheduled thread that has not returned and is ready moves next at some moment, and has the
same program until then. -/
theorem ScheduledIf.next (hsched : E.ScheduledIf t ready) (hn : ∀ a, ¬(E.config n).Returned t a)
    (hready : ∀ o k, (E.config n).pool t = .op o k → ready o (E.ops t n)) :
    ∃ m, E.Still t n m ∧ (E.config m).pool t = (E.config n).pool t ∧
      (E.label m = .round t ∨ ∃ o r, E.label m = .perform ⟨t, o, r⟩) := by
  have hex : ∃ m, n ≤ m ∧ (E.label m = .round t ∨ ∃ o r, E.label m = .perform ⟨t, o, r⟩) :=
    ((hsched n).resolve_left fun ⟨a, ha⟩ => hn a ha).resolve_left
      fun ⟨o, k, hk, hnot⟩ => hnot (hready o k hk)
  classical
  obtain ⟨hle, hmove⟩ := Nat.find_spec hex
  have hmin : ∀ i, n ≤ i → i < Nat.find hex →
      ¬(E.label i = .round t ∨ ∃ o r, E.label i = .perform ⟨t, o, r⟩) :=
    fun i hni hi hmv => Nat.find_min hex hi ⟨hni, hmv⟩
  generalize Nat.find hex = m at hle hmove hmin
  refine ⟨m, ⟨hle, fun i hni hi o r hl => hmin i hni hi (.inr ⟨o, r, hl⟩)⟩, ?_, hmove⟩
  clear hmove
  induction m, hle using Nat.le_induction with
  | base => rfl
  | succ m hle ih =>
      have hm := hmin m hle (Nat.lt_succ_self m)
      rw [pool_succ (fun h => hm (.inl h)) fun o r h => hm (.inr ⟨o, r, h⟩)]
      exact ih fun i hni hi => hmin i hni (Nat.lt_succ_of_lt hi)

/-- A thread that runs a program that ends returns from it, if it is scheduled. -/
theorem returns_from {Q : ρ → Nat → Prop} {p : Prog S ρ} {n₀ : Nat}
    (hsched : E.ScheduledIf t ready) (h : (E.along t ready).Ends Q p n₀)
    (hstill : E.Still t n₀ n) (hp : (E.config n).pool t = p) :
    ∃ a m, (E.config m).Returned t a ∧ ∃ m₀, E.Still t m₀ m ∧ Q a m₀ := by
  induction h generalizing n with
  | @ret a n₀ hQ => exact ⟨a, n, hp, n₀, hstill, hQ⟩
  | @op o k n₀ hready _ ih =>
      have hnot : ∀ a, ¬(E.config n).Returned t a := fun a ha => by cases hp.symm.trans ha
      have hready' : ∀ o' k', (E.config n).pool t = .op o' k' → ready o' (E.ops t n) := by
        intro o' k' hk'
        cases hp.symm.trans hk'
        rwa [hstill.ops_eq]
      obtain ⟨m, hnm, hpool, hround | ⟨o', r, hop⟩⟩ := hsched.next hnot hready'
      · obtain ⟨ι, τ, b, i, k', hk', -⟩ := round_of_label hround
        cases (hpool.trans hp).symm.trans hk'
      · obtain ⟨k', hk', hpool', -⟩ := step_of_label hop
        cases (hpool.trans hp).symm.trans hk'
        refine ih r (m + 1) ⟨m, hstill.trans hnm, hop, rfl⟩ (Still.refl _) ?_
        rw [hpool', Function.update_self]
  | @round ι τ b i k n₀ _ ih =>
      have hnot : ∀ a, ¬(E.config n).Returned t a := fun a ha => by cases hp.symm.trans ha
      obtain ⟨m, hnm, hpool, hround | ⟨o', r, hop⟩⟩ :=
        hsched.next hnot fun o k hk => by cases hp.symm.trans hk
      · obtain ⟨ι', τ', b', i', k', hk', hpool'⟩ := round_of_label hround
        cases (hpool.trans hp).symm.trans hk'
        refine ih ((hstill.trans hnm).succ fun o r h => ?_) hpool'
        cases hround.symm.trans h
      · obtain ⟨k', hk', -, -⟩ := step_of_label hop
        cases (hpool.trans hp).symm.trans hk'

/-- A thread that runs a program that ends returns from it, if it is scheduled. -/
theorem returns {Q : ρ → Nat → Prop} (hsched : E.ScheduledIf t ready)
    (h : (E.along t ready).Ends Q (c.pool t) 0) :
    ∃ a m, (E.config m).Returned t a ∧ ∃ m₀, E.Still t m₀ m ∧ Q a m₀ :=
  E.returns_from hsched h (Still.refl 0) (by rw [E.start])

/-- A thread that has returned performs nothing any more. -/
theorem still_of_returned {a : ρ} (h : (E.config n).Returned t a) (hle : n ≤ m) :
    E.Still t n m ∧ (E.config m).Returned t a := by
  induction m, hle using Nat.le_induction with
  | base => exact ⟨Still.refl n, h⟩
  | succ m _ ih =>
      obtain ⟨hstill, hret⟩ := ih
      have hop : ∀ o r, E.label m ≠ .perform ⟨t, o, r⟩ := by
        intro o r hl
        obtain ⟨k, hk, -⟩ := step_of_label hl
        cases hret.symm.trans hk
      have hround : E.label m ≠ .round t := by
        intro hl
        obtain ⟨ι, τ, b, i, k, hk, -⟩ := round_of_label hl
        cases hret.symm.trans hk
      exact ⟨hstill.succ hop, (pool_succ hround hop).trans hret⟩

/-- A thread returns one thing. -/
theorem returned_unique {a b : ρ} (ha : (E.config n).Returned t a)
    (hb : (E.config m).Returned t b) : a = b := by
  have hn := (still_of_returned ha (Nat.le_max_left n m)).2
  have hm := (still_of_returned hb (Nat.le_max_right n m)).2
  exact Interleaving.Prog.ret.inj (hn.symm.trans hm)

/-- What it has performed by then is all that it ever performs. -/
theorem ops_suffix_of_returned {a : ρ} (h : (E.config n).Returned t a) (k : Nat) :
    E.ops t k <:+ E.ops t n := by
  rcases Nat.le_total k n with hle | hle
  · exact ops_suffix hle
  · rw [(still_of_returned h hle).1.ops_eq]

/-! ### One thread along an execution -/

section Along

variable {o : S.Op} {r : S.Resp o}

/-- An operation is recorded. -/
theorem ops_of_step (h : (E.along t ready).step o r n m) :
    E.ops t m = ⟨t, o, r⟩ :: E.ops t n := by
  obtain ⟨k, hstill, hl, rfl⟩ := h
  rw [ops_succ hl, hstill.ops_eq]

/-- It is performed in some state that the execution passes. -/
theorem exists_step (h : (E.along t ready).step o r n m) :
    ∃ k, E.Still t n k ∧ m = k + 1 ∧
      step t o r (E.config k).state (E.config (k + 1)).state := by
  obtain ⟨k, hstill, hl, rfl⟩ := h
  obtain ⟨k', -, -, hstep⟩ := step_of_label hl
  exact ⟨k, hstill, rfl, hstep⟩

end Along

/-! ### Fairness -/

/-- How many operations of a kind the thread has performed. -/
def count (E : Execution step c) (t : Tid) (kind : Event S → Bool) (n : Nat) : Nat :=
  (E.ops t n).countP kind

/-- A thread that asks for ever is answered again and again. -/
def Recurs (E : Execution step c) (t : Tid) (asks answered : Event S → Bool) : Prop :=
  (∀ k, ∃ n, k ≤ E.count t asks n) → ∀ k, ∃ n, k ≤ E.count t answered n

variable {asks answered : Event S → Bool}

theorem count_le (h : n ≤ m) (kind : Event S → Bool) : E.count t kind n ≤ E.count t kind m :=
  (ops_suffix h).sublist.countP_le

/-- An operation counts if it is of the kind. -/
theorem count_of_step {o : S.Op} {r : S.Resp o} (h : (E.along t ready).step o r n m)
    (kind : Event S → Bool) :
    E.count t kind m = E.count t kind n + if kind ⟨t, o, r⟩ then 1 else 0 := by
  rw [count, ops_of_step h, List.countP_cons, count]

/-- Between two answers a thread asks finitely often. -/
theorem Recurs.bound (h : E.Recurs t asks answered) (k : Nat) :
    ∃ b, ∀ n, E.count t answered n ≤ k → E.count t asks n ≤ b := by
  by_cases hmany : ∀ k, ∃ n, k ≤ E.count t asks n
  · obtain ⟨m, hm⟩ := h hmany (k + 1)
    refine ⟨E.count t asks m, fun n hn => count_le ?_ asks⟩
    by_contra hlt
    have hle := count_le (E := E) (t := t) (Nat.le_of_not_le hlt) answered
    omega
  · obtain ⟨b, hb⟩ := not_forall.mp hmany
    refine ⟨b, fun n _ => ?_⟩
    by_contra hlt
    exact hb ⟨n, Nat.le_of_not_le hlt⟩

/-- A loop whose rounds go on only after a refusal: the invariant `I` holds at the beginning of each
round, and between two rounds the thread has asked and was not answered. -/
theorem ends_loop {ε ι τ : Type} {i : ι} {body : ι → Proc S ε (ι ⊕ τ)}
    {Q : Except ε τ → Nat → Prop} (h : E.Recurs t asks answered) (I : ι → Nat → Prop)
    (hI : I i n)
    (hbody : ∀ j n, I j n → (E.along t ready).Ends
      (fun r n' => Sum.elim (fun j' n'' => I j' n'' ∧ E.count t asks n < E.count t asks n'' ∧
        E.count t answered n'' = E.count t answered n) Q (Proc.roundExit r) n') (body j) n) :
    (E.along t ready).Ends Q (Proc.loop i body) n := by
  obtain ⟨b, hb⟩ := h.bound (E.count t answered n)
  -- what is left of the bound decreases
  refine Setting.Ends.loop
    (fun k j n' => I j n' ∧ E.count t answered n' = E.count t answered n ∧
      k = b - E.count t asks n') ⟨hI, rfl, rfl⟩ ?_
  rintro _ j n' ⟨hj, hsame, rfl⟩
  refine (hbody j n' hj).mono fun r n'' hr => ?_
  cases hexit : Proc.roundExit r with
  | inr x =>
      rw [hexit] at hr
      exact hr
  | inl j' =>
      rw [hexit] at hr
      obtain ⟨hj', hasks, hsame'⟩ := hr
      have hle := hb n'' (by omega)
      exact ⟨b - E.count t asks n'', by omega, hj', hsame'.trans hsame, rfl⟩

/-! ### Executions that play a schedule -/

/-- Nothing happens. -/
def resting (step : Tid → (o : S.Op) → S.Resp o → σ → σ → Prop) (c : Config S σ ρ) :
    Execution step c where
  config _ := c
  label _ := .rest
  start := rfl
  moves _ := .rest

/-- One moment before an execution. -/
def cons {d : Config S σ ρ} {l : Label S} (hl : Config.Moves step l c d) (E : Execution step d) :
    Execution step c where
  config
    | 0 => c
    | n + 1 => E.config n
  label
    | 0 => l
    | n + 1 => E.label n
  start := rfl
  moves
    | 0 => by
        change Config.Moves step l c (E.config 0)
        rwa [E.start]
    | n + 1 => E.moves n

/-- Nobody performs anything in an execution that has come to rest. -/
theorem still_of_rest {N : Nat} (h : ∀ n, N ≤ n → E.label n = .rest) (hle : N ≤ n) :
    E.Still t N n := by
  refine ⟨hle, fun i hi _ o r hl => ?_⟩
  cases (h i hi).symm.trans hl

/-- An execution that comes to rest asks for nothing for ever. -/
theorem recurs_of_rest {N : Nat} (h : ∀ n, N ≤ n → E.label n = .rest) :
    E.Recurs t asks answered := by
  intro hmany
  obtain ⟨n, hn⟩ := hmany (E.count t asks N + 1)
  have hle : E.count t asks n ≤ E.count t asks N := by
    rcases Nat.le_total n N with hle | hle
    · exact count_le hle asks
    · rw [count, count, (still_of_rest h hle).ops_eq]
  omega

section Play

variable {W : Type} {exec : Tid → (o : S.Op) → S.Resp o → W → Option W}
  {ok : Traced S W → Event S → Prop} [∀ s e, Decidable (ok s e)] {c d : Config S (Traced S W) ρ}

/-- A move of a thread is a moment of it. -/
theorem moves_of_move {oracle : Oracle S W} (h : c.moveIf ok exec t oracle = some d) :
    ∃ l, Config.Moves (Traced.StepIf ok exec) l c d ∧
      (l = .round t ∨ ∃ o r, l = .perform ⟨t, o, r⟩) := by
  unfold Config.moveIf at h
  split at h
  · cases h
  · next o k hp =>
    dsimp only at h
    split_ifs at h with hok
    obtain ⟨w, hw, rfl⟩ := Option.map_eq_some_iff.mp h
    exact ⟨_, .perform hp ⟨hw, rfl, hok⟩, .inr ⟨o, _, rfl⟩⟩
  · next b i k hp =>
    cases h
    exact ⟨_, .round hp, .inl rfl⟩

/-- A schedule of one thread that plays to its return is an execution in which the thread is
scheduled, and which then comes to rest. -/
theorem exists_of_play {sched : List (Tid × Oracle S W)} {a : ρ}
    (h : c.playIf ok exec sched = some d) (hsched : ∀ m ∈ sched, m.1 = t) (ha : d.Returned t a) :
    ∃ E : Execution (Traced.StepIf ok exec) c, E.Scheduled t ∧ E.config sched.length = d ∧
      ∀ n, sched.length ≤ n → E.label n = .rest := by
  induction sched generalizing c with
  | nil =>
      cases h
      exact ⟨resting _ _, fun _ => .inl ⟨a, ha⟩, rfl, fun _ _ => rfl⟩
  | cons m rest ih =>
      obtain ⟨c', hm, hrest⟩ := Option.bind_eq_some_iff.mp h
      obtain ⟨E, hE, hd, hend⟩ := ih hrest fun m' hm' => hsched m' (List.mem_cons_of_mem _ hm')
      obtain ⟨l, hl, hmove⟩ := moves_of_move hm
      rw [hsched m List.mem_cons_self] at hmove
      refine ⟨E.cons hl, ?_, hd, ?_⟩
      · rintro (_ | n)
        · exact .inr (.inr ⟨0, Nat.le_refl 0, hmove⟩)
        · rcases hE n with hret | ⟨o, k, -, hnot⟩ | ⟨k, hk, hmv⟩
          · exact .inl hret
          · exact absurd trivial hnot
          · exact .inr (.inr ⟨k + 1, Nat.succ_le_succ hk, hmv⟩)
      · rintro (_ | n) hn
        · cases hn
        · exact hend n (Nat.le_of_succ_le_succ hn)

end Play

/-! ### Executions that answer -/

/-- Where nothing is performed, the state stays. -/
theorem state_succ (h : ∀ e, E.label n ≠ .perform e) :
    (E.config (n + 1)).state = (E.config n).state := by
  have hmoves := E.moves n
  generalize E.config (n + 1) = d at hmoves ⊢
  generalize hl : E.label n = l at hmoves
  cases hmoves with
  | rest => rfl
  | round hp => rfl
  | perform hp hs => exact absurd hl (h _)

section Answering

variable {W : Type} (exec : Tid → (o : S.Op) → S.Resp o → W → Option W)
  (oracle : Oracle S (Traced S W)) (t : Tid) (c : Config S (Traced S W) ρ)

/-- The execution in which thread `t` moves whenever it can, with the answers of the oracle, and
nobody else moves. -/
def answering : Execution (Traced.Step exec) c where
  config n := (fun d => (d.next exec oracle t).2)^[n] c
  label n := (((fun d => (d.next exec oracle t).2)^[n] c).next exec oracle t).1
  start := rfl
  moves n := by
    rw [Function.iterate_succ_apply']
    exact Config.next_moves

variable {exec oracle t c}

/-- The thread is answered by the oracle. -/
theorem answering_perform {u : Tid} {o : S.Op} {r : S.Resp o}
    (h : (answering exec oracle t c).label n = .perform ⟨u, o, r⟩) :
    u = t ∧ r = oracle o ((answering exec oracle t c).config n).state :=
  Config.next_perform h

/-- Where the thread performs nothing, the state stays. -/
theorem state_answering (h : ∀ o r, (answering exec oracle t c).label n ≠ .perform ⟨t, o, r⟩) :
    ((answering exec oracle t c).config (n + 1)).state =
      ((answering exec oracle t c).config n).state := by
  refine state_succ ?_
  rintro ⟨u, o, r⟩ hl
  obtain ⟨rfl, -⟩ := answering_perform hl
  exact h o r hl

/-- It is scheduled, if what is ready can end with the answer of the oracle. -/
theorem scheduledIf_answering {ready : S.Op → List (Event S) → Prop}
    (h : ∀ n o k, ((answering exec oracle t c).config n).pool t = .op o k →
      ready o ((answering exec oracle t c).ops t n) →
      exec t o (oracle o ((answering exec oracle t c).config n).state)
        ((answering exec oracle t c).config n).state.world ≠ none) :
    (answering exec oracle t c).ScheduledIf t ready := by
  intro n
  have hnext := Config.next_label exec oracle t ((answering exec oracle t c).config n)
  rcases hnext with hret | ⟨o, k, hp, hstuck⟩ | hround | ⟨o, hperform⟩
  · exact .inl hret
  · exact .inr (.inl ⟨o, k, hp, fun hready => h n o k hp hready hstuck⟩)
  · exact .inr (.inr ⟨n, Nat.le_refl n, .inl hround⟩)
  · exact .inr (.inr ⟨n, Nat.le_refl n, .inr ⟨o, _, hperform⟩⟩)

/-- What an answered operation keeps, of the state and of what the thread has performed, holds at
every moment. -/
theorem answering_invariant {P : Traced S W → List (Event S) → Prop} (hc : P c.state [])
    (hstep : ∀ o s s' es, P s es → Traced.Step exec t o (oracle o s) s s' →
      P s' (⟨t, o, oracle o s⟩ :: es)) (n : Nat) :
    P ((answering exec oracle t c).config n).state ((answering exec oracle t c).ops t n) := by
  induction n with
  | zero => exact hc
  | succ n ih =>
      by_cases hl : ∃ o r, (answering exec oracle t c).label n = .perform ⟨t, o, r⟩
      · obtain ⟨o, r, hl⟩ := hl
        obtain ⟨-, rfl⟩ := answering_perform hl
        obtain ⟨k, -, -, hs⟩ := step_of_label hl
        rw [ops_succ hl]
        exact hstep o _ _ _ ih hs
      · -- otherwise the thread enters a round or rests, and nobody else moves
        rw [state_answering fun o r h => hl ⟨o, r, h⟩, ops_succ_of_ne fun o r h => hl ⟨o, r, h⟩]
        exact ih

/-- The history is what the thread has performed. -/
theorem history_answering (hc : c.state.history = []) (n : Nat) :
    ((answering exec oracle t c).config n).state.history = (answering exec oracle t c).ops t n := by
  refine answering_invariant (P := fun s es => s.history = es) hc (fun o s s' es hs h => ?_) n
  rw [h.history_eq, hs]

end Answering

end Execution

end Interleaving
