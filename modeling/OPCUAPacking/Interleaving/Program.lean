import Mathlib.Logic.Function.Basic

/-!
# Programs of atomic operations

A program over a signature of atomic operations is a tree: it returns, performs an operation and
continues with the response, or enters a loop whose body says whether to go round again. Loops
are part of the tree, so a program need not terminate.

* `Prog S α` — programs over the signature `S` that return an `α`; `Prog.bind` sequences them.
* `Proc S ε α` — programs that may also end with an exception of type `ε`, the monad in which
  source code with early returns is written. `Proc.ensuring` runs a release program on both exits,
  as a scope guard does.
* `Prog.Uses P p` — every operation that occurs in `p` satisfies `P`.
* `Proc.Composed K`, `Proc.Closed K` — a property of programs that follows from their parts, such as
  `Uses P`, so that it is read off the text of a function.
* `Prog.handle` — replaces each operation by a program over another signature.
-/

namespace Interleaving

/-- A signature of atomic operations: each operation has a type of responses. -/
structure Sig where
  /-- The operations. -/
  Op : Type
  /-- The responses to an operation. -/
  Resp : Op → Type

/-- Programs over `S` that return an `α`. -/
inductive Prog (S : Sig) : Type → Type 1 where
  /-- Return `a`. -/
  | ret {α : Type} (a : α) : Prog S α
  /-- Perform `o` and continue with its response. -/
  | op {α : Type} (o : S.Op) (k : S.Resp o → Prog S α) : Prog S α
  /-- Run `body` from `i`; `Sum.inl j` goes round again from `j`, `Sum.inr r` leaves with `r`. -/
  | loop {α ι ρ : Type} (body : ι → Prog S (ι ⊕ ρ)) (i : ι) (k : ρ → Prog S α) : Prog S α

namespace Prog

variable {S T : Sig} {α β γ : Type}

/-- Run `p`, then `f` on what it returns. -/
def bind : {α : Type} → Prog S α → (α → Prog S β) → Prog S β
  | _, .ret a, f => f a
  | _, .op o k, f => .op o fun r => (k r).bind f
  | _, .loop b i k, f => .loop b i fun r => (k r).bind f

/-- One round of a loop: run the body once, then go round again or leave. -/
def unroll {ι ρ : Type} (b : ι → Prog S (ι ⊕ ρ)) (i : ι) (k : ρ → Prog S α) : Prog S α :=
  (b i).bind (Sum.elim (fun j => .loop b j k) k)

/-- Every operation that occurs in the program satisfies `P`. -/
def Uses (P : S.Op → Prop) : {α : Type} → Prog S α → Prop
  | _, .ret _ => True
  | _, .op o k => P o ∧ ∀ r, (k r).Uses P
  | _, .loop b _ k => (∀ i, (b i).Uses P) ∧ ∀ r, (k r).Uses P

/-- Replace each operation by the program `f` gives for it. -/
def handle (f : (o : S.Op) → Prog T (S.Resp o)) : {α : Type} → Prog S α → Prog T α
  | _, .ret a => .ret a
  | _, .op o k => (f o).bind fun r => (k r).handle f
  | _, .loop b i k => .loop (fun j => (b j).handle f) i fun r => (k r).handle f

/-- Sequencing keeps a footprint. -/
theorem uses_bind {P : S.Op → Prop} {p : Prog S α} {f : α → Prog S β} (hp : p.Uses P)
    (hf : ∀ a, (f a).Uses P) : (p.bind f).Uses P := by
  induction p with
  | ret a => exact hf a
  | op o k ih => exact ⟨hp.1, fun r => ih r (hp.2 r) hf⟩
  | loop b i k _ ih => exact ⟨hp.1, fun r => ih r (hp.2 r) hf⟩

/-- A round of a loop keeps the footprint of the loop. -/
theorem uses_unroll {ι ρ : Type} {P : S.Op → Prop} {b : ι → Prog S (ι ⊕ ρ)} {i : ι}
    {k : ρ → Prog S α} (h : (Prog.loop b i k).Uses P) : (unroll b i k).Uses P := by
  refine uses_bind (h.1 i) ?_
  rintro (j | r)
  · exact h
  · exact h.2 r

/-- A footprint may be enlarged. -/
theorem Uses.mono {P P' : S.Op → Prop} (h : ∀ o, P o → P' o) {p : Prog S α} (hp : p.Uses P) :
    p.Uses P' := by
  induction p with
  | ret a => trivial
  | op o k ih => exact ⟨h o hp.1, fun r => ih r (hp.2 r)⟩
  | loop b i k ihb ihk => exact ⟨fun j => ihb j (hp.1 j), fun r => ihk r (hp.2 r)⟩

/-- A footprint that excludes nothing. -/
theorem uses_of_forall {P : S.Op → Prop} (h : ∀ o, P o) (p : Prog S α) : p.Uses P := by
  induction p with
  | ret a => trivial
  | op o k ih => exact ⟨h o, ih⟩
  | loop b i k ihb ihk => exact ⟨ihb, ihk⟩

/-- A handled program uses what the handlers use. -/
theorem uses_handle {P : T.Op → Prop} {f : (o : S.Op) → Prog T (S.Resp o)}
    (hf : ∀ o, (f o).Uses P) (p : Prog S α) : (p.handle f).Uses P := by
  induction p with
  | ret a => trivial
  | op o k ih => exact uses_bind (hf o) ih
  | loop b i k ihb ihk => exact ⟨ihb, ihk⟩

end Prog

/-- Programs over `S` that return an `α` or end with an exception `ε`. -/
def Proc (S : Sig) (ε α : Type) : Type 1 := Prog S (Except ε α)

namespace Proc

variable {S T : Sig} {ε α β ι ρ : Type}

/-- Run `f` on what a program returned; an exception passes through. -/
def next (f : α → Proc S ε β) : Except ε α → Proc S ε β
  | .ok a => f a
  | .error e => Prog.ret (.error e)

instance : Monad (Proc S ε) where
  pure a := Prog.ret (.ok a)
  bind p f := Prog.bind p (next f)

/-- Perform one operation. -/
def perform (o : S.Op) : Proc S ε (S.Resp o) := Prog.op o fun r => Prog.ret (.ok r)

/-- End with an exception. -/
def throw (e : ε) : Proc S ε α := Prog.ret (.error e)

/-- Run `p`; on an exception run the handler. -/
def tryCatch (p : Proc S ε α) (h : ε → Proc S ε α) : Proc S ε α :=
  Prog.bind p fun
    | .ok a => Prog.ret (.ok a)
    | .error e => h e

/-- Run `p` and return how it ended. -/
def attempt (p : Proc S ε α) : Proc S ε (Except ε α) := Prog.bind p fun r => Prog.ret (.ok r)

/-- Run `body`, then `release` however `body` ended. An exception of `release` replaces the
outcome of `body`. -/
def ensuring (release : Proc S ε Unit) (body : Proc S ε α) : Proc S ε α :=
  Prog.bind body fun r => Prog.bind release (next fun _ => Prog.ret r)

/-- What a round of a loop with exceptions does next. -/
def roundExit : Except ε (ι ⊕ ρ) → ι ⊕ Except ε ρ
  | .ok (.inl j) => .inl j
  | .ok (.inr r) => .inr (.ok r)
  | .error e => .inr (.error e)

/-- Repeat `body` from `i` until it leaves with `Sum.inr` or an exception. -/
def loop (i : ι) (body : ι → Proc S ε (ι ⊕ ρ)) : Proc S ε ρ :=
  Prog.loop (fun j => Prog.bind (body j) fun r => Prog.ret (roundExit r)) i Prog.ret

/-- Run `f` on the value of a result; an error is returned as it is. -/
def andThen {E α' β' : Type} (p : Proc S ε (Except E α')) (f : α' → Proc S ε (Except E β')) :
    Proc S ε (Except E β') := do
  let r ← p
  match r with
  | .ok a => f a
  | .error e => pure (.error e)

/-- Run `p` on each element of the list and collect the values, up to the first error. -/
def mapResult {E α' β' : Type} (p : α' → Proc S ε (Except E β')) :
    List α' → Proc S ε (Except E (List β'))
  | [] => pure (.ok [])
  | a :: as => andThen (p a) fun b => andThen (mapResult p as) fun bs => pure (.ok (b :: bs))

/-- Run `p` if the condition holds. -/
def when (c : Bool) (p : Proc S ε Unit) : Proc S ε Unit := if c then p else pure ()

/-- Run `p` once for each element of the list. -/
def forEach (p : α → Proc S ε Unit) : List α → Proc S ε Unit
  | [] => pure ()
  | a :: as => do p a; forEach p as

/-! ### Properties of programs that follow from their parts -/

/-- A property of programs that sequencing and loops keep. -/
structure Composed (K : (α : Type) → Proc S ε α → Prop) : Prop where
  pure : ∀ {α : Type} (a : α), K α (pure a)
  bind : ∀ {α β : Type} {p : Proc S ε α} {f : α → Proc S ε β}, K α p → (∀ a, K β (f a)) →
    K β (p >>= f)
  attempt : ∀ {α : Type} {p : Proc S ε α}, K α p → K (Except ε α) (attempt p)
  loop : ∀ {ι ρ : Type} {i : ι} {body : ι → Proc S ε (ι ⊕ ρ)}, (∀ j, K (ι ⊕ ρ) (body j)) →
    K ρ (loop i body)

/-- A property of programs that the constructions of `Proc` keep. -/
structure Closed (K : (α : Type) → Proc S ε α → Prop) : Prop extends Composed K where
  throw : ∀ {α : Type} (e : ε), K α (throw e)
  ensuring : ∀ {α : Type} {release : Proc S ε Unit} {body : Proc S ε α}, K Unit release →
    K α body → K α (ensuring release body)
  tryCatch : ∀ {α : Type} {p : Proc S ε α} {h : ε → Proc S ε α}, K α p → (∀ e, K α (h e)) →
    K α (tryCatch p h)

namespace Composed

variable {K : (α : Type) → Proc S ε α → Prop} (hK : Composed K)

/-- A branch, from its two sides. -/
theorem ite {c : Prop} [Decidable c] {p q : Proc S ε α} (hp : K α p) (hq : K α q) :
    K α (if c then p else q) := by
  split
  · exact hp
  · exact hq

include hK

/-- A conditional statement, from its body. -/
theorem when {c : Bool} {p : Proc S ε Unit} (hp : K Unit p) : K Unit (when c p) :=
  Composed.ite hp (hK.pure ())

/-- A statement for each element of a list. -/
theorem forEach {p : α → Proc S ε Unit} (hp : ∀ a, K Unit (p a)) (as : List α) :
    K Unit (forEach p as) := by
  induction as with
  | nil => exact hK.pure ()
  | cons a as ih => exact hK.bind (hp a) fun _ => ih

/-- Continuing on success. -/
theorem andThen {E α' β' : Type} {p : Proc S ε (Except E α')}
    {f : α' → Proc S ε (Except E β')} (hp : K _ p) (hf : ∀ a, K _ (f a)) :
    K _ (andThen p f) := by
  refine hK.bind hp fun r => ?_
  cases r with
  | ok a => exact hf a
  | error e => exact hK.pure _

/-- Mapping along a list. -/
theorem mapResult {E α' β' : Type} {p : α' → Proc S ε (Except E β')} (hp : ∀ a, K _ (p a))
    (as : List α') : K _ (mapResult p as) := by
  induction as with
  | nil => exact hK.pure _
  | cons a as ih => exact hK.andThen (hp a) fun b => hK.andThen ih fun _ => hK.pure _

end Composed

/-- Every operation that occurs in the program satisfies `P`. -/
def Uses (P : S.Op → Prop) (p : Proc S ε α) : Prop := Prog.Uses P p

/-- Performing `o` uses `o` only. -/
@[simp]
theorem uses_perform {P : S.Op → Prop} (o : S.Op) : Uses P (perform o : Proc S ε _) ↔ P o :=
  ⟨fun h => h.1, fun h => ⟨h, fun _ => trivial⟩⟩

/-- A footprint may be enlarged. -/
theorem Uses.mono {P P' : S.Op → Prop} (h : ∀ o, P o → P' o) {p : Proc S ε α} (hp : Uses P p) :
    Uses P' p :=
  Prog.Uses.mono h hp

/-- A footprint is found by looking at the parts. -/
theorem closed_uses (P : S.Op → Prop) : Closed fun α (p : Proc S ε α) => Uses P p where
  pure _ := trivial
  throw _ := trivial
  bind hp hf := by
    refine Prog.uses_bind hp fun r => ?_
    cases r with
    | ok a => exact hf a
    | error e => trivial
  ensuring hr hb := by
    refine Prog.uses_bind hb fun r => Prog.uses_bind hr fun u => ?_
    cases u <;> trivial
  tryCatch hp hh := by
    refine Prog.uses_bind hp fun r => ?_
    cases r with
    | ok a => trivial
    | error e => exact hh e
  attempt hp := Prog.uses_bind hp fun _ => trivial
  loop hb := ⟨fun j => Prog.uses_bind (hb j) fun _ => trivial, fun _ => trivial⟩

end Proc

end Interleaving
