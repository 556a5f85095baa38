import OPCUAPacking.Interleaving.Protocol
import OPCUAPacking.Interleaving.Termination

/-!
# Handled programs

A program of one signature that runs as part of a program of another: `Prog.handle` is compatible
with the constructions of programs, so a property of the larger programs that follows from their
parts is, for the smaller ones, again a property that follows from their parts.

* `Prog.handle_bind` — sequencing.
* `Proc.Closed.handle` — a `Proc.Closed` property of handled programs.
* `Protocol.Follows.handle_bind`, `Protocol.Follows.handle_ensuring` — handled programs that follow
  a protocol.
-/

namespace Interleaving

namespace Prog

variable {S T : Sig} {α β : Type} (f : (o : S.Op) → Prog T (S.Resp o))

/-- The handlers are compatible with sequencing. -/
theorem handle_bind (p : Prog S α) (g : α → Prog S β) :
    (p.bind g).handle f = (p.handle f).bind fun a => (g a).handle f := by
  induction p with
  | ret a => rfl
  | op o k ih => simp only [bind, handle, Setting.bind_assoc, ih]
  | loop b i k _ ih => simp only [bind, handle, ih]

/-- A handled program uses what the handlers of its operations use. -/
theorem Uses.handle {P : S.Op → Prop} {P' : T.Op → Prop} (hf : ∀ o, P o → (f o).Uses P')
    {p : Prog S α} (hp : p.Uses P) : (p.handle f).Uses P' := by
  induction p with
  | ret a => trivial
  | op o k ih => exact uses_bind (hf o hp.1) fun r => ih r (hp.2 r)
  | loop b i k ihb ihk => exact ⟨fun j => ihb j (hp.1 j), fun r => ihk r (hp.2 r)⟩

end Prog

namespace Proc

variable {S T : Sig} {ε α β ι ρ : Type} (f : (o : S.Op) → Prog T (S.Resp o))

/-- Run a program with exceptions through handlers. -/
def handle (p : Proc S ε α) : Proc T ε α := Prog.handle f p

theorem handle_bind (p : Proc S ε α) (g : α → Proc S ε β) :
    handle f (p >>= g) = handle f p >>= fun a => handle f (g a) := by
  refine (Prog.handle_bind f p (next g)).trans (congrArg (Prog.bind (Prog.handle f p)) ?_)
  funext r
  cases r <;> rfl

theorem handle_attempt (p : Proc S ε α) : handle f (attempt p) = attempt (handle f p) :=
  Prog.handle_bind f p _

theorem handle_ensuring (release : Proc S ε Unit) (body : Proc S ε α) :
    handle f (ensuring release body) = ensuring (handle f release) (handle f body) := by
  refine (Prog.handle_bind f body _).trans (congrArg (Prog.bind (Prog.handle f body)) ?_)
  funext r
  refine (Prog.handle_bind f release _).trans (congrArg (Prog.bind (Prog.handle f release)) ?_)
  funext u
  cases u <;> rfl

theorem handle_tryCatch (p : Proc S ε α) (h : ε → Proc S ε α) :
    handle f (tryCatch p h) = tryCatch (handle f p) fun e => handle f (h e) := by
  refine (Prog.handle_bind f p _).trans (congrArg (Prog.bind (Prog.handle f p)) ?_)
  funext r
  cases r <;> rfl

theorem handle_loop (i : ι) (body : ι → Proc S ε (ι ⊕ ρ)) :
    handle f (loop i body) = loop i fun j => handle f (body j) := by
  refine congrArg (fun b => Prog.loop b i Prog.ret) (funext fun j => ?_)
  exact Prog.handle_bind f (body j) _

/-- A property that follows from the parts does so through handlers. -/
theorem Closed.handle {K : (α : Type) → Proc T ε α → Prop} (hK : Closed K) :
    Closed fun α (p : Proc S ε α) => K α (Proc.handle f p) where
  pure a := hK.pure a
  throw e := hK.throw e
  bind hp hg := by
    rw [handle_bind]
    exact hK.bind hp hg
  attempt hp := by
    rw [handle_attempt]
    exact hK.attempt hp
  ensuring hr hb := by
    rw [handle_ensuring]
    exact hK.ensuring hr hb
  tryCatch hp hh := by
    rw [handle_tryCatch]
    exact hK.tryCatch hp hh
  loop hb := by
    rw [handle_loop]
    exact hK.loop hb

end Proc

namespace Protocol

variable {S T : Sig} {σ L ε α β : Type} {P : Protocol T σ L} {t : Tid} {ℓ : L}
  {f : (o : S.Op) → Prog T (S.Resp o)}

/-- Sequencing through an intermediate assertion. -/
theorem Follows.handle_bind {p : Proc S ε α} {g : α → Proc S ε β} {Q : Except ε β → L → Prop}
    (R : Except ε α → L → Prop) (hp : P.Follows t (Proc.handle f p) R ℓ)
    (hg : ∀ a ℓ', R (.ok a) ℓ' → P.Follows t (Proc.handle f (g a)) Q ℓ')
    (he : ∀ e ℓ', R (.error e) ℓ' → Q (.error e) ℓ') :
    P.Follows t (Proc.handle f (p >>= g)) Q ℓ := by
  rw [Proc.handle_bind]
  exact Follows.bind R hp hg he

/-- A scope guard. -/
theorem Follows.handle_ensuring {release : Proc S ε Unit} {body : Proc S ε α}
    {Q : Except ε α → L → Prop} (R : Except ε α → L → Prop)
    (hb : P.Follows t (Proc.handle f body) R ℓ)
    (hr : ∀ r ℓ', R r ℓ' → P.Follows t (Proc.handle f release)
      (fun u ℓ'' => u = .ok () ∧ Q r ℓ'') ℓ') :
    P.Follows t (Proc.handle f (Proc.ensuring release body)) Q ℓ := by
  rw [Proc.handle_ensuring]
  exact Follows.ensuring R hb hr

end Protocol

end Interleaving
