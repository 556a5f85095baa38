import OPCUAPacking.Impl.LastRead
import OPCUAPacking.Impl.Window
import OPCUAPacking.Interleaving.Execution

/-!
# Executions of calls

Infinite runs of a pool on an `Impl`, and one thread along them.

* `ImplPool.OfCalls` — every thread uses the operations of calls; then the configuration does not
  change, and the stop signal stays on once it is on.
* `Impl.grantable` — a mutex is not asked for by a thread that holds it. A thread is scheduled as
  long as what it asks for is grantable, so a thread that would wait for itself is left waiting.
* `Impl.Along` — what a thread does from a moment of an execution on; `Impl.Holds` says which mutex
  it holds by then.
-/

namespace OPCUAPacking

open Interleaving

/-- An infinite run of a pool on an `Impl`. -/
abbrev ImplExecution (c : ImplPool) := Execution (Traced.Step ImplState.exec) c

/-- Every thread uses the operations of calls. -/
def ImplPool.OfCalls (c : ImplPool) : Prop := ∀ t, (c.pool t).Uses Impl.Footprint

namespace ImplState

/-- The operations of calls do not change the configuration. -/
theorem config_of_footprint {t : Tid} {o : ImplOp} {r : o.Resp} {s s' : ImplState}
    (ho : Impl.Footprint o) (h : exec t o r s = some s') : s'.config = s.config := by
  refine (frame_of_exec h).config fun config => ?_
  rintro rfl
  rcases ho with (ho | ho | ho | ho) | ho <;> exact ho

/-- They leave a client that was given up. -/
theorem givenUp_of_footprint {t : Tid} {o : ImplOp} {r : o.Resp} {s s' : ImplState}
    (ho : Impl.Footprint o) (h : exec t o r s = some s') (hs : s.lifeState = .givenUp) :
    s'.lifeState = .givenUp := by
  rcases lifeState_of_exec ho.keepsGivenUp h with ⟨-, -, hdead⟩ | ⟨-, hkeep⟩
  · exact hdead
  · exact hkeep hs

/-- They leave the stop signal on. -/
theorem stopSignal_of_footprint {t : Tid} {o : ImplOp} {r : o.Resp} {s s' : ImplState}
    (ho : Impl.Footprint o) (h : exec t o r s = some s') (hs : s.stopSignal = true) :
    s'.stopSignal = true := by
  obtain ⟨hrunning, hshutdown, -⟩ := flags_of_exec ho h
  simp only [stopSignal, Bool.or_eq_true, Bool.and_eq_true, Bool.not_eq_true', beq_iff_eq] at hs ⊢
  rcases hs with ⟨hs, hr⟩ | hs
  · exact .inl ⟨hshutdown hs, hrunning hr⟩
  · exact .inr (givenUp_of_footprint ho h hs)

end ImplState

namespace ImplPool.OfCalls

variable {c : ImplPool} (hc : c.OfCalls) {E : ImplExecution c} {t : Tid} {n m : Nat}

include hc

/-- What the operations of calls keep is kept along an execution. -/
theorem keep {P : ImplState → Prop}
    (hP : ∀ {t o r s s'}, Impl.Footprint o → P s → ImplState.exec t o r s = some s' → P s')
    (hnm : n ≤ m) (hn : P (E.config n).state.world) : P (E.config m).state.world :=
  ((E.reach_of_le hnm).uses (P := fun s => P s.world) (fun ho hs h => hP ho hs h.exec_eq)
    (fun t => (E.reach n).uses_thread (hc t)) hn).1

/-- The configuration does not change. -/
theorem config_eq (n : Nat) : (E.config n).state.world.config = c.state.world.config := by
  have h := hc.keep (E := E) (P := fun s => s.config = c.state.world.config)
    (fun ho hs h => (ImplState.config_of_footprint ho h).trans hs) (Nat.zero_le n)
  rw [E.start] at h
  exact h rfl

/-- The stop signal stays on. -/
theorem stop_of_le (hnm : n ≤ m) (hn : (E.config n).state.world.stopSignal = true) :
    (E.config m).state.world.stopSignal = true :=
  hc.keep (fun ho hs h => ImplState.stopSignal_of_footprint ho h hs) hnm hn

end ImplPool.OfCalls

/-! ### One thread -/

/-- The thread takes a mutex. -/
def locks (m : Mutex) (e : Event ImplSig) : Bool :=
  match e.op with
  | .lock m' => m' == m
  | _ => false

/-- The thread gives it back. -/
def unlocks (m : Mutex) (e : Event ImplSig) : Bool :=
  match e.op with
  | .unlock m' => m' == m
  | _ => false

namespace Impl

open Setting

/-- A mutex is granted to a thread that has given it back as often as it has taken it, and taken
back from a thread that has not; anything else is granted always. -/
def grantable : ImplOp → History → Prop
  | .lock m, es => es.countP (locks m) = es.countP (unlocks m)
  | .unlock m, es => es.countP (locks m) = es.countP (unlocks m) + 1
  | _, _ => True

variable {c : ImplPool} {E : ImplExecution c} {t : Tid} {α β : Type}

/-- What a thread does from a moment of an execution on. -/
abbrev Along (E : ImplExecution c) (t : Tid) (p : Impl α) (Q : Except Exn α → Nat → Prop)
    (n : Nat) : Prop :=
  (E.along t grantable).Ends Q p n

/-- One operation, then the rest. -/
theorem along_op {n : Nat} {o : ImplOp} {f : o.Resp → Impl β} {Q : Except Exn β → Nat → Prop}
    (hready : grantable o (E.ops t n))
    (h : ∀ r n', (E.along t grantable).step o r n n' → Along E t (f r) Q n') :
    Along E t (perform o >>= f) Q n :=
  Ends.step hready h

/-- The mutex that the thread holds, if any, judging by what it has done. -/
def Holds (E : ImplExecution c) (t : Tid) (held : Option Mutex) (n : Nat) : Prop :=
  ∀ m, E.count t (locks m) n = E.count t (unlocks m) n + if held = some m then 1 else 0

/-- An operation on no mutex. -/
theorem Holds.step {held : Option Mutex} {o : ImplOp} {r : o.Resp} {n n' : Nat}
    (hn : Holds E t held n) (h : (E.along t grantable).step o r n n')
    (ho : ∀ m, locks m ⟨t, o, r⟩ = false ∧ unlocks m ⟨t, o, r⟩ = false) : Holds E t held n' := by
  intro m
  rw [Execution.count_of_step h, Execution.count_of_step h, (ho m).1, (ho m).2, hn m]
  rfl

/-- A block under a mutex, by a thread that holds none. -/
theorem along_withLock {m : Mutex} {body : Impl α} (P : Nat → Prop)
    (R : Except Exn α → Nat → Prop) {n : Nat} (hn : Holds E t none n)
    (hlock : ∀ n', (E.along t grantable).step (.lock m) () n n' → P n')
    (hbody : ∀ n', Holds E t (some m) n' → P n' →
      Along E t body (fun r n'' => Holds E t (some m) n'' ∧ R r n'') n')
    (hunlock : ∀ r n' n'', (E.along t grantable).step (.unlock m) () n' n'' → R r n' → R r n'') :
    Along E t (withLock m body) (fun r n' => Holds E t none n' ∧ R r n') n := by
  refine along_op (hn m) fun _ n₁ h₁ => ?_
  have hlocked : Holds E t (some m) n₁ := by
    intro m'
    rw [Execution.count_of_step h₁, Execution.count_of_step h₁, hn m']
    simp [locks, unlocks]
  refine Ends.ensuring (Q := fun r n' => Holds E t none n' ∧ R r n') _
    (hbody n₁ hlocked (hlock n₁ h₁)) ?_
  rintro r n₂ ⟨hn₂, hR⟩
  have hgrant : E.count t (locks m) n₂ = E.count t (unlocks m) n₂ + 1 := by simpa using hn₂ m
  refine .op hgrant fun u n₃ h₃ => .ret ⟨rfl, fun m' => ?_, hunlock r n₂ n₃ h₃ hR⟩
  have hcount := hn₂ m'
  rw [Execution.count_of_step h₃, Execution.count_of_step h₃, hcount]
  by_cases hm : m = m' <;> simp [locks, unlocks, hm]

end Impl

end OPCUAPacking
