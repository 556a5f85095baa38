import OPCUAPacking.Impl.Calls
import OPCUAPacking.Interleaving.Solo

/-!
# One thread on an `Impl`

What the functions of an `Impl` do while no other thread acts: a look at a member answers what the
member holds, and goes on holding until the thread itself, or a callback of the SDK, changes it.

* `aloneProtocol` — the protocol of a lone thread.
* `Looking I` — looks keep `I`. `Drifting I` — so does polling: callbacks, probes and the start of
  the give-up timer. `Steady I` — so do the other operations of a connection call.
* `Impl.Sees` — a function that only looks returns what the state says.
* `Impl.alone_isConnected`, `Impl.alone_turnToRecovring`, `Impl.alone_turnToRunning` — the parts of
  which the connection calls and the decisions are made.
-/

namespace OPCUAPacking

open Interleaving

/-- A state of an `Impl`, with the operations that led to it. -/
abbrev Moment := Traced ImplSig ImplState

/-- A step of thread 0. -/
abbrev AloneStep (ok : Moment → Event ImplSig → Prop) (o : ImplOp) (r : o.Resp) :
    Moment → Moment → Prop :=
  Traced.StepIf ok ImplState.exec 0 o r

/-- The steps of thread 0 are not restricted. -/
abbrev AnyStep : Moment → Event ImplSig → Prop := fun _ _ => True

/-- The protocol of thread 0, alone on an `Impl`, in runs whose steps meet a condition. -/
abbrev aloneProtocol (ok : Moment → Event ImplSig → Prop) (Inv : Moment → Prop) :
    Protocol ImplSig Moment Moment :=
  Protocol.solo 0 (Traced.StepIf ok ImplState.exec) Inv (Traced.start (.construct {} "" 0))

/-- The pool in which thread 0 runs a program and no other thread acts. -/
def ImplPool.solo (p : Impl ImplReply) (s : Moment) : ImplPool :=
  ⟨fun t => if t = 0 then p else ImplCall.thread none, s⟩

/-- The pool in which thread 0 makes a call and no other thread acts. -/
def ImplPool.alone (call : ImplCall) (s : Moment) : ImplPool := solo call.run s

/-! ### Operations -/

/-- The operations of a poll: they look, let the SDK report, and publish what it says. -/
def ImplOp.Drifts (o : ImplOp) : Prop :=
  o.Looks ∨ o.WordWrite ∨ o = .store .connectionLost true

/-- Polling writes the word and the lost flag only. -/
theorem ImplOp.Drifts.not_writes {o : ImplOp} {a : Atomic} (h : o.Drifts) (hword : a ≠ .statePacked)
    (hlost : a ≠ .connectionLost) : ¬o.Writes a := by
  rcases h with h | h | rfl
  · cases o with
    | store b v | casWeak b e d | casStrong b e d => exact h.elim
    | _ => exact id
  · cases o with
    | store b v => exact h.elim
    | casWeak b e d | casStrong b e d =>
        rintro rfl
        cases b <;> first | exact hword rfl | exact h.elim
    | _ => exact id
  · exact hlost.symm

/-- The operations of the start of the give-up timer. -/
def ImplOp.Timing (o : ImplOp) : Prop := o.Local ∨ o.Timer

/-- They write the time only. -/
theorem ImplOp.Timing.not_writes {o : ImplOp} {a : Atomic} (h : o.Timing)
    (ha : a ≠ .lastBadStatusMs) : ¬o.Writes a := by
  rcases h with h | h
  · exact h.not_writes
  · cases o with
    | load b | store b v => cases b <;> first | exact h.elim | exact id | exact fun hw => ha hw.symm
    | _ => exact h.elim

/-- From RUNNING to RECOVERING. -/
def ImplOp.Demotes (o : ImplOp) : Prop := o = .casWeak .lifeState .running .recovering

/-- Looking keeps the predicate. -/
structure Looking (ok : Moment → Event ImplSig → Prop) (Inv I : Moment → Prop) : Prop where
  inv : ∀ s, I s → Inv s
  look : ∀ o : ImplOp, o.Local → ∀ r s s', I s → AloneStep ok o r s s' → I s'

/-- Polling keeps the predicate. -/
structure Drifting (ok : Moment → Event ImplSig → Prop) (Inv I : Moment → Prop) : Prop where
  inv : ∀ s, I s → Inv s
  drift : ∀ o : ImplOp, o.Drifts → ∀ r s s', I s → AloneStep ok o r s s' → I s'
  timer : (aloneProtocol ok Inv).Keeps I 0 Impl.updateBadStatusTime

/-- The publication of an answer. -/
theorem Drifting.publish {ok : Moment → Event ImplSig → Prop} {Inv I : Moment → Prop}
    (hI : Drifting ok Inv I) (e : BitVec 64) (f : Triple) :
    ∀ r s s', I s → AloneStep ok (.casStrong .statePacked e
      (f.pack ((unpackState e).version + 1))) r s s' → I s' :=
  hI.drift (.casStrong .statePacked e (f.pack ((unpackState e).version + 1))) (.inr (.inl ⟨f, rfl⟩))

theorem Drifting.looking {ok : Moment → Event ImplSig → Prop} {Inv I : Moment → Prop}
    (hI : Drifting ok Inv I) : Looking ok Inv I where
  inv := hI.inv
  look o ho := hI.drift o (.inl ho.looks)

/-- So do the operations of the calls in flight, and a demotion. -/
structure Steady (ok : Moment → Event ImplSig → Prop) (Inv I : Moment → Prop) : Prop extends
    Drifting ok Inv I where
  busy : ∀ o : ImplOp, o.InFlight ∨ o.Demotes → ∀ r s s', I s → AloneStep ok o r s s' → I s'

/-- How a function ends: with `X` after an exception, else with `E` of its result. -/
def Ends {α : Type} (X : Moment → Prop) (E : α → Moment → Prop) : Except Exn α → Moment → Prop
  | .error _, s => X s
  | .ok a, s => E a s

namespace ImplState

/-- Nobody can use the client any more: the stop signal is on, or the client was taken away. -/
def IsGone (s : ImplState) : Prop := s.stopSignal = true ∨ s.impl = none

/-- The effect of `TurnToRecovring`. -/
def recover (s : ImplState) : ImplState :=
  if s.IsStale then { s with lifeState := .recovering } else s

/-- The effect of `TurnToRunning`. -/
def promote (s : ImplState) : ImplState :=
  if s.lifeState = .givenUp then s
  else { s with lifeState := .running, connectionLost := false, lastBadStatusMs := 0 }

/-- Taking a free mutex and giving it back changes nothing. -/
theorem setOwner_setOwner {s : ImplState} {m : Mutex} {o : Option Tid} (h : s.owner m = none) :
    (s.setOwner o m).setOwner none m = s := by
  cases m with
  | lock =>
      have hnone : s.lockOwner = none := h
      simp [setOwner, ← hnone]
  | sdkMutex =>
      have hnone : s.sdkOwner = none := h
      simp [setOwner, ← hnone]
  | badStatusMsMx =>
      have hnone : s.badStatusOwner = none := h
      simp [setOwner, ← hnone]

@[simp]
theorem setOwner_impl (s : ImplState) (o : Option Tid) (m : Mutex) :
    (s.setOwner o m).impl = s.impl := by
  cases m <;> rfl

@[simp]
theorem setOwner_stopSignal (s : ImplState) (o : Option Tid) (m : Mutex) :
    (s.setOwner o m).stopSignal = s.stopSignal := by
  cases m <;> rfl

@[simp]
theorem setOwner_isHealthy (s : ImplState) (o : Option Tid) (m : Mutex) :
    (s.setOwner o m).isHealthy = s.isHealthy := by
  cases m <;> rfl

/-- A client that was taken to RECOVERING is not RUNNING, or healthy. -/
theorem not_isStale_recover (s : ImplState) : ¬s.recover.IsStale := by
  unfold recover
  split
  · rintro ⟨hrunning, -⟩
    cases hrunning
  · assumption

/-- Whether it is healthy does not change. -/
@[simp]
theorem isHealthy_recover (s : ImplState) : s.recover.isHealthy = s.isHealthy := by
  unfold recover
  split <;> rfl

end ImplState

section Steps

variable {ok : Moment → Event ImplSig → Prop} {s s' : Moment}

/-- A load answers what the member holds. -/
theorem AloneStep.load {a : Atomic} {v : a.Val} (h : AloneStep ok (.load a) v s s') :
    v = s.world.get a ∧ s'.world = s.world := by
  obtain ⟨hget, hworld⟩ := ImplState.whenever_eq_some.mp h.exec_eq
  exact ⟨hget.symm, hworld.symm⟩

/-- So does a load of the fields of the word. -/
theorem AloneStep.loadFields {f : StateFields} (h : AloneStep ok .loadFields f s s') :
    f = unpackState s.world.statePacked ∧ s'.world = s.world := by
  obtain ⟨hget, hworld⟩ := ImplState.whenever_eq_some.mp h.exec_eq
  exact ⟨hget.symm, hworld.symm⟩

/-- A store writes the member. -/
theorem AloneStep.store {a : Atomic} {v : a.Val} {r : Unit} (h : AloneStep ok (.store a v) r s s') :
    s'.world = s.world.set a v :=
  (Option.some.inj h.exec_eq).symm

/-- A compare-exchange that succeeds. -/
theorem AloneStep.casWeak_ok {a : Atomic} {e d : a.Val}
    (h : AloneStep ok (.casWeak a e d) (.ok ()) s s') :
    s.world.get a = e ∧ s'.world = s.world.set a d := by
  have hcas : s.world.cas true a e d (.ok ()) = some s'.world := h.exec_eq
  rcases ImplState.cas_eq_some.mp hcas with ⟨-, heq, hworld⟩ | ⟨⟨⟩, -⟩
  exact ⟨heq, hworld⟩

/-- One that fails. -/
theorem AloneStep.casWeak_error {a : Atomic} {e d r : a.Val}
    (h : AloneStep ok (.casWeak a e d) (.error r) s s') : s'.world = s.world := by
  have hcas : s.world.cas true a e d (.error r) = some s'.world := h.exec_eq
  rcases ImplState.cas_eq_some.mp hcas with ⟨⟨⟩, -⟩ | ⟨-, -, hworld⟩
  exact hworld

end Steps

namespace Impl

variable {ok : Moment → Event ImplSig → Prop} {Inv I : Moment → Prop} {s : Moment} {α β : Type}

/-- What a lone thread does from a moment on. -/
abbrev Alone (ok : Moment → Event ImplSig → Prop) (Inv : Moment → Prop) (p : Impl α)
    (Q : Except Exn α → Moment → Prop) (s : Moment) : Prop :=
  (aloneProtocol ok Inv).Follows 0 p Q s

/-- One operation, then the rest. -/
theorem alone_step {o : ImplOp} {f : o.Resp → Impl β} {Q : Except Exn β → Moment → Prop}
    (h : ∀ r s', Inv s → AloneStep ok o r s s' → Inv s' ∧ Alone ok Inv (f r) Q s') :
    Alone ok Inv (perform o >>= f) Q s :=
  Protocol.follows_solo_step h

/-- One look, then the rest. -/
theorem alone_look (hI : Looking ok Inv I) (hs : I s) {o : ImplOp} (ho : o.Local)
    {f : o.Resp → Impl β} {Q : Except Exn β → Moment → Prop}
    (h : ∀ r s', I s' → AloneStep ok o r s s' → Alone ok Inv (f r) Q s') :
    Alone ok Inv (perform o >>= f) Q s :=
  alone_step fun r s' _ hstep =>
    have hs' := hI.look o ho r s s' hs hstep
    ⟨hI.inv s' hs', h r s' hs' hstep⟩

/-- One operation of a poll, then the rest. -/
theorem alone_drift (hI : Drifting ok Inv I) (hs : I s) {o : ImplOp} (ho : o.Drifts)
    {f : o.Resp → Impl β} {Q : Except Exn β → Moment → Prop}
    (h : ∀ r s', I s' → AloneStep ok o r s s' → Alone ok Inv (f r) Q s') :
    Alone ok Inv (perform o >>= f) Q s :=
  alone_step fun r s' _ hstep =>
    have hs' := hI.drift o ho r s s' hs hstep
    ⟨hI.inv s' hs', h r s' hs' hstep⟩

/-- Sequencing through an intermediate assertion. -/
theorem alone_bind {p : Impl α} {f : α → Impl β} {Q : Except Exn β → Moment → Prop}
    (R : Except Exn α → Moment → Prop) (hp : Alone ok Inv p R s)
    (hf : ∀ a s', R (.ok a) s' → Alone ok Inv (f a) Q s')
    (he : ∀ e s', R (.error e) s' → Q (.error e) s') : Alone ok Inv (p >>= f) Q s :=
  Protocol.Follows.bind R hp hf he

/-- A predicate that holds however a function ends, then the rest. -/
theorem alone_keeps_from {p : Impl α} {f : α → Impl β} {Q : Except Exn β → Moment → Prop}
    (hp : Alone ok Inv p (fun _ s' => I s') s) (hf : ∀ a s', I s' → Alone ok Inv (f a) Q s')
    (he : ∀ e s', I s' → Q (.error e) s') : Alone ok Inv (p >>= f) Q s :=
  alone_bind (fun _ s' => I s') hp hf he

/-- A kept predicate, then the rest. -/
theorem alone_keeps {p : Impl α} {f : α → Impl β} {Q : Except Exn β → Moment → Prop}
    (hp : (aloneProtocol ok Inv).Keeps I 0 p) (hs : I s)
    (hf : ∀ a s', I s' → Alone ok Inv (f a) Q s') (he : ∀ e s', I s' → Q (.error e) s') :
    Alone ok Inv (p >>= f) Q s :=
  alone_keeps_from (hp s hs) hf he

/-- What a function keeps, by how it ends. -/
theorem alone_ends_of_keeps {p : Impl α} (hp : (aloneProtocol ok Inv).Keeps I 0 p) (hs : I s) :
    Alone ok Inv p (Ends I fun _ => I) s :=
  (hp s hs).mono (by rintro (e | a) s' h <;> exact h)

/-- Polling keeps what drifting keeps. -/
theorem polling_of_drifting (hI : Drifting ok Inv I) :
    Polling fun _ (p : Impl _) => (aloneProtocol ok Inv).Keeps I 0 p := by
  have hK := Protocol.closed_keeps (ε := Exn) (aloneProtocol ok Inv) I 0
  have hop : ∀ o : ImplOp, o.Drifts → (aloneProtocol ok Inv).Keeps I 0 (perform o) :=
    fun o ho s hs => Protocol.follows_solo_perform fun r s' _ hstep =>
      have hs' := hI.drift o ho r s s' hs hstep
      ⟨hI.inv s' hs', hs'⟩
  have hquiet : ∀ o : ImplOp, o.Looks → (aloneProtocol ok Inv).Keeps I 0 (perform o) :=
    fun o ho => hop o (.inl ho)
  have hword : ∀ o : ImplOp, o.WordWrite → (aloneProtocol ok Inv).Keeps I 0 (perform o) :=
    fun o ho => hop o (.inr (.inl ho))
  have hlock : ∀ {α : Type} (m : Mutex) {body : Impl α},
      (aloneProtocol ok Inv).Keeps I 0 body →
      (aloneProtocol ok Inv).Keeps I 0 (withLock m body) := fun m _ hb =>
    closed_withLock hK (fun o ho => hquiet o ho.looks) m hb
  have hcallback : ∀ cb, (aloneProtocol ok Inv).Keeps I 0 (runCallback cb) :=
    composed_runCallback hK.toComposed (fun a ha => hquiet (.load a) ha) hword
      (hop (.store .connectionLost true) (.inr (.inr rfl)))
  have hsdk : ∀ client {c : SdkCall}, c.isQuiet = true →
      (aloneProtocol ok Inv).Keeps I 0 (sdk client c) := fun client c hc =>
    closed_sdk hK hcallback (hquiet (.sdkCall client c) hc) (hquiet (.sdkReturn client c) hc)
  exact
    { toComposed := hK.toComposed
      quiet := hquiet
      withLock := hlock
      nowMs := hK.bind (hquiet .nowMs trivial) fun r => closed_orThrow hK r
      reserve := hK.bind (hquiet .reserve trivial) fun r => closed_orThrow hK r
      sdk := hsdk
      runCallback := hcallback
      probe := fun client => composed_probe hK.toComposed hlock hword client (hsdk client rfl)
      updateBadStatusTime := hI.timer }

/-- The start of the give-up timer uses these operations only. -/
theorem uses_updateBadStatusTime : Uses ImplOp.Timing _ updateBadStatusTime := by
  have hK := @Proc.closed_uses ImplSig Exn ImplOp.Timing
  have hlocal : ∀ o : ImplOp, o.Local → Uses ImplOp.Timing _ (perform o) := fun o ho =>
    uses_perform (.inl ho)
  exact composed_updateBadStatusTime hK.toComposed (fun m _ => closed_withLock hK hlocal m)
    (fun o ho => uses_perform (.inr ho))
    (hK.bind (hlocal .nowMs trivial) fun r => closed_orThrow hK r)

/-- What its operations keep is kept by the start of the timer. -/
theorem keeps_updateBadStatusTime (hinv : ∀ s, I s → Inv s)
    (hI : ∀ o : ImplOp, o.Timing → ∀ r s s', I s → AloneStep ok o r s s' → I s') :
    (aloneProtocol ok Inv).Keeps I 0 updateBadStatusTime :=
  Protocol.keeps_solo_of_uses hinv hI uses_updateBadStatusTime

/-- A fact that its operations do not change is carried along. -/
theorem keeps_updateBadStatusTime_and {F : Moment → Prop}
    (hI : (aloneProtocol ok Inv).Keeps I 0 updateBadStatusTime)
    (hF : ∀ o : ImplOp, o.Timing → ∀ r s s', AloneStep ok o r s s' → F s → F s') :
    (aloneProtocol ok Inv).Keeps (fun s => I s ∧ F s) 0 updateBadStatusTime := fun s hs =>
  Protocol.Follows.frame hF uses_updateBadStatusTime (hI s hs.1) hs.2

/-- What every step keeps is kept throughout. -/
theorem steady_of_steps (hinv : ∀ s, I s → Inv s)
    (hstep : ∀ o r s s', I s → AloneStep ok o r s s' → I s') : Steady ok Inv I where
  inv := hinv
  drift o _ := hstep o
  timer := keeps_updateBadStatusTime hinv fun o _ => hstep o
  busy o _ := hstep o

/-- Between its connection calls a decision finds `m_connState` free. -/
theorem drifting_idle (hI : Drifting ok Inv I) :
    Drifting ok Inv fun s => I s ∧ s.world.connState = .idle where
  inv s hs := hI.inv s hs.1
  drift o ho r s s' hs hstep :=
    ⟨hI.drift o ho r s s' hs.1 hstep, (ImplState.get_of_not_writes (a := .connState) hstep.exec_eq
      (ho.not_writes nofun nofun)).trans hs.2⟩
  timer := keeps_updateBadStatusTime_and hI.timer fun _ ho _ _ _ hstep hidle =>
    (ImplState.get_of_not_writes (a := .connState) hstep.exec_eq (ho.not_writes nofun)).trans hidle

/-! ### Looking -/

/-- The function has only looked: it returns `a`, in an unchanged state. -/
def Sees (I : Moment → Prop) (s : Moment) (a : α) (r : Except Exn α) (s' : Moment) : Prop :=
  r = .ok a ∧ s'.world = s.world ∧ I s'

/-- A look, then the rest. -/
theorem alone_sees {p : Impl α} {a : α} {f : α → Impl β} {Q : Except Exn β → Moment → Prop}
    (hp : Alone ok Inv p (Sees I s a) s)
    (hf : ∀ s', I s' → s'.world = s.world → Alone ok Inv (f a) Q s') :
    Alone ok Inv (p >>= f) Q s := by
  refine alone_bind _ hp ?_ ?_
  · rintro _ s' ⟨⟨⟩, hworld, hs'⟩
    exact hf s' hs' hworld
  · rintro e s' ⟨⟨⟩, -⟩

/-- A look from an equal state. -/
theorem Sees.trans {s₁ s' : Moment} {a : α} {r : Except Exn α} (hworld : s₁.world = s.world)
    (h : Sees I s₁ a r s') : Sees I s a r s' :=
  ⟨h.1, h.2.1.trans hworld, h.2.2⟩

section Look

variable (hI : Looking ok Inv I)

include hI

/-- A member, then the rest. -/
theorem alone_load (hs : I s) {a : Atomic} (ha : a.isOpen = true) {f : a.Val → Impl β}
    {Q : Except Exn β → Moment → Prop}
    (hf : ∀ s', I s' → s'.world = s.world → Alone ok Inv (f (s.world.get a)) Q s') :
    Alone ok Inv (load a >>= f) Q s := by
  refine alone_look hI hs (o := .load a) ha fun v s' hs' hstep => ?_
  obtain ⟨rfl, hworld⟩ := hstep.load
  exact hf s' hs' hworld

/-- The word, then the rest. -/
theorem alone_loadState (hs : I s) {f : StateFields → Impl β} {Q : Except Exn β → Moment → Prop}
    (hf : ∀ s', I s' → s'.world = s.world →
      Alone ok Inv (f (unpackState s.world.statePacked)) Q s') :
    Alone ok Inv (loadState >>= f) Q s := by
  refine alone_look hI hs (o := .loadFields) trivial fun v s' hs' hstep => ?_
  obtain ⟨rfl, hworld⟩ := hstep.loadFields
  exact hf s' hs' hworld

/-- Whether the client was given up. -/
theorem alone_isGivenUp (hs : I s) :
    Alone ok Inv isGivenUp (Sees I s (s.world.lifeState == .givenUp)) s :=
  alone_load hI hs (a := .lifeState) rfl fun _ hs' hworld => ⟨rfl, hworld, hs'⟩

/-- The stop signal. -/
theorem alone_stopSignal (hs : I s) :
    Alone ok Inv getEffectiveStopSignal (Sees I s s.world.stopSignal) s := by
  refine alone_load hI hs (a := .shutdown) rfl fun s₁ hs₁ hworld₁ => ?_
  have hgivenUp : ∀ s₂ : Moment, I s₂ → s₂.world = s.world →
      Alone ok Inv isGivenUp (Sees I s (s.world.lifeState == .givenUp)) s₂ := fun s₂ hs₂ hworld₂ =>
    (hworld₂ ▸ alone_isGivenUp hI hs₂).mono fun _ _ h => h.trans hworld₂
  cases hshutdown : s.world.shutdown with
  | false =>
      simp only [ImplState.get, hshutdown, Bool.false_eq_true, if_false, ImplState.stopSignal,
        Bool.false_and, Bool.false_or]
      exact hgivenUp s₁ hs₁ hworld₁
  | true =>
      simp only [ImplState.get, hshutdown, if_true]
      refine alone_load hI hs₁ (a := .running) rfl fun s₂ hs₂ hworld₂ => ?_
      rw [show s₁.world.get .running = s.world.running from congrArg ImplState.running hworld₁]
      cases hrunning : s.world.running with
      | false =>
          simp only [Bool.false_eq_true, if_false, ImplState.stopSignal, hshutdown, hrunning]
          exact ⟨rfl, hworld₂.trans hworld₁, hs₂⟩
      | true =>
          simp only [if_true, ImplState.stopSignal, hshutdown, hrunning, Bool.not_true,
            Bool.and_false, Bool.false_or]
          exact hgivenUp s₂ hs₂ (hworld₂.trans hworld₁)

/-- The cached state. -/
theorem alone_isHealthyCached (hs : I s) :
    Alone ok Inv isHealthyCached (Sees I s s.world.isHealthy) s := by
  refine alone_load hI hs (a := .connectionLost) rfl fun s₁ hs₁ hworld₁ => ?_
  cases hlost : s.world.connectionLost with
  | true =>
      simp only [ImplState.get, hlost, if_true, ImplState.isHealthy, Bool.not_true,
        Bool.false_and]
      exact ⟨rfl, hworld₁, hs₁⟩
  | false =>
      simp only [ImplState.get, hlost, Bool.false_eq_true, if_false, ImplState.isHealthy,
        Bool.not_false, Bool.true_and]
      refine alone_loadState hI hs₁ fun s₂ hs₂ hworld₂ => ?_
      rw [hworld₁]
      exact ⟨rfl, hworld₂.trans hworld₁, hs₂⟩

/-- The channel. -/
theorem alone_isChannelClosed (hs : I s) :
    Alone ok Inv isChannelClosed
      (Sees I s ((unpackState s.world.statePacked).channel == .closed)) s :=
  alone_loadState hI hs fun _ hs' hworld => ⟨rfl, hworld, hs'⟩

/-- A look under a mutex. -/
theorem alone_withLock_sees {m : Mutex} {body : Impl α} {a : α} (hs : I s)
    (hb : ∀ s₁, I s₁ → s₁.world = s.world.setOwner (some 0) m →
      Alone ok Inv body (Sees I s₁ a) s₁) : Alone ok Inv (withLock m body) (Sees I s a) s := by
  refine alone_look hI hs (o := .lock m) trivial fun _ s₁ hs₁ hlock => ?_
  obtain ⟨hfree, hworld₁⟩ := ImplState.whenever_eq_some.mp hlock.exec_eq
  refine Protocol.Follows.ensuring _ (hb s₁ hs₁ hworld₁.symm) ?_
  rintro r s₂ ⟨rfl, hworld₂, hs₂⟩
  refine Protocol.follows_solo_perform fun _ s₃ _ hunlock => ?_
  have hs₃ := hI.look (.unlock m) trivial _ _ _ hs₂ hunlock
  obtain ⟨-, hworld₃⟩ := ImplState.whenever_eq_some.mp hunlock.exec_eq
  refine ⟨hI.inv _ hs₃, rfl, rfl, ?_, hs₃⟩
  rw [← hworld₃, hworld₂, ← hworld₁, ImplState.setOwner_setOwner hfree]

/-- The client. -/
theorem alone_snapshot (hs : I s) :
    Alone ok Inv (withLock .lock (perform .copyImpl)) (Sees I s s.world.impl) s := by
  refine alone_withLock_sees hI hs fun s₁ hs₁ hworld₁ => ?_
  refine Protocol.follows_solo_perform fun client s₂ _ hcopy => ?_
  have hs₂ := hI.look .copyImpl trivial _ _ _ hs₁ hcopy
  obtain ⟨rfl, hworld₂⟩ := ImplState.whenever_eq_some.mp hcopy.exec_eq
  refine ⟨hI.inv _ hs₂, ?_, hworld₂.symm, hs₂⟩
  rw [hworld₁, ImplState.setOwner_impl]

end Look

/-! ### The parts of the calls -/

/-- How `isConnected` ends: its verdict is what the state says. `A` holds once the answer of the SDK
has been published. -/
def ConnectedEnds (I A : Moment → Prop) :
    Except Exn (Result Bool ConnectErrorState) → Moment → Prop
  | .error _, s => I s
  | .ok (.error e), s => I s ∧ e.isGone = true ∧ s.world.IsGone
  | .ok (.ok healthy), s => A s ∧ healthy = s.world.isHealthy

section Probe

variable {A : Moment → Prop} (hI : Drifting ok Inv I) (hA : Looking ok Inv A)
  (hAI : ∀ s, A s → I s)
  (hpublish : ∀ e (f : Triple) r s s', I s →
    AloneStep ok (.casStrong .statePacked e (f.pack ((unpackState e).version + 1))) r s s' → A s')

include hI hA hpublish in
/-- The probe. -/
theorem alone_probe (client : Handle) (hs : I s) :
    Alone ok Inv (probe client) (Ends I fun _ => A) s := by
  have hK := polling_of_drifting hI
  refine alone_drift hI hs (o := .load .statePacked) (.inr (.inl trivial)) fun e s₁ hs₁ _ => ?_
  refine alone_keeps (hK.withLock _ (hK.sdk client (c := .getState) rfl)) hs₁ (fun f s₂ hs₂ => ?_)
    fun _ _ h => h
  refine alone_bind (Ends I fun _ => A) ?_ (fun _ _ h => h) fun _ _ h => h
  refine alone_step fun r s₃ _ hcas => ?_
  have hs₃ := hpublish e f r s₂ s₃ hs₂ hcas
  refine ⟨hA.inv _ hs₃, ?_⟩
  cases r <;> exact hs₃

include hI hA hAI hpublish in
/-- The health probe, with what it knows after it has published the answer of the SDK. -/
theorem alone_isConnected_published (htimer : (aloneProtocol ok Inv).Keeps A 0 updateBadStatusTime)
    (ms : UInt32) (hs : I s) : Alone ok Inv (isConnected ms) (ConnectedEnds I A) s := by
  have hK := polling_of_drifting hI
  have hA' := Protocol.closed_keeps (ε := Exn) (aloneProtocol ok Inv) A 0
  refine alone_sees (a := s.world.stopSignal)
    (alone_withLock_sees hI.looking hs fun s₁ hs₁ hworld₁ => ?_) fun s₁ hs₁ hworld₁ => ?_
  · have hsees := alone_stopSignal hI.looking hs₁
    rwa [hworld₁, ImplState.setOwner_stopSignal] at hsees
  cases hstop : s.world.stopSignal with
  | true => exact ⟨hs₁, rfl, .inl (hworld₁ ▸ hstop)⟩
  | false =>
      refine alone_sees (alone_snapshot hI.looking hs₁) fun s₂ hs₂ hworld₂ => ?_
      cases himpl : s₁.world.impl with
      | none => exact ⟨hs₂, rfl, .inr (hworld₂ ▸ himpl)⟩
      | some client =>
          refine alone_keeps (hK.callRunIterate client ms) hs₂ (fun _ s₃ hs₃ => ?_) fun _ _ h => h
          refine alone_bind _ (alone_probe hI hA hpublish client hs₃) (fun f s₄ hs₄ => ?_)
            fun _ _ h => h
          refine alone_keeps (hA'.when htimer) hs₄ (fun _ s₅ hs₅ => ?_) fun _ s₅ hs₅ => hAI s₅ hs₅
          refine alone_sees (alone_isHealthyCached hA hs₅) fun s₆ hs₆ hworld₆ => ?_
          exact ⟨hs₆, by rw [hworld₆]⟩

end Probe

/-- The health probe. -/
theorem alone_isConnected (hI : Drifting ok Inv I) (ms : UInt32) (hs : I s) :
    Alone ok Inv (isConnected ms) (ConnectedEnds I I) s :=
  alone_isConnected_published hI hI.looking (fun _ h => h) hI.publish hI.timer ms hs

/-- `TurnToRecovring`. Alone, its roll-back finds the state that its first look found. -/
theorem alone_turnToRecovring (hI : Looking ok Inv I) (hs : I s) (hdemote : ∀ r s s', I s →
      AloneStep ok (.casWeak .lifeState .running .recovering) r s s' → I s') :
    Alone ok Inv turnToRecovring
      (fun r s' => r = .ok () ∧ s'.world = s.world.recover ∧ I s') s := by
  refine alone_load hI hs (a := .lifeState) rfl fun s₁ hs₁ hworld₁ => ?_
  refine Protocol.Follows.loop
    (fun expected s' => expected = s.world.lifeState ∧ s'.world = s.world ∧ I s')
    ⟨rfl, hworld₁, hs₁⟩ ?_
  rintro _ s₂ ⟨rfl, hworld₂, hs₂⟩
  split
  case isFalse hne =>
    refine ⟨rfl, hworld₂.trans (if_neg fun hstale => hne hstale.1).symm, hs₂⟩
  case isTrue hrunning =>
  refine alone_sees (alone_isHealthyCached hI hs₂) fun s₃ hs₃ hworld₃ => ?_
  have hsame : s₃.world = s.world := hworld₃.trans hworld₂
  rw [hworld₂]
  cases hhealthy : s.world.isHealthy with
  | true =>
      refine ⟨rfl, hsame.trans (if_neg fun hstale => ?_).symm, hs₃⟩
      exact absurd (hstale.2.symm.trans hhealthy) nofun
  | false =>
      rw [hrunning]
      refine alone_step fun r s₄ _ hcas => ?_
      have hs₄ := hdemote r s₃ s₄ hs₃ hcas
      refine ⟨hI.inv _ hs₄, ?_⟩
      rcases ImplState.cas_eq_some.mp hcas.exec_eq with ⟨rfl, -, hworld₄⟩ | ⟨rfl, -, hworld₄⟩
      · have hrecovered : s₄.world = s.world.recover := by
          rw [hworld₄, hsame, ImplState.recover, if_pos ⟨hrunning, hhealthy⟩]
          rfl
        -- nobody has made the state healthy meanwhile, so there is no roll-back
        refine alone_sees (alone_isHealthyCached hI hs₄) fun s₅ hs₅ hworld₅ => ?_
        rw [hrecovered, ImplState.isHealthy_recover, hhealthy]
        exact ⟨rfl, hworld₅.trans hrecovered, hs₅⟩
      · exact ⟨(congrArg ImplState.lifeState hsame).trans hrunning, hworld₄.trans hsame, hs₄⟩

/-- `TurnToRunning`, from what its compare-exchange, its write of the lost flag and its reset of the
timer do. -/
theorem alone_turnToRunning {K L J : Moment → Prop} (hs : I s) (hinv : ∀ s, I s → Inv s)
    (hload : ∀ r s s', I s → AloneStep ok (.load .lifeState) r s s' → I s')
    (hfail : ∀ e r s s', e ≠ .givenUp → I s →
      AloneStep ok (.casWeak .lifeState e .running) (.error r) s s' → I s')
    (hcas : ∀ e s s', e ≠ .givenUp → I s →
      AloneStep ok (.casWeak .lifeState e .running) (.ok ()) s s' → Inv s' ∧ K s')
    (hstore : ∀ s s', K s → AloneStep ok (.store .connectionLost false) () s s' → Inv s' ∧ L s')
    (hreset : ∀ s, L s → Alone ok Inv resetGiveUpTimer (fun r s' => r = .ok () ∧ J s') s)
    (hdead : ∀ s, I s → s.world.lifeState = .givenUp → J s) :
    Alone ok Inv turnToRunning (fun r s' => r = .ok () ∧ J s') s := by
  refine alone_step fun life s₁ _ hstep => ?_
  have hs₁ := hload _ _ _ hs hstep
  obtain ⟨rfl, hworld₁⟩ := hstep.load
  refine ⟨hinv _ hs₁, ?_⟩
  refine Protocol.Follows.loop (fun expected s' => expected = s'.world.lifeState ∧ I s')
    ⟨congrArg ImplState.lifeState hworld₁.symm, hs₁⟩ ?_
  rintro _ s₂ ⟨rfl, hs₂⟩
  split
  case isFalse hdead' =>
    refine ⟨rfl, hdead s₂ hs₂ ?_⟩
    cases hlife : s₂.world.lifeState with
    | running => exact absurd (.inl hlife) hdead'
    | recovering => exact absurd (.inr hlife) hdead'
    | givenUp => rfl
  case isTrue hlive =>
  have hne : s₂.world.lifeState ≠ .givenUp := by rcases hlive with h | h <;> rw [h] <;> nofun
  refine alone_step fun r s₃ _ hstep₃ => ?_
  rcases ImplState.cas_eq_some.mp hstep₃.exec_eq with ⟨rfl, -, -⟩ | ⟨rfl, -, hworld₃⟩
  · obtain ⟨hinv₃, hs₃⟩ := hcas _ _ _ hne hs₂ hstep₃
    refine ⟨hinv₃, alone_step fun _ s₄ _ hstep₄ => ?_⟩
    obtain ⟨hinv₄, hs₄⟩ := hstore _ _ hs₃ hstep₄
    refine ⟨hinv₄, alone_bind _ (hreset s₄ hs₄) ?_ ?_⟩
    · rintro _ s₅ ⟨-, hs₅⟩
      exact ⟨rfl, hs₅⟩
    · rintro e s₅ ⟨⟨⟩, -⟩
  -- the exchange has failed: the round is repeated with what it saw
  · have hs₃ := hfail _ _ _ _ hne hs₂ hstep₃
    exact ⟨hinv _ hs₃, congrArg ImplState.lifeState hworld₃.symm, hs₃⟩

/-! ### Calls -/

/-- What a thread returns from a call that wraps the value of a function. -/
def Replies (wrap : α → ImplReply) (Q : Except Exn α → Moment → Prop) :
    Except Exn ImplReply → Moment → Prop
  | .error e, s => Q (.error e) s
  | .ok reply, s => ∃ a, reply = wrap a ∧ Q (.ok a) s

/-- A program that a lone thread runs keeps the invariant, and ends as it does by itself. -/
theorem reach_alone {p : Impl ImplReply} {Q : Except Exn ImplReply → Moment → Prop} {d : ImplPool}
    (hinv : Inv s) (hp : Alone ok Inv p Q s)
    (hd : Config.Reach (Traced.StepIf ok ImplState.exec) (ImplPool.solo p s) d) :
    Inv d.state ∧ ∀ r, d.Returned 0 r → Q r d.state :=
  have hrest : ∀ u, u ≠ 0 → ∃ a, (ImplPool.solo p s).pool u = .ret a := fun _ hu =>
    ⟨.ok .unit, if_neg hu⟩
  Protocol.solo_reach hrest hinv hp hd

/-- So does a function with its reply. -/
theorem reach_solo {wrap : α → ImplReply} {p : Impl α} {Q : Except Exn α → Moment → Prop}
    {d : ImplPool} (hinv : Inv s) (hp : Alone ok Inv p Q s)
    (hd : Config.Reach (Traced.StepIf ok ImplState.exec) (ImplPool.solo (replying wrap p) s) d) :
    Inv d.state ∧ ∀ r, d.Returned 0 r → Replies wrap Q r d.state := by
  refine reach_alone hinv ?_ hd
  exact alone_bind Q hp (fun a _ h => ⟨a, rfl, h⟩) fun _ _ h => h

end Impl

end OPCUAPacking
