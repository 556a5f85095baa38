import OPCUAPacking.Impl.Calls

/-!
# What a call leaves behind

A connection call or a decision of the watchdog may leave a client that is RUNNING although it is
not healthy only if it does not look at it again before it ends.

* `Flaw` — the two things that can be wrong with a client that is RUNNING.
* `Dues` — the flaws that a call may have left behind since it last looked. It owes a look for a
  flaw from its start and from its own writes on, until it sees that the flaw is absent, sees or
  makes the client not RUNNING, is refused by the thread that holds `m_connState`, or ends with an
  exception.
* `Impl.clears_connect`, `Impl.clears_disconnect`, `Impl.clears_doWatchdogDecision` — none of these
  ends owing anything.
-/

namespace OPCUAPacking

open Interleaving

/-- What can be wrong with a client that is RUNNING. -/
inductive Flaw where
  /-- `m_connectionLost` is set. -/
  | lost
  /-- The cached triple is not ready. -/
  | word
  deriving DecidableEq

/-- The flaws that a call may have left behind since it last looked. -/
structure Dues where
  lost : Bool
  word : Bool
  deriving DecidableEq

namespace Dues

/-- Nothing is left to look at. -/
def clear : Dues := ⟨false, false⟩

/-- At the start of a call. -/
def full : Dues := ⟨true, true⟩

/-- Whether a look for the flaw is owed. -/
def owes (ℓ : Dues) : Flaw → Bool
  | .lost => ℓ.lost
  | .word => ℓ.word

/-- What is owed after the life state was seen. -/
def seen (ℓ : Dues) (life : LifeState) : Dues := if life = .running then ℓ else clear

/-- What is owed after an operation that may throw. -/
def thrown {α : Type} (ℓ : Dues) : Except Exn α → Dues
  | .ok _ => ℓ
  | .error _ => clear

/-- How an operation changes what is owed. -/
def track (ℓ : Dues) : (o : ImplOp) → o.Resp → Dues
  | .load .lifeState, life => ℓ.seen life
  | .load .connectionLost, lost => { ℓ with lost := ℓ.lost && lost }
  | .loadFields, f => { ℓ with word := ℓ.word && !f.triple.isReady }
  | .store .connectionLost v, _ => { ℓ with lost := v }
  | .casWeak .lifeState e d, .ok () =>
      if d ≠ .running then clear
      else if e = .running then ℓ
      -- a promotion: the word was ready, but the loss is not forgotten yet
      else ⟨true, false⟩
  | .casStrong .lifeState _ _, .ok () => ℓ
  | .casWeak .lifeState _ _, .error life => ℓ.seen life
  | .casStrong .lifeState _ _, .error life => ℓ.seen life
  | .casWeak .statePacked _ _, .ok () => { ℓ with word := true }
  | .casStrong .statePacked _ _, .ok () => { ℓ with word := true }
  -- refused: the life state is left to the thread that holds the connection
  | .casStrong .connState _ _, .error _ => clear
  | .nowMs, r => ℓ.thrown r
  | .reserve, r => ℓ.thrown r
  | .sdkReturn _ _, r => ℓ.thrown r
  | _, _ => ℓ

end Dues

/-- The operations of the connection calls and of the decisions. -/
def ImplOp.Live (o : ImplOp) : Prop := o.Quiet ∨ o.LifeWrite ∨ o.WordWrite ∨ o.InFlight

/-- What an operation answers on an open `Impl`. -/
def ImplOp.OpenAnswer : (o : ImplOp) → o.Resp → Prop
  | .load .shutdown, v => v = false
  | .copyImpl, client => client.isSome = true
  | _, _ => True

/-- An open `Impl` stays open, and answers as one. -/
theorem ImplState.open_of_exec {t : Tid} {o : ImplOp} {r : o.Resp} {s s' : ImplState}
    (ho : o.Live) (hs : s.IsOpen) (h : exec t o r s = some s') : s'.IsOpen ∧ o.OpenAnswer r := by
  have hwrites : ¬o.Writes .shutdown := by
    cases o with
    | store a v | casWeak a e d | casStrong a e d =>
        cases a with
        | shutdown => rcases ho with ho | ho | ho | ho <;> exact ho.elim
        | _ => exact nofun
    | _ => exact id
  have himpl : s'.impl = s.impl := by
    refine (frame_of_exec h).impl ?_
    rintro rfl
    rcases ho with ho | ho | ho | ho <;> exact ho
  refine ⟨⟨(get_of_not_writes h hwrites).trans hs.1, himpl.symm ▸ hs.2⟩, ?_⟩
  cases o with
  | load a =>
      obtain ⟨hget, -⟩ := whenever_eq_some.mp h
      cases a with
      | shutdown => exact hget.symm.trans hs.1
      | _ => trivial
  | copyImpl =>
      obtain ⟨rfl, -⟩ := whenever_eq_some.mp h
      exact hs.2
  | _ => trivial

/-- The protocol of the dues, on an open `Impl`. -/
abbrev dueProtocol (start : Tid → Dues) : Protocol ImplSig (Traced ImplSig ImplState) Dues :=
  Protocol.traced (fun _ _ => True) ImplState.exec (fun s => s.world.IsOpen)
    (fun _ => Dues.track) start

/-- A result on success; after an exception nothing is owed. -/
def Dues.OrClear {α : Type} (R : α → Dues → Prop) : Except Exn α → Dues → Prop
  | .ok a, ℓ => R a ℓ
  | .error _, ℓ => ℓ = .clear

namespace Impl

open Dues (OrClear)

variable {start : Tid → Dues} {t : Tid} {α β : Type} {ℓ : Dues}

/-- One operation. -/
theorem due_op {o : ImplOp} {k : o.Resp → Prog ImplSig α} {Q : α → Dues → Prop} (ho : o.Live)
    (h : ∀ r, o.OpenAnswer r → (dueProtocol start).Follows t (k r) Q (ℓ.track o r)) :
    (dueProtocol start).Follows t (.op o k) Q ℓ := by
  refine Protocol.follows_traced_op fun w es r w' hopen _ hexec _ => ?_
  obtain ⟨hopen', hr⟩ := ImplState.open_of_exec ho hopen hexec
  exact ⟨hopen', h r hr⟩

/-- One operation as a statement. -/
theorem due_perform {o : ImplOp} {R : o.Resp → Dues → Prop} (ho : o.Live)
    (h : ∀ r, o.OpenAnswer r → R r (ℓ.track o r)) :
    (dueProtocol start).Follows t (perform o) (OrClear R) ℓ :=
  due_op ho h

/-- One operation as a statement, then the rest. -/
theorem due_step {o : ImplOp} {f : o.Resp → Impl β} {R : β → Dues → Prop} (ho : o.Live)
    (h : ∀ r, o.OpenAnswer r → (dueProtocol start).Follows t (f r) (OrClear R) (ℓ.track o r)) :
    (dueProtocol start).Follows t (perform o >>= f : Impl β) (OrClear R) ℓ :=
  due_op ho h

/-- Sequencing. -/
theorem due_bind {p : Impl α} {f : α → Impl β} (R : α → Dues → Prop) {R' : β → Dues → Prop}
    (hp : (dueProtocol start).Follows t p (OrClear R) ℓ)
    (hf : ∀ a ℓ', R a ℓ' → (dueProtocol start).Follows t (f a) (OrClear R') ℓ') :
    (dueProtocol start).Follows t (p >>= f : Impl β) (OrClear R') ℓ :=
  Protocol.Follows.bind _ hp hf fun _ _ h => h

/-- A weaker result. -/
theorem due_mono {p : Impl α} {R R' : α → Dues → Prop}
    (hp : (dueProtocol start).Follows t p (OrClear R) ℓ) (hR : ∀ a ℓ', R a ℓ' → R' a ℓ') :
    (dueProtocol start).Follows t p (OrClear R') ℓ := by
  refine hp.mono ?_
  rintro (e | a) ℓ' h
  · exact h
  · exact hR a ℓ' h

/-- A conditional statement. -/
theorem due_when {c : Bool} {p : Impl Unit} {R : Unit → Dues → Prop}
    (hp : c = true → (dueProtocol start).Follows t p (OrClear R) ℓ) (hskip : c = false → R () ℓ) :
    (dueProtocol start).Follows t (Proc.when c p) (OrClear R) ℓ := by
  cases c with
  | true => exact hp rfl
  | false => exact hskip rfl

/-- A loop. -/
theorem due_loop {ι ρ : Type} {i : ι} {body : ι → Impl (ι ⊕ ρ)} {R : ρ → Dues → Prop}
    (I : ι → Dues → Prop) (hI : I i ℓ)
    (hbody : ∀ j ℓ', I j ℓ' →
      (dueProtocol start).Follows t (body j) (OrClear (Sum.elim I R)) ℓ') :
    (dueProtocol start).Follows t (Proc.loop i body) (OrClear R) ℓ := by
  refine Protocol.Follows.loop I hI fun j ℓ' hj => (hbody j ℓ' hj).mono ?_
  rintro (e | (j' | r)) ℓ'' h <;> exact h

/-- A block under a mutex. -/
theorem due_withLock {m : Mutex} {body : Impl α} {R : α → Dues → Prop}
    (hb : (dueProtocol start).Follows t body (OrClear R) ℓ) :
    (dueProtocol start).Follows t (withLock m body) (OrClear R) ℓ := by
  refine due_op (.inl trivial) fun _ _ => Protocol.Follows.ensuring _ hb fun r ℓ' hr => ?_
  exact due_op (.inl trivial) fun _ _ => ⟨rfl, hr⟩

/-- The scope of an `InFlightGuard`. -/
theorem due_inFlight {body : Impl α} {R : α → Dues → Prop}
    (hb : (dueProtocol start).Follows t body (OrClear R) ℓ) :
    (dueProtocol start).Follows t (inFlight body) (OrClear R) ℓ := by
  refine due_op (.inr (.inr (.inr trivial))) fun _ _ =>
    Protocol.Follows.ensuring _ hb fun r ℓ' hr => ?_
  exact due_op (.inr (.inr (.inr trivial))) fun _ _ => ⟨rfl, hr⟩

/-- The thread that connects or disconnects, and those that it keeps out. -/
theorem due_singleFlight {busy : ConnState → α} {body : Impl α} {R : α → Dues → Prop}
    (hbusy : ∀ s, R (busy s) .clear) (hb : (dueProtocol start).Follows t body (OrClear R) ℓ) :
    (dueProtocol start).Follows t (singleFlight busy body) (OrClear R) ℓ := by
  refine due_op (.inr (.inr (.inr ⟨rfl, rfl⟩))) fun r _ => ?_
  cases r with
  | error observed => exact hbusy observed
  | ok u =>
      refine Protocol.Follows.ensuring _ hb fun r ℓ' hr => ?_
      exact due_op (.inr (.inr (.inr rfl))) fun _ _ => ⟨rfl, hr⟩

/-! ### Exceptions -/

/-- From every stage the program keeps to the operations of an open `Impl`, and after an exception
it owes nothing. -/
abbrev Careful (start : Tid → Dues) (t : Tid) (α : Type) (p : Impl α) : Prop :=
  ∀ ℓ, (dueProtocol start).Follows t p (OrClear fun _ _ => True) ℓ

/-- Careful programs compose. -/
theorem composed_careful : Proc.Composed (Careful start t) where
  pure _ _ := trivial
  bind hp hf ℓ := due_bind _ (hp ℓ) fun a ℓ' _ => hf a ℓ'
  attempt hp ℓ := Protocol.follows_attempt.mpr ((hp ℓ).mono fun _ _ _ => trivial)
  loop hb ℓ := due_loop (fun _ _ => True) trivial fun j ℓ' _ => due_mono (hb j ℓ') fun r _ _ => by
    cases r <;> trivial

/-- A live operation is careful. -/
theorem careful_perform {o : ImplOp} (ho : o.Live) : Careful start t o.Resp (perform o) :=
  fun _ => due_perform ho fun _ _ => trivial

/-- An operation that may throw. -/
theorem careful_orThrow {o : ImplOp} {α : Type} {k : o.Resp → Except Exn α} (ho : o.Live)
    (h : ∀ (ℓ : Dues) r e, k r = .error e → ℓ.track o r = .clear) :
    Careful start t α (perform o >>= fun r => orThrow (k r)) := by
  refine fun ℓ => due_op ho fun r _ => ?_
  change (dueProtocol start).Follows t (orThrow (k r)) _ _
  cases hr : k r with
  | ok a => trivial
  | error e => exact h ℓ r e hr

/-- The connection functions are careful. -/
theorem busy_careful : Busy (Careful start t) := by
  have hK : Proc.Composed (Careful start t) := composed_careful
  have hquiet : ∀ o : ImplOp, o.Quiet → Careful start t o.Resp (perform o) := fun o ho =>
    careful_perform (.inl ho)
  have hword : ∀ o : ImplOp, o.WordWrite → Careful start t o.Resp (perform o) := fun o ho =>
    careful_perform (.inr (.inr (.inl ho)))
  have hlife : ∀ o : ImplOp, o.LifeWrite → Careful start t o.Resp (perform o) := fun o ho =>
    careful_perform (.inr (.inl ho))
  have hlock : ∀ {α : Type} (m : Mutex) {body : Impl α}, Careful start t α body →
      Careful start t α (withLock m body) := fun m _ hb ℓ => due_withLock (hb ℓ)
  have hcallback : ∀ cb, Careful start t Unit (runCallback cb) :=
    composed_runCallback hK (fun a ha => hquiet (.load a) (Atomic.quiet_load ha)) hword
      (hlife (.store .connectionLost true) trivial)
  have hsdk : ∀ client (c : SdkCall), Careful start t c.Result (sdk client c) := fun client c =>
    composed_sdk hK hcallback (careful_perform (.inr (.inr (.inr trivial))))
      (careful_orThrow (o := .sdkReturn client c) (k := id) (.inr (.inr (.inr trivial)))
        fun ℓ r e hr => by subst hr; rfl)
  exact
    { blocks_of_parts hK hlife hlock
        (careful_orThrow (o := .nowMs) (k := id) (.inl trivial) fun ℓ r e hr => by subst hr; rfl)
        hquiet
        (careful_orThrow (o := .reserve) (k := id) (.inl trivial) fun ℓ r e hr => by subst hr; rfl)
        (fun client c _ => hsdk client c) hcallback
        (fun client => composed_probe hK hlock hword client (hsdk client .getState)) with
      singleFlight := fun hb ℓ => due_singleFlight (fun _ => trivial) (hb ℓ)
      sdkConnection := fun client c _ => hsdk client c
      inFlight := fun hb ℓ => due_inFlight (hb ℓ) }

/-! ### Looking -/

/-- A call that keeps out of the way of every result. -/
theorem due_careful {p : Impl α} (hp : Careful start t α p) {f : α → Impl β} {R : β → Dues → Prop}
    (hf : ∀ a ℓ', (dueProtocol start).Follows t (f a) (OrClear R) ℓ') :
    (dueProtocol start).Follows t (p >>= f : Impl β) (OrClear R) ℓ :=
  due_bind _ (hp ℓ) fun a ℓ' _ => hf a ℓ'

/-- What is seen of the life state. -/
theorem seen_of_ne {life : LifeState} (h : life ≠ .running) (ℓ : Dues) : ℓ.seen life = .clear :=
  if_neg h

/-- A client that was given up is not RUNNING. -/
theorem due_isGivenUp (ℓ : Dues) :
    (dueProtocol start).Follows t isGivenUp
      (OrClear fun stop ℓ' => stop = true → ℓ' = .clear) ℓ := by
  refine due_step (.inl ⟨nofun, nofun⟩) fun life _ hstop => seen_of_ne ?_ ℓ
  rw [beq_iff_eq] at hstop
  exact hstop.trans_ne nofun

/-- On an open `Impl` the stop signal says that the client was given up. -/
theorem due_stopSignal (ℓ : Dues) :
    (dueProtocol start).Follows t getEffectiveStopSignal
      (OrClear fun stop ℓ' => stop = true → ℓ' = .clear) ℓ := by
  refine due_step (.inl ⟨nofun, nofun⟩) fun shutdown hshutdown => ?_
  obtain rfl : shutdown = false := hshutdown
  exact due_isGivenUp ℓ

/-- A client that was seen healthy has neither flaw. -/
theorem due_isHealthyCached (ℓ : Dues) :
    (dueProtocol start).Follows t isHealthyCached
      (OrClear fun healthy ℓ' => healthy = true ∨ ℓ = .clear → ℓ' = .clear) ℓ := by
  obtain ⟨lost, word⟩ := ℓ
  refine due_step (.inl ⟨nofun, nofun⟩) fun seenLost _ => ?_
  cases seenLost with
  | true =>
      rintro (h | h)
      · cases h
      · cases h
        rfl
  | false =>
      refine due_step (.inl trivial) fun f _ h => ?_
      rcases h with h | h
      · simp [Dues.track, Dues.clear, show f.triple.isReady = true from h]
      · cases h
        simp [Dues.track, Dues.clear]

/-- On an open `Impl` the client is there. -/
theorem due_snapshot (ℓ : Dues) :
    (dueProtocol start).Follows t (withLock .lock (perform .copyImpl))
      (OrClear fun (impl : Option Handle) _ => impl.isSome = true) ℓ :=
  due_withLock (due_op (.inl trivial) fun _ h => h)

/-- A probe that fails, or finds the client healthy, has looked. -/
theorem due_isConnected (ms : UInt32) (ℓ : Dues) :
    (dueProtocol start).Follows t (isConnected ms)
      (OrClear fun r ℓ' => r ≠ .ok false → ℓ' = .clear) ℓ := by
  have hK : Busy (Careful start t) := busy_careful
  refine due_bind _ (due_withLock (due_stopSignal ℓ)) fun stop ℓ hstop => ?_
  cases stop with
  | true => exact fun _ => hstop rfl
  | false =>
      refine due_bind _ (due_snapshot ℓ) fun impl ℓ himpl => ?_
      obtain ⟨client, rfl⟩ := Option.isSome_iff_exists.mp himpl
      refine due_careful (hK.callRunIterate client ms) fun _ _ => due_careful (hK.probe client)
        fun f _ => due_careful (hK.when hK.updateBadStatusTime) fun _ ℓ => ?_
      refine due_bind _ (due_isHealthyCached ℓ) fun healthy ℓ' h hne => h (.inl ?_)
      cases healthy with
      | true => rfl
      | false => exact absurd rfl hne

/-! ### The life state -/

/-- `TurnToRecovring` ends after it has seen or made the client not RUNNING, or seen it healthy. -/
theorem due_turnToRecovring (ℓ : Dues) :
    (dueProtocol start).Follows t turnToRecovring (OrClear fun _ ℓ' => ℓ' = .clear) ℓ := by
  refine due_step (.inl ⟨nofun, nofun⟩) fun life _ => ?_
  refine due_loop (fun life (ℓ : Dues) => life ≠ .running → ℓ = .clear) (fun h => seen_of_ne h ℓ)
    fun life ℓ hlife => ?_
  split
  case isFalse hne => exact hlife hne
  case isTrue hrunning =>
  subst hrunning
  refine due_bind _ (due_isHealthyCached ℓ) fun healthy ℓ h => ?_
  cases healthy with
  | true => exact h (.inl rfl)
  | false =>
      refine due_step (.inr (.inl nofun)) fun r _ => ?_
      cases r with
      | error life => exact fun hne => seen_of_ne hne ℓ
      | ok u =>
          -- RECOVERING now; the roll-back leaves what is owed as it is
          refine due_bind _ (due_isHealthyCached _) fun healthy ℓ h => ?_
          obtain rfl : ℓ = .clear := h (.inr rfl)
          refine due_bind (fun _ ℓ' => ℓ' = .clear) (due_when (fun _ => ?_) fun _ => rfl)
            fun _ ℓ' h => h
          refine due_step (.inr (.inl nofun)) fun r _ => ?_
          cases r with
          | error life => exact ite_self _
          | ok u => exact rfl

/-- `TurnToGiveup` ends after it has made the client not RUNNING, or seen it so. -/
theorem due_turnToGiveup (ℓ : Dues) :
    (dueProtocol start).Follows t turnToGiveup (OrClear fun _ ℓ' => ℓ' = .clear) ℓ := by
  refine due_careful busy_careful.updateBadStatusTime fun _ ℓ => ?_
  refine due_step (.inl ⟨nofun, nofun⟩) fun life _ => ?_
  refine due_loop (fun life (ℓ : Dues) => life ≠ .running → ℓ = .clear) (fun h => seen_of_ne h ℓ)
    fun life ℓ hlife => ?_
  split
  case isFalse hgivenUp => exact hlife (not_not.mp hgivenUp ▸ nofun)
  case isTrue hlive =>
  refine due_step (.inr (.inl hlive)) fun r _ => ?_
  cases r with
  | error life => exact fun hne => seen_of_ne hne ℓ
  | ok u => exact rfl

/-- `TurnToRunning`, after a look at the word, ends after it has cleared the loss, or seen the
client not RUNNING. -/
theorem due_turnToRunning (hword : ℓ.word = false) :
    (dueProtocol start).Follows t turnToRunning (OrClear fun _ ℓ' => ℓ' = .clear) ℓ := by
  have hseen : ∀ (ℓ : Dues) (life : LifeState), ℓ.word = false → (ℓ.seen life).word = false ∧
      (life ≠ .running → ℓ.seen life = .clear) := fun ℓ life h =>
    ⟨by unfold Dues.seen; split <;> first | exact h | rfl, fun hne => seen_of_ne hne ℓ⟩
  refine due_step (.inl ⟨nofun, nofun⟩) fun life _ => ?_
  refine due_loop (fun life (ℓ : Dues) => ℓ.word = false ∧ (life ≠ .running → ℓ = .clear))
    (hseen ℓ life hword) fun life ℓ hℓ => ?_
  split
  case isFalse hgivenUp => exact hℓ.2 fun h => hgivenUp (.inl h)
  case isTrue hlive =>
  refine due_step (.inr (.inl ?_)) fun r _ => ?_
  · rcases hlive with rfl | rfl <;> exact nofun
  cases r with
  | error life => exact hseen ℓ life hℓ.1
  | ok u =>
      have hstored : (ℓ.track (.casWeak .lifeState life .running) (.ok u)).track
          (.store .connectionLost false) () = .clear := by
        obtain ⟨lost, word⟩ := ℓ
        obtain rfl : word = false := hℓ.1
        rcases hlive with rfl | rfl <;> rfl
      refine due_step (.inr (.inl trivial)) fun _ _ => ?_
      refine due_bind (fun _ ℓ' => ℓ' = .clear) (due_withLock ?_) fun _ ℓ' h => h
      refine due_step (.inl ⟨nofun, nofun⟩) fun ts _ => due_when (fun _ => ?_) fun _ => hstored
      exact due_perform (.inl trivial) fun _ _ => hstored

/-! ### Connecting -/

/-- A call that ends owing nothing. -/
abbrev Clears (start : Tid → Dues) (t : Tid) (p : Impl α) : Prop :=
  ∀ ℓ, (dueProtocol start).Follows t p (OrClear fun _ ℓ' => ℓ' = .clear) ℓ

/-- A round of a loop that ends owing nothing. -/
abbrev ClearsAtExit {ρ : Type} (start : Tid → Dues) (t : Tid) (p : Impl (Unit ⊕ ρ)) : Prop :=
  ∀ ℓ, (dueProtocol start).Follows t p (OrClear fun r ℓ' => r.isRight = true → ℓ' = .clear) ℓ

/-- A loop of such rounds. -/
theorem clears_loop {ρ : Type} {body : Unit → Impl (Unit ⊕ ρ)}
    (hb : ClearsAtExit start t (body ())) : Clears start t (Proc.loop () body) := by
  refine fun ℓ => due_loop (fun _ _ => True) trivial fun _ ℓ _ => due_mono (hb ℓ) fun r ℓ' h => ?_
  cases r with
  | inl u => trivial
  | inr a => exact h rfl

theorem clears_abandonConnect (client : Handle) : Clears start t (abandonConnect client) := by
  have hK : Busy (Careful start t) := busy_careful
  refine fun ℓ => due_careful (hK.withLock _ (hK.sdkConnection client rfl)) fun _ ℓ => ?_
  exact due_bind _ (due_turnToRecovring ℓ) fun _ ℓ h => h

theorem clears_connectTimedOut (client : Handle) : Clears start t (connectTimedOut client) := by
  refine fun ℓ => due_bind _ (due_isConnected 50 ℓ) fun r ℓ hr => ?_
  rcases r with e | healthy
  · cases e <;> first | exact hr nofun | exact clears_abandonConnect client ℓ
  · refine due_bind _ (due_isHealthyCached ℓ) fun healthy ℓ h => ?_
    cases healthy with
    | false => exact clears_abandonConnect client ℓ
    | true =>
        obtain rfl := h (.inl rfl)
        exact due_bind _ (due_turnToRunning rfl) fun _ ℓ h => h

theorem clears_connectRoundEnd (client : Handle) (startTime deadline : Int) :
    ClearsAtExit start t (connectRoundEnd client startTime deadline) := by
  refine fun ℓ => due_careful (busy_careful.timedOut _ _) fun expired ℓ => ?_
  cases expired with
  | true => exact due_bind _ (clears_connectTimedOut client ℓ) fun r ℓ h _ => h
  | false =>
      refine due_bind _ (due_stopSignal ℓ) fun stop ℓ h => ?_
      cases stop with
      | true => exact fun _ => h rfl
      | false => exact nofun

theorem clears_connectRound (client : Handle) (startTime deadline : Int) :
    ClearsAtExit start t (connectRound client startTime deadline) := by
  refine fun ℓ => due_bind _ (due_isConnected 50 ℓ) fun r ℓ hr => ?_
  rcases r with e | healthy
  · cases e <;> first | exact fun _ => hr nofun | exact clears_connectRoundEnd client _ _ ℓ
  · refine due_step (.inl trivial) fun f _ => ?_
    split
    case isFalse => exact clears_connectRoundEnd client _ _ _
    case isTrue hready =>
    refine due_bind _ (due_turnToRunning ?_) fun _ ℓ h _ => h
    simp [Dues.track, show f.triple.isReady = true from hready]

/-- Once `m_connState` is won, `connect` ends with a look. -/
theorem clears_connectHeld (client : Handle) : Clears start t (connectHeld client) := by
  have hK : Busy (Careful start t) := busy_careful
  refine fun ℓ => due_bind (fun accepted ℓ => accepted = false → ℓ = .clear) (due_withLock ?_)
    fun accepted ℓ h => ?_
  · refine due_careful (hK.quiet .readEndpointUrl trivial) fun url ℓ =>
      due_careful (hK.sdkConnection client rfl) fun retval ℓ => ?_
    split
    · exact nofun
    · exact due_bind _ (due_turnToRecovring ℓ) fun _ ℓ h _ => h
  · cases accepted with
    | false => exact h rfl
    | true =>
        exact due_careful hK.nowMs fun startTime _ => due_careful hK.wallDeadline fun deadline ℓ =>
          clears_loop (clears_connectRound client startTime deadline) ℓ

/-- The client snapshot of `connect` fails when the client was given up. -/
theorem due_connectClient (ℓ : Dues) :
    (dueProtocol start).Follows t connectClient
      (OrClear fun r ℓ' => ∀ e, r = .error e → ℓ' = .clear) ℓ := by
  refine due_withLock (due_bind _ (due_stopSignal ℓ) fun stop ℓ h => ?_)
  cases stop with
  | true => exact fun _ _ => h rfl
  | false =>
      refine due_step (.inl trivial) fun impl himpl => ?_
      obtain ⟨client, rfl⟩ := Option.isSome_iff_exists.mp himpl
      exact fun _ => nofun

/-- `connect` ends owing nothing. -/
theorem clears_connect : Clears start t connect := by
  refine fun ℓ => due_inFlight (due_bind _ (due_stopSignal ℓ) fun stop ℓ h => ?_)
  cases stop with
  | true => exact h rfl
  | false =>
      refine due_bind _ (due_connectClient ℓ) fun r ℓ hr => ?_
      cases r with
      | error e => exact hr e rfl
      | ok client => exact due_singleFlight (fun _ => rfl) (clears_connectHeld client ℓ)

/-! ### Disconnecting -/

theorem clears_disconnectTimedOut (client : Handle) :
    Clears start t (disconnectTimedOut client) := by
  have hK : Busy (Careful start t) := busy_careful
  refine fun ℓ => due_careful (hK.withLock _ (hK.sdk client rfl)) fun f ℓ => ?_
  split
  · exact due_bind _ (due_turnToRecovring ℓ) fun _ ℓ h => h
  · exact due_careful (hK.withLock _ (hK.sdkConnection client rfl)) fun _ ℓ =>
      due_bind _ (due_turnToRecovring ℓ) fun _ ℓ h => h

theorem clears_disconnectRoundEnd (client : Handle) (startTime deadline : Int) :
    ClearsAtExit start t (disconnectRoundEnd client startTime deadline) := by
  refine fun ℓ => due_careful (busy_careful.timedOut _ _) fun expired ℓ => ?_
  cases expired with
  | true => exact due_bind _ (clears_disconnectTimedOut client ℓ) fun r ℓ h _ => h
  | false =>
      refine due_bind _ (due_stopSignal ℓ) fun stop ℓ h => ?_
      cases stop with
      | true => exact fun _ => h rfl
      | false => exact due_careful (busy_careful.quiet (.sleep 50) trivial) fun _ _ => nofun

theorem clears_disconnectRound (client : Handle) (startTime deadline : Int) :
    ClearsAtExit start t (disconnectRound client startTime deadline) := by
  have hK : Busy (Careful start t) := busy_careful
  refine fun ℓ => due_bind _ (due_isConnected 50 ℓ) fun r ℓ hr => ?_
  rcases r with e | healthy
  · cases e <;> exact fun _ => hr nofun
  · refine due_careful hK.loadState fun f _ => due_careful (hK.when hK.updateBadStatusTime)
      fun _ ℓ => ?_
    split
    · exact due_bind _ (due_turnToRecovring ℓ) fun _ ℓ h _ => h
    · exact clears_disconnectRoundEnd client _ _ ℓ

/-- Once `m_connState` is won, `disconnect` ends with a look. -/
theorem clears_disconnectHeld (client : Handle) : Clears start t (disconnectHeld client) := by
  have hK : Busy (Careful start t) := busy_careful
  refine fun ℓ => due_bind (fun accepted ℓ => accepted = false → ℓ = .clear) (due_withLock ?_)
    fun accepted ℓ h => ?_
  · refine due_careful (hK.sdkConnection client rfl) fun retval ℓ => ?_
    split
    · exact nofun
    · exact due_bind _ (due_turnToRecovring ℓ) fun _ ℓ h _ => h
  · cases accepted with
    | false => exact h rfl
    | true =>
        exact due_careful hK.nowMs fun startTime _ => due_careful hK.wallDeadline fun deadline ℓ =>
          clears_loop (clears_disconnectRound client startTime deadline) ℓ

/-- The client snapshot of `disconnect` fails when the client was given up. -/
theorem due_disconnectClient (ℓ : Dues) :
    (dueProtocol start).Follows t disconnectClient
      (OrClear fun r ℓ' => ∀ e, r = .error e → ℓ' = .clear) ℓ := by
  refine due_withLock (due_step (.inl trivial) fun impl himpl => ?_)
  obtain ⟨client, rfl⟩ := Option.isSome_iff_exists.mp himpl
  refine due_bind _ (due_stopSignal _) fun stop ℓ h => ?_
  cases stop with
  | true => exact fun _ _ => h rfl
  | false => exact fun _ => nofun

/-- `disconnect` ends owing nothing. -/
theorem clears_disconnect : Clears start t disconnect := by
  refine fun ℓ => due_inFlight (due_bind _ (due_disconnectClient ℓ) fun r ℓ hr => ?_)
  cases r with
  | error e => exact hr e rfl
  | ok client => exact due_singleFlight (fun _ => rfl) (clears_disconnectHeld client ℓ)

/-! ### A decision of the watchdog -/

/-- A decision that gives up has made the client not RUNNING. -/
theorem due_giveUpIfExpired (ℓ : Dues) :
    (dueProtocol start).Follows t giveUpIfExpired
      (OrClear fun expired ℓ' => expired = true → ℓ' = .clear) ℓ := by
  have hK : Busy (Careful start t) := busy_careful
  refine due_careful hK.updateBadStatusTime fun _ _ => due_careful hK.shouldTriggerGiveUp
    fun expired ℓ => ?_
  refine due_bind (fun _ ℓ' => expired = true → ℓ' = .clear) (due_when (fun _ => ?_) fun h => ?_)
    fun _ ℓ h => h
  · exact due_mono (due_turnToGiveup ℓ) fun _ _ h _ => h
  · exact fun h' => absurd (h.symm.trans h') nofun

/-- After the give-up check, the rest of a branch. -/
theorem clears_unlessExpired {p : Impl Unit} (hp : Clears start t p) :
    Clears start t (do let expired ← giveUpIfExpired; Proc.when (!expired) p) := by
  refine fun ℓ => due_bind _ (due_giveUpIfExpired ℓ) fun expired ℓ h => ?_
  cases expired with
  | true => exact h rfl
  | false => exact hp ℓ

theorem clears_connectAndTurn : Clears start t connectAndTurn := by
  refine fun ℓ => due_bind _ (clears_connect ℓ) fun r ℓ hclear => ?_
  subst hclear
  cases r with
  | ok u => exact due_turnToRunning rfl
  | error e =>
      refine due_bind _ (due_when (fun _ => due_turnToGiveup _) fun _ => rfl) fun _ ℓ hclear => ?_
      exact due_when (fun _ => due_turnToRecovring ℓ) fun _ => hclear

theorem clears_connectIfClosed (client : Handle) : Clears start t (connectIfClosed client) := by
  have hK : Busy (Careful start t) := busy_careful
  refine fun ℓ => due_careful (hK.callRunIterate client 1) fun _ _ =>
    due_careful hK.isChannelClosed fun closed ℓ => ?_
  cases closed with
  | true => exact clears_connectAndTurn ℓ
  | false => exact due_turnToRecovring ℓ

theorem clears_reconnect (client : Handle) : Clears start t (reconnect client) := by
  refine fun ℓ => due_bind _ (clears_disconnect ℓ) fun r ℓ _ => ?_
  cases r with
  | ok u => exact clears_connectIfClosed client ℓ
  | error e =>
      have hgone : Clears start t (if e.isGone then turnToGiveup else connectIfClosed client) := by
        cases e.isGone with
        | true => exact due_turnToGiveup
        | false => exact clears_connectIfClosed client
      exact hgone ℓ

theorem clears_decideBad (client : Handle) : Clears start t (decideBad client) := by
  refine clears_unlessExpired fun ℓ => ?_
  refine due_careful (busy_careful.callRunIterate client 1) fun _ ℓ =>
    due_bind _ (due_isHealthyCached ℓ) fun healthy ℓ h => ?_
  cases healthy with
  | false => exact clears_reconnect client ℓ
  | true =>
      obtain rfl := h (.inl rfl)
      exact due_turnToRunning rfl

/-- A client that is neither bad nor unhealthy was seen healthy. -/
theorem due_isBadOrUnhealthy (ℓ : Dues) :
    (dueProtocol start).Follows t isBadOrUnhealthy
      (OrClear fun bad ℓ' => bad = false → ℓ' = .clear) ℓ := by
  refine due_careful busy_careful.isConnectBad fun bad ℓ => ?_
  cases bad with
  | true => exact nofun
  | false =>
      refine due_bind _ (due_isHealthyCached ℓ) fun healthy ℓ h => ?_
      cases healthy with
      | true => exact fun _ => h (.inl rfl)
      | false => exact nofun

theorem clears_decideUnhealthy (client : Handle) : Clears start t (decideUnhealthy client) := by
  have hK : Busy (Careful start t) := busy_careful
  refine fun ℓ => due_careful hK.loadState fun f _ => due_careful (hK.isLost f) fun lost ℓ => ?_
  cases lost with
  | true => exact clears_unlessExpired (clears_reconnect client) ℓ
  | false =>
      refine due_careful hK.isChannelClosed fun closed ℓ => ?_
      cases closed with
      | false => exact clears_unlessExpired (clears_connectIfClosed client) ℓ
      | true =>
          refine due_bind _ (due_isBadOrUnhealthy ℓ) fun bad ℓ h => ?_
          cases bad with
          | true => exact clears_decideBad client ℓ
          | false =>
              obtain rfl := h rfl
              exact due_turnToRunning rfl

/-- A decision ends owing nothing. -/
theorem clears_doWatchdogDecision : Clears start t doWatchdogDecision := by
  refine fun ℓ => due_bind _ (due_stopSignal ℓ) fun stop ℓ h => ?_
  cases stop with
  | true => exact h rfl
  | false =>
      refine due_bind _ (due_snapshot ℓ) fun impl ℓ himpl => ?_
      obtain ⟨client, rfl⟩ := Option.isSome_iff_exists.mp himpl
      refine due_bind _ (due_isConnected 0 ℓ) fun r ℓ hr => ?_
      rcases r with e | healthy
      · exact due_when (fun _ => clears_decideUnhealthy client ℓ) fun _ => hr nofun
      · cases healthy with
        | false => exact clears_decideUnhealthy client ℓ
        | true =>
            obtain rfl := hr nofun
            exact due_turnToRunning rfl

end Impl

end OPCUAPacking
