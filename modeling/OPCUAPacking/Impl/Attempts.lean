import OPCUAPacking.Impl.Alone

/-!
# The ends of a connection call

What is known when `connect` or `disconnect` returns, while no other thread acts. A claim about the
ends of these calls gives the predicates: `I` holds when the call starts, `L` from the moment on
when it has issued its first `connectAsync` or `disconnectAsync`, and `J` where it has succeeded.

* `ConnectEnds`, `DisconnectEnds` — how a call ends.
* `Impl.alone_connect`, `Impl.alone_disconnect` — every call ends so.
-/

namespace OPCUAPacking

open Interleaving

namespace ImplState

/-- The members other than `m_connState`, the counter and the owners of the mutexes. -/
def core (s : ImplState) : ImplState :=
  { s with connState := .idle, taskCounter := 0, lockOwner := none, sdkOwner := none,
           badStatusOwner := none }

theorem isStale_congr {s s' : ImplState} (h : s'.core = s.core) : s'.IsStale ↔ s.IsStale :=
  show s'.core.IsStale ↔ s.core.IsStale from h ▸ Iff.rfl

theorem isGone_congr {s s' : ImplState} (h : s'.core = s.core) : s'.IsGone ↔ s.IsGone :=
  show s'.core.IsGone ↔ s.core.IsGone from h ▸ Iff.rfl

end ImplState

/-- The operations on the way out of a connection call: the ends of its scope guards. -/
def ImplOp.Leaves : ImplOp → Prop
  | .unlock _ | .taskDec => True
  | .store .connState v => v = .idle
  | _ => False

/-- They change nothing but what the guards hold. -/
theorem ImplState.core_of_leaves {t : Tid} {o : ImplOp} {r : o.Resp} {s s' : ImplState}
    (ho : o.Leaves) (h : exec t o r s = some s') : s'.core = s.core := by
  cases o with
  | unlock m =>
      obtain ⟨-, rfl⟩ := whenever_eq_some.mp h
      cases m <;> rfl
  | taskDec =>
      cases h
      rfl
  | store a v =>
      cases a with
      | connState =>
          cases h
          rfl
      | _ => exact ho.elim
  | _ => exact ho.elim

/-- The predicate survives the way out. -/
def Leaving (ok : Moment → Event ImplSig → Prop) (Inv J : Moment → Prop) : Prop :=
  ∀ o : ImplOp, o.Leaves → ∀ r s s', J s → AloneStep ok o r s s' → Inv s' ∧ J s'

/-- The predicate survives the end of a block under a mutex. -/
def Unlocking (ok : Moment → Event ImplSig → Prop) (Inv J : Moment → Prop) : Prop :=
  ∀ m r s s', J s → AloneStep ok (.unlock m) r s s' → Inv s' ∧ J s'

theorem Leaving.unlocking {ok : Moment → Event ImplSig → Prop} {Inv J : Moment → Prop}
    (hJ : Leaving ok Inv J) : Unlocking ok Inv J :=
  fun m => hJ (.unlock m) trivial

theorem Looking.unlocking {ok : Moment → Event ImplSig → Prop} {Inv I : Moment → Prop}
    (hI : Looking ok Inv I) : Unlocking ok Inv I := fun m r s s' hs hstep =>
  have hs' := hI.look (.unlock m) trivial r s s' hs hstep
  ⟨hI.inv s' hs', hs'⟩

/-- The operations of the scope guards of a connection call. -/
def ImplOp.Scopes (o : ImplOp) : Prop :=
  o.Leaves ∨ o = .taskInc ∨ o = .casStrong .connState .idle .connecting

/-- A call that waits to make its first SDK call keeps the predicate. -/
structure Waiting (ok : Moment → Event ImplSig → Prop) (Inv I : Moment → Prop) : Prop extends
    Looking ok Inv I where
  scope : ∀ o : ImplOp, o.Scopes → ∀ r s s', I s → AloneStep ok o r s s' → I s'

section Ends

variable {ok : Moment → Event ImplSig → Prop} {Inv : Moment → Prop} {α : Type}

/-- So does what the call keeps. -/
theorem Waiting.leaving {I : Moment → Prop} (hI : Waiting ok Inv I) : Leaving ok Inv I :=
  fun o ho r s s' hs hstep =>
    have hs' := hI.scope o (.inl ho) r s s' hs hstep
    ⟨hI.inv s' hs', hs'⟩

/-- What polling keeps is kept before. -/
theorem Steady.waiting {I : Moment → Prop} (hI : Steady ok Inv I) : Waiting ok Inv I where
  toLooking := hI.toDrifting.looking
  scope o ho r s s' hs hstep := by
    rcases ho with ho | rfl | rfl
    · cases o with
      | unlock m => exact hI.drift (.unlock m) (.inl trivial) r s s' hs hstep
      | taskDec => exact hI.busy .taskDec (.inl trivial) r s s' hs hstep
      | store a v =>
          cases a with
          | connState => exact hI.busy (.store .connState v) (.inl ho) r s s' hs hstep
          | _ => exact ho.elim
      | _ => exact ho.elim
    · exact hI.busy .taskInc (.inl trivial) r s s' hs hstep
    · exact hI.busy (.casStrong .connState .idle .connecting) (.inl ⟨rfl, rfl⟩) r s s' hs hstep

theorem Steady.leaving {I : Moment → Prop} (hI : Steady ok Inv I) : Leaving ok Inv I :=
  hI.waiting.leaving

/-- How a round of a polling loop ends. -/
def RoundEnds (X L : Moment → Prop) (E : α → Moment → Prop) :
    Except Exn (Unit ⊕ α) → Moment → Prop :=
  Ends X (Sum.elim (fun _ => L) E)

/-- The error of a call that has got as far as its `connectAsync`. -/
def ConnectErrorState.isFailure : ConnectErrorState → Bool
  | .connectFailed | .timeoutNotconnect => true
  | _ => false

/-- The error of a call that has got as far as its `disconnectAsync`. -/
def DisconnectErrorState.isFailure : DisconnectErrorState → Bool
  | .disconnectFail | .timeoutNotdisconnect => true
  | _ => false

/-- How a connection call ends: with success; because the client is gone; or after a failure that
has left it not stale. -/
def CallEnds {E : Type} (isGone isFailure : E → Bool) (I L J : Moment → Prop) :
    Result Unit E → Moment → Prop
  | .ok _, s => J s
  | .error e, s => (I s ∧ isGone e = true ∧ s.world.IsGone) ∨
      (L s ∧ isFailure e = true ∧ ¬s.world.IsStale)

/-- How `connect` ends. -/
abbrev ConnectEnds := CallEnds ConnectErrorState.isGone ConnectErrorState.isFailure

/-- How `disconnect` ends. -/
abbrev DisconnectEnds := CallEnds DisconnectErrorState.isGone DisconnectErrorState.isFailure

variable {I L J : Moment → Prop}

/-- A client that is not stale is so on the way out. -/
theorem leaving_not_isStale (hL : Steady ok Inv L) :
    Leaving ok Inv fun s => L s ∧ ¬s.world.IsStale := by
  rintro o ho r s s' ⟨hs, hstale⟩ hstep
  obtain ⟨hinv, hs'⟩ := hL.leaving o ho r s s' hs hstep
  refine ⟨hinv, hs', ?_⟩
  rwa [ImplState.isStale_congr (ImplState.core_of_leaves ho hstep.exec_eq)]

/-- What is known of a call that may not have been accepted. -/
theorem leaving_accepted (hL : Steady ok Inv L) {accepted : Bool} :
    Leaving ok Inv fun s => L s ∧ (accepted = false → ¬s.world.IsStale) := by
  rintro o ho v s s' ⟨hs, hstale⟩ hstep
  obtain ⟨hinv, hs'⟩ := hL.leaving o ho v s s' hs hstep
  exact ⟨hinv, hs', fun h => (leaving_not_isStale hL o ho v s s' ⟨hs, hstale h⟩ hstep).2.2⟩

/-- How a block under a mutex ends survives its end. -/
theorem unlocking_ends {X : Moment → Prop} {E : α → Moment → Prop} (hX : Unlocking ok Inv X)
    (hE : ∀ a, Unlocking ok Inv (E a)) (r : Except Exn α) : Unlocking ok Inv (Ends X E r) := by
  cases r with
  | error e => exact hX
  | ok a => exact hE a

/-- The ends of a call survive the way out. -/
theorem leaving_callEnds {E : Type} {isGone isFailure : E → Bool} (hI : Waiting ok Inv I)
    (hL : Steady ok Inv L) (hJ : Leaving ok Inv J) (r : Result Unit E) :
    Leaving ok Inv (CallEnds isGone isFailure I L J r) := by
  intro o ho v s s' hs hstep
  cases r with
  | ok u => exact hJ o ho v s s' hs hstep
  | error e =>
      rcases hs with ⟨hs, hgone, hworld⟩ | ⟨hs, hfailure, hstale⟩
      · obtain ⟨hinv, hs'⟩ := hI.leaving o ho v s s' hs hstep
        have hcore := ImplState.core_of_leaves ho hstep.exec_eq
        exact ⟨hinv, .inl ⟨hs', hgone, (ImplState.isGone_congr hcore).mpr hworld⟩⟩
      · obtain ⟨hinv, hs', hstale'⟩ := leaving_not_isStale hL o ho v s s' ⟨hs, hstale⟩ hstep
        exact ⟨hinv, .inr ⟨hs', hfailure, hstale'⟩⟩

/-- So do those with an exception. -/
theorem leaving_ends {X : Moment → Prop} {E : α → Moment → Prop} (hX : Leaving ok Inv X)
    (hE : ∀ a, Leaving ok Inv (E a)) (r : Except Exn α) : Leaving ok Inv (Ends X E r) := by
  cases r with
  | error e => exact hX
  | ok a => exact hE a

end Ends

namespace Impl

variable {ok : Moment → Event ImplSig → Prop} {Inv I L J : Moment → Prop} {s : Moment}
  {α β : Type}

/-! ### The scopes of a call -/

/-- A block under a mutex. -/
theorem alone_withLock {m : Mutex} {body : Impl α} {Q : Except Exn α → Moment → Prop}
    (hI : Looking ok Inv I) (hs : I s) (hb : ∀ s₁, I s₁ → Alone ok Inv body Q s₁)
    (hQ : ∀ r, Unlocking ok Inv (Q r)) : Alone ok Inv (withLock m body) Q s := by
  refine alone_look hI hs (o := .lock m) trivial fun _ s₁ hs₁ _ => ?_
  refine Protocol.Follows.ensuring Q (hb s₁ hs₁) fun r s₂ hs₂ => ?_
  refine Protocol.follows_solo_perform fun _ s₃ _ hunlock => ?_
  obtain ⟨hinv, hs₃⟩ := hQ r m _ _ _ hs₂ hunlock
  exact ⟨hinv, rfl, hs₃⟩

/-- The scope of an `InFlightGuard`. -/
theorem alone_inFlight {body : Impl α} {Q : Except Exn α → Moment → Prop} (hI : Waiting ok Inv I)
    (hs : I s) (hidle : s.world.connState = .idle)
    (hb : ∀ s₁, I s₁ → s₁.world.connState = .idle →
      Alone ok Inv body (fun r s' => Q r s' ∧ s'.world.connState = .idle) s₁)
    (hQ : ∀ r, Leaving ok Inv (Q r)) :
    Alone ok Inv (inFlight body) (fun r s' => Q r s' ∧ s'.world.connState = .idle) s := by
  refine alone_step fun _ s₁ _ hinc => ?_
  have hs₁ := hI.scope .taskInc (.inr (.inl rfl)) _ _ _ hs hinc
  have hidle₁ : s₁.world.connState = .idle :=
    (ImplState.get_of_not_writes (a := .connState) hinc.exec_eq id).trans hidle
  refine ⟨hI.inv _ hs₁, Protocol.Follows.ensuring _ (hb s₁ hs₁ hidle₁) ?_⟩
  rintro r s₂ ⟨hs₂, hidle₂⟩
  refine Protocol.follows_solo_perform fun _ s₃ _ hdec => ?_
  obtain ⟨hinv, hs₃⟩ := hQ r .taskDec trivial _ _ _ hs₂ hdec
  exact ⟨hinv, rfl, hs₃,
    (ImplState.get_of_not_writes (a := .connState) hdec.exec_eq id).trans hidle₂⟩

/-- The scope of a `CASGuard`: nobody else holds `m_connState`. -/
theorem alone_singleFlight {busy : ConnState → α} {body : Impl α}
    {Q : Except Exn α → Moment → Prop} (hI : Waiting ok Inv I) (hs : I s)
    (hidle : s.world.connState = .idle) (hb : ∀ s₁, I s₁ → Alone ok Inv body Q s₁)
    (hQ : ∀ r, Leaving ok Inv (Q r)) :
    Alone ok Inv (singleFlight busy body) (fun r s' => Q r s' ∧ s'.world.connState = .idle) s := by
  refine alone_step fun r s₁ _ hcas => ?_
  have hs₁ := hI.scope (.casStrong .connState .idle .connecting) (.inr (.inr rfl)) _ _ _ hs hcas
  refine ⟨hI.inv _ hs₁, ?_⟩
  rcases ImplState.cas_eq_some.mp hcas.exec_eq with ⟨rfl, -, -⟩ | ⟨-, hne, -⟩
  · refine Protocol.Follows.ensuring Q (hb s₁ hs₁) fun r s₂ hs₂ => ?_
    refine Protocol.follows_solo_perform fun _ s₃ _ hstore => ?_
    obtain ⟨hinv, hs₃⟩ := hQ r (.store .connState .idle) rfl _ _ _ hs₂ hstore
    have hworld : s₂.world.set .connState .idle = s₃.world := Option.some.inj hstore.exec_eq
    exact ⟨hinv, rfl, hs₃, hworld ▸ rfl⟩
  · exact absurd hidle (hne.resolve_left nofun)

/-- A loop of polling rounds. -/
theorem alone_rounds {X : Moment → Prop} {body : Unit → Impl (Unit ⊕ α)} {E : α → Moment → Prop}
    (hs : L s) (hb : ∀ s₁, L s₁ → Alone ok Inv (body ()) (RoundEnds X L E) s₁) :
    Alone ok Inv (Proc.loop () body) (Ends X E) s := by
  refine Protocol.Follows.loop (fun _ s₁ => L s₁) hs fun _ s₁ hs₁ => (hb s₁ hs₁).mono ?_
  rintro (e | (u | a)) s₂ h <;> exact h

/-! ### The client -/

/-- The client snapshot of `connect`. -/
theorem alone_connectClient (hI : Looking ok Inv I) (hs : I s) :
    ∃ r, Alone ok Inv connectClient (Sees I s r) s ∧
      ∀ e, r = .error e → e.isGone = true ∧ s.world.IsGone := by
  have hstopped : ∀ s₁, I s₁ → s₁.world = s.world.setOwner (some 0) .lock →
      Alone ok Inv getEffectiveStopSignal (Sees I s₁ s.world.stopSignal) s₁ := by
    intro s₁ hs₁ hworld₁
    have hsees := alone_stopSignal hI hs₁
    rwa [hworld₁, ImplState.setOwner_stopSignal] at hsees
  cases hstop : s.world.stopSignal with
  | true =>
      refine ⟨.error .shutdown, alone_withLock_sees hI hs fun s₁ hs₁ hworld₁ => ?_, ?_⟩
      · refine alone_sees (hstop ▸ hstopped s₁ hs₁ hworld₁) fun s₂ hs₂ hworld₂ => ?_
        exact ⟨rfl, hworld₂, hs₂⟩
      · rintro _ ⟨⟩
        exact ⟨rfl, .inl hstop⟩
  | false =>
      refine ⟨match s.world.impl with
        | none => .error .nullptr
        | some client => .ok client, alone_withLock_sees hI hs fun s₁ hs₁ hworld₁ => ?_, ?_⟩
      · refine alone_sees (hstop ▸ hstopped s₁ hs₁ hworld₁) fun s₂ hs₂ hworld₂ => ?_
        refine alone_look hI hs₂ (o := .copyImpl) trivial fun r s₃ hs₃ hcopy => ?_
        obtain ⟨rfl, hworld₃⟩ := ImplState.whenever_eq_some.mp hcopy.exec_eq
        have himpl : s₂.world.impl = s.world.impl := by
          rw [hworld₂, hworld₁, ImplState.setOwner_impl]
        rw [himpl]
        cases s.world.impl <;> exact ⟨rfl, hworld₃.symm.trans hworld₂, hs₃⟩
      · intro e he
        cases himpl : s.world.impl with
        | none =>
            rw [himpl] at he
            cases he
            exact ⟨rfl, .inr himpl⟩
        | some client =>
            rw [himpl] at he
            cases he

/-- The client snapshot of `disconnect`. -/
theorem alone_disconnectClient (hI : Looking ok Inv I) (hs : I s) :
    ∃ r, Alone ok Inv disconnectClient (Sees I s r) s ∧
      ∀ e, r = .error e → e.isGone = true ∧ s.world.IsGone := by
  cases himpl : s.world.impl with
  | none =>
      refine ⟨.error .nullptr, alone_withLock_sees hI hs fun s₁ hs₁ hworld₁ => ?_, ?_⟩
      · refine alone_look hI hs₁ (o := .copyImpl) trivial fun r s₂ hs₂ hcopy => ?_
        obtain ⟨rfl, hworld₂⟩ := ImplState.whenever_eq_some.mp hcopy.exec_eq
        rw [hworld₁, ImplState.setOwner_impl, himpl]
        exact ⟨rfl, hworld₂.symm, hs₂⟩
      · rintro _ ⟨⟩
        exact ⟨rfl, .inr himpl⟩
  | some client =>
      refine ⟨if s.world.stopSignal then .error .shutdown else .ok client,
        alone_withLock_sees hI hs fun s₁ hs₁ hworld₁ => ?_, ?_⟩
      · refine alone_look hI hs₁ (o := .copyImpl) trivial fun r s₂ hs₂ hcopy => ?_
        obtain ⟨rfl, hworld₂⟩ := ImplState.whenever_eq_some.mp hcopy.exec_eq
        rw [hworld₁, ImplState.setOwner_impl, himpl]
        refine alone_sees (alone_stopSignal hI hs₂) fun s₃ hs₃ hworld₃ => ?_
        rw [← hworld₂, hworld₁, ImplState.setOwner_stopSignal]
        split <;> exact ⟨rfl, hworld₃.trans hworld₂.symm, hs₃⟩
      · intro e he
        split_ifs at he with hstop
        cases he
        exact ⟨rfl, .inl hstop⟩

/-! ### Starting and timing out -/

/-- The call that opens or closes the connection. -/
theorem alone_sdkConnection {client : Handle} {c : SdkCall}
    (hL : Drifting ok Inv L) (hs : I s)
    (hissue : ∀ s callbacks s', I s → AloneStep ok (.sdkCall client c) callbacks s s' → L s')
    (hreturn : ∀ r s s', L s → AloneStep ok (.sdkReturn client c) r s s' → L s') :
    Alone ok Inv (sdk client c) (fun _ s' => L s') s := by
  have hK := polling_of_drifting hL
  refine alone_step fun callbacks s₁ _ hcall => ?_
  have hs₁ := hissue _ _ _ hs hcall
  refine ⟨hL.inv _ hs₁, alone_keeps (hK.forEach hK.runCallback callbacks) hs₁ (fun _ s₂ hs₂ => ?_)
    fun _ _ h => h⟩
  refine alone_step fun r s₃ _ hstep => ?_
  have hs₃ := hreturn _ _ _ hs₂ hstep
  refine ⟨hL.inv _ hs₃, ?_⟩
  cases r <;> exact hs₃

/-- Closing the connection in the middle of a call. -/
theorem keeps_disconnectAsync (hL : Steady ok Inv L) (client : Handle) :
    (aloneProtocol ok Inv).Keeps L 0 (withLock .sdkMutex (sdk client .disconnectAsync)) := by
  intro s hs
  refine alone_withLock hL.toDrifting.looking hs (fun s₁ hs₁ => ?_) fun _ => hL.leaving.unlocking
  exact alone_sdkConnection hL.toDrifting hs₁
    (fun s r s' => hL.busy (.sdkCall client .disconnectAsync) (.inl trivial) r s s')
    (hL.busy (.sdkReturn client .disconnectAsync) (.inl trivial))

/-- `TurnToRecovring` in a call. -/
theorem alone_recovers (hL : Steady ok Inv L) (hs : L s) :
    Alone ok Inv turnToRecovring (fun r s' => r = .ok () ∧ L s' ∧ ¬s'.world.IsStale) s := by
  refine (alone_turnToRecovring hL.toDrifting.looking hs fun r s s' hs hstep =>
    hL.busy _ (.inr rfl) r s s' hs hstep).mono ?_
  rintro r s' ⟨hr, hworld, hs'⟩
  exact ⟨hr, hs', hworld ▸ ImplState.not_isStale_recover _⟩

/-! ### connect -/

section Connect

variable {X : Moment → Prop} (hI : Waiting ok Inv I) (hL : Drifting ok Inv L)
  (hX : Steady ok Inv X) (hLX : ∀ s, L s → X s) (hXI : ∀ s, X s → I s) (hJ : Leaving ok Inv J)
  (hissue : ∀ client url s callbacks s', I s →
    AloneStep ok (.sdkCall client (.connectAsync url)) callbacks s s' → L s')
  (hreturn : ∀ client url r s s', L s →
    AloneStep ok (.sdkReturn client (.connectAsync url)) r s s' → L s')
  (hready : ∀ s f s', L s → AloneStep ok .loadFields f s s' → f.triple.isReady = true →
    Alone ok Inv turnToRunning (fun r s' => r = .ok () ∧ J s') s')
  (hhealthy : ∀ s, L s → s.world.isHealthy = true →
    Alone ok Inv turnToRunning (fun r s' => r = .ok () ∧ J s') s)

include hX in
/-- The connection is given up after a timeout. -/
theorem alone_abandonConnect (client : Handle) (hs : X s) :
    Alone ok Inv (abandonConnect client) (Ends X (ConnectEnds I X J)) s := by
  refine alone_keeps (keeps_disconnectAsync hX client) hs (fun _ s₁ hs₁ => ?_) fun _ _ h => h
  refine alone_bind _ (alone_recovers hX hs₁) ?_ ?_
  · rintro _ s₂ ⟨-, hs₂, hstale⟩
    exact .inr ⟨hs₂, rfl, hstale⟩
  · rintro e s₂ ⟨⟨⟩, -⟩

include hI hL hX hLX hissue hreturn in
/-- The start of `connect`. -/
theorem alone_startConnect (client : Handle) (hs : I s) :
    Alone ok Inv (startConnect client)
      (Ends X fun accepted s' => if accepted then L s' else X s' ∧ ¬s'.world.IsStale) s := by
  refine alone_withLock hI.toLooking hs (fun s₁ hs₁ => ?_)
    (unlocking_ends hX.leaving.unlocking fun accepted => ?_)
  · refine alone_look hI.toLooking hs₁ (o := .readEndpointUrl) trivial fun url s₂ hs₂ _ => ?_
    refine alone_keeps_from (alone_sdkConnection hL hs₂ (hissue client url) (hreturn client url))
      (fun retval s₃ hs₃ => ?_) fun _ s₃ hs₃ => hLX s₃ hs₃
    split
    · exact hs₃
    · refine alone_bind _ (alone_recovers hX (hLX s₃ hs₃)) ?_ ?_
      · rintro _ s₄ ⟨-, hs₄, hstale⟩
        exact ⟨hs₄, hstale⟩
      · rintro e s₄ ⟨⟨⟩, -⟩
  · cases accepted with
    | true => exact hL.looking.unlocking
    | false => exact (leaving_not_isStale hX).unlocking

include hX hLX hXI hL hhealthy in
/-- The last look of `connect` after a timeout. -/
theorem alone_connectTimedOut (client : Handle) (hs : L s) :
    Alone ok Inv (connectTimedOut client) (Ends X (ConnectEnds I X J)) s := by
  refine alone_bind _ (alone_isConnected hL 50 hs) ?_ fun _ s₁ h => hLX s₁ h
  rintro (e | healthy) s₁ h
  · obtain ⟨hs₁, hgone, hworld⟩ := h
    cases e with
    | shutdown | nullptr => exact .inl ⟨hXI _ (hLX _ hs₁), rfl, hworld⟩
    | _ => cases hgone
  · refine alone_sees (alone_isHealthyCached hL.looking h.1) fun s₂ hs₂ hworld₂ => ?_
    cases hh : s₁.world.isHealthy with
    | false => exact alone_abandonConnect hX client (hLX s₂ hs₂)
    | true =>
        refine alone_bind _ (hhealthy s₂ hs₂ (hworld₂ ▸ hh)) ?_ ?_
        · rintro _ s₃ ⟨-, hs₃⟩
          exact hs₃
        · rintro e s₃ ⟨⟨⟩, -⟩

include hX hLX hXI hL hhealthy in
/-- The end of a round of `connect`. -/
theorem alone_connectRoundEnd (client : Handle) (start deadline : Int) (hs : L s) :
    Alone ok Inv (connectRoundEnd client start deadline)
      (RoundEnds X L (ConnectEnds I X J)) s := by
  have hK := polling_of_drifting hL
  refine alone_keeps (hK.timedOut start deadline) hs (fun expired s₁ hs₁ => ?_)
    fun _ s₁ h => hLX s₁ h
  cases expired with
  | true =>
      exact alone_bind _ (alone_connectTimedOut hL hX hLX hXI hhealthy client hs₁) (fun _ _ h => h)
        fun _ _ h => h
  | false =>
      refine alone_sees (alone_stopSignal hL.looking hs₁) fun s₂ hs₂ hworld₂ => ?_
      cases hstop : s₁.world.stopSignal with
      | true => exact .inl ⟨hXI _ (hLX _ hs₂), rfl, .inl (hworld₂ ▸ hstop)⟩
      | false => exact hs₂

include hX hLX hXI hL hready hhealthy in
/-- A round of the polling loop of `connect`. -/
theorem alone_connectRound (client : Handle) (start deadline : Int) (hs : L s) :
    Alone ok Inv (connectRound client start deadline)
      (RoundEnds X L (ConnectEnds I X J)) s := by
  refine alone_bind _ (alone_isConnected hL 50 hs) ?_ fun _ s₁ h => hLX s₁ h
  rintro (e | healthy) s₁ h
  · obtain ⟨hs₁, hgone, hworld⟩ := h
    cases e with
    | shutdown | nullptr => exact .inl ⟨hXI _ (hLX _ hs₁), rfl, hworld⟩
    | _ => cases hgone
  · refine alone_drift hL h.1 (o := .loadFields) (.inl trivial) fun f s₂ hs₂ hload => ?_
    split
    case isTrue hf =>
      refine alone_bind _ (hready s₁ f s₂ h.1 hload hf) ?_ ?_
      · rintro _ s₃ ⟨-, hs₃⟩
        exact hs₃
      · rintro e s₃ ⟨⟨⟩, -⟩
    case isFalse =>
      exact alone_connectRoundEnd hL hX hLX hXI hhealthy client start deadline hs₂

include hI hX hLX hXI hL hissue hreturn hready hhealthy in
/-- The body of `connect`. -/
theorem alone_connectHeld (client : Handle) (hs : I s) :
    Alone ok Inv (connectHeld client) (Ends X (ConnectEnds I X J)) s := by
  have hK := polling_of_drifting hL
  refine alone_bind _ (alone_startConnect hI hL hX hLX hissue hreturn client hs) ?_ fun _ _ h => h
  intro accepted s₁ hs₁
  cases accepted with
  | false => exact .inr ⟨hs₁.1, rfl, hs₁.2⟩
  | true =>
      refine alone_keeps hK.nowMs hs₁ (fun start s₂ hs₂ => ?_) fun _ s₂ h => hLX s₂ h
      refine alone_keeps hK.wallDeadline hs₂ (fun deadline s₃ hs₃ => ?_) fun _ s₃ h => hLX s₃ h
      exact alone_rounds hs₃ fun s₄ hs₄ =>
        alone_connectRound hL hX hLX hXI hready hhealthy client start deadline hs₄

include hI hX hLX hXI hL hJ hissue hreturn hready hhealthy in
/-- `connect`, on an `Impl` on which no other thread connects or disconnects. -/
theorem alone_connect (hs : I s) (hidle : s.world.connState = .idle) :
    Alone ok Inv connect
      (fun r s' => Ends I (ConnectEnds I X J) r s' ∧ s'.world.connState = .idle) s := by
  have hleaving : ∀ r, Leaving ok Inv (Ends I (ConnectEnds I X J) r) :=
    leaving_ends hI.leaving (leaving_callEnds hI hX hJ)
  refine alone_inFlight hI hs hidle (fun s₁ hs₁ hidle₁ => ?_) hleaving
  refine alone_sees (alone_stopSignal hI.toLooking hs₁) fun s₂ hs₂ hworld₂ => ?_
  cases hstop : s₁.world.stopSignal with
  | true =>
      exact ⟨.inl ⟨hs₂, rfl, .inl (hworld₂ ▸ hstop)⟩, hworld₂ ▸ hidle₁⟩
  | false =>
      obtain ⟨r, hclient, hgone⟩ := alone_connectClient hI.toLooking hs₂
      refine alone_sees hclient fun s₃ hs₃ hworld₃ => ?_
      have hidle₃ : s₃.world.connState = .idle := hworld₃ ▸ hworld₂ ▸ hidle₁
      cases r with
      | error e =>
          obtain ⟨he, hworld⟩ := hgone e rfl
          exact ⟨.inl ⟨hs₃, he, hworld₃ ▸ hworld⟩, hidle₃⟩
      | ok client =>
          refine alone_singleFlight hI hs₃ hidle₃ (fun s₄ hs₄ => ?_) hleaving
          refine (alone_connectHeld hI hL hX hLX hXI hissue hreturn hready hhealthy client
            hs₄).mono ?_
          rintro (e | a) s₅ h
          · exact hXI _ h
          · exact h

end Connect

/-! ### disconnect -/

/-- The word stays while the timer is started. -/
theorem alone_updateBadStatusTime_word {Q : Except Exn Unit → Moment → Prop}
    (h : Alone ok Inv updateBadStatusTime Q s) {word : BitVec 64}
    (hword : s.world.statePacked = word) :
    Alone ok Inv updateBadStatusTime (fun r s' => Q r s' ∧ s'.world.statePacked = word) s := by
  refine Protocol.Follows.frame ?_ uses_updateBadStatusTime h hword
  exact fun o ho r s s' hstep hword =>
    (ImplState.get_of_not_writes (a := .statePacked) hstep.exec_eq (ho.not_writes nofun)).trans
      hword

section Disconnect

variable {A : Moment → Prop} (hI : Waiting ok Inv I) (hL : Steady ok Inv L)
  (hA : Looking ok Inv A) (hLI : ∀ s, L s → I s) (hAL : ∀ s, A s → L s)
  (hJ : Leaving ok Inv J)
  (hissue : ∀ client s callbacks s', I s →
    AloneStep ok (.sdkCall client .disconnectAsync) callbacks s s' → L s')
  (hpublish : ∀ e (f : Triple) r s s', L s →
    AloneStep ok (.casStrong .statePacked e (f.pack ((unpackState e).version + 1))) r s s' → A s')
  (htimer : (aloneProtocol ok Inv).Keeps A 0 updateBadStatusTime)
  (hclosed : ∀ s, A s → (unpackState s.world.statePacked).channel = .closed →
    Alone ok Inv turnToRecovring (fun r s' => r = .ok () ∧ J s') s)
  (htimedOut : ∀ client s, L s →
    Alone ok Inv (disconnectTimedOut client) (Ends L (DisconnectEnds I L J)) s)

include hL in
/-- The second `disconnectAsync`, of a call that has timed out. -/
theorem alone_disconnectAgain (client : Handle) (hs : L s) :
    Alone ok Inv
      (do
        let _ ← withLock .sdkMutex (sdk client .disconnectAsync)
        turnToRecovring
        pure (.error .timeoutNotdisconnect))
      (Ends L (DisconnectEnds I L J)) s := by
  refine alone_keeps (keeps_disconnectAsync hL client) hs (fun _ s₁ hs₁ => ?_) fun _ _ h => h
  refine alone_bind _ (alone_recovers hL hs₁) ?_ ?_
  · rintro _ s₂ ⟨-, hs₂, hstale⟩
    exact .inr ⟨hs₂, rfl, hstale⟩
  · rintro e s₂ ⟨⟨⟩, -⟩

include hI hL hissue in
/-- The start of `disconnect`. -/
theorem alone_startDisconnect (client : Handle) (hs : I s) :
    Alone ok Inv (startDisconnect client)
      (Ends L fun accepted s' => L s' ∧ (accepted = false → ¬s'.world.IsStale)) s := by
  refine alone_withLock hI.toLooking hs (fun s₁ hs₁ => ?_)
    (fun r => (leaving_ends hL.leaving (fun _ => leaving_accepted hL) r).unlocking)
  refine alone_keeps_from (alone_sdkConnection hL.toDrifting hs₁ (hissue client)
    (hL.busy (.sdkReturn client .disconnectAsync) (.inl trivial))) (fun retval s₂ hs₂ => ?_)
    fun _ _ h => h
  split
  · exact ⟨hs₂, nofun⟩
  · refine alone_bind _ (alone_recovers hL hs₂) ?_ ?_
    · rintro _ s₃ ⟨-, hs₃, hstale⟩
      exact ⟨hs₃, fun _ => hstale⟩
    · rintro e s₃ ⟨⟨⟩, -⟩

include hL hLI htimedOut in
/-- The end of a round of `disconnect`. -/
theorem alone_disconnectRoundEnd (client : Handle) (start deadline : Int) (hs : L s) :
    Alone ok Inv (disconnectRoundEnd client start deadline)
      (RoundEnds L L (DisconnectEnds I L J)) s := by
  have hK := polling_of_drifting hL.toDrifting
  refine alone_keeps (hK.timedOut start deadline) hs (fun expired s₁ hs₁ => ?_) fun _ _ h => h
  cases expired with
  | true =>
      exact alone_bind _ (htimedOut client s₁ hs₁) (fun _ _ h => h) fun _ _ h => h
  | false =>
      refine alone_sees (alone_stopSignal hL.toDrifting.looking hs₁) fun s₂ hs₂ hworld₂ => ?_
      cases hstop : s₁.world.stopSignal with
      | true => exact .inl ⟨hLI _ hs₂, rfl, .inl (hworld₂ ▸ hstop)⟩
      | false =>
          exact alone_drift hL.toDrifting hs₂ (o := .sleep 50) (.inl trivial)
            fun _ s₃ hs₃ _ => hs₃

include hL hA hLI hAL hpublish htimer hclosed htimedOut in
/-- A round of the polling loop of `disconnect`. -/
theorem alone_disconnectRound (client : Handle) (start deadline : Int) (hs : L s) :
    Alone ok Inv (disconnectRound client start deadline)
      (RoundEnds L L (DisconnectEnds I L J)) s := by
  refine alone_bind _ (alone_isConnected_published hL.toDrifting hA hAL hpublish htimer 50 hs) ?_
    fun _ _ h => h
  rintro (e | healthy) s₁ h
  · obtain ⟨hs₁, hgone, hworld⟩ := h
    cases e with
    | shutdown | nullptr => exact .inl ⟨hLI _ hs₁, rfl, hworld⟩
    | _ => cases hgone
  · refine alone_loadState hA h.1 fun s₂ hs₂ hworld₂ => ?_
    have hword₂ : s₂.world.statePacked = s₁.world.statePacked := by rw [hworld₂]
    -- the timer may be started between the look at the word and its use
    refine alone_bind (fun _ s₃ => A s₃ ∧ s₃.world.statePacked = s₁.world.statePacked) ?_ ?_
      fun _ s₃ h => hAL s₃ h.1
    · cases (unpackState s₁.world.statePacked).status.isGood with
      | true => exact ⟨hs₂, hword₂⟩
      | false => exact alone_updateBadStatusTime_word (htimer s₂ hs₂) hword₂
    · rintro _ s₃ ⟨hs₃, hword₃⟩
      split
      case isTrue hchannel =>
        refine alone_bind _ (hclosed s₃ hs₃ (hword₃ ▸ hchannel)) ?_ ?_
        · rintro _ s₄ ⟨-, hs₄⟩
          exact hs₄
        · rintro e s₄ ⟨⟨⟩, -⟩
      case isFalse =>
        exact alone_disconnectRoundEnd hL hLI htimedOut client start deadline (hAL s₃ hs₃)

include hI hL hA hLI hAL hissue hpublish htimer hclosed htimedOut in
/-- The body of `disconnect`. -/
theorem alone_disconnectHeld (client : Handle) (hs : I s) :
    Alone ok Inv (disconnectHeld client) (Ends L (DisconnectEnds I L J)) s := by
  have hK := polling_of_drifting hL.toDrifting
  refine alone_bind _ (alone_startDisconnect hI hL hissue client hs) ?_ fun _ _ h => h
  rintro accepted s₁ ⟨hs₁, hstale⟩
  cases accepted with
  | false => exact .inr ⟨hs₁, rfl, hstale rfl⟩
  | true =>
      refine alone_keeps hK.nowMs hs₁ (fun start s₂ hs₂ => ?_) fun _ _ h => h
      refine alone_keeps hK.wallDeadline hs₂ (fun deadline s₃ hs₃ => ?_) fun _ _ h => h
      exact alone_rounds hs₃ fun s₄ hs₄ =>
        alone_disconnectRound hL hA hLI hAL hpublish htimer hclosed htimedOut client start deadline
          hs₄

include hI hL hA hLI hAL hJ hissue hpublish htimer hclosed htimedOut in
/-- `disconnect`, on an `Impl` on which no other thread connects or disconnects. -/
theorem alone_disconnect (hs : I s) (hidle : s.world.connState = .idle) :
    Alone ok Inv disconnect
      (fun r s' => Ends I (DisconnectEnds I L J) r s' ∧ s'.world.connState = .idle) s := by
  have hleaving : ∀ r, Leaving ok Inv (Ends I (DisconnectEnds I L J) r) :=
    leaving_ends hI.leaving (leaving_callEnds hI hL hJ)
  refine alone_inFlight hI hs hidle (fun s₁ hs₁ hidle₁ => ?_) hleaving
  obtain ⟨r, hclient, hgone⟩ := alone_disconnectClient hI.toLooking hs₁
  refine alone_sees hclient fun s₂ hs₂ hworld₂ => ?_
  have hidle₂ : s₂.world.connState = .idle := hworld₂ ▸ hidle₁
  cases r with
  | error e =>
      obtain ⟨he, hworld⟩ := hgone e rfl
      exact ⟨.inl ⟨hs₂, he, hworld₂ ▸ hworld⟩, hidle₂⟩
  | ok client =>
      refine alone_singleFlight hI hs₂ hidle₂ (fun s₃ hs₃ => ?_) hleaving
      refine (alone_disconnectHeld hI hL hA hLI hAL hissue hpublish htimer hclosed htimedOut client
        hs₃).mono ?_
      rintro (e | a) s₄ h
      · exact hLI _ h
      · exact h

end Disconnect

/-! ### Calls that keep a predicate -/

/-- `connect` keeps what its operations and `TurnToRunning` keep. -/
theorem alone_connect_of_steady (hI : Steady ok Inv I)
    (hrun : ∀ s, I s → Alone ok Inv turnToRunning (fun r s' => r = .ok () ∧ I s') s) (hs : I s)
    (hidle : s.world.connState = .idle) :
    Alone ok Inv connect
      (fun r s' => Ends I (ConnectEnds I I I) r s' ∧ s'.world.connState = .idle) s :=
  alone_connect hI.waiting hI.toDrifting hI (fun _ h => h) (fun _ h => h) hI.leaving
    (fun client url s r s' => hI.busy (.sdkCall client (.connectAsync url)) (.inl trivial) r s s')
    (fun client url => hI.busy (.sdkReturn client (.connectAsync url)) (.inl trivial))
    (fun s f s' hs hstep _ => hrun s' (hI.drift .loadFields (.inl trivial) f s s' hs hstep))
    (fun s hs _ => hrun s hs) hs hidle

section Recovers

variable (hI : Waiting ok Inv I) (hL : Steady ok Inv L) (hLI : ∀ s, L s → I s)
  (hissue : ∀ client s callbacks s', I s →
    AloneStep ok (.sdkCall client .disconnectAsync) callbacks s s' → L s')

include hL in
/-- The last look of `disconnect` after a timeout. -/
theorem alone_disconnectTimedOut (client : Handle) (hs : L s) :
    Alone ok Inv (disconnectTimedOut client)
      (Ends L (DisconnectEnds I L fun s => L s ∧ ¬s.world.IsStale)) s := by
  have hK := polling_of_drifting hL.toDrifting
  refine alone_keeps (hK.withLock _ (hK.sdk client rfl)) hs (fun f s₁ hs₁ => ?_) fun _ _ h => h
  split
  · refine alone_bind _ (alone_recovers hL hs₁) ?_ ?_
    · rintro _ s₂ ⟨-, hs₂, hstale⟩
      exact ⟨hs₂, hstale⟩
    · rintro e s₂ ⟨⟨⟩, -⟩
  · exact alone_disconnectAgain hL client hs₁

include hI hL hLI hissue in
/-- However `disconnect` ends, it leaves a client that is not stale, if the client is not gone. -/
theorem alone_disconnect_recovers (hs : I s) (hidle : s.world.connState = .idle) :
    Alone ok Inv disconnect (fun r s' => Ends I (DisconnectEnds I L fun s => L s ∧
      ¬s.world.IsStale) r s' ∧ s'.world.connState = .idle) s :=
  alone_disconnect hI hL hL.toDrifting.looking hLI (fun _ h => h) (leaving_not_isStale hL) hissue
    hL.publish hL.timer (fun _ hs _ => alone_recovers hL hs)
    (fun client _ hs => alone_disconnectTimedOut hL client hs) hs hidle

end Recovers

/-- How a call ends, if its predicates are all the same. -/
theorem keeps_of_callEnds {E : Type} {isGone isFailure : E → Bool} {r : Except Exn (Result Unit E)}
    (hLI : ∀ s, L s → I s) (hJI : ∀ s, J s → I s)
    (h : Ends I (CallEnds isGone isFailure I L J) r s) : I s := by
  rcases r with e | (e | u)
  · exact h
  · exact h.elim (fun h => h.1) fun h => hLI s h.1
  · exact hJI s h

/-- Both calls keep what their operations and `TurnToRunning` keep. -/
theorem alone_keeps_connect (hI : Steady ok Inv I)
    (hrun : ∀ s, I s → Alone ok Inv turnToRunning (fun r s' => r = .ok () ∧ I s') s) :
    (aloneProtocol ok Inv).Keeps (fun s => I s ∧ s.world.connState = .idle) 0 connect := fun _ hs =>
  (alone_connect_of_steady hI hrun hs.1 hs.2).mono fun _ _ h =>
    ⟨keeps_of_callEnds (fun _ h => h) (fun _ h => h) h.1, h.2⟩

theorem alone_keeps_disconnect (hI : Steady ok Inv I) :
    (aloneProtocol ok Inv).Keeps (fun s => I s ∧ s.world.connState = .idle) 0 disconnect :=
  fun _ hs => (alone_disconnect_recovers hI.waiting hI (fun _ h => h)
    (fun client s r s' => hI.busy (.sdkCall client .disconnectAsync) (.inl trivial) r s s')
    hs.1 hs.2).mono fun _ _ h => ⟨keeps_of_callEnds (fun _ h => h) (fun _ h => h.1) h.1, h.2⟩

end Impl

end OPCUAPacking
