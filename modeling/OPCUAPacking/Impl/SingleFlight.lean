import OPCUAPacking.Impl.Schedule

/-!
# One connection operation at a time

`connect` and `disconnect` win `m_connState` by a compare-exchange and release it when they leave,
on every path. So `m_connState` is CONNECTING exactly while one call holds it, and only that call
opens or closes the connection.

* `Flight` — what a thread has done since it was last counted: whether it holds `m_connState`, was
  refused it, or has called the SDK.
* `Flight.Allows` — the discipline of the calls.
* `singleFlight` — the result about every run.
-/

namespace OPCUAPacking

open Interleaving

/-- What a thread has done since it was last counted in flight. -/
structure Flight where
  /-- It is counted. -/
  counted : Bool
  /-- It has won `m_connState` and not released it since. -/
  holds : Bool
  /-- Its compare-exchange found `m_connState` taken. -/
  refused : Bool
  /-- It has called the SDK. -/
  called : Bool
  deriving DecidableEq

namespace Flight

/-- Before a call. -/
def free : Flight := ⟨false, false, false, false⟩

/-- How an operation moves the stage. -/
def track (_ : History) (ℓ : Flight) : (o : ImplOp) → o.Resp → Flight
  | .taskInc, _ => ⟨true, ℓ.holds, false, false⟩
  | .taskDec, _ => { ℓ with counted := false }
  | .casStrong .connState _ _, .ok () => { ℓ with holds := true }
  | .casStrong .connState _ _, .error _ => { ℓ with refused := true }
  | .store .connState _, _ => { ℓ with holds := false }
  | .sdkCall _ _, _ => { ℓ with called := ℓ.called || ℓ.counted }
  | _, _ => ℓ

/-- What a thread may do at a stage. -/
def Allows (ℓ : Flight) : (o : ImplOp) → o.Resp → Prop
  | .casStrong .connState _ _, _ => ℓ = ⟨true, false, false, false⟩
  | .store .connState _, _ => ℓ.holds = true
  | .taskInc, _ => ℓ.holds = false
  | .sdkCall _ c, _ => (ℓ.refused = true → ℓ.counted = false) ∧
      (c.isConnection = true → ℓ.holds = true)
  | _, _ => True

end Flight

/-- The stage of thread `t` after a history. -/
def flight (t : Tid) (es : History) : Flight := Event.stage Flight.track .free t es

/-- The protocol of the connection operations. -/
abbrev flightProtocol : Protocol ImplSig (Traced ImplSig ImplState) Flight :=
  Protocol.recorded ImplState.exec Flight.Allows Flight.track fun _ => .free

/-- The operation concerns the protocol. -/
def ImplOp.Flies : ImplOp → Prop
  | .taskInc | .taskDec | .sdkCall _ _ => True
  | .casStrong .connState _ _ | .store .connState _ => True
  | _ => False

/-- The others are allowed at every stage and leave it. -/
theorem ImplOp.track_of_not_flies {o : ImplOp} (h : ¬o.Flies) (es : History) (ℓ : Flight)
    (r : o.Resp) : ℓ.Allows o r ∧ ℓ.track es o r = ℓ := by
  cases o with
  | store a v | casStrong a e d => cases a <;> first | exact absurd trivial h | exact ⟨trivial, rfl⟩
  | taskInc | taskDec | sdkCall client c => exact absurd trivial h
  | _ => exact ⟨trivial, rfl⟩

/-- A set of stages at which the SDK may be driven. -/
def Flight.Stable (I : Flight → Prop) : Prop :=
  ∀ ℓ, I ℓ → (ℓ.refused = true → ℓ.counted = false) ∧ I { ℓ with called := ℓ.called || ℓ.counted }

namespace Impl

variable {t : Tid} {α : Type} {ℓ : Flight}

/-- An operation that does not concern the protocol keeps every set of stages. -/
theorem keeps_of_not_flies {o : ImplOp} (h : ¬o.Flies) (I : Flight → Prop) :
    flightProtocol.Keeps I t (perform o) :=
  Protocol.keeps_recorded_perform fun es ℓ r hℓ =>
    ⟨(ImplOp.track_of_not_flies h es ℓ r).1, (ImplOp.track_of_not_flies h es ℓ r).2.symm ▸ hℓ⟩

/-- The operations of the functions other than the calls in flight do not concern the protocol,
except that they drive the SDK. -/
theorem flies_of_quiet {o : ImplOp} (h : o.Quiet ∨ o.LifeWrite ∨ o.WordWrite ∨ o.Lifecycle)
    (hf : o.Flies) : ∃ client c, o = .sdkCall client c ∧ c.isConnection = false := by
  cases o with
  | store a v | casStrong a e d =>
      cases a <;> first | exact hf.elim | (rcases h with h | h | h | h <;> exact h.elim)
  | taskInc | taskDec => rcases h with h | h | h | h <;> exact h.elim
  | sdkCall client c =>
      refine ⟨client, c, rfl, ?_⟩
      rcases h with h | h | h | h
      · cases c <;> first | rfl | cases h
      all_goals exact h.elim
  | _ => exact hf.elim

/-- They keep a stable set. -/
theorem keeps_stable {I : Flight → Prop} (hI : Flight.Stable I) {o : ImplOp}
    (h : o.Quiet ∨ o.LifeWrite ∨ o.WordWrite ∨ o.Lifecycle) :
    flightProtocol.Keeps I t (perform o) := by
  by_cases hf : o.Flies
  · obtain ⟨client, c, rfl, hc⟩ := flies_of_quiet h hf
    exact Protocol.keeps_recorded_perform fun es ℓ r hℓ =>
      ⟨⟨(hI ℓ hℓ).1, fun hconn => absurd (hc.symm.trans hconn) nofun⟩, (hI ℓ hℓ).2⟩
  · exact keeps_of_not_flies hf I

/-- The functions that do not count themselves keep every stable set. -/
theorem blocks_flight {I : Flight → Prop} (hI : Flight.Stable I) :
    Blocks fun _ (p : Impl _) => flightProtocol.Keeps I t p := by
  have hK := Protocol.closed_keeps (ε := Exn) flightProtocol I t
  have hquiet : ∀ o : ImplOp, o.Quiet → flightProtocol.Keeps I t (perform o) := fun o ho =>
    keeps_stable hI (.inl ho)
  have hlife : ∀ o : ImplOp, o.LifeWrite → flightProtocol.Keeps I t (perform o) := fun o ho =>
    keeps_stable hI (.inr (.inl ho))
  have hword : ∀ o : ImplOp, o.WordWrite → flightProtocol.Keeps I t (perform o) := fun o ho =>
    keeps_stable hI (.inr (.inr (.inl ho)))
  exact blocks_of_ops hK hquiet hlife (closed_runCallback hK hquiet hlife hword)
    (closed_probe hK hquiet hlife hword)

/-- Outside of the calls in flight. -/
theorem stable_idle : Flight.Stable fun ℓ => ℓ.counted = false ∧ ℓ.holds = false :=
  fun _ hℓ => ⟨fun _ => hℓ.1, hℓ⟩

/-- In a call that neither holds `m_connState` nor was refused. -/
theorem stable_business : Flight.Stable fun ℓ => ℓ.holds = false ∧ ℓ.refused = false :=
  fun _ hℓ => ⟨fun h => absurd (hℓ.2.symm.trans h) nofun, hℓ⟩

/-- In the call that holds `m_connState`. -/
theorem stable_holding : Flight.Stable fun ℓ => ℓ.holds = true ∧ ℓ.refused = false :=
  fun _ hℓ => ⟨fun h => absurd (hℓ.2.symm.trans h) nofun, hℓ⟩

/-- An SDK call other than those that open and close the connection. -/
theorem keeps_service {I : Flight → Prop} (hI : Flight.Stable I) (client : Handle) {c : SdkCall}
    (hc : c.isConnection = false) : flightProtocol.Keeps I t (sdk client c) :=
  closed_sdk (Protocol.closed_keeps (ε := Exn) flightProtocol I t) (blocks_flight hI).runCallback
    (Protocol.keeps_recorded_perform fun _ ℓ _ hℓ =>
      ⟨⟨(hI ℓ hℓ).1, fun hconn => absurd (hc.symm.trans hconn) nofun⟩, (hI ℓ hℓ).2⟩)
    (keeps_of_not_flies id _)

/-- The holder of `m_connState` may open and close the connection. -/
theorem driving_flight : Driving fun _ (p : Impl _) =>
    flightProtocol.Keeps (fun ℓ => ℓ.holds = true ∧ ℓ.refused = false) t p where
  toBlocks := blocks_flight stable_holding
  sdkConnection _ _ _ :=
    closed_sdk (Protocol.closed_keeps (ε := Exn) flightProtocol _ t)
      (blocks_flight stable_holding).runCallback
      (Protocol.keeps_recorded_perform fun _ ℓ _ hℓ =>
        ⟨⟨(stable_holding ℓ hℓ).1, fun _ => hℓ.1⟩, (stable_holding ℓ hℓ).2⟩)
      (keeps_of_not_flies id _)

/-- A block under a mutex. -/
theorem flight_withLock {m : Mutex} {body : Impl α} {Q : Except Exn α → Flight → Prop}
    (hb : flightProtocol.Follows t body Q ℓ) : flightProtocol.Follows t (withLock m body) Q ℓ :=
  follows_withLock (fun _ => trivial) (fun _ => trivial) (fun _ _ => rfl) (fun _ _ => rfl) hb

/-! ### The calls in flight -/

/-- In the scope of an `InFlightGuard`, before the first SDK call. -/
abbrev fresh : Flight := ⟨true, false, false, false⟩

/-- The stop signal is looked at without a call of the SDK. -/
theorem fresh_stopSignal : flightProtocol.Keeps (· = fresh) t getEffectiveStopSignal :=
  composed_stopSignal (Protocol.closed_keeps _ _ _).toComposed fun a _ =>
    keeps_of_not_flies (o := .load a) id _

/-- So is the client snapshot of `connect` taken. -/
theorem fresh_connectClient : flightProtocol.Keeps (· = fresh) t connectClient :=
  composed_connectClient (Protocol.closed_keeps _ _ _).toComposed
    (fun a _ => keeps_of_not_flies (o := .load a) id _)
    (fun _ _ hb ℓ hℓ => flight_withLock (hb ℓ hℓ)) (keeps_of_not_flies id _)

/-- And that of `disconnect`. -/
theorem fresh_disconnectClient : flightProtocol.Keeps (· = fresh) t disconnectClient :=
  composed_disconnectClient (Protocol.closed_keeps _ _ _).toComposed
    (fun a _ => keeps_of_not_flies (o := .load a) id _)
    (fun _ _ hb ℓ hℓ => flight_withLock (hb ℓ hℓ)) (keeps_of_not_flies id _)

/-- The call is over; if it was refused, it answers `busy`. -/
def Ended (busy : α) (r : Except Exn α) (ℓ : Flight) : Prop :=
  ℓ.counted = false ∧ ℓ.holds = false ∧ (ℓ.refused = true → r = .ok busy)

/-- The winner of `m_connState` releases it however its body ends; a loser finds CONNECTING. -/
theorem flight_singleFlight {busy : ConnState → α} {body : Impl α}
    (hb : flightProtocol.Keeps (fun ℓ => ℓ.holds = true ∧ ℓ.refused = false) t body) :
    flightProtocol.Follows t (singleFlight busy body)
      (fun r ℓ' => ℓ'.holds = false ∧ (ℓ'.refused = true → r = .ok (busy .connecting))) fresh := by
  refine Protocol.follows_recorded_exec fun w es r w' hexec => ⟨rfl, ?_⟩
  cases r with
  | error observed =>
      refine ⟨rfl, fun _ => ?_⟩
      have hne : observed ≠ .idle := by
        have hfail := (ImplState.whenever_eq_some.mp hexec).1
        exact hfail.2.resolve_left nofun
      cases observed with
      | idle => exact absurd rfl hne
      | connecting => rfl
  | ok u =>
      refine Protocol.Follows.ensuring _ (hb _ ⟨rfl, rfl⟩) fun r ℓ' hℓ' => ?_
      refine Protocol.follows_recorded_op fun es' _ => ⟨hℓ'.1, rfl, rfl, fun hrefused => ?_⟩
      exact absurd (hℓ'.2.symm.trans hrefused) nofun

/-- A call in flight. -/
theorem flight_inFlight {body : Impl α} {busy : α} (hℓ : ℓ.counted = false ∧ ℓ.holds = false)
    (hb : flightProtocol.Follows t body
      (fun r ℓ' => ℓ'.holds = false ∧ (ℓ'.refused = true → r = .ok busy)) fresh) :
    flightProtocol.Follows t (inFlight body) (Ended busy) ℓ := by
  refine Protocol.follows_recorded_perform fun es _ => ⟨hℓ.2, ?_⟩
  have hfresh : ℓ.track es .taskInc () = fresh := by
    rw [Flight.track, hℓ.2]
  rw [hfresh]
  refine Protocol.Follows.ensuring _ hb fun r ℓ' hr => ?_
  exact Protocol.follows_recorded_op fun es' _ => ⟨trivial, rfl, rfl, hr.1, hr.2⟩

/-- `connect` gives `m_connState` back; a loser answers THREADBUSY. -/
theorem flight_connect (hℓ : ℓ.counted = false ∧ ℓ.holds = false) :
    flightProtocol.Follows t connect (Ended (.error .threadbusy)) ℓ := by
  refine flight_inFlight hℓ (Protocol.Follows.bind _ (fresh_stopSignal _ rfl) ?_ ?_)
  · rintro stop _ rfl
    cases stop with
    | true => exact ⟨rfl, nofun⟩
    | false =>
        refine Protocol.Follows.bind _ (fresh_connectClient _ rfl) ?_ ?_
        · rintro r _ rfl
          cases r with
          | error e => exact ⟨rfl, nofun⟩
          | ok client => exact flight_singleFlight (driving_flight.connectHeld client)
        · rintro e _ rfl
          exact ⟨rfl, nofun⟩
  · rintro e _ rfl
    exact ⟨rfl, nofun⟩

/-- So does `disconnect`. -/
theorem flight_disconnect (hℓ : ℓ.counted = false ∧ ℓ.holds = false) :
    flightProtocol.Follows t disconnect (Ended (.error .threadbusy)) ℓ := by
  refine flight_inFlight hℓ (Protocol.Follows.bind _ (fresh_disconnectClient _ rfl) ?_ ?_)
  · rintro r _ rfl
    cases r with
    | error e => exact ⟨rfl, nofun⟩
    | ok client => exact flight_singleFlight (driving_flight.disconnectHeld client)
  · rintro e _ rfl
    exact ⟨rfl, nofun⟩

/-- Every call leaves `m_connState` alone or gives it back. -/
theorem keeps_flight (c : ImplCall) :
    flightProtocol.Keeps (fun ℓ => ℓ.counted = false ∧ ℓ.holds = false) t c.run := by
  have hidle := blocks_flight (t := t) stable_idle
  have hbusiness := blocks_flight (t := t) stable_business
  have hops : ∀ o : ImplOp, o.Lifecycle → flightProtocol.Keeps _ t (perform o) := fun o ho =>
    keeps_stable stable_idle (.inr (.inr (.inr ho)))
  have hgiveUp : flightProtocol.Keeps _ t setGiveUpSignal :=
    composed_setGiveUpSignal hidle.toComposed (fun a => hidle.quiet (.load a)) fun o ho =>
      keeps_stable stable_idle (.inr (.inl ho))
  have hconn : flightProtocol.Keeps (fun ℓ => ℓ.holds = false ∧ ℓ.refused = false) t
      (load .connState) := keeps_of_not_flies id _
  have hinFlight : ∀ {α : Type} {body : Impl α},
      flightProtocol.Keeps (fun ℓ => ℓ.holds = false ∧ ℓ.refused = false) t body →
      flightProtocol.Keeps (fun ℓ => ℓ.counted = false ∧ ℓ.holds = false) t (inFlight body) := by
    intro α body hb ℓ hℓ
    refine Protocol.follows_recorded_perform fun es _ => ⟨hℓ.2, ?_⟩
    refine Protocol.Follows.ensuring _ (hb _ ⟨hℓ.2, rfl⟩) fun r ℓ' hr => ?_
    exact Protocol.follows_recorded_op fun es' _ => ⟨trivial, rfl, rfl, hr.1⟩
  refine hidle.run (hops _ trivial) (hops _ trivial) hgiveUp
    (fun ℓ hℓ => (flight_connect hℓ).mono fun _ _ h => ⟨h.1, h.2.1⟩)
    (fun ℓ hℓ => (flight_disconnect hℓ).mono fun _ _ h => ⟨h.1, h.2.1⟩) (fun nodes => ?_)
    (fun nodes => ?_) (hidle.shutdown hops) c
  · exact hidle.andThen (hidle.checkStop _) fun _ => hinFlight <|
      hbusiness.batchReadCounted hconn (fun client request =>
        hbusiness.withLock _ (keeps_service stable_business client rfl)) nodes
  · exact hidle.andThen (hidle.checkStop _) fun _ => hinFlight <|
      hbusiness.batchWriteCounted hconn (fun client request =>
        hbusiness.withLock _ (keeps_service stable_business client rfl)) nodes

end Impl

/-! ### Runs -/

theorem flight_cons_self (t : Tid) (o : ImplOp) (r : o.Resp) (es : History) :
    flight t (⟨t, o, r⟩ :: es) = (flight t es).track es o r :=
  @Event.stage_cons_self ImplSig Flight Flight.track .free t o r es

theorem flight_cons_ne {t u : Tid} (h : u ≠ t) (o : ImplOp) (r : o.Resp) (es : History) :
    flight t (⟨u, o, r⟩ :: es) = flight t es :=
  @Event.stage_cons_ne ImplSig Flight Flight.track .free t u h o r es

/-- In a history, every thread kept the discipline. -/
def FlightHistory : History → Prop :=
  Event.Each fun es e => (flight e.tid es).Allows e.op e.resp

/-- A call that was refused has called no SDK function, and holds nothing. -/
theorem refused_step {ℓ : Flight} {o : ImplOp} {r : o.Resp} {es : History} (hallows : ℓ.Allows o r)
    (h : ℓ.refused = true → ℓ.called = false ∧ ℓ.holds = false)
    (hrefused : (ℓ.track es o r).refused = true) :
    (ℓ.track es o r).called = false ∧ (ℓ.track es o r).holds = false := by
  cases o with
  | taskInc => cases hrefused
  | sdkCall client c =>
      obtain ⟨hcalled, hholds⟩ := h hrefused
      refine ⟨?_, hholds⟩
      simp [Flight.track, hcalled, hallows.1 hrefused]
  | casStrong a e d =>
      cases a with
      | connState =>
          obtain rfl : ℓ = ⟨true, false, false, false⟩ := hallows
          cases r with
          | ok u => cases hrefused
          | error observed => exact ⟨rfl, rfl⟩
      | _ => exact h hrefused
  | store a v =>
      cases a with
      | connState => exact ⟨(h hrefused).1, rfl⟩
      | _ => exact h hrefused
  | _ => exact h hrefused

/-- In a history in which every thread kept the discipline, it holds of every thread. -/
theorem refused_of_history {t : Tid} {h : History} (hh : FlightHistory h)
    (hrefused : (flight t h).refused = true) :
    (flight t h).called = false ∧ (flight t h).holds = false := by
  induction h with
  | nil => cases hrefused
  | cons e es ih =>
      obtain ⟨hallows, hes⟩ := Event.each_cons.mp hh
      obtain ⟨u, o, r⟩ := e
      by_cases hu : u = t
      · subst hu
        rw [flight_cons_self] at hrefused ⊢
        exact refused_step hallows (ih hes) hrefused
      · rw [flight_cons_ne hu] at hrefused ⊢
        exact ih hes hrefused

/-- `m_connState` is CONNECTING exactly while one thread holds it. -/
structure HeldByOne (s : Traced ImplSig ImplState) : Prop where
  connecting_iff : s.world.connState = .connecting ↔ ∃ t, (flight t s.history).holds = true
  unique : ∀ t u, (flight t s.history).holds = true → (flight u s.history).holds = true → t = u

/-- Only the ends of a `CASGuard` say who holds `m_connState`. -/
theorem holds_of_not_writes {o : ImplOp} (h : ¬o.Writes .connState) (es : History) (ℓ : Flight)
    (r : o.Resp) : (ℓ.track es o r).holds = ℓ.holds := by
  cases o with
  | store a v | casStrong a e d => cases a <;> first | exact absurd rfl h | rfl
  | _ => rfl

/-- Every step of the discipline keeps it. -/
theorem heldByOne_step {t : Tid} {o : ImplOp} {r : o.Resp} {s s' : Traced ImplSig ImplState}
    (ho : Impl.Footprint o) (hs : HeldByOne s) (h : Traced.Step ImplState.exec t o r s s')
    (hallows : (flight t s.history).Allows o r) : HeldByOne s' := by
  obtain ⟨w, es⟩ := s
  obtain ⟨w', es'⟩ := s'
  obtain rfl : es' = ⟨t, o, r⟩ :: es := h.history_eq
  -- nothing changes unless the thread wins or releases `m_connState`
  have hsame : w'.connState = w.connState →
      ((flight t es).track es o r).holds = (flight t es).holds →
      HeldByOne ⟨w', ⟨t, o, r⟩ :: es⟩ := by
    intro hconn hholds
    have hview : ∀ u, (flight u (⟨t, o, r⟩ :: es)).holds = (flight u es).holds := by
      intro u
      by_cases hu : t = u
      · subst hu
        rw [flight_cons_self, hholds]
      · rw [flight_cons_ne hu]
    refine ⟨?_, ?_⟩
    · simp only [hconn, hview]
      exact hs.connecting_iff
    · simp only [hview]
      exact hs.unique
  by_cases hw : o.Writes .connState
  case neg => exact hsame (ImplState.get_of_not_writes h.exec_eq hw) (holds_of_not_writes hw es _ r)
  case pos =>
  cases o with
  | store a v =>
      obtain rfl : a = .connState := hw
      have hv : v = .idle := by
        rcases ho with (ho | ho | ho | ho) | ho <;> first | exact ho | exact ho.elim
      subst hv
      have hexec := h.exec_eq
      cases hexec
      have hnone : ∀ u, (flight u (⟨t, .store .connState .idle, r⟩ :: es)).holds = false := by
        intro u
        by_cases hu : t = u
        · subst hu
          rw [flight_cons_self]
          rfl
        · rw [flight_cons_ne hu]
          exact Bool.eq_false_iff.mpr fun hheld => hu (hs.unique t u hallows hheld)
      refine ⟨⟨nofun, ?_⟩, ?_⟩
      · rintro ⟨u, hu⟩
        exact absurd ((hnone u).symm.trans hu) nofun
      · intro u v hu
        exact absurd ((hnone u).symm.trans hu) nofun
  | casStrong a e d =>
      obtain rfl : a = .connState := hw
      obtain ⟨rfl, rfl⟩ : e = .idle ∧ d = .connecting := by
        rcases ho with (ho | ho | ho | ho) | ho <;> first | exact ho | exact ho.elim
      rcases ImplState.cas_eq_some.mp h.exec_eq with ⟨rfl, hget, heq⟩ | ⟨rfl, -, heq⟩
      · obtain rfl : w' = w.set .connState .connecting := heq
        -- nobody held it before
        have hnone : ∀ u, (flight u es).holds = false := fun u =>
          Bool.eq_false_iff.mpr fun hu =>
            absurd (hget.symm.trans (hs.connecting_iff.mpr ⟨u, hu⟩)) nofun
        have hown : ∀ u,
            (flight u (⟨t, .casStrong .connState .idle .connecting, .ok ()⟩ :: es)).holds = true ↔
              u = t := by
          intro u
          by_cases hu : t = u
          · subst hu
            rw [flight_cons_self]
            exact ⟨fun _ => rfl, fun _ => rfl⟩
          · rw [flight_cons_ne hu, hnone]
            exact ⟨nofun, fun h => absurd h.symm hu⟩
        refine ⟨⟨fun _ => ⟨t, (hown t).mpr rfl⟩, fun _ => rfl⟩, fun u v hu hv => ?_⟩
        exact ((hown u).mp hu).trans ((hown v).mp hv).symm
      · obtain rfl : w' = w := heq
        exact hsame rfl rfl
  | casWeak a e d =>
      obtain rfl : a = .connState := hw
      rcases ho with (ho | ho | ho | ho) | ho <;> exact ho.elim
  | _ => exact hw.elim

variable {calls : Tid → Option ImplCall} {s : ImplState} {c : ImplPool}

/-- Before its call a thread is not counted and holds nothing. -/
theorem flight_follows_start (t : Tid) :
    flightProtocol.Follows t ((ImplPool.start calls s).pool t)
      (fun _ ℓ => ℓ.counted = false ∧ ℓ.holds = false) .free := by
  change flightProtocol.Follows t (ImplCall.thread (calls t)) _ _
  cases calls t with
  | none => exact ⟨rfl, rfl⟩
  | some call => exact Impl.keeps_flight call _ ⟨rfl, rfl⟩

/-- In every run, threads keep the discipline and end without `m_connState`. -/
theorem flightHistory_of_reach (hc : ImplPool.Reach (ImplPool.start calls s) c) :
    FlightHistory c.state.history ∧ ∀ t a, c.Returned t a →
      (flight t c.state.history).counted = false ∧ (flight t c.state.history).holds = false :=
  Protocol.recorded_each (Q := fun _ _ (ℓ : Flight) => ℓ.counted = false ∧ ℓ.holds = false)
    rfl flight_follows_start hc

/-- In every run, `m_connState` is CONNECTING exactly while one thread holds it. -/
theorem heldByOne_of_reach (hidle : s.connState = .idle)
    (hc : ImplPool.Reach (ImplPool.start calls s) c) : HeldByOne c.state := by
  induction hc with
  | refl =>
      refine ⟨⟨fun h => absurd (hidle.symm.trans h) nofun, ?_⟩, ?_⟩
      · rintro ⟨t, ht⟩
        cases ht
      · intro t u ht
        cases ht
  | @tail d c hd hstep ih =>
      have hhistory := (flightHistory_of_reach (hd.tail hstep)).1
      cases hstep with
      | round hp => exact ih
      | @perform t o k r s' hp hs =>
          have ho : Impl.Footprint o := by
            have huses := uses_of_reach hd t
            rw [hp] at huses
            exact huses.1
          refine heldByOne_step ho ih hs ?_
          simp only [hs.history_eq] at hhistory
          exact (Event.each_cons.mp hhistory).1

/-- A `connect` or `disconnect` that was refused answers THREADBUSY. -/
theorem busy_of_returned {t : Tid} {call : ImplCall} {reply : ImplReply} {a : Except Exn ImplReply}
    (hc : ImplPool.Reach (ImplPool.start calls s) c) (ht : calls t = some call)
    (hcall : flightProtocol.Follows t call.run
      (fun a ℓ => ℓ.refused = true → a = .ok reply) .free)
    (ha : c.Returned t a) (hrefused : (flight t c.state.history).refused = true) :
    a = .ok reply := by
  have hf : ∀ u, flightProtocol.Follows u ((ImplPool.start calls s).pool u)
      (fun a ℓ => u = t → ℓ.refused = true → a = .ok reply) .free := by
    intro u
    by_cases hu : u = t
    · subst hu
      change flightProtocol.Follows u (ImplCall.thread (calls u)) _ _
      rw [ht]
      exact hcall.mono fun a ℓ h _ => h
    · exact (flight_follows_start u).mono fun _ _ _ h => absurd h hu
  have hended := (Protocol.recorded_each
    (Q := fun u a (ℓ : Flight) => u = t → ℓ.refused = true → a = .ok reply) rfl hf hc).2
  exact hended t a ha rfl hrefused

/-- A loser of the compare-exchange answers `busy`, in whatever thread `p` runs. -/
def LoserAnswers {α : Type} (p : Impl α) (busy : α) : Prop :=
  ∀ (t : Tid) (ℓ : Flight), ℓ.counted = false ∧ ℓ.holds = false →
    flightProtocol.Follows t p (fun r ℓ' => ℓ'.refused = true → r = .ok busy) ℓ

/-- Connection operations fly alone. -/
structure SingleFlight (calls : Tid → Option ImplCall) (c : ImplPool) : Prop extends
    HeldByOne c.state where
  /-- Every exit of a call gives `m_connState` back. -/
  returned : ∀ t a, c.Returned t a → (flight t c.state.history).holds = false
  /-- Only the holder writes `m_connState` back. -/
  released : ∀ t v es, ⟨t, .store .connState v, ()⟩ :: es <:+ c.state.history →
    (flight t es).holds = true
  /-- Only the holder opens and closes the connection. -/
  issued : ∀ t client call r es, ⟨t, .sdkCall client call, r⟩ :: es <:+ c.state.history →
    call.isConnection = true → (flight t es).holds = true
  /-- A call that was refused calls no SDK function and holds nothing. -/
  refused : ∀ t, (flight t c.state.history).refused = true →
    (flight t c.state.history).called = false ∧ (flight t c.state.history).holds = false
  /-- It answers THREADBUSY. -/
  connect_busy : ∀ t a, calls t = some .connect → c.Returned t a →
    (flight t c.state.history).refused = true → a = .ok (.connect (.error .threadbusy))
  disconnect_busy : ∀ t a, calls t = some .disconnect → c.Returned t a →
    (flight t c.state.history).refused = true → a = .ok (.disconnect (.error .threadbusy))

/-- Connection operations fly alone, in every pool of calls on an idle `Impl` and whatever the SDK
answers or throws; a loser answers THREADBUSY, to the watchdog as to a user. -/
theorem singleFlight (hidle : s.connState = .idle)
    (hc : ImplPool.Reach (ImplPool.start calls s) c) :
    SingleFlight calls c ∧ LoserAnswers Impl.connect (.error .threadbusy) ∧
      LoserAnswers Impl.disconnect (.error .threadbusy) := by
  obtain ⟨hhistory, hreturned⟩ := flightHistory_of_reach hc
  have hconnect : LoserAnswers Impl.connect (.error .threadbusy) := fun t ℓ hℓ =>
    (Impl.flight_connect hℓ).mono fun _ _ h => h.2.2
  have hdisconnect : LoserAnswers Impl.disconnect (.error .threadbusy) := fun t ℓ hℓ =>
    (Impl.flight_disconnect hℓ).mono fun _ _ h => h.2.2
  refine ⟨⟨heldByOne_of_reach hidle hc, fun t a ha => (hreturned t a ha).2,
    fun t v es hs => hhistory _ _ hs, fun t client call r es hs => (hhistory _ _ hs).2,
    fun t => refused_of_history hhistory, fun t a ht => busy_of_returned hc ht ?_,
    fun t a ht => busy_of_returned hc ht ?_⟩, hconnect, hdisconnect⟩
  · refine Protocol.Follows.bind _ (hconnect t _ ⟨rfl, rfl⟩) (fun r ℓ h hrefused => ?_)
      fun e ℓ h hrefused => absurd (h hrefused) nofun
    cases h hrefused
    rfl
  · refine Protocol.Follows.bind _ (hdisconnect t _ ⟨rfl, rfl⟩) (fun r ℓ h hrefused => ?_)
      fun e ℓ h hrefused => absurd (h hrefused) nofun
    cases h hrefused
    rfl

/-- A user connects, and another disconnects meanwhile. -/
def disconnectDuringConnect : Option ImplPool :=
  let env : Environment := {}
  ImplPool.run [.connect, .disconnect] (.construct {} "opc.tcp://plc:4840" 1)
    (env.moves 0 9 ++ env.moves 1 8)

/-- The second is refused while the first holds `m_connState`. -/
theorem singleFlight_refused :
    ∃ c : ImplPool, SingleFlight (callsOf [.connect, .disconnect]) c ∧
      c.state.world.connState = .connecting ∧
      c.Returned 1 (.ok (.disconnect (.error .threadbusy))) := by
  have hplay : disconnectDuringConnect.any (fun d => d.state.world.connState == .connecting &&
      d.result? 1 == some (.ok (.disconnect (.error .threadbusy)))) = true := by
    decide
  obtain ⟨d, -, hd, hcheck⟩ := Config.exists_reach_of_play hplay
  simp only [Bool.and_eq_true, beq_iff_eq] at hcheck
  exact ⟨d, (singleFlight rfl hd).1, hcheck.1, Config.returned_of_result? hcheck.2⟩

end OPCUAPacking
