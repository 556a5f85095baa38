import OPCUAPacking.Impl.Exits
import OPCUAPacking.Impl.Promotion
import OPCUAPacking.Impl.Session
import OPCUAPacking.Interleaving.Returns

/-!
# Whether the two health queries agree

`isHealthy` and `checkConnected` refuse a client that was given up, and otherwise look at the cached
state only; `checkLifeState` reports the life state. A RECOVERING client whose newest report is
ready is healthy to the first and not RUNNING to the second.

* `newestTriple`, `newestLost` — the newest report of the SDK, read off the history.
* `Session.keeps_live` — what every operation of an open `Impl` keeps holds throughout a session.
* `queriesAgree` — when a query that succeeds finds the client RUNNING.
-/

namespace OPCUAPacking

open Interleaving

/-- The triple that was written last, `f₀` before the first write. -/
def newestTriple (f₀ : Triple) : History → Triple
  | [] => f₀
  | ⟨_, .casWeak .statePacked _ d, .ok _⟩ :: _ => (unpackState d).triple
  | ⟨_, .casStrong .statePacked _ d, .ok _⟩ :: _ => (unpackState d).triple
  | _ :: es => newestTriple f₀ es

/-- What was written last to the lost flag, `b₀` before the first write. -/
def newestLost (b₀ : Bool) : History → Bool
  | [] => b₀
  | ⟨_, .store .connectionLost v, _⟩ :: _ => v
  | _ :: es => newestLost b₀ es

/-- The history that began in `s` says what the SDK has reported. -/
structure Recorded (s : ImplState) (m : Moment) : Prop where
  lost : m.world.connectionLost = newestLost s.connectionLost m.history
  triple : (unpackState m.world.statePacked).triple =
    newestTriple (unpackState s.statePacked).triple m.history

/-- The state is healthy exactly if the newest report is. -/
theorem Recorded.isHealthy_eq {s : ImplState} {m : Moment} (hm : Recorded s m) :
    m.world.isHealthy = (!newestLost s.connectionLost m.history &&
      (newestTriple (unpackState s.statePacked).triple m.history).isReady) := by
  rw [ImplState.isHealthy, hm.lost, hm.triple]

section Steps

variable {ok : Moment → Event ImplSig → Prop} {s : ImplState} {m m' : Moment} {o : ImplOp}
  {r : o.Resp} {t : Tid} {h : History}

theorem newestLost_cons {b₀ : Bool} (ho : ¬o.Writes .connectionLost) :
    newestLost b₀ (⟨t, o, r⟩ :: h) = newestLost b₀ h := by
  cases o with
  | store a v => cases a <;> first | exact absurd rfl ho | rfl
  | _ => rfl

theorem newestTriple_cons {f₀ : Triple} (ho : ¬o.Writes .statePacked) :
    newestTriple f₀ (⟨t, o, r⟩ :: h) = newestTriple f₀ h := by
  cases o with
  | casWeak a e d | casStrong a e d => cases a <;> first | exact absurd rfl ho | rfl
  | _ => rfl

/-- Only the compare-exchanges of the reports write the word. -/
theorem ImplOp.Live.word_of_writes (ho : o.Live) (hw : o.Writes .statePacked) :
    (∃ e d, o = .casWeak .statePacked e d) ∨ ∃ e d, o = .casStrong .statePacked e d := by
  cases o with
  | store a v =>
      obtain rfl : a = .statePacked := hw
      rcases ho with ho | ho | ho | ho <;> exact ho.elim
  | casWeak a e d =>
      obtain rfl : a = .statePacked := hw
      exact .inl ⟨e, d, rfl⟩
  | casStrong a e d =>
      obtain rfl : a = .statePacked := hw
      exact .inr ⟨e, d, rfl⟩
  | _ => exact hw.elim

theorem Recorded.step (hm : Recorded s m) (ho : o.Live) (h : AloneStep ok o r m m') :
    Recorded s m' := by
  constructor
  · rw [h.history_eq]
    by_cases hw : o.Writes .connectionLost
    · obtain ⟨v, rfl⟩ := ho.lost_of_writes hw
      rw [AloneStep.store h]
      rfl
    · rw [newestLost_cons hw, ← hm.lost]
      exact ImplState.get_of_not_writes (a := .connectionLost) h.exec_eq hw
  · rw [h.history_eq]
    by_cases hw : o.Writes .statePacked
    · have hcas : ∀ {weak : Bool} {e d : BitVec 64} {r : Except (BitVec 64) Unit},
          m.world.cas weak .statePacked e d r = some m'.world →
          (r = .ok () ∧ m'.world.statePacked = d) ∨
            ((∃ v, r = .error v) ∧ m'.world.statePacked = m.world.statePacked) := by
        intro weak e d r hstep
        rcases ImplState.cas_eq_some.mp hstep with ⟨rfl, -, hworld⟩ | ⟨rfl, -, hworld⟩
        · exact .inl ⟨rfl, by rw [hworld]; rfl⟩
        · exact .inr ⟨⟨_, rfl⟩, by rw [hworld]⟩
      obtain ⟨e, d, rfl⟩ | ⟨e, d, rfl⟩ := ho.word_of_writes hw
      all_goals
        rcases hcas h.exec_eq with ⟨rfl, hword⟩ | ⟨⟨v, rfl⟩, hword⟩
        · rw [hword]
          rfl
        · rw [hword]
          exact hm.triple
    · have hword : m'.world.statePacked = m.world.statePacked :=
        ImplState.get_of_not_writes (a := .statePacked) h.exec_eq hw
      rw [newestTriple_cons hw, ← hm.triple, hword]

end Steps

/-! ### Sessions -/

namespace Impl

/-- The calls of a session keep to the operations of an open `Impl`. -/
theorem uses_live_session (c : SessionCall) : Uses ImplOp.Live _ c.run :=
  composed_sessionCall busy_live.toPolling c busy_live.connect busy_live.disconnect fun _ =>
    busy_live.doWatchdogDecision busy_live.connect busy_live.disconnect

end Impl

/-- What every operation of an open `Impl` keeps holds throughout a session. -/
theorem Session.keeps_live {ok : Moment → Event ImplSig → Prop} {s : ImplState} {I : Moment → Prop}
    (hI : ∀ o : ImplOp, o.Live → ∀ r m m', I m → AloneStep ok o r m m' → I m')
    (hstart : I (.start s)) {m : Moment} (hm : Session ok s m) : I m :=
  have hcall : ∀ c : SessionCall, (aloneProtocol ok fun _ => True).Keeps I 0 c.run := fun c =>
    Protocol.keeps_solo_of_uses (fun _ _ => trivial) hI (Impl.uses_live_session c)
  hm.keeps (fun _ _ => trivial) hcall hstart

/-- The two health queries. -/
def SessionCall.IsQuery (c : SessionCall) : Prop := c = .isHealthy ∨ c = .checkConnected

/-! ### Exceptions -/

/-- A call of the SDK or of its clock has thrown. -/
def ImplOp.Threw : (o : ImplOp) → o.Resp → Prop
  | .sdkReturn _ _, .error _ => True
  | .nowMs, .error _ => True
  | _, _ => False

/-- An operation that is no such call. -/
def ImplOp.NeverThrows (o : ImplOp) : Prop := ∀ r, ¬o.Threw r

/-- One has thrown since the moment `m₀`. -/
def ThrownSince (m₀ m : Moment) : Prop :=
  ∃ e es, e :: es <:+ m.history ∧ m₀.history <:+ es ∧ ImplOp.Threw e.op e.resp

/-- None has. -/
def Smooth (m₀ m : Moment) : Prop := m₀.history <:+ m.history ∧ ¬ThrownSince m₀ m

section Smooth

variable {m₀ m m' : Moment} {o : ImplOp} {r : o.Resp}

theorem smooth_self (m : Moment) : Smooth m m := by
  refine ⟨List.suffix_refl _, ?_⟩
  rintro ⟨e, es, hs, hes, -⟩
  exact absurd (hs.length_le.trans hes.length_le) (by simp)

/-- What has been thrown stays in the history. -/
theorem ThrownSince.step (hm : ThrownSince m₀ m) (h : AloneStep AnyStep o r m m') :
    ThrownSince m₀ m' := by
  obtain ⟨e, es, hs, hes, he⟩ := hm
  exact ⟨e, es, h.history_eq ▸ hs.trans (List.suffix_cons _ _), hes, he⟩

/-- An operation that throws is in it. -/
theorem thrownSince_step (hm : Smooth m₀ m) (h : AloneStep AnyStep o r m m') (ho : o.Threw r) :
    ThrownSince m₀ m' :=
  ⟨⟨0, o, r⟩, m.history, h.history_eq ▸ List.suffix_refl _, hm.1, ho⟩

/-- Any other is not. -/
theorem Smooth.step (hm : Smooth m₀ m) (h : AloneStep AnyStep o r m m') (ho : ¬o.Threw r) :
    Smooth m₀ m' := by
  refine ⟨h.history_eq ▸ hm.1.trans (List.suffix_cons _ _), ?_⟩
  rintro ⟨e, es, hs, hes, he⟩
  rw [h.history_eq] at hs
  rcases List.suffix_cons_iff.mp hs with heq | hs
  · cases heq
    exact ho he
  · exact hm.2 ⟨e, es, hs, hes, he⟩

end Smooth

namespace Impl

variable {m₀ : Moment} {α β : Type}

/-- The function ends with an exception exactly if a call of the SDK or of its clock has thrown. -/
def Strict (m₀ : Moment) (p : Impl α) : Prop :=
  ∀ m, Smooth m₀ m → Alone AnyStep (fun _ => True) p
    (Ends (ThrownSince m₀) fun _ => Smooth m₀) m

theorem strict_pure (a : α) : Strict m₀ (pure a : Impl α) := fun _ hm => hm

theorem strict_bind {p : Impl α} {f : α → Impl β} (hp : Strict m₀ p) (hf : ∀ a, Strict m₀ (f a)) :
    Strict m₀ (p >>= f) := fun m hm =>
  alone_bind _ (hp m hm) (fun a m' hm' => hf a m' hm') fun _ _ h => h

theorem strict_ite {c : Prop} [Decidable c] {p q : Impl α} (hp : Strict m₀ p) (hq : Strict m₀ q) :
    Strict m₀ (if c then p else q) := by
  split_ifs
  · exact hp
  · exact hq

/-- The calls of the SDK and of its clock, whose exception is thrown on. -/
theorem strict_orThrow {o : ImplOp} {f : o.Resp → Except Exn α}
    (ho : ∀ r, o.Threw r ↔ ∃ e, f r = .error e) :
    Strict m₀ (perform o >>= fun r => orThrow (f r)) := by
  refine fun m hm => alone_step fun r m' _ hstep => ⟨trivial, ?_⟩
  cases hr : f r with
  | error e => exact thrownSince_step hm hstep ((ho r).mpr ⟨e, hr⟩)
  | ok a =>
      refine hm.step hstep fun hthrew => ?_
      obtain ⟨e, he⟩ := (ho r).mp hthrew
      cases hr.symm.trans he

/-- A program without exceptions that makes no such call. -/
theorem strict_of_uses {p : Impl α} (hp : Uses ImplOp.NeverThrows _ p)
    (hn : Proc.NoThrow p) : Strict m₀ p := fun m hm =>
  ((Protocol.keeps_solo_of_uses (I := Smooth m₀) (fun _ _ => trivial)
    (fun _ ho r _ _ hs hstep => hs.step hstep (ho r)) hp m hm).and_returns hn).mono
    (by rintro _ m' ⟨hm', a, rfl⟩; exact hm')

theorem strict_perform {o : ImplOp} (ho : o.NeverThrows) : Strict m₀ (perform o) :=
  strict_of_uses (uses_perform ho) (Proc.noThrow_perform (S := ImplSig) o)

theorem strict_withLock {x : Mutex} {body : Impl α} (hb : Strict m₀ body) :
    Strict m₀ (withLock x body) := by
  refine strict_bind (strict_perform (o := .lock x) fun _ => id) fun _ m hm => ?_
  refine Protocol.Follows.ensuring _ (hb m hm) fun r m₁ hr => ?_
  refine Protocol.follows_solo_perform fun _ m₂ _ hunlock => ⟨trivial, rfl, ?_⟩
  cases r with
  | error e => exact ThrownSince.step hr hunlock
  | ok a => exact Smooth.step hr hunlock id

/-- The callbacks throw nothing. -/
theorem strict_runCallback (cb : Callback) : Strict m₀ (runCallback cb) := by
  refine strict_of_uses ?_ ?_
  · have hK := @Proc.closed_uses ImplSig Exn ImplOp.NeverThrows
    refine composed_runCallback hK.toComposed (fun a _ => uses_perform fun _ => id)
      (fun o ho => uses_perform fun r => ?_) (uses_perform fun _ => id) cb
    cases o <;> first | exact id | exact ho.elim
  · exact composed_runCallback Proc.composed_noThrow
      (fun a _ => Proc.noThrow_perform (S := ImplSig) (.load a))
      (fun o _ => Proc.noThrow_perform (S := ImplSig) o)
      (Proc.noThrow_perform (S := ImplSig) (.store .connectionLost true)) cb

theorem strict_sdk (client : Handle) (c : SdkCall) : Strict m₀ (sdk client c) := by
  refine strict_bind (strict_perform (o := .sdkCall client c) fun _ => id) fun callbacks =>
    strict_bind ?_ fun _ => strict_orThrow (o := .sdkReturn client c) (f := id) fun r => ?_
  · induction callbacks with
    | nil => exact strict_pure ()
    | cons cb cbs ih => exact strict_bind (strict_runCallback cb) fun _ => ih
  · cases r with
    | error e => exact iff_of_true trivial ⟨e, rfl⟩
    | ok a => exact iff_of_false id nofun

theorem strict_nowMs : Strict m₀ nowMs := by
  refine strict_orThrow (o := .nowMs) (f := id) fun r => ?_
  cases r with
  | error e => exact iff_of_true trivial ⟨e, rfl⟩
  | ok a => exact iff_of_false id nofun

theorem strict_updateBadStatusTime : Strict m₀ updateBadStatusTime :=
  strict_withLock (strict_bind (strict_perform (o := .load .lastBadStatusMs) fun _ => id) fun _ =>
    strict_ite (strict_bind strict_nowMs fun now =>
      strict_perform (o := .store .lastBadStatusMs now) fun _ => id) (strict_pure ()))

theorem strict_stopSignal : Strict m₀ getEffectiveStopSignal := by
  have hK := @Proc.closed_uses ImplSig Exn ImplOp.NeverThrows
  exact strict_of_uses (composed_stopSignal hK.toComposed fun a _ => uses_perform fun _ => id)
    (composed_stopSignal Proc.composed_noThrow fun a _ =>
      Proc.noThrow_perform (S := ImplSig) (.load a))

theorem strict_isHealthyCached : Strict m₀ isHealthyCached :=
  strict_bind (strict_perform (o := .load .connectionLost) fun _ => id) fun _ =>
    strict_ite (strict_pure _)
      (strict_bind (strict_perform (o := .loadFields) fun _ => id) fun _ => strict_pure _)

theorem strict_probe (client : Handle) : Strict m₀ (probe client) := by
  refine strict_bind (strict_perform (o := .load .statePacked) fun _ => id) fun expected =>
    strict_bind (strict_withLock (strict_sdk client .getState)) fun f =>
      strict_bind (strict_bind (strict_perform (o := .casStrong .statePacked expected
        (f.pack ((unpackState expected).version + 1))) fun _ => id) fun r => ?_) fun _ =>
          strict_pure f
  cases r <;> exact strict_pure _

/-- The health probe. -/
theorem strict_isConnected (ms : UInt32) : Strict m₀ (isConnected ms) := by
  refine strict_bind (strict_withLock strict_stopSignal) fun _ => strict_ite (strict_pure _)
    (strict_bind (strict_withLock (strict_perform (o := .copyImpl) fun _ => id)) fun impl => ?_)
  cases impl with
  | none => exact strict_pure _
  | some client =>
      exact strict_bind (strict_withLock (strict_bind (strict_sdk client (.runIterate ms)) fun _ =>
        strict_pure ())) fun _ => strict_bind (strict_probe client) fun _ =>
          strict_bind (strict_ite strict_updateBadStatusTime (strict_pure ())) fun _ =>
            strict_bind strict_isHealthyCached fun _ => strict_pure _

end Impl

/-! ### Queries -/

section Queries

variable {m₀ m : Moment}

/-- In an open `Impl` whose life state a query has not changed. -/
def AskedAt (m₀ m : Moment) : Prop := m.world.IsOpen ∧ m.world.lifeState = m₀.world.lifeState

/-- What a query says: it refuses a client that was given up, else its answer is what the state
says. -/
def Answers (m₀ : Moment) (r : Result Unit RichError) (m : Moment) : Prop :=
  if m₀.world.lifeState = .givenUp then ∃ e, r = .error e
  else r = .ok () ↔ m.world.isHealthy = true

/-- How a query ends: with the error of an exception that it has caught, or with an answer. -/
def QueryEnds (m₀ : Moment) (r : Except Exn (Result Unit RichError)) (m : Moment) : Prop :=
  AskedAt m₀ m ∧ ∃ a, r = .ok a ∧
    ((ThrownSince m₀ m ∧ ∃ e, a = .error (.ofExn "System error:" e)) ∨
      (¬ThrownSince m₀ m ∧ Answers m₀ a m))

namespace Impl

theorem drifting_askedAt (m₀ : Moment) : Drifting AnyStep (fun _ => True) (AskedAt m₀) where
  inv _ _ := trivial
  drift o ho r m m' hm h := by
    refine ⟨(ImplState.open_of_exec ho.live hm.1 h.exec_eq).1, ?_⟩
    exact (ImplState.get_of_not_writes (a := .lifeState) h.exec_eq
      (ho.not_writes nofun nofun)).trans hm.2
  timer := keeps_updateBadStatusTime (fun _ _ => trivial) fun o ho r m m' hm h => by
    refine ⟨(ImplState.open_of_exec ho.live hm.1 h.exec_eq).1, ?_⟩
    exact (ImplState.get_of_not_writes (a := .lifeState) h.exec_eq (ho.not_writes nofun)).trans hm.2

/-- The stop signal of an open client is that it was given up. -/
theorem stopSignal_of_isOpen {s : ImplState} (hs : s.IsOpen) :
    s.stopSignal = (s.lifeState == .givenUp) := by
  rw [ImplState.stopSignal, hs.1]
  rfl

/-- A query, from its part after the look at the stop signal. -/
theorem asked_query (name : String) {p : Impl (Result Unit RichError)} (hm : AskedAt m₀ m)
    (hsmooth : Smooth m₀ m) (hstrict : Strict m₀ p)
    (hp : m₀.world.lifeState ≠ .givenUp → ∀ m', AskedAt m₀ m' → Alone AnyStep (fun _ => True) p
      (Ends (AskedAt m₀) fun a m' =>
        AskedAt m₀ m' ∧ (a = .ok () ↔ m'.world.isHealthy = true)) m') :
    Alone AnyStep (fun _ => True) (Api.query name p) (QueryEnds m₀) m := by
  have hstop :=
    (alone_stopSignal (drifting_askedAt m₀).looking hm).and (strict_stopSignal m hsmooth)
  refine alone_bind _ hstop ?_ ?_
  · rintro stop m₁ ⟨⟨⟨⟩, -, hm₁⟩, hsmooth₁⟩
    rw [stopSignal_of_isOpen hm.1]
    by_cases hgone : m.world.lifeState = .givenUp
    · rw [hgone]
      refine ⟨hm₁, _, rfl, .inr ⟨hsmooth₁.2, ?_⟩⟩
      rw [Answers, if_pos (hm.2.symm.trans hgone)]
      exact ⟨_, rfl⟩
    · rw [beq_eq_false_iff_ne.mpr hgone]
      have hlife : m₀.world.lifeState ≠ .givenUp := fun h => hgone (hm.2.trans h)
      -- the handlers turn an exception into an error
      refine alone_bind (fun r m' => ∃ a, r = .ok a ∧ Ends (AskedAt m₀) (fun a m' =>
        AskedAt m₀ m' ∧ (a = .ok () ↔ m'.world.isHealthy = true)) a m' ∧
          Ends (ThrownSince m₀) (fun _ => Smooth m₀) a m') ?_ ?_ ?_
      · exact Protocol.follows_attempt.mpr
          (((hp hlife m₁ hm₁).and (hstrict m₁ hsmooth₁)).mono fun a _ h => ⟨a, rfl, h⟩)
      · rintro a m₂ ⟨_, ⟨⟩, hm₂, hthrown⟩
        cases a with
        | error e => exact ⟨hm₂, _, rfl, .inl ⟨hthrown, e, rfl⟩⟩
        | ok a =>
            refine ⟨hm₂.1, a, rfl, .inr ⟨hthrown.2, ?_⟩⟩
            rw [Answers, if_neg hlife]
            exact hm₂.2
      · rintro e m₂ ⟨a, ⟨⟩, -⟩
  · rintro e m₁ ⟨⟨⟨⟩, -⟩, -⟩

/-- `isHealthy`. -/
theorem asked_isHealthy (hm : AskedAt m₀ m) (hsmooth : Smooth m₀ m) :
    Alone AnyStep (fun _ => True) Api.isHealthy (QueryEnds m₀) m := by
  refine asked_query _ hm hsmooth (strict_bind strict_isHealthyCached fun _ =>
    strict_ite (strict_pure _) (strict_pure _)) fun _ m₁ hm₁ => ?_
  refine alone_sees (alone_isHealthyCached (drifting_askedAt m₀).looking hm₁)
    fun m₂ hm₂ hworld => ?_
  cases hhealthy : m₁.world.isHealthy with
  | true => exact ⟨hm₂, (iff_of_true rfl (hworld ▸ hhealthy))⟩
  | false => exact ⟨hm₂, (iff_of_false nofun (by rw [hworld, hhealthy]; nofun))⟩

/-- `checkConnected`. -/
theorem asked_checkConnected (hm : AskedAt m₀ m) (hsmooth : Smooth m₀ m) :
    Alone AnyStep (fun _ => True) Api.checkConnected (QueryEnds m₀) m := by
  refine asked_query _ hm hsmooth (strict_bind (strict_isConnected 0) fun r => ?_)
    fun hlife m₁ hm₁ => ?_
  · rcases r with e | (_ | _) <;> exact strict_pure _
  refine alone_bind _ (alone_isConnected (drifting_askedAt m₀) 0 hm₁) ?_ fun _ _ h => h
  rintro (e | healthy) m₂ h
  · obtain ⟨hm₂, -, hgone⟩ := h
    -- an open client that was not given up is not gone
    exact absurd hgone (ImplState.IsLive.not_isGone ⟨hm₂.1, hm₂.2.trans_ne hlife⟩)
  · obtain ⟨hm₂, rfl⟩ := h
    cases hhealthy : m₂.world.isHealthy with
    | true => exact ⟨hm₂, (iff_of_true rfl hhealthy)⟩
    | false => exact ⟨hm₂, (iff_of_false nofun (by rw [hhealthy]; nofun))⟩

/-- Both queries, with the reply of the call. -/
theorem asked_sessionCall {c : SessionCall} (hc : c.IsQuery) (hm : AskedAt m₀ m)
    (hsmooth : Smooth m₀ m) : Alone AnyStep (fun _ => True) c.run
      (fun r m' => ∃ a, r = .ok (.api a) ∧ QueryEnds m₀ (.ok a) m') m := by
  have hreply : ∀ p : Impl (Result Unit RichError),
      Alone AnyStep (fun _ => True) p (QueryEnds m₀) m →
      Alone AnyStep (fun _ => True) (replying .api p)
        (fun r m' => ∃ a, r = .ok (.api a) ∧ QueryEnds m₀ (.ok a) m') m := by
    intro p hp
    refine alone_bind _ hp (fun a m₁ h => ⟨a, rfl, h⟩) ?_
    rintro e m₁ ⟨-, a, ⟨⟩, -⟩
  rcases hc with rfl | rfl
  · exact hreply _ (asked_isHealthy hm hsmooth)
  · exact hreply _ (asked_checkConnected hm hsmooth)

/-- The checks of the life state and of `m_connState` of a batch pass on a RUNNING client with no
connection operation in progress. -/
theorem alone_checkState (givenUp recovering busy : String) (hlife : m.world.lifeState = .running)
    (hidle : m.world.connState = .idle) :
    Alone AnyStep (fun _ => True) (checkState givenUp recovering busy)
      (fun r _ => r = .ok (.ok ())) m := by
  have hI : Looking AnyStep (fun _ => True) fun _ => True :=
    ⟨fun _ _ => trivial, fun _ _ _ _ _ _ _ => trivial⟩
  refine alone_load hI trivial (a := .lifeState) rfl fun m₁ _ hworld₁ => ?_
  rw [if_neg (by rw [ImplState.get, hlife]; decide)]
  refine alone_load hI trivial (a := .lifeState) rfl fun m₂ _ hworld₂ => ?_
  rw [if_neg (by rw [hworld₁, ImplState.get, hlife]; decide)]
  refine alone_step (o := .load .connState) fun conn m₃ _ hstep => ⟨trivial, ?_⟩
  obtain ⟨rfl, -⟩ := AloneStep.load hstep
  rw [if_neg (by rw [hworld₂, hworld₁, ImplState.get, hidle]; decide)]
  exact rfl

end Impl

end Queries

/-! ### The batches -/

/-- A look at the life state, or at `m_connState`, with which the checks of a batch are content. -/
def Passes : Event ImplSig → Prop
  | ⟨_, .load .lifeState, life⟩ => life = .running
  | ⟨_, .load .connState, conn⟩ => conn = .idle
  | _ => True

/-- A RUNNING client with no connection operation in progress, which every look since the moment
`m₀` has found so. -/
structure Passing (m₀ m : Moment) : Prop where
  running : m.world.lifeState = .running
  idle : m.world.connState = .idle
  looks : ∀ e es, e :: es <:+ m.history → m₀.history <:+ es → Passes e

section Passing

variable {m₀ m m' : Moment} {o : ImplOp} {r : o.Resp}

/-- Operations that write neither keep it so. -/
theorem Passing.step (hm : Passing m₀ m) (hlife : ¬o.Writes .lifeState)
    (hconn : ¬o.Writes .connState) (h : AloneStep AnyStep o r m m') : Passing m₀ m' where
  running := (ImplState.get_of_not_writes (a := .lifeState) h.exec_eq hlife).trans hm.running
  idle := (ImplState.get_of_not_writes (a := .connState) h.exec_eq hconn).trans hm.idle
  looks e es hs hes := by
    rw [h.history_eq] at hs
    rcases List.suffix_cons_iff.mp hs with heq | hs
    · cases heq
      cases o with
      | load a =>
          obtain ⟨rfl, -⟩ := AloneStep.load h
          cases a <;> first | exact hm.running | exact hm.idle | trivial
      | _ => trivial
    · exact hm.looks e es hs hes

/-- Polling writes neither. -/
theorem drifting_passing (m₀ : Moment) : Drifting AnyStep (Passing m₀) (Passing m₀) where
  inv _ hm := hm
  drift _ ho _ _ _ hm h := hm.step (ho.not_writes nofun nofun) (ho.not_writes nofun nofun) h
  timer := Impl.keeps_updateBadStatusTime (fun _ hm => hm) fun _ ho _ _ _ hm h =>
    hm.step (ho.not_writes nofun) (ho.not_writes nofun) h

end Passing

/-- A read or a write. -/
def ImplCall.IsBatch : ImplCall → Prop
  | .batchRead _ | .batchWrite _ => True
  | _ => False

/-- Neither does a batch. -/
theorem Impl.passing_batch (m₀ : Moment) {call : ImplCall} (hcall : call.IsBatch) :
    (aloneProtocol AnyStep (Passing m₀)).Keeps (Passing m₀) 0 call.run := by
  have hP := polling_of_drifting (drifting_passing m₀)
  have hK := Protocol.closed_keeps (ε := Exn) (aloneProtocol AnyStep (Passing m₀)) (Passing m₀) 0
  have hop : ∀ o : ImplOp, ¬o.Writes .lifeState → ¬o.Writes .connState →
      (aloneProtocol AnyStep (Passing m₀)).Keeps (Passing m₀) 0 (perform o) :=
    fun o hlife hconn m hm => Protocol.follows_solo_perform fun r m' _ h =>
      ⟨hm.step hlife hconn h, hm.step hlife hconn h⟩
  have hservice : ∀ client c, (aloneProtocol AnyStep (Passing m₀)).Keeps (Passing m₀) 0
      (Impl.withLock .sdkMutex (Impl.sdk client c)) := fun client c =>
    hP.withLock _ (closed_sdk hK hP.runCallback (hop (.sdkCall client c) id id)
      (hop (.sdkReturn client c) id id))
  have hconn := hop (.load .connState) id id
  have hinFlight : ∀ {α : Type} {body : Impl α},
      (aloneProtocol AnyStep (Passing m₀)).Keeps (Passing m₀) 0 body →
      (aloneProtocol AnyStep (Passing m₀)).Keeps (Passing m₀) 0 (inFlight body) := fun hb =>
    hK.bind (hop .taskInc id id) fun _ => hK.ensuring (hop .taskDec id id) hb
  cases call with
  | batchRead nodes =>
      exact hK.bind (hP.andThen (hP.checkStop _) fun _ => hinFlight
        (hP.batchReadCounted hconn (fun client _ => hservice client _) nodes)) fun _ => hK.pure _
  | batchWrite nodes =>
      exact hK.bind (hP.andThen (hP.checkStop _) fun _ => hinFlight
        (hP.batchWriteCounted hconn (fun client _ => hservice client _) nodes)) fun _ => hK.pure _
  | _ => exact hcall.elim

/-! ### The exact condition -/

/-- A batch that is issued next is not refused because of the life state. -/
structure ChecksPass (m : Moment) : Prop where
  /-- The checks pass as they stand. -/
  checks : ∀ (givenUp recovering busy : String) (d : ImplPool) (a : Except Exn ImplReply),
    ImplPool.Reach (.solo (Impl.replying .api (Impl.checkState givenUp recovering busy)) m) d →
    d.Returned 0 a → a = .ok (.api (.ok ()))
  /-- Throughout the batch, each of its looks finds the client RUNNING and `m_connState` free. -/
  batch : ∀ call : ImplCall, call.IsBatch → ∀ d, ImplPool.Reach (.alone call m) d →
    ∀ e es, e :: es <:+ d.state.history → m.history <:+ es → Passes e

/-- They pass on a RUNNING client with no connection operation in progress. -/
theorem checksPass {m : Moment} (hrunning : m.world.lifeState = .running)
    (hidle : m.world.connState = .idle) : ChecksPass m where
  checks givenUp recovering busy d a hd hret := by
    have hcheck := Impl.alone_checkState givenUp recovering busy hrunning hidle
    have hreplies : ∀ r, d.Returned 0 r → Impl.Replies .api _ r d.state :=
      (Impl.reach_solo trivial hcheck hd).2
    have hreply := hreplies a hret
    cases a with
    | error e => cases hreply
    | ok reply =>
        obtain ⟨_, rfl, ⟨⟩⟩ := hreply
        rfl
  batch call hcall d hd := by
    have hstart : Passing m m := ⟨hrunning, hidle, fun e es hs hes =>
      absurd (hs.length_le.trans hes.length_le) (by simp)⟩
    exact (Impl.reach_alone hstart (Impl.passing_batch m hcall m hstart) hd).1.looks

/-- In every session on an open client, a query that succeeds finds the client RUNNING, so that a
batch issued next is not refused because of the life state, exactly if the client was not RECOVERING
when it was asked, or its newest report is not ready or its connection lost, or a call of the SDK or
of its clock has thrown in the query. -/
theorem queriesAgree {s : ImplState} (hopen : s.IsOpen) {m : Moment} (hm : Session AnyStep s m)
    {c : SessionCall} (hc : c.IsQuery) {d : ImplPool} {a : Except Exn ImplReply}
    (hd : ImplPool.Reach (.solo c.run m) d) (hret : d.Returned 0 a) :
    (a = .ok (.api (.ok ())) → d.state.world.lifeState = .running ∧
      (d.state.world.connState = .idle → ChecksPass d.state)) ↔
    (m.world.lifeState = .recovering →
      newestLost s.connectionLost d.state.history = true ∨
      (newestTriple (unpackState s.statePacked).triple d.state.history).isReady = false ∨
      ThrownSince m d.state) := by
  have hlive : m.world.IsOpen ∧ Recorded s m := by
    refine hm.keeps_live (I := fun m => m.world.IsOpen ∧ Recorded s m) (fun o ho r m m' hm h => ?_)
      ⟨hopen, rfl, rfl⟩
    exact ⟨(ImplState.open_of_exec ho hm.1 h.exec_eq).1, hm.2.step ho h⟩
  have hrecorded : Recorded s d.state := by
    have hkeeps : (aloneProtocol AnyStep fun _ => True).Keeps (Recorded s) 0 c.run :=
      Protocol.keeps_solo_of_uses (fun _ _ => trivial) (fun o ho r m m' hm h => hm.step ho h)
        (Impl.uses_live_session c)
    exact (Impl.reach_alone trivial (hkeeps m hlive.2) hd).2 a hret
  have hstart : AskedAt m m := ⟨hlive.1, rfl⟩
  -- a query leaves the life state, and answers what the cached state says
  have hasked := Impl.asked_sessionCall hc hstart (smooth_self m)
  obtain ⟨_, rfl, ⟨-, hlife⟩, a, ⟨⟩, hends⟩ := (Impl.reach_alone trivial hasked hd).2 a hret
  constructor
  · intro hgood hrecovering
    by_contra hbad
    simp only [not_or, Bool.not_eq_true, Bool.not_eq_false] at hbad
    obtain ⟨hlost, hready, hnothrown⟩ := hbad
    rcases hends with ⟨hthrown, -⟩ | ⟨-, hanswers⟩
    · exact hnothrown hthrown
    · have hhealthy : d.state.world.isHealthy = true := by
        rw [hrecorded.isHealthy_eq, hlost, hready]
        rfl
      rw [Answers, if_neg (by rw [hrecovering]; nofun)] at hanswers
      obtain rfl := hanswers.mpr hhealthy
      exact absurd (hlife.symm.trans (hgood rfl).1) (by rw [hrecovering]; nofun)
  · rintro hcond ⟨⟩
    have hrunning : d.state.world.lifeState = .running := by
      rcases hends with ⟨-, e, ⟨⟩⟩ | ⟨hnothrown, hanswers⟩
      cases hwas : m.world.lifeState with
      | running => exact hlife.trans hwas
      | givenUp =>
          rw [Answers, if_pos hwas] at hanswers
          obtain ⟨e, ⟨⟩⟩ := hanswers
      | recovering =>
          rw [Answers, if_neg (by rw [hwas]; nofun)] at hanswers
          have hhealthy := hanswers.mp rfl
          rw [hrecorded.isHealthy_eq, Bool.and_eq_true] at hhealthy
          rcases hcond hwas with hlost | hnot | hthrown
          · exact absurd hhealthy.1 (by rw [hlost]; nofun)
          · exact absurd (hnot.symm.trans hhealthy.2) nofun
          · exact absurd hthrown hnothrown
    exact ⟨hrunning, checksPass hrunning⟩

/-- `isHealthy`, asked at a moment. -/
def asksHealthy (m : Moment) : Option ImplPool :=
  let env : Environment := {}
  (ImplPool.solo SessionCall.isHealthy.run m).play ImplState.exec (env.moves 0 4)

/-- A healthy RUNNING client answers both queries alike. -/
theorem queriesAgree_connected :
    ∃ d : ImplPool, d.Returned 0 (.ok (.api (.ok ()))) ∧ d.state.world.lifeState = .running ∧
      (d.state.world.connState = .idle → ChecksPass d.state) := by
  have hplay : (asksHealthy (.start .connected)).any
      (fun d => d.result? 0 == some (.ok (.api (.ok ())))) = true := by
    decide
  obtain ⟨d, -, hd, hcheck⟩ := Config.exists_reach_of_play hplay
  have hret := Config.returned_of_result? (beq_iff_eq.mp hcheck)
  have hagree := queriesAgree (s := .connected) ⟨rfl, rfl⟩ .start (.inl rfl) hd hret
  exact ⟨d, hret, hagree.mpr nofun rfl⟩

/-- A `disconnect` that finds the channel closed. -/
def disconnects (m : Moment) : Option ImplPool :=
  let env : Environment := { state := ⟨.good, .closed, .closed⟩ }
  (ImplPool.solo SessionCall.disconnect.run m).play ImplState.exec (env.moves 0 44)

/-- The SDK reports a ready triple afterwards. -/
def reportsReady (m : Moment) : Option ImplPool :=
  let env : Environment := {}
  (ImplPool.solo (SessionCall.callback (.state ⟨.good, .open, .activated⟩)).run m).play
    ImplState.exec (env.moves 0 4)

/-- The client is healthy and RECOVERING. -/
theorem not_queriesAgree :
    ¬∀ (s : ImplState) (m : Moment) (c : SessionCall) (d : ImplPool), s.IsOpen →
      Session AnyStep s m → c.IsQuery → ImplPool.Reach (.solo c.run m) d →
      d.Returned 0 (.ok (.api (.ok ()))) → d.state.world.lifeState = .running := by
  intro hall
  have hplay : (disconnects (.start .connected)).any (fun d₁ => (d₁.result? 0).isSome &&
      (reportsReady d₁.state).any fun d₂ => (d₂.result? 0).isSome &&
        (asksHealthy d₂.state).any fun d₃ => d₃.state.world.lifeState == .recovering &&
          d₃.result? 0 == some (.ok (.api (.ok ())))) = true := by
    decide +kernel
  obtain ⟨d₁, -, hd₁, hcheck₁⟩ := Config.exists_reach_of_play hplay
  obtain ⟨hreturned₁, hplay₂⟩ := Bool.and_eq_true_iff.mp hcheck₁
  obtain ⟨a₁, ha₁⟩ := Option.isSome_iff_exists.mp hreturned₁
  obtain ⟨d₂, -, hd₂, hcheck₂⟩ := Config.exists_reach_of_play hplay₂
  obtain ⟨hreturned₂, hplay₃⟩ := Bool.and_eq_true_iff.mp hcheck₂
  obtain ⟨a₂, ha₂⟩ := Option.isSome_iff_exists.mp hreturned₂
  obtain ⟨d₃, -, hd₃, hcheck₃⟩ := Config.exists_reach_of_play hplay₃
  simp only [Bool.and_eq_true, beq_iff_eq] at hcheck₃
  have hsession₁ : Session AnyStep .connected d₁.state :=
    .call .disconnect .start hd₁ (Config.returned_of_result? ha₁)
  have hsession₂ : Session AnyStep .connected d₂.state :=
    .call (.callback (.state ⟨.good, .open, .activated⟩)) hsession₁ hd₂
      (Config.returned_of_result? ha₂)
  have hrunning := hall .connected d₂.state .isHealthy d₃ ⟨rfl, rfl⟩ hsession₂ (.inl rfl) hd₃
    (Config.returned_of_result? hcheck₃.2)
  exact absurd (hcheck₃.1.symm.trans hrunning) nofun

end OPCUAPacking
