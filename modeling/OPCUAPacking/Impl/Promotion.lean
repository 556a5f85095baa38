import OPCUAPacking.Impl.Dues
import OPCUAPacking.Impl.SingleFlight

/-!
# RUNNING and healthy

Connection calls and decisions of the watchdog run on one `Impl`, and in the end the client is to be
healthy if it is RUNNING. `TurnToRunning` does not look at the cached state again, so a client that
another thread has just disconnected is promoted on the word of an older probe
(`not_runningHealthy`).

* `Looked` — the condition under which this does not happen: a promotion finds the word ready, and
  a thread that leaves without a look finds nothing wrong.
* `PromotionInv` — while a RUNNING client is not healthy, a call still owes a look, or the thread
  that holds `m_connState` does.
* `runningHealthy` — in every run whose steps meet the condition, a client that is RUNNING in the
  end is healthy.
-/

namespace OPCUAPacking

open Interleaving

namespace ImplState

/-- The flaw is there and the client RUNNING. -/
def Has (s : ImplState) : Flaw → Prop
  | .lost => s.lifeState = .running ∧ s.connectionLost = true
  | .word => s.lifeState = .running ∧ (unpackState s.statePacked).triple.isReady = false

/-- A flaw makes the client stale. -/
theorem Has.isStale {s : ImplState} {f : Flaw} (h : s.Has f) : s.IsStale := by
  cases f with
  | lost => exact ⟨h.1, by rw [isHealthy, h.2]; rfl⟩
  | word => exact ⟨h.1, by rw [isHealthy, h.2, Bool.and_false]⟩

/-- A stale client has a flaw. -/
theorem IsStale.exists_has {s : ImplState} (h : s.IsStale) : ∃ f, s.Has f := by
  rcases Bool.and_eq_false_iff.mp h.2 with hlost | hword
  · exact ⟨.lost, h.1, by simpa using hlost⟩
  · exact ⟨.word, h.1, hword⟩

/-- The flaws depend on three members. -/
theorem Has.of_eq {s s' : ImplState} {f : Flaw} (h : s'.Has f)
    (hlife : s'.lifeState = s.lifeState) (hlost : s'.connectionLost = s.connectionLost)
    (hword : s'.statePacked = s.statePacked) : s.Has f := by
  cases f with
  | lost => exact ⟨hlife ▸ h.1, hlost ▸ h.2⟩
  | word => exact ⟨hlife ▸ h.1, hword ▸ h.2⟩

end ImplState

/-! ### The thread that holds `m_connState` -/

/-- Whether an operation ends with an exception. -/
def ImplOp.throws : (o : ImplOp) → o.Resp → Bool
  | .nowMs, .error _ | .reserve, .error _ | .sdkReturn _ _, .error _ => true
  | _, _ => false

/-- How an operation changes what is left to the thread that holds `m_connState`. -/
def leansStep (leans : Bool) : (o : ImplOp) → o.Resp → Bool
  | .casStrong .connState _ _, .ok () => false
  | .casStrong .connState _ _, .error _ => true
  | .store .connState _, _ => false
  | o, r => leans || o.throws r

/-- Since `m_connState` was won, a call was refused because of it or has thrown: the life state is
left to the thread that holds it. -/
def leans : History → Bool
  | [] => false
  | e :: es => leansStep (leans es) e.op e.resp

/-! ### The condition -/

/-- A promotion finds the word ready, and a roll-back the client healthy. The thread that releases
`m_connState` finds nothing wrong if others have left the life state to it, and neither does a call
that throws while no thread holds `m_connState`. -/
def Looked (s : ImplState) (es : History) : (o : ImplOp) → o.Resp → Prop
  | .casWeak .lifeState e .running, .ok () =>
      e ≠ .running → (unpackState s.statePacked).triple.isReady = true
  | .casStrong .lifeState _ _, .ok () => s.isHealthy = true
  | .store .connState _, _ => leans es = true → ¬s.IsStale
  | o, r => o.throws r = true → s.connState = .idle → ¬s.IsStale

/-- The condition of a step. -/
abbrev LooksBeforeLeaving (s : Traced ImplSig ImplState) (e : Event ImplSig) : Prop :=
  Looked s.world s.history e.op e.resp

instance (s : ImplState) (es : History) (o : ImplOp) (r : o.Resp) :
    Decidable (Looked s es o r) := by
  unfold Looked
  split <;> infer_instance

/-! ### The invariant -/

/-- What a thread owes at the start. -/
def Dues.start (calls : Tid → Option ImplCall) (t : Tid) : Dues :=
  if calls t = none then .clear else .full

/-- What thread `t` owes after a history. -/
def dues (calls : Tid → Option ImplCall) (t : Tid) (es : History) : Dues :=
  Event.stage (fun _ => Dues.track) (Dues.start calls t) t es

/-- The life state is left to the thread that holds `m_connState`. -/
def LeftToHolder (s : Traced ImplSig ImplState) : Prop :=
  s.world.connState = .connecting ∧ leans s.history = true

/-- While a RUNNING client has a flaw, somebody has yet to look. -/
def PromotionInv (calls : Tid → Option ImplCall) (s : Traced ImplSig ImplState) : Prop :=
  ∀ f, s.world.Has f → (∃ t, (dues calls t s.history).owes f = true) ∨ LeftToHolder s

variable {calls : Tid → Option ImplCall}

theorem dues_cons_self (t : Tid) (o : ImplOp) (r : o.Resp) (es : History) :
    dues calls t (⟨t, o, r⟩ :: es) = (dues calls t es).track o r :=
  @Event.stage_cons_self ImplSig Dues (fun _ => Dues.track) (Dues.start calls t) t o r es

theorem dues_cons_ne {t u : Tid} (h : u ≠ t) (o : ImplOp) (r : o.Resp) (es : History) :
    dues calls t (⟨u, o, r⟩ :: es) = dues calls t es :=
  @Event.stage_cons_ne ImplSig Dues (fun _ => Dues.track) (Dues.start calls t) t u h o r es

/-- What an operation of thread `t` may do to a flaw: the thread owes a look, the look is left to
the thread that holds `m_connState`, or everything is as before. -/
def FlawStep (f : Flaw) (ℓ ℓ' : Dues) (s s' : Traced ImplSig ImplState) : Prop :=
  s'.world.Has f → ℓ'.owes f = true ∨ LeftToHolder s' ∨
    (s.world.Has f ∧ (ℓ.owes f = true → ℓ'.owes f = true) ∧ (LeftToHolder s → LeftToHolder s'))

section Step

variable {t : Tid} {w w' : ImplState} {es : History} {ℓ : Dues} {f : Flaw}

/-- An operation that changes neither the members nor the ghosts. -/
theorem flawStep_same {o : ImplOp} {r : o.Resp} {ℓ' : Dues} (hlife : w'.lifeState = w.lifeState)
    (hlost : w'.connectionLost = w.connectionLost) (hword : w'.statePacked = w.statePacked)
    (hconn : w'.connState = w.connState) (htrack : ℓ.owes f = true → ℓ'.owes f = true)
    (hleans : leans es = true → leansStep (leans es) o r = true) :
    FlawStep f ℓ ℓ' ⟨w, es⟩ ⟨w', ⟨t, o, r⟩ :: es⟩ :=
  fun h => .inr (.inr ⟨h.of_eq hlife hlost hword, htrack,
    fun hleft => ⟨hconn.trans hleft.1, hleans hleft.2⟩⟩)

/-- An operation that may throw. -/
theorem flawStep_throw {o : ImplOp} {r : o.Resp} {ℓ' : Dues}
    (hthrows : leansStep (leans es) o r = (leans es || o.throws r))
    (htrack : o.throws r = false → ℓ.owes f = true → ℓ'.owes f = true)
    (hlooked : o.throws r = true → w.connState = .idle → ¬w.IsStale) :
    FlawStep f ℓ ℓ' ⟨w, es⟩ ⟨w, ⟨t, o, r⟩ :: es⟩ := by
  cases hr : o.throws r with
  | false =>
      refine flawStep_same rfl rfl rfl rfl (htrack hr) fun hleans => ?_
      rw [hthrows, hleans, Bool.true_or]
  | true =>
      intro h
      have hconn : w.connState = .connecting := by
        cases hidle : w.connState with
        | idle => exact absurd h.isStale (hlooked hr hidle)
        | connecting => rfl
      exact .inr (.inl ⟨hconn, by rw [leans, hthrows, hr, Bool.or_true]⟩)

/-- Seeing the life state. -/
theorem flawStep_seen {o : ImplOp} {r : o.Resp} (hleans : leansStep (leans es) o r = leans es) :
    FlawStep f ℓ (ℓ.seen w.lifeState) ⟨w, es⟩ ⟨w, ⟨t, o, r⟩ :: es⟩ := by
  intro h
  have hrunning : w.lifeState = .running := h.isStale.1
  refine flawStep_same rfl rfl rfl rfl ?_ (fun hl => hleans.trans hl) h
  rw [Dues.seen, if_pos hrunning]
  exact id

/-- A write of the word. -/
theorem flawStep_word {o : ImplOp} {r : o.Resp} {v : BitVec 64}
    (hleans : leansStep (leans es) o r = leans es) :
    FlawStep f ℓ { ℓ with word := true } ⟨w, es⟩ ⟨w.set .statePacked v, ⟨t, o, r⟩ :: es⟩ := by
  intro h
  cases f with
  | word => exact .inl rfl
  | lost =>
      exact .inr (.inr ⟨h, id, fun hleft => ⟨hleft.1, hleans.trans hleft.2⟩⟩)

/-- Every operation that meets the condition. -/
theorem flawStep_of_exec {o : ImplOp} {r : o.Resp} (ho : o.Live)
    (h : ImplState.exec t o r w = some w') (hok : Looked w es o r) :
    FlawStep f ℓ (ℓ.track o r) ⟨w, es⟩ ⟨w', ⟨t, o, r⟩ :: es⟩ := by
  cases o with
  | load a =>
      obtain ⟨hget, rfl⟩ := ImplState.whenever_eq_some.mp h
      cases a with
      | lifeState =>
          obtain rfl : w.lifeState = r := hget
          exact flawStep_seen (Bool.or_false _)
      | connectionLost =>
          obtain rfl : w.connectionLost = r := hget
          intro hflaw
          refine flawStep_same rfl rfl rfl rfl ?_ (fun hl => by simp [leansStep, hl]) hflaw
          cases f with
          | lost =>
              intro howes
              exact Bool.and_eq_true_iff.mpr ⟨howes, hflaw.2⟩
          | word => exact id
      | _ => exact flawStep_same rfl rfl rfl rfl id fun hl => by simp [leansStep, hl]
  | loadFields =>
      obtain ⟨rfl, rfl⟩ := ImplState.whenever_eq_some.mp h
      intro hflaw
      refine flawStep_same rfl rfl rfl rfl ?_ (fun hl => by simp [leansStep, hl]) hflaw
      cases f with
      | lost => exact id
      | word =>
          intro howes
          exact Bool.and_eq_true_iff.mpr ⟨howes, by rw [hflaw.2]; rfl⟩
  | store a v =>
      cases h
      cases a with
      | connState =>
          intro hflaw
          have hold : w.Has f := hflaw.of_eq rfl rfl rfl
          exact .inr (.inr ⟨hold, id, fun hleft => absurd hold.isStale (hok hleft.2)⟩)
      | connectionLost =>
          intro hflaw
          cases f with
          | lost => exact .inl hflaw.2
          | word =>
              refine .inr (.inr ⟨hflaw, id, fun hleft => ⟨hleft.1, ?_⟩⟩)
              simp [leans, leansStep, hleft.2]
      | lastBadStatusMs => exact flawStep_same rfl rfl rfl rfl id fun hl => by simp [leansStep, hl]
      | _ => rcases ho with ho | ho | ho | ho <;> exact ho.elim
  | casWeak a e d =>
      rcases ImplState.cas_eq_some.mp h with ⟨rfl, hget, rfl⟩ | ⟨rfl, -, rfl⟩
      · cases a with
        | lifeState =>
            intro hflaw
            obtain rfl : d = .running := hflaw.isStale.1
            by_cases he : e = .running
            · have hlife : w.lifeState = .running := hget.trans he
              refine flawStep_same (w := w) hlife.symm rfl rfl rfl ?_ (fun hl => ?_) hflaw
              · simp [Dues.track, he]
              · simp [leansStep, hl]
            · cases f with
              | lost => exact .inl (by simp [Dues.track, he, Dues.owes])
              | word => cases hflaw.2.symm.trans (hok he)
        | statePacked => exact flawStep_word (Bool.or_false _)
        | _ => rcases ho with ho | ho | ho | ho <;> exact ho.elim
      · cases a with
        | lifeState => exact flawStep_seen (Bool.or_false _)
        | statePacked => exact flawStep_same rfl rfl rfl rfl id fun hl => by simp [leansStep, hl]
        | _ => rcases ho with ho | ho | ho | ho <;> exact ho.elim
  | casStrong a e d =>
      rcases ImplState.cas_eq_some.mp h with ⟨rfl, hget, rfl⟩ | ⟨rfl, hne, rfl⟩
      · cases a with
        | lifeState =>
            intro hflaw
            have hhealthy : w.isHealthy = true := hok
            cases hflaw.isStale.2.symm.trans hhealthy
        | statePacked => exact flawStep_word (Bool.or_false _)
        | connState =>
            obtain ⟨rfl, rfl⟩ : e = .idle ∧ d = .connecting := by
              rcases ho with ho | ho | ho | ho <;> first | exact ho | exact ho.elim
            intro hflaw
            refine .inr (.inr ⟨hflaw.of_eq rfl rfl rfl, id, fun hleft => ?_⟩)
            cases hget.symm.trans hleft.1
        | _ => rcases ho with ho | ho | ho | ho <;> exact ho.elim
      · cases a with
        | lifeState => exact flawStep_seen (Bool.or_false _)
        | statePacked => exact flawStep_same rfl rfl rfl rfl id fun hl => by simp [leansStep, hl]
        | connState =>
            obtain ⟨rfl, rfl⟩ : e = .idle ∧ d = .connecting := by
              rcases ho with ho | ho | ho | ho <;> first | exact ho | exact ho.elim
            -- refused: somebody holds it
            refine fun _ => .inr (.inl ⟨?_, rfl⟩)
            cases hconn : w'.connState with
            | connecting => rfl
            | idle => exact absurd hconn (hne.resolve_left Bool.false_ne_true)
        | _ => rcases ho with ho | ho | ho | ho <;> exact ho.elim
  | nowMs | reserve | sdkReturn client call =>
      obtain rfl : w = w' := Option.some.inj h
      refine flawStep_throw (by cases r <;> rfl) (fun hr howes => ?_) (by cases r <;> exact hok)
      cases r with
      | ok v => exact howes
      | error e => cases hr
  | taskInc | taskDec =>
      cases h
      exact flawStep_same rfl rfl rfl rfl id fun hl => by simp [leansStep, hl]
  | lock m | unlock m =>
      obtain ⟨-, rfl⟩ := ImplState.whenever_eq_some.mp h
      cases m <;> exact flawStep_same rfl rfl rfl rfl id fun hl => by simp [leansStep, hl]
  | resetImpl | writeConfig config | taskWait ms | watchdogCreate | watchdogJoin | watchdogDetach
  | watchdogBegin | watchdogEnd => rcases ho with ho | ho | ho | ho <;> exact ho.elim
  | _ =>
      simp only [ImplState.exec, ImplState.whenever_eq_some, Option.some.injEq] at h
      obtain ⟨-, rfl⟩ := h
      exact flawStep_same rfl rfl rfl rfl id fun hl => by simp [leansStep, hl]

end Step

/-- Every step that meets the condition keeps the invariant. -/
theorem promotionInv_step {t : Tid} {o : ImplOp} {r : o.Resp} {s s' : Traced ImplSig ImplState}
    (ho : o.Live) (hs : PromotionInv calls s)
    (h : Traced.StepIf LooksBeforeLeaving ImplState.exec t o r s s') : PromotionInv calls s' := by
  obtain ⟨w, es⟩ := s
  obtain ⟨w', es'⟩ := s'
  obtain rfl : es' = ⟨t, o, r⟩ :: es := h.history_eq
  intro f hflaw
  rcases flawStep_of_exec (ℓ := dues calls t es) ho h.exec_eq h.meets hflaw with
    howes | hleft | ⟨hold, hkeep, hleft⟩
  · exact .inl ⟨t, by rwa [dues_cons_self]⟩
  · exact .inr hleft
  · rcases hs f hold with ⟨u, hu⟩ | hleft'
    · refine .inl ⟨u, ?_⟩
      by_cases hut : u = t
      · subst hut
        rw [dues_cons_self]
        exact hkeep hu
      · rwa [dues_cons_ne (Ne.symm hut)]
    · exact .inr (hleft hleft')

/-! ### Runs -/

/-- The calls that open and close the connection, and the decisions of the watchdog. -/
def ImplCall.Connects : ImplCall → Prop
  | .connect | .disconnect | .watchdogDecision => True
  | _ => False

namespace Impl

/-- The blocks of the calls keep to the operations of an open `Impl`. -/
theorem busy_live : Busy (Uses ImplOp.Live) := by
  have hK : @Proc.Closed ImplSig Exn (Uses ImplOp.Live) := @Proc.closed_uses ImplSig Exn _
  have hquiet : ∀ o : ImplOp, o.Quiet → Uses ImplOp.Live _ (perform o) := fun _ ho =>
    uses_perform (.inl ho)
  have hlife : ∀ o : ImplOp, o.LifeWrite → Uses ImplOp.Live _ (perform o) := fun _ ho =>
    uses_perform (.inr (.inl ho))
  have hword : ∀ o : ImplOp, o.WordWrite → Uses ImplOp.Live _ (perform o) := fun _ ho =>
    uses_perform (.inr (.inr (.inl ho)))
  have hinFlight : ∀ o : ImplOp, o.InFlight → Uses ImplOp.Live _ (perform o) := fun _ ho =>
    uses_perform (.inr (.inr (.inr ho)))
  exact ((blocks_of_ops hK hquiet hlife (closed_runCallback hK hquiet hlife hword)
    (closed_probe hK hquiet hlife hword)).connecting hK fun o ho =>
      hinFlight o ho.inFlight).busy hK (hinFlight .taskInc trivial) (hinFlight .taskDec trivial)

/-- So do the calls. -/
theorem uses_live {c : ImplCall} (hcall : c.Connects) : Uses ImplOp.Live _ c.run := by
  have hreply : ∀ {α : Type} {p : Impl α} (wrap : α → ImplReply), Uses ImplOp.Live _ p →
      Uses ImplOp.Live _ (replying wrap p) := fun wrap hp => busy_live.bind hp fun _ =>
    busy_live.pure _
  cases c with
  | connect => exact hreply _ busy_live.connect
  | disconnect => exact hreply _ busy_live.disconnect
  | watchdogDecision =>
      exact hreply _ (busy_live.doWatchdogDecision busy_live.connect busy_live.disconnect)
  | _ => exact hcall.elim

/-- They end owing nothing. -/
theorem clears_run {start : Tid → Dues} {t : Tid} {c : ImplCall} (hcall : c.Connects) (ℓ : Dues) :
    (dueProtocol start).Follows t c.run (fun _ ℓ' => ℓ' = .clear) ℓ := by
  have hreply : ∀ {α : Type} {p : Impl α} (wrap : α → ImplReply), Clears start t p →
      (dueProtocol start).Follows t (replying wrap p) (fun _ ℓ' => ℓ' = .clear) ℓ := by
    intro α p wrap hp
    have hall : (dueProtocol start).Follows t (replying wrap p)
        (Dues.OrClear fun _ ℓ' => ℓ' = .clear) ℓ := due_bind _ (hp ℓ) fun _ _ h => h
    refine hall.mono ?_
    rintro (e | a) ℓ' h <;> exact h
  cases c with
  | connect => exact hreply _ clears_connect
  | disconnect => exact hreply _ clears_disconnect
  | watchdogDecision => exact hreply _ clears_doWatchdogDecision
  | _ => exact hcall.elim

end Impl

variable {s : ImplState} {c d : ImplPool}

/-- The threads of the pool keep to the operations of an open `Impl`. -/
theorem uses_live_start (hcalls : ∀ t call, calls t = some call → call.Connects) (t : Tid) :
    ((ImplPool.start calls s).pool t).Uses ImplOp.Live := by
  change (ImplCall.thread (calls t)).Uses ImplOp.Live
  cases hcall : calls t with
  | none => trivial
  | some call => exact Impl.uses_live (hcalls t call hcall)

/-- In every run whose steps meet the condition, somebody has yet to look while a RUNNING client has
a flaw. -/
theorem promotionInv_of_reach (hcalls : ∀ t call, calls t = some call → call.Connects)
    (hsome : ∃ t, calls t ≠ none)
    (hc : Config.Reach (Traced.StepIf LooksBeforeLeaving ImplState.exec)
      (ImplPool.start calls s) c) : PromotionInv calls c.state := by
  refine (hc.uses (P := PromotionInv calls) (fun ho hs h => promotionInv_step ho hs h)
    (uses_live_start hcalls) ?_).1
  intro f _
  obtain ⟨t, ht⟩ := hsome
  refine .inl ⟨t, ?_⟩
  change (Dues.start calls t).owes f = true
  rw [Dues.start, if_neg ht]
  cases f <;> rfl

/-- A thread that has returned owes nothing. -/
theorem dues_of_returned (hcalls : ∀ t call, calls t = some call → call.Connects)
    (hopen : s.IsOpen) (hc : ImplPool.Reach (ImplPool.start calls s) c) {t : Tid}
    {a : Except Exn ImplReply} (ha : c.Returned t a) :
    dues calls t c.state.history = .clear := by
  have hf : ∀ u, (dueProtocol (Dues.start calls)).Follows u ((ImplPool.start calls s).pool u)
      (fun _ ℓ => ℓ = .clear) (Dues.start calls u) := by
    intro u
    change (dueProtocol _).Follows u (ImplCall.thread (calls u)) _ _
    cases hcall : calls u with
    | none => exact if_pos hcall
    | some call => exact Impl.clears_run (hcalls u call hcall) _
  exact Protocol.returned (P := dueProtocol (Dues.start calls)) (c := ImplPool.start calls s)
    (Q := fun _ _ ℓ => ℓ = .clear) hopen hf hc ha

/-- Once all calls have returned, a client that is RUNNING is healthy. -/
def RunningHealthy (c : ImplPool) : Prop :=
  c.Quiescent → c.state.world.lifeState = .running → c.state.world.isHealthy = true

/-- In every run of connection calls and decisions in which every promotion finds the word ready
and nobody leaves a stale client behind without a look, a client that is RUNNING in the end is
healthy. -/
theorem runningHealthy (hcalls : ∀ t call, calls t = some call → call.Connects)
    (hsome : ∃ t, calls t ≠ none) (hopen : s.IsOpen) (hidle : s.connState = .idle)
    (hc : Config.Reach (Traced.StepIf LooksBeforeLeaving ImplState.exec)
      (ImplPool.start calls s) c) : RunningHealthy c := by
  intro hquiescent hrunning
  have hreach : ImplPool.Reach (ImplPool.start calls s) c :=
    hc.mono fun _ _ _ _ _ h => ⟨h.exec_eq, h.history_eq, trivial⟩
  by_contra hhealthy
  obtain ⟨f, hflaw⟩ := ImplState.IsStale.exists_has ⟨hrunning, Bool.eq_false_iff.mpr hhealthy⟩
  rcases promotionInv_of_reach hcalls hsome hc f hflaw with ⟨t, howes⟩ | ⟨hconn, -⟩
  · obtain ⟨a, ha⟩ := hquiescent t
    rw [dues_of_returned hcalls hopen hreach ha] at howes
    cases f <;> cases howes
  · obtain ⟨t, hholds⟩ := (heldByOne_of_reach hidle hreach).connecting_iff.mp hconn
    obtain ⟨a, ha⟩ := hquiescent t
    exact absurd (((flightHistory_of_reach hreach).2 t a ha).2.symm.trans hholds) nofun

/-- A user connects, and the watchdog decides on the state before it: it is refused. -/
def decisionDuringConnect : Option ImplPool :=
  let before : Environment := { state := ⟨.badConnectionClosed, .closed, .closed⟩ }
  let after : Environment := {}
  ImplPool.runIf LooksBeforeLeaving [.connect, .watchdogDecision]
    (.construct {} "opc.tcp://plc:4840" 1)
    (after.moves 0 9 ++ before.moves 1 60 ++ after.moves 0 38)

set_option maxRecDepth 2000 in
/-- The client ends RUNNING and healthy. -/
theorem runningHealthy_during_connect :
    ∃ c : ImplPool, RunningHealthy c ∧ c.Quiescent ∧ c.state.world.lifeState = .running := by
  have hplay : decisionDuringConnect.any (fun d => d.state.world.lifeState == .running &&
      ((d.result? 0).isSome && (d.result? 1).isSome)) = true := by
    decide
  obtain ⟨d, hrun, hd, hcheck⟩ := Config.exists_reach_of_play hplay
  simp only [Bool.and_eq_true, beq_iff_eq, Option.isSome_iff_exists] at hcheck
  obtain ⟨hrunning, ⟨a, ha⟩, b, hb⟩ := hcheck
  have hquiescent : d.Quiescent := by
    refine ImplPool.quiescent_of_runIf hrun (by decide) fun t ht => ?_
    obtain rfl | rfl : t = 0 ∨ t = 1 := by
      change t < 2 at ht
      omega
    · exact ⟨a, Config.returned_of_result? ha⟩
    · exact ⟨b, Config.returned_of_result? hb⟩
  have hcalls : ∀ t call, callsOf [.connect, .watchdogDecision] t = some call → call.Connects :=
    of_callsOf (by simp [ImplCall.Connects])
  exact ⟨d, runningHealthy hcalls ⟨0, by simp [callsOf]⟩ ⟨rfl, rfl⟩ rfl hd, hquiescent,
    hrunning⟩

/-- A decision of the watchdog finds the client healthy; before it promotes the client, a user
disconnects. -/
def disconnectDuringDecision : Option ImplPool :=
  let before : Environment := {}
  let after : Environment := { state := ⟨.good, .closed, .closed⟩ }
  ImplPool.run [.watchdogDecision, .disconnect] (.construct {} "opc.tcp://plc:4840" 1)
    (before.moves 0 24 ++ after.moves 1 44 ++ before.moves 0 7)

/-- The client ends RUNNING, and not healthy. -/
theorem not_runningHealthy :
    ¬∀ (calls : Tid → Option ImplCall) (s : ImplState) (c : ImplPool),
      (∀ t call, calls t = some call → call.Connects) → (∃ t, calls t ≠ none) → s.IsOpen →
      s.connState = .idle → s.lifeState ≠ .givenUp → ImplPool.Reach (ImplPool.start calls s) c →
      RunningHealthy c := by
  intro hall
  have hplay : disconnectDuringDecision.any (fun d => d.state.world.lifeState == .running &&
      (!d.state.world.isHealthy && ((d.result? 0).isSome && (d.result? 1).isSome))) = true := by
    decide
  obtain ⟨d, hrun, hd, hcheck⟩ := Config.exists_reach_of_play hplay
  simp only [Bool.and_eq_true, beq_iff_eq, Option.isSome_iff_exists, Bool.not_eq_true'] at hcheck
  obtain ⟨hrunning, hunhealthy, ⟨a, ha⟩, b, hb⟩ := hcheck
  have hquiescent : d.Quiescent := by
    refine ImplPool.quiescent_of_runIf hrun (by decide) fun t ht => ?_
    obtain rfl | rfl : t = 0 ∨ t = 1 := by
      change t < 2 at ht
      omega
    · exact ⟨a, Config.returned_of_result? ha⟩
    · exact ⟨b, Config.returned_of_result? hb⟩
  have hcalls : ∀ t call, callsOf [.watchdogDecision, .disconnect] t = some call →
      call.Connects := of_callsOf (by simp [ImplCall.Connects])
  have hhealthy := hall _ _ d hcalls ⟨0, by simp [callsOf]⟩ ⟨rfl, rfl⟩ rfl
    (by decide) hd hquiescent hrunning
  exact absurd (hunhealthy.symm.trans hhealthy) nofun

end OPCUAPacking
