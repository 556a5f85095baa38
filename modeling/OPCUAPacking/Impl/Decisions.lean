import OPCUAPacking.Impl.Attempts

/-!
# The ends of a decision

How `doWatchdogDecision` ends while no other thread acts, from how its parts end: what the turns of
the life state do, and which branch is taken in which state.

* `ImplOp.Promotes` — the writes of `TurnToRunning`.
* `Impl.alone_promotes`, `Impl.alone_turnToGiveup` — the turns, by their effect on the state.
* `Impl.doWatchdogDecisionOr` — the decision with another program in its final else branch.
* `Impl.alone_decision` — every decision, from its branches; the final else branch is not among
  them.
-/

namespace OPCUAPacking

open Interleaving

/-- The writes of `TurnToRunning`, and its look at the give-up timer. -/
def ImplOp.Promotes : ImplOp → Prop
  | .load .lastBadStatusMs => True
  | .casWeak .lifeState e d => e ≠ .givenUp ∧ d = .running
  | .store .connectionLost v => v = false
  | .store .lastBadStatusMs v => v = 0
  | _ => False

/-! ### Operations that do not give up -/

/-- The operation does not give the client up. -/
def ImplOp.Spares : ImplOp → Prop
  | .store .lifeState d | .casWeak .lifeState _ d | .casStrong .lifeState _ d => d ≠ .givenUp
  | _ => True

section Spares

variable {o : ImplOp}

/-- Where it is given up afterwards, it was before. -/
theorem ImplState.givenUp_of_exec {t : Tid} {r : o.Resp} {s s' : ImplState} (ho : o.Spares)
    (h : exec t o r s = some s') (hgone : s'.lifeState = .givenUp) : s.lifeState = .givenUp := by
  by_cases hw : o.Writes .lifeState
  · cases o with
    | store a d =>
        obtain rfl : a = .lifeState := hw
        cases h
        exact absurd hgone ho
    | casWeak a e d | casStrong a e d =>
        obtain rfl : a = .lifeState := hw
        rcases cas_eq_some.mp h with ⟨-, -, rfl⟩ | ⟨-, -, rfl⟩
        · exact absurd hgone ho
        · exact hgone
    | _ => exact hw.elim
  · exact (get_of_not_writes (a := .lifeState) h hw).symm.trans hgone

theorem ImplOp.spares_of_not_writes (ho : ¬o.Writes .lifeState) : o.Spares := by
  cases o with
  | store a d | casWeak a e d | casStrong a e d =>
      cases a <;> first | exact absurd rfl ho | trivial
  | _ => trivial

theorem ImplOp.Drifts.spares (ho : o.Drifts) : o.Spares :=
  spares_of_not_writes (ho.not_writes nofun nofun)

theorem ImplOp.Timing.spares (ho : o.Timing) : o.Spares :=
  spares_of_not_writes (ho.not_writes nofun)

/-- The calls in flight write `m_connState` only. -/
theorem ImplOp.InFlight.not_writes {a : Atomic} (ho : o.InFlight) (ha : a ≠ .connState) :
    ¬o.Writes a := by
  cases o with
  | store b v | casStrong b e d =>
      rintro rfl
      cases b <;> first | exact ha rfl | exact ho.elim
  | casWeak b e d => exact ho.elim
  | _ => exact id

theorem ImplOp.spares_of_busy (ho : o.InFlight ∨ o.Demotes) : o.Spares := by
  rcases ho with ho | rfl
  · exact spares_of_not_writes (ho.not_writes nofun)
  · exact nofun

theorem ImplOp.Leaves.spares (ho : o.Leaves) : o.Spares := by
  cases o with
  | store a v => cases a <;> first | exact ho.elim | trivial
  | unlock m | taskDec => trivial
  | _ => exact ho.elim

theorem ImplOp.Promotes.spares (ho : o.Promotes) : o.Spares := by
  cases o with
  | casWeak a e d =>
      cases a with
      | lifeState =>
          obtain ⟨-, rfl⟩ := ho
          exact nofun
      | _ => exact ho.elim
  | store a v => cases a <;> first | exact ho.elim | trivial
  | load a => trivial
  | _ => exact ho.elim

end Spares

namespace Impl

variable {ok : Moment → Event ImplSig → Prop} {Inv I : Moment → Prop} {s : Moment} {α β : Type}

/-! ### The turns of the life state -/

/-- `resetGiveUpTimer`. In the block `I'` holds. -/
theorem alone_resetGiveUpTimer {J : Moment → Prop} (hI : ∀ s, I s → Inv s)
    (hJ : ∀ s, J s → Inv s)
    (hlock : ∀ r s s', I s → AloneStep ok (.lock .badStatusMsMx) r s s' → I s')
    (hload : ∀ r s s', I s → AloneStep ok (.load .lastBadStatusMs) r s s' → J s')
    (hreset : ∀ r s s', J s → AloneStep ok (.store .lastBadStatusMs 0) r s s' → J s')
    (hunlock : ∀ r s s', J s → AloneStep ok (.unlock .badStatusMsMx) r s s' → I s') (hs : I s) :
    Alone ok Inv resetGiveUpTimer
      (fun r s' => r = .ok () ∧ s'.world = { s.world with lastBadStatusMs := 0 } ∧ I s') s := by
  refine alone_step (o := .lock .badStatusMsMx) fun _ s₁ _ hstep₁ => ?_
  have hs₁ := hlock _ _ _ hs hstep₁
  obtain ⟨hfree, hworld₁⟩ := ImplState.whenever_eq_some.mp hstep₁.exec_eq
  -- in the block the mutex is held
  let held : ImplState := { s.world with lastBadStatusMs := 0, badStatusOwner := some 0 }
  refine ⟨hI _ hs₁, Protocol.Follows.ensuring
    (fun r s' => r = .ok () ∧ s'.world = held ∧ J s') ?_ ?_⟩
  · refine alone_step (o := .load .lastBadStatusMs) fun ts s₂ _ hstep₂ => ?_
    have hs₂ := hload ts _ _ hs₁ hstep₂
    obtain ⟨rfl, hworld₂⟩ := hstep₂.load
    refine ⟨hJ _ hs₂, ?_⟩
    by_cases hzero : s.world.lastBadStatusMs = 0
    · have hts : s₁.world.get .lastBadStatusMs = 0 := by rw [← hworld₁]; exact hzero
      rw [hts]
      refine ⟨rfl, ?_, hs₂⟩
      rw [hworld₂, ← hworld₁]
      simp [held, ImplState.setOwner, ← hzero]
    · have hts : s₁.world.get .lastBadStatusMs ≠ 0 := by rw [← hworld₁]; exact hzero
      rw [decide_eq_true hts]
      refine Protocol.follows_solo_perform fun r s₃ _ hstep₃ => ?_
      have hs₃ := hreset r _ _ hs₂ hstep₃
      refine ⟨hJ _ hs₃, rfl, ?_, hs₃⟩
      rw [AloneStep.store hstep₃, hworld₂, ← hworld₁]
      rfl
  · rintro r s₂ ⟨rfl, hworld₂, hs₂⟩
    refine Protocol.follows_solo_perform fun _ s₃ _ hstep₃ => ?_
    have hs₃ := hunlock _ _ _ hs₂ hstep₃
    obtain ⟨-, hworld₃⟩ := ImplState.whenever_eq_some.mp hstep₃.exec_eq
    refine ⟨hI _ hs₃, rfl, rfl, ?_, hs₃⟩
    have hnone : s.world.badStatusOwner = none := hfree
    rw [← hworld₃, hworld₂]
    simp [held, ImplState.setOwner, ← hnone]

/-- `TurnToRunning`. -/
theorem alone_promotes (hI : Looking ok Inv I) (hpromote : ∀ o : ImplOp, o.Promotes →
      ∀ r s s', I s → AloneStep ok o r s s' → I s') (hs : I s) :
    Alone ok Inv turnToRunning
      (fun r s' => r = .ok () ∧ s'.world = s.world.promote ∧ I s') s := by
  let running : ImplState := { s.world with lifeState := .running }
  -- `I`, `K` and `L`: before the exchange, after it, after the store of the lost flag
  refine alone_turnToRunning (I := fun s' => I s' ∧ s'.world = s.world)
    (K := fun s' => I s' ∧ s.world.lifeState ≠ .givenUp ∧ s'.world = running)
    (L := fun s' => I s' ∧ s.world.lifeState ≠ .givenUp ∧
      s'.world = { running with connectionLost := false }) ⟨hs, rfl⟩ (fun s' h => hI.inv s' h.1)
    ?_ ?_ ?_ ?_ ?_ ?_
  · rintro r s₁ s₂ ⟨hs₁, hworld₁⟩ hload
    exact ⟨hI.look (.load .lifeState) rfl r s₁ s₂ hs₁ hload, hload.load.2.trans hworld₁⟩
  · rintro e r s₁ s₂ hne ⟨hs₁, hworld₁⟩ hcas
    exact ⟨hpromote (.casWeak .lifeState e .running) ⟨hne, rfl⟩ (.error r) s₁ s₂ hs₁ hcas,
      hcas.casWeak_error.trans hworld₁⟩
  · rintro e s₁ s₂ hne ⟨hs₁, hworld₁⟩ hcas
    have hs₂ := hpromote (.casWeak .lifeState e .running) ⟨hne, rfl⟩ _ s₁ s₂ hs₁ hcas
    obtain ⟨heq, hworld₂⟩ := hcas.casWeak_ok
    refine ⟨hI.inv s₂ hs₂, hs₂, ?_, ?_⟩
    · rw [← hworld₁]
      exact heq.trans_ne hne
    · rw [hworld₂, hworld₁]
      rfl
  · rintro s₁ s₂ ⟨hs₁, hne, hworld₁⟩ hstore
    have hs₂ := hpromote (.store .connectionLost false) rfl _ s₁ s₂ hs₁ hstore
    refine ⟨hI.inv s₂ hs₂, hs₂, hne, ?_⟩
    rw [hstore.store, hworld₁]
    rfl
  · rintro s₁ ⟨hs₁, hne, hworld₁⟩
    refine (alone_resetGiveUpTimer hI.inv hI.inv (hI.look (.lock .badStatusMsMx) trivial)
      (hpromote (.load .lastBadStatusMs) trivial) (hpromote (.store .lastBadStatusMs 0) rfl)
      (hI.look (.unlock .badStatusMsMx) trivial) hs₁).mono ?_
    rintro r s₂ ⟨hr, hworld₂, hs₂⟩
    refine ⟨hr, ?_, hs₂⟩
    rw [hworld₂, hworld₁, ImplState.promote, if_neg hne]
  · rintro s₁ ⟨hs₁, hworld₁⟩ hdead
    refine ⟨?_, hs₁⟩
    rw [ImplState.promote, if_pos (hworld₁ ▸ hdead), hworld₁]

/-- `updateBadStatusTime`, once the timer is started. In the block `I'` holds. -/
theorem alone_updateBadStatusTime_started {J : Moment → Prop} (hI : Looking ok Inv I)
    (hJ : ∀ s, J s → Inv s)
    (hload : ∀ r s s', I s → AloneStep ok (.load .lastBadStatusMs) r s s' → J s')
    (hunlock : ∀ r s s', J s → AloneStep ok (.unlock .badStatusMsMx) r s s' → I s')
    (hstarted : s.world.lastBadStatusMs ≠ 0) (hs : I s) :
    Alone ok Inv updateBadStatusTime (fun r s' => r = .ok () ∧ I s') s := by
  refine alone_look hI hs (o := .lock .badStatusMsMx) trivial fun _ s₁ hs₁ hlock => ?_
  obtain ⟨-, hworld₁⟩ := ImplState.whenever_eq_some.mp hlock.exec_eq
  refine Protocol.Follows.ensuring (fun r s' => r = .ok () ∧ J s') ?_ ?_
  · refine alone_step (o := .load .lastBadStatusMs) fun ts s₂ _ hstep => ?_
    have hs₂ := hload ts _ _ hs₁ hstep
    obtain ⟨rfl, -⟩ := hstep.load
    have hts : s₁.world.get .lastBadStatusMs ≠ 0 := by rw [← hworld₁]; exact hstarted
    rw [decide_eq_false hts]
    exact ⟨hJ _ hs₂, rfl, hs₂⟩
  · rintro r s₂ ⟨rfl, hs₂⟩
    refine Protocol.follows_solo_perform fun _ s₃ _ hstep => ?_
    have hs₃ := hunlock _ _ _ hs₂ hstep
    exact ⟨hI.inv _ hs₃, rfl, rfl, hs₃⟩

/-- `TurnToGiveup`. -/
theorem alone_turnToGiveup {X G : Moment → Prop} (hI : Looking ok Inv I)
    (htimer : Alone ok Inv updateBadStatusTime (Ends X fun _ => I) s)
    (hfail : ∀ e r s s', I s → AloneStep ok (.casWeak .lifeState e .givenUp) (.error r) s s' → I s')
    (hgive : ∀ e s s', I s → AloneStep ok (.casWeak .lifeState e .givenUp) (.ok ()) s s' →
      Inv s' ∧ G s')
    (hdead : ∀ s, I s → s.world.lifeState = .givenUp → G s) :
    Alone ok Inv turnToGiveup (Ends X fun _ => G) s := by
  refine alone_bind _ htimer (fun _ s₁ hs₁ => ?_) fun _ _ h => h
  refine alone_load hI hs₁ (a := .lifeState) rfl fun s₂ hs₂ hworld₂ => ?_
  refine Protocol.Follows.loop (fun expected s' => expected = s'.world.lifeState ∧ I s')
    ⟨congrArg ImplState.lifeState hworld₂.symm, hs₂⟩ ?_
  rintro _ s₃ ⟨rfl, hs₃⟩
  split
  case isFalse hdead' => exact hdead s₃ hs₃ (not_not.mp hdead')
  case isTrue =>
  refine alone_step fun r s₄ _ hcas => ?_
  cases r with
  | ok u => exact hgive _ s₃ s₄ hs₃ hcas
  | error observed =>
      have hs₄ := hfail _ observed s₃ s₄ hs₃ hcas
      have hcas' : s₃.world.cas true .lifeState s₃.world.lifeState .givenUp (.error observed) =
        some s₄.world := hcas.exec_eq
      rcases ImplState.cas_eq_some.mp hcas' with ⟨⟨⟩, -⟩ | ⟨hobserved, -, hworld₄⟩
      cases hobserved
      exact ⟨hI.inv s₄ hs₄, congrArg ImplState.lifeState hworld₄.symm, hs₄⟩

/-! ### The branches -/

/-- `shouldTriggerGiveUp` only looks. -/
theorem keeps_shouldTriggerGiveUp (hI : Looking ok Inv I)
    (hload : ∀ r s s', I s → AloneStep ok (.load .lastBadStatusMs) r s s' → I s') :
    (aloneProtocol ok Inv).Keeps I 0 shouldTriggerGiveUp := by
  intro s hs
  refine alone_step (o := .load .lastBadStatusMs) fun ts s₁ _ hload₁ => ?_
  have hs₁ := hload ts s s₁ hs hload₁
  refine ⟨hI.inv s₁ hs₁, ?_⟩
  split
  · exact hs₁
  · refine alone_bind (fun _ => I) ?_ (fun now s₂ hs₂ => ?_) fun _ _ h => h
    · refine alone_look hI hs₁ (o := .nowMs) trivial fun r s₂ hs₂ _ => ?_
      cases r <;> exact hs₂
    · exact alone_look hI hs₂ (o := .readConfig) trivial fun _ _ hs₃ _ => hs₃

/-- The window check. -/
theorem alone_giveUpIfExpired {X G : Moment → Prop} (hI : Looking ok Inv I)
    (hload : ∀ r s s', I s → AloneStep ok (.load .lastBadStatusMs) r s s' → I s')
    (htimer : (aloneProtocol ok Inv).Keeps I 0 updateBadStatusTime) (hX : ∀ s, I s → X s)
    (hgiveup : ∀ s, I s → Alone ok Inv turnToGiveup (Ends X fun _ => G) s) (hs : I s) :
    Alone ok Inv giveUpIfExpired
      (Ends X fun expired s' => if expired then G s' else I s') s := by
  refine alone_keeps htimer hs (fun _ s₁ hs₁ => ?_) fun _ => hX
  refine alone_keeps (keeps_shouldTriggerGiveUp hI hload) hs₁ (fun expired s₂ hs₂ => ?_) fun _ => hX
  cases expired with
  | false => exact hs₂
  | true => exact alone_bind _ (hgiveup s₂ hs₂) (fun _ _ h => h) fun _ _ h => h

/-- `TurnToRecovring` between the calls of a decision. -/
theorem alone_recovers_idle {L : Moment → Prop} (hL : Steady ok Inv L) (hs : L s)
    (hidle : s.world.connState = .idle) :
    Alone ok Inv turnToRecovring (fun r s' => r = .ok () ∧ L s' ∧ s'.world.connState = .idle ∧
      ¬s'.world.IsStale) s := by
  have hI := drifting_idle hL.toDrifting
  refine (alone_turnToRecovring hI.looking ⟨hs, hidle⟩ fun r s s' hs hstep => ?_).mono ?_
  · refine ⟨hL.busy _ (.inr rfl) r s s' hs.1 hstep, ?_⟩
    exact (ImplState.get_of_not_writes (a := .connState) hstep.exec_eq nofun).trans hs.2
  · rintro r s' ⟨hr, hworld, hs'⟩
    exact ⟨hr, hs'.1, hs'.2, hworld ▸ ImplState.not_isStale_recover _⟩

section Calls

variable {L J : Moment → Prop} {Q : Except Exn Unit → Moment → Prop}
  (herror : ∀ e s, I s → s.world.connState = .idle → Q (.error e) s)
  (hgone : ∀ s, I s → ¬s.world.IsGone)

include herror hgone

/-- `connect` in a decision, from how it ends. -/
theorem alone_connectAndTurn (hL : Steady ok Inv L)
    (hconnect : Alone ok Inv connect
      (fun r s' => Ends I (ConnectEnds I L J) r s' ∧ s'.world.connState = .idle) s)
    (hsuccess : ∀ s', J s' → s'.world.connState = .idle → Alone ok Inv turnToRunning Q s')
    (hfailed : ∀ s', L s' → s'.world.connState = .idle → ¬s'.world.IsStale → Q (.ok ()) s') :
    Alone ok Inv connectAndTurn Q s := by
  refine alone_bind _ hconnect ?_ fun e s₁ h => herror e s₁ h.1 h.2
  rintro (e | ⟨⟩) s₁ ⟨hend, hidle₁⟩
  · rcases hend with ⟨hs₁, -, hworld⟩ | ⟨hs₁, hfailure, -⟩
    · exact absurd hworld (hgone s₁ hs₁)
    · have hnot : e.isGone = false := by cases e <;> first | rfl | cases hfailure
      have hbusy : e ≠ .threadbusy := by rintro rfl; cases hfailure
      simp only [hnot, Proc.when, hbusy, ne_eq, not_false_eq_true, decide_true, if_true,
        Bool.false_eq_true, if_false]
      refine (alone_recovers_idle hL hs₁ hidle₁).mono ?_
      rintro r s₂ ⟨rfl, hs₂, hidle₂, hstale⟩
      exact hfailed s₂ hs₂ hidle₂ hstale
  · exact hsuccess s₁ hend hidle₁

/-- `disconnect` and `connect` in a decision, from how they end. -/
theorem alone_reconnect {client : Handle}
    (hdisconnect : Alone ok Inv disconnect
      (fun r s' => Ends I (DisconnectEnds I L J) r s' ∧ s'.world.connState = .idle) s)
    (hnext : ∀ s', J s' ∨ L s' → s'.world.connState = .idle →
      Alone ok Inv (connectIfClosed client) Q s') :
    Alone ok Inv (reconnect client) Q s := by
  refine alone_bind _ hdisconnect ?_ fun e s₁ h => herror e s₁ h.1 h.2
  rintro (e | ⟨⟩) s₁ ⟨hend, hidle₁⟩
  · rcases hend with ⟨hs₁, -, hworld⟩ | ⟨hs₁, hfailure, -⟩
    · exact absurd hworld (hgone s₁ hs₁)
    · have hnot : e.isGone = false := by cases e <;> first | rfl | cases hfailure
      simp only [hnot, Bool.false_eq_true, if_false]
      exact hnext s₁ (.inr hs₁) hidle₁
  · exact hnext s₁ (.inl hend) hidle₁

end Calls

/-! ### The decision -/

/-- `decideUnhealthy` with another program in its final else branch. -/
def decideUnhealthyOr (last : Impl Unit) (client : Handle) : Impl Unit := do
  let f ← loadState
  let lost ← isLost f
  if lost then decideLost client
  else
    let closed ← isChannelClosed
    if !closed then decideOpen client
    else
      let bad ← isBadOrUnhealthy
      if bad then decideBad client else last

/-- `doWatchdogDecision` with another program in its final else branch. -/
def doWatchdogDecisionOr (last : Impl Unit) : Impl Unit := do
  let stop ← getEffectiveStopSignal
  if stop then pure ()
  else
    let impl ← withLock .lock (perform .copyImpl)
    match impl with
    | none => pure ()
    | some client =>
        let r ← isConnected 0
        match r with
        | .ok true => turnToRunning
        | .ok false => decideUnhealthyOr last client
        | .error e => Proc.when (!e.isGone) (decideUnhealthyOr last client)

/-- The decision as it is. -/
theorem doWatchdogDecisionOr_turnToRunning :
    doWatchdogDecisionOr turnToRunning = doWatchdogDecision := rfl

/-- `isBadOrUnhealthy`. -/
theorem alone_isBadOrUnhealthy (hI : Looking ok Inv I) (hs : I s)
    (hhealthy : s.world.isHealthy = false) :
    Alone ok Inv isBadOrUnhealthy (Sees I s true) s := by
  refine alone_loadState hI hs fun s₁ hs₁ hworld₁ => ?_
  cases (unpackState s.world.statePacked).status.isBad with
  | true => exact ⟨rfl, hworld₁, hs₁⟩
  | false =>
      refine alone_sees (alone_isHealthyCached hI hs₁) fun s₂ hs₂ hworld₂ => ?_
      rw [hworld₁, hhealthy]
      exact ⟨rfl, hworld₂.trans hworld₁, hs₂⟩

section Decision

variable {A B : Moment → Prop} {Q : Except Exn Unit → Moment → Prop} (last : Impl Unit)
  (hA : Looking ok Inv A) (hB : Looking ok Inv B)
  (hfields : ∀ s f s', A s → AloneStep ok .loadFields f s s' → f.channel = .closed → B s')
  (hlost : ∀ client s, A s → s.world.isHealthy = false → Alone ok Inv (decideLost client) Q s)
  (hopen : ∀ client s, A s → s.world.isHealthy = false → s.world.connectionLost = false →
    (unpackState s.world.statePacked).session = .activated →
    (unpackState s.world.statePacked).channel ≠ .closed → Alone ok Inv (decideOpen client) Q s)
  (hbad : ∀ client s, B s → s.world.isHealthy = false → Alone ok Inv (decideBad client) Q s)

include hA hB hfields hlost hopen hbad in
/-- The part of a decision after a probe that did not find the client healthy: one of three
branches is taken. -/
theorem alone_decideUnhealthy (client : Handle) (hs : A s) (hhealthy : s.world.isHealthy = false) :
    Alone ok Inv (decideUnhealthyOr last client) Q s := by
  refine alone_loadState hA hs fun s₁ hs₁ hworld₁ => ?_
  refine alone_sees (a := s₁.world.connectionLost ||
    (unpackState s.world.statePacked).session != .activated)
    (alone_load hA hs₁ (a := .connectionLost) rfl fun s₂ hs₂ hworld₂ =>
      ⟨rfl, hworld₂, hs₂⟩) fun s₂ hs₂ hworld₂ => ?_
  have hhealthy₂ : s₂.world.isHealthy = false := by rw [hworld₂, hworld₁, hhealthy]
  split
  case isTrue => exact hlost client s₂ hs₂ hhealthy₂
  case isFalse hnot =>
  simp only [Bool.or_eq_true, bne_iff_ne, not_or, Bool.not_eq_true, ne_eq, not_not] at hnot
  refine alone_bind (fun r s' => ∃ f, r = .ok (f.channel == .closed) ∧ A s' ∧
    AloneStep ok .loadFields f s₂ s') ?_ ?_ ?_
  · exact alone_look hA hs₂ (o := .loadFields) trivial fun f s₃ hs₃ hload => ⟨f, rfl, hs₃, hload⟩
  · rintro _ s₃ ⟨f, ⟨⟩, hs₃, hload⟩
    obtain ⟨rfl, hworld₃⟩ := hload.loadFields
    have hhealthy₃ : s₃.world.isHealthy = false := by rw [hworld₃, hhealthy₂]
    by_cases hchannel : (unpackState s₂.world.statePacked).channel = .closed
    · have hs₃ := hfields s₂ _ s₃ hs₂ hload hchannel
      simp only [hchannel, beq_self_eq_true, Bool.not_true, Bool.false_eq_true, if_false]
      -- the client is not healthy, so the last branch is not taken
      refine alone_sees (alone_isBadOrUnhealthy hB hs₃ hhealthy₃) fun s₄ hs₄ hworld₄ => ?_
      exact hbad client s₄ hs₄ (hworld₄ ▸ hhealthy₃)
    · simp only [beq_eq_false_iff_ne.mpr hchannel, Bool.not_false, if_true]
      have hsame : s₃.world = s.world := (hworld₃.trans hworld₂).trans hworld₁
      refine hopen client s₃ hs₃ hhealthy₃ ?_ ?_ (hworld₃ ▸ hchannel)
      · rw [hsame, ← hworld₁, hnot.1]
      · rw [hsame, hnot.2]
  · rintro e s₃ ⟨f, ⟨⟩, -⟩

include hA hB hfields hlost hopen hbad in
/-- A decision, from its branches. -/
theorem alone_decision (hI : Drifting ok Inv I) (hAI : ∀ s, A s → I s)
    (hpublish : ∀ e (f : Triple) r s s', I s →
      AloneStep ok (.casStrong .statePacked e (f.pack ((unpackState e).version + 1))) r s s' → A s')
    (htimer : (aloneProtocol ok Inv).Keeps A 0 updateBadStatusTime)
    (hquit : ∀ s, I s → s.world.IsGone → Q (.ok ()) s)
    (herror : ∀ e s, I s → Q (.error e) s)
    (hhealthy : ∀ s, A s → s.world.isHealthy = true → Alone ok Inv turnToRunning Q s) (hs : I s) :
    Alone ok Inv (doWatchdogDecisionOr last) Q s := by
  refine alone_sees (alone_stopSignal hI.looking hs) fun s₁ hs₁ hworld₁ => ?_
  cases hstop : s.world.stopSignal with
  | true => exact hquit s₁ hs₁ (.inl (hworld₁ ▸ hstop))
  | false =>
      refine alone_sees (alone_snapshot hI.looking hs₁) fun s₂ hs₂ hworld₂ => ?_
      cases himpl : s₁.world.impl with
      | none => exact hquit s₂ hs₂ (.inr (hworld₂ ▸ himpl))
      | some client =>
          refine alone_bind _ (alone_isConnected_published hI hA hAI hpublish htimer 0 hs₂) ?_
            fun e s₃ h => herror e s₃ h
          rintro (e | healthy) s₃ h
          · obtain ⟨hs₃, hgone, hworld₃⟩ := h
            simp only [hgone, Bool.not_true]
            exact hquit s₃ hs₃ hworld₃
          · obtain ⟨hs₃, rfl⟩ := h
            cases hhealthy₃ : s₃.world.isHealthy with
            | true => exact hhealthy s₃ hs₃ hhealthy₃
            | false =>
                exact alone_decideUnhealthy last hA hB hfields hlost hopen hbad client hs₃ hhealthy₃

end Decision

/-! ### Decisions that keep a predicate -/

section Steady

variable {W R C : Moment → Prop} {Q : Except Exn Unit → Moment → Prop} (last : Impl Unit)
  (hW : Drifting ok Inv W) (hR : Steady ok Inv R)
  (hwindow : ∀ s, W s → s.world.connState = .idle → Alone ok Inv giveUpIfExpired
    (Ends (fun s' => ∀ e, Q (.error e) s') fun expired s' =>
      if expired then Q (.ok ()) s' else R s' ∧ s'.world.connState = .idle) s)
  (hconnect : ∀ s, R s → s.world.connState = .idle → Alone ok Inv connect
    (fun r s' => Ends R (ConnectEnds R R C) r s' ∧ s'.world.connState = .idle) s)
  (hconnected : ∀ s, C s → s.world.connState = .idle → Alone ok Inv turnToRunning Q s)
  (hhealthy : ∀ s, R s → s.world.connState = .idle → s.world.isHealthy = true →
    Alone ok Inv turnToRunning Q s)
  (hlive : ∀ s, R s → ¬s.world.IsGone)
  (herror : ∀ e s, R s → s.world.connState = .idle → Q (.error e) s)
  (hend : ∀ s, R s → s.world.connState = .idle → ¬s.world.IsStale → Q (.ok ()) s)

include hR hconnect hconnected hlive herror hend in
/-- One attempt to connect, once the channel is closed. -/
theorem steady_connectIfClosed (client : Handle) (hs : R s) (hidle : s.world.connState = .idle) :
    Alone ok Inv (connectIfClosed client) Q s := by
  have hI := drifting_idle hR.toDrifting
  have hK := polling_of_drifting hI
  refine alone_keeps (hK.callRunIterate client 1) ⟨hs, hidle⟩ (fun _ s₁ hs₁ => ?_)
    fun e s₁ hs₁ => herror e s₁ hs₁.1 hs₁.2
  refine alone_sees (alone_isChannelClosed hI.looking hs₁) fun s₂ hs₂ _ => ?_
  split
  · exact alone_connectAndTurn herror hlive hR (hconnect s₂ hs₂.1 hs₂.2) hconnected hend
  · refine (alone_recovers_idle hR hs₂.1 hs₂.2).mono ?_
    rintro r s₃ ⟨rfl, hs₃, hidle₃, hstale⟩
    exact hend s₃ hs₃ hidle₃ hstale

include hR hconnect hconnected hlive herror hend in
/-- Disconnect, then connect. -/
theorem steady_reconnect (client : Handle) (hs : R s) (hidle : s.world.connState = .idle) :
    Alone ok Inv (reconnect client) Q s := by
  have hdisconnect := alone_disconnect_recovers hR.waiting hR (fun _ h => h)
    (fun client s r s' => hR.busy (.sdkCall client .disconnectAsync) (.inl trivial) r s s') hs hidle
  refine alone_reconnect herror hlive hdisconnect fun s₁ hs₁ => ?_
  have hs₁' : R s₁ := hs₁.elim (fun h => h.1) id
  exact steady_connectIfClosed hR hconnect hconnected hlive herror hend client hs₁'

include hwindow in
/-- The window check, then the rest of a branch. -/
theorem steady_unlessExpired {p : Impl Unit} (hs : W s) (hidle : s.world.connState = .idle)
    (hp : ∀ s', R s' → s'.world.connState = .idle → Alone ok Inv p Q s') :
    Alone ok Inv (giveUpIfExpired >>= fun expired => Proc.when (!expired) p) Q s := by
  refine alone_bind _ (hwindow s hs hidle) ?_ fun e s₁ h => h e
  rintro expired s₁ h
  cases expired with
  | false => exact hp s₁ h.1 h.2
  | true => exact h

include hW hR hwindow hconnect hconnected hhealthy hlive herror hend in
/-- A decision, whatever stands in its final else branch: what holds before the window check, what
holds after it, and how the turns of the life state end. -/
theorem steady_decision
    (hquit : ∀ s, W s → s.world.connState = .idle → s.world.IsGone → Q (.ok ()) s)
    (herror' : ∀ e s, W s → s.world.connState = .idle → Q (.error e) s)
    (hhealthy' : ∀ s, W s → s.world.connState = .idle → s.world.isHealthy = true →
      Alone ok Inv turnToRunning Q s) (hs : W s) (hidle : s.world.connState = .idle) :
    Alone ok Inv (doWatchdogDecisionOr last) Q s := by
  have hI := drifting_idle hW
  have hRI := drifting_idle hR.toDrifting
  have hK := polling_of_drifting hRI
  have hreconnect : ∀ client s', R s' → s'.world.connState = .idle →
      Alone ok Inv (reconnect client) Q s' := fun client _ =>
    steady_reconnect hR hconnect hconnected hlive herror hend client
  refine alone_decision last hI.looking hI.looking
    (fun s f s' hs hstep _ => hI.drift .loadFields (.inl trivial) f s s' hs hstep)
    (fun client s hs _ => steady_unlessExpired hwindow hs.1 hs.2 (hreconnect client))
    (fun client s hs _ _ _ _ => steady_unlessExpired hwindow hs.1 hs.2 fun _ =>
      steady_connectIfClosed hR hconnect hconnected hlive herror hend client)
    (fun client s hs _ => steady_unlessExpired hwindow hs.1 hs.2 fun s₁ hs₁ hidle₁ => ?_)
    hI (fun _ h => h) hI.publish hI.timer (fun s hs => hquit s hs.1 hs.2)
    (fun e s hs => herror' e s hs.1 hs.2) (fun s hs => hhealthy' s hs.1 hs.2) ⟨hs, hidle⟩
  refine alone_keeps (hK.callRunIterate client 1) ⟨hs₁, hidle₁⟩ (fun _ s₂ hs₂ => ?_)
    fun e s₂ hs₂ => herror e s₂ hs₂.1 hs₂.2
  refine alone_sees (alone_isHealthyCached hRI.looking hs₂) fun s₃ hs₃ hworld₃ => ?_
  cases hh : s₂.world.isHealthy with
  | true => exact hhealthy s₃ hs₃.1 hs₃.2 (hworld₃ ▸ hh)
  | false => exact hreconnect client s₃ hs₃.1 hs₃.2

end Steady

end Impl

end OPCUAPacking
