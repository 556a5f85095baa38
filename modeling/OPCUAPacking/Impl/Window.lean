import OPCUAPacking.Impl.Exits
import OPCUAPacking.Impl.Session

/-!
# The give-up window

The window begins at the first `updateBadStatusTime` since the last `TurnToRunning` that took
effect, and the client is given up by the decision that reads the clock when the window is over, not
before.

* `windowStart` — when the window began, read off the history.
* `ChecksWindow` — the reading of the clock by which a decision checks the window.
* `Timed` — the timer holds the beginning of the window.
* `Found` — what every check since a moment has found.
* `windowExact` — in every session the timer is right, a call gives the client up exactly when its
  check finds the window over, and a decision that does not check finds the client healthy.
-/

namespace OPCUAPacking

open Interleaving

/-! ### The clock and the window -/

/-- What an event reads off the clock. -/
def clockRead : Event ImplSig → Option Int
  | ⟨_, .nowMs, .ok now⟩ => some now
  | _ => none

/-- The newest reading of the clock. -/
def clock (h : History) : Option Int := h.findSome? clockRead

/-- The clock is positive and never goes back. -/
def Clocked (m : Moment) (e : Event ImplSig) : Prop :=
  ∀ now ∈ clockRead e, 0 < now ∧ ∀ before ∈ clock m.history, before ≤ now

instance (m : Moment) (e : Event ImplSig) : Decidable (Clocked m e) :=
  inferInstanceAs (Decidable (∀ _ ∈ _, _))

/-- The time of the first `updateBadStatusTime` since the last `TurnToRunning` that took effect: the
reading of the clock before the timer was started. -/
def windowStart : History → Option Int
  | [] => none
  | ⟨_, .casWeak .lifeState _ .running, .ok _⟩ :: _ => none
  | ⟨_, .store .lastBadStatusMs ts, _⟩ :: es =>
      if ts = 0 then windowStart es else (windowStart es).or (clock es)
  | _ :: es => windowStart es

/-- The event finds the timer started. -/
def findsStarted : Event ImplSig → Bool
  | ⟨_, .load .lastBadStatusMs, ts⟩ => ts != 0
  | _ => false

/-- Since `h₀` a decision has checked the window that began at `start`, and has read `now`. -/
def ChecksWindow (h₀ h : History) (start now : Int) : Prop :=
  ∃ e l es, e :: l :: es <:+ h ∧ h₀ <:+ es ∧ clockRead e = some now ∧ findsStarted l = true ∧
    windowStart es = some start

/-- Since `h₀` a decision has checked the window. -/
def Checked (h₀ h : History) : Prop := ∃ start now, ChecksWindow h₀ h start now

/-- What has been found by a check: the beginning of the window and the time. -/
abbrev Verdict := Int → Int → Prop

/-- No check. -/
def Verdict.never : Verdict := fun _ _ => False

/-- The window is not over. -/
def Verdict.early (config : ClientConfig) : Verdict := fun start now =>
  now < start + config.giveUpThresholdMs

/-- The window is over. -/
def Verdict.over (config : ClientConfig) : Verdict := fun start now =>
  start + config.giveUpThresholdMs ≤ now

/-- Every check since `h₀` has found this. -/
def Found (h₀ : History) (v : Verdict) (h : History) : Prop :=
  ∀ start now, ChecksWindow h₀ h start now → v start now

/-- The timer has not been looked at last. -/
def Unlooked (h₀ h : History) : Prop := ∀ l es, h = l :: es → h₀ <:+ es → findsStarted l = false

/-- The timer holds the beginning of the window. -/
structure Timed (config : ClientConfig) (m : Moment) : Prop where
  timer : m.world.lastBadStatusMs = (windowStart m.history).getD 0
  positive : ∀ start ∈ windowStart m.history, 0 < start
  config_eq : m.world.config = config
  isOpen : m.world.IsOpen

section Histories

variable {t : Tid} {o : ImplOp} {r : o.Resp} {h h₀ : History} {v : Verdict}

/-- Other operations leave the window. -/
theorem windowStart_cons (hts : ¬o.Writes .lastBadStatusMs)
    (hlife : ∀ e, o ≠ .casWeak .lifeState e .running) :
    windowStart (⟨t, o, r⟩ :: h) = windowStart h := by
  cases o with
  | store a v => cases a <;> first | exact absurd rfl hts | rfl
  | casWeak a e d =>
      cases a with
      | lifeState => cases d <;> first | exact absurd rfl (hlife e) | rfl
      | _ => rfl
  | _ => rfl

/-- Other operations do not look at the timer. -/
theorem findsStarted_eq_false (ho : o ≠ .load .lastBadStatusMs) :
    findsStarted ⟨t, o, r⟩ = false := by
  cases o with
  | load a => cases a <;> first | exact absurd rfl ho | rfl
  | _ => rfl

/-- A check is not forgotten. -/
theorem checksWindow_cons {start now : Int} (hh : ChecksWindow h₀ h start now) (e : Event ImplSig) :
    ChecksWindow h₀ (e :: h) start now := by
  obtain ⟨e', l, es, hsuffix, hrest⟩ := hh
  exact ⟨e', l, es, hsuffix.trans (List.suffix_cons e h), hrest⟩

/-- The newest event checks the window, or the check is older. -/
theorem checksWindow_cons_iff {e : Event ImplSig} {start now : Int} :
    ChecksWindow h₀ (e :: h) start now ↔ ChecksWindow h₀ h start now ∨
      ∃ l es, h = l :: es ∧ h₀ <:+ es ∧ clockRead e = some now ∧ findsStarted l = true ∧
        windowStart es = some start := by
  constructor
  · rintro ⟨e', l, es, hsuffix, hsince, hread, hfinds, hwindow⟩
    rcases List.suffix_cons_iff.mp hsuffix with heq | hsuffix
    · obtain ⟨rfl, rfl⟩ := List.cons.inj heq
      exact .inr ⟨l, es, rfl, hsince, hread, hfinds, hwindow⟩
    · exact .inl ⟨e', l, es, hsuffix, hsince, hread, hfinds, hwindow⟩
  · rintro (hh | ⟨l, es, rfl, hsince, hread, hfinds, hwindow⟩)
    · exact checksWindow_cons hh e
    · exact ⟨e, l, es, List.suffix_refl _, hsince, hread, hfinds, hwindow⟩

/-- An event that does not read the clock checks nothing; nor does one after another event than a
look at the timer. -/
theorem found_cons {e : Event ImplSig} (hh : Found h₀ v h)
    (he : clockRead e = none ∨ Unlooked h₀ h) : Found h₀ v (e :: h) := by
  intro start now hcheck
  rcases checksWindow_cons_iff.mp hcheck with hcheck | ⟨l, es, rfl, hsince, hread, hfinds, -⟩
  · exact hh start now hcheck
  · rcases he with he | he
    · exact absurd (he.symm.trans hread) nofun
    · exact absurd ((he l es rfl hsince).symm.trans hfinds) nofun

theorem unlooked_cons {e : Event ImplSig} (he : findsStarted e = false) :
    Unlooked h₀ (e :: h) := by
  rintro l es heq -
  obtain ⟨rfl, rfl⟩ := List.cons.inj heq
  exact he

/-- At its own beginning a call has looked at nothing. -/
theorem not_suffix_tail {l : Event ImplSig} {es : History} (hh : h₀ = l :: es) : ¬h₀ <:+ es := by
  intro hsuffix
  have hlength := hsuffix.length_le
  rw [hh, List.length_cons] at hlength
  omega

theorem unlooked_refl : Unlooked h h := fun _ _ heq hsuffix =>
  absurd hsuffix (not_suffix_tail heq)

theorem found_refl : Found h v h := by
  rintro start now ⟨e, l, es, hsuffix, hsince, -⟩
  have hlong := hsuffix.length_le
  have hshort := hsince.length_le
  simp only [List.length_cons] at hlong
  omega

/-- A check that has been made stays made. -/
theorem checked_cons (hh : Checked h₀ h) (e : Event ImplSig) : Checked h₀ (e :: h) := by
  obtain ⟨start, now, hcheck⟩ := hh
  exact ⟨start, now, checksWindow_cons hcheck e⟩

end Histories

/-! ### The protocol -/

/-- In a call that began after `h₀`: the timer is right, no check has found the window over, and the
client has not been given up, unless it is `dead`. The timer may have been looked at last. -/
structure WindowSeen (h₀ : History) (config : ClientConfig) (v : Verdict) (dead : Prop)
    (m : Moment) : Prop extends Timed config m where
  since : h₀ <:+ m.history
  found : Found h₀ v m.history
  alive : m.world.lifeState = .givenUp → dead

/-- The timer has not been looked at last. -/
structure WindowAt (h₀ : History) (config : ClientConfig) (v : Verdict) (dead : Prop)
    (m : Moment) : Prop extends WindowSeen h₀ config v dead m where
  unlooked : Unlooked h₀ m.history

variable {h₀ : History} {config : ClientConfig} {v : Verdict} {dead : Prop} {m m' : Moment}
  {o : ImplOp} {r : o.Resp}

theorem ImplOp.Live.ne_writeConfig (ho : o.Live) (config : ClientConfig) :
    o ≠ .writeConfig config := by
  rintro rfl
  rcases ho with ho | ho | ho | ho <;> exact ho

/-- A step that does not concern the window. -/
theorem Timed.step (hm : Timed config m) (ho : o.Live) (hts : ¬o.Writes .lastBadStatusMs)
    (hwindow : windowStart (⟨0, o, r⟩ :: m.history) = windowStart m.history)
    (h : AloneStep Clocked o r m m') : Timed config m' := by
  have htimer : m'.world.lastBadStatusMs = m.world.lastBadStatusMs :=
    ImplState.get_of_not_writes (a := .lastBadStatusMs) h.exec_eq hts
  refine ⟨?_, ?_, ?_, (ImplState.open_of_exec ho hm.isOpen h.exec_eq).1⟩
  · rw [h.history_eq, hwindow, htimer, hm.timer]
  · rw [h.history_eq, hwindow]
    exact hm.positive
  · rw [(ImplState.frame_of_exec h.exec_eq).config ho.ne_writeConfig, hm.config_eq]

/-- The timer is not started. -/
theorem Timed.windowStart_eq_none (hm : Timed config m) (hts : m.world.lastBadStatusMs = 0) :
    windowStart m.history = none := by
  have htimer := hm.timer
  cases hwindow : windowStart m.history with
  | none => rfl
  | some start =>
      have hpos := hm.positive start hwindow
      rw [hts, hwindow, Option.getD_some] at htimer
      omega

/-- The timer is started. -/
theorem Timed.windowStart_isSome (hm : Timed config m) (hts : m.world.lastBadStatusMs ≠ 0) :
    (windowStart m.history).isSome := by
  have htimer := hm.timer
  cases hwindow : windowStart m.history with
  | none =>
      rw [hwindow] at htimer
      exact absurd htimer hts
  | some start => rfl

/-- Such a step in a call. -/
theorem WindowSeen.step (hm : WindowSeen h₀ config v dead m) (ho : o.Live)
    (hts : ¬o.Writes .lastBadStatusMs)
    (hread : clockRead ⟨0, o, r⟩ = none ∨ Unlooked h₀ m.history)
    (hwindow : windowStart (⟨0, o, r⟩ :: m.history) = windowStart m.history)
    (hspares : o.Spares) (h : AloneStep Clocked o r m m') : WindowSeen h₀ config v dead m' where
  toTimed := hm.toTimed.step ho hts hwindow h
  since := h.history_eq ▸ hm.since.trans (List.suffix_cons _ _)
  found := h.history_eq ▸ found_cons hm.found hread
  alive hgone := hm.alive (ImplState.givenUp_of_exec hspares h.exec_eq hgone)

theorem WindowAt.step (hm : WindowAt h₀ config v dead m) (ho : o.Live)
    (hts : ¬o.Writes .lastBadStatusMs) (hload : o ≠ .load .lastBadStatusMs)
    (hwindow : windowStart (⟨0, o, r⟩ :: m.history) = windowStart m.history)
    (hspares : o.Spares) (h : AloneStep Clocked o r m m') : WindowAt h₀ config v dead m' where
  toWindowSeen := hm.toWindowSeen.step ho hts (.inr hm.unlooked) hwindow hspares h
  unlooked := h.history_eq ▸ unlooked_cons (findsStarted_eq_false hload)

/-- The operations of a poll. -/
theorem WindowAt.drift (hm : WindowAt h₀ config v dead m) (ho : o.Drifts)
    (h : AloneStep Clocked o r m m') : WindowAt h₀ config v dead m' := by
  have hload : o ≠ .load .lastBadStatusMs := by
    rintro rfl
    rcases ho with ⟨⟨⟩⟩ | ho | ⟨⟨⟩⟩
    exact ho
  have hrunning : ∀ e, o ≠ .casWeak .lifeState e .running := by
    rintro e rfl
    exact ho.not_writes (a := .lifeState) nofun nofun rfl
  have hts : ¬o.Writes .lastBadStatusMs := ho.not_writes nofun nofun
  exact hm.step ho.live hts hload (windowStart_cons hts hrunning) ho.spares h

/-- The other operations of a connection call. -/
theorem WindowAt.busy (hm : WindowAt h₀ config v dead m) (ho : o.InFlight ∨ o.Demotes)
    (h : AloneStep Clocked o r m m') : WindowAt h₀ config v dead m' := by
  have hspares := ImplOp.spares_of_busy ho
  have hlive := ImplOp.live_of_busy ho
  rcases ho with ho | rfl
  · have hload : o ≠ .load .lastBadStatusMs := by
      rintro rfl
      exact ho
    have hrunning : ∀ e, o ≠ .casWeak .lifeState e .running := by
      rintro e rfl
      exact ho
    have hts : ¬o.Writes .lastBadStatusMs := ho.not_writes nofun
    exact hm.step hlive hts hload (windowStart_cons hts hrunning) hspares h
  · exact hm.step (o := .casWeak .lifeState .running .recovering) hlive nofun nofun
      (windowStart_cons nofun nofun) hspares h

/-- A look at the timer. -/
theorem WindowSeen.look {ts : Int} (hm : WindowSeen h₀ config v dead m)
    (h : AloneStep Clocked (.load .lastBadStatusMs) ts m m') : WindowSeen h₀ config v dead m' :=
  hm.step (o := .load .lastBadStatusMs) (.inl ⟨nofun, nofun⟩) id (.inl rfl) rfl trivial h

/-- The end of a block under a mutex. -/
theorem WindowSeen.unlock {mx : Mutex} {u : Unit} (hm : WindowSeen h₀ config v dead m)
    (h : AloneStep Clocked (.unlock mx) u m m') : WindowAt h₀ config v dead m' where
  toWindowSeen := hm.step (o := .unlock mx) (.inl trivial) id (.inl rfl) rfl
    trivial h
  unlooked := h.history_eq ▸ unlooked_cons rfl

/-- The timer is started. -/
theorem WindowAt.start {now : Int} {u : Unit} (hm : WindowAt h₀ config v dead m) (hpos : 0 < now)
    (hclock : clock m.history = some now) (hnone : windowStart m.history = none)
    (h : AloneStep Clocked (.store .lastBadStatusMs now) u m m') :
    WindowSeen h₀ config v dead m' ∧ windowStart m'.history = some now := by
  have hwindow : windowStart m'.history = some now := by
    rw [h.history_eq, windowStart, if_neg hpos.ne', hnone, hclock]
    rfl
  have hworld := AloneStep.store h
  refine ⟨⟨⟨?_, ?_, ?_, ?_⟩, ?_, ?_, ?_⟩, hwindow⟩
  · rw [hwindow, hworld]
    rfl
  · rw [hwindow]
    rintro _ ⟨⟩
    exact hpos
  · rw [hworld]
    exact hm.config_eq
  · rw [hworld]
    exact hm.isOpen
  · exact h.history_eq ▸ hm.since.trans (List.suffix_cons _ _)
  · exact h.history_eq ▸ found_cons hm.found (.inl rfl)
  · rw [hworld]
    exact hm.alive

/-- What a call that began after `h₀` leaves: a check of the window has decided whether the client
is given up. -/
structure WindowEnds (h₀ : History) (config : ClientConfig) (m : Moment) : Prop extends
    Timed config m where
  givenUp_iff : ∀ start now, ChecksWindow h₀ m.history start now →
    (m.world.lifeState = .givenUp ↔ start + config.giveUpThresholdMs ≤ now)
  checked : m.world.lifeState = .givenUp → Checked h₀ m.history
  idle : m.world.connState = .idle

/-- No check has found the window over. -/
theorem WindowAt.ends (hm : WindowAt h₀ config v False m)
    (hv : ∀ start now, v start now → Verdict.early config start now)
    (hidle : m.world.connState = .idle) : WindowEnds h₀ config m where
  toTimed := hm.toTimed
  givenUp_iff start now hcheck := by
    have hearly : now < start + config.giveUpThresholdMs :=
      hv start now (hm.found start now hcheck)
    exact ⟨fun hgone => (hm.alive hgone).elim, fun hover => absurd hearly (not_lt.mpr hover)⟩
  checked hgone := (hm.alive hgone).elim
  idle := hidle

/-- The check has found the window over. -/
theorem WindowAt.ends_of_over (hm : WindowAt h₀ config (.over config) True m)
    (hchecked : Checked h₀ m.history) (hgone : m.world.lifeState = .givenUp)
    (hidle : m.world.connState = .idle) : WindowEnds h₀ config m where
  toTimed := hm.toTimed
  givenUp_iff start now hcheck := ⟨fun _ => hm.found start now hcheck, fun _ => hgone⟩
  checked _ := hchecked
  idle := hidle

/-- An open client that was not given up can be used. -/
theorem WindowAt.not_isGone (hm : WindowAt h₀ config v False m) : ¬m.world.IsGone :=
  ImplState.IsLive.not_isGone ⟨hm.isOpen, fun hgone => hm.alive hgone⟩

namespace Impl

/-! ### The timer -/

theorem looking_windowAt : Looking Clocked (fun _ => True) (WindowAt h₀ config v dead) where
  inv _ _ := trivial
  look _ ho _ _ _ hm h := hm.drift (.inl ho.looks) h

/-- The clock, in a call. -/
theorem window_nowMs (hm : WindowAt h₀ config v dead m) :
    Alone Clocked (fun _ => True) nowMs (Ends (WindowAt h₀ config v dead) fun now m' =>
      WindowAt h₀ config v dead m' ∧ 0 < now ∧ clock m'.history = some now ∧
        m'.world = m.world) m := by
  refine alone_step (o := .nowMs) fun r m₁ _ h => ?_
  have hm₁ := hm.drift (o := .nowMs) (.inl trivial) h
  refine ⟨trivial, ?_⟩
  cases r with
  | error e => exact hm₁
  | ok now =>
      refine ⟨hm₁, (h.meets now rfl).1, ?_, (Option.some.inj h.exec_eq).symm⟩
      rw [h.history_eq]
      rfl

/-- `updateBadStatusTime` starts the timer, if it is not started. -/
theorem window_updateBadStatusTime (hm : WindowAt h₀ config v dead m) :
    Alone Clocked (fun _ => True) updateBadStatusTime
      (fun r m' =>
        WindowAt h₀ config v dead m' ∧ (r = .ok () → (windowStart m'.history).isSome)) m := by
  refine alone_look looking_windowAt hm (o := .lock .badStatusMsMx) trivial fun _ m₁ hm₁ _ => ?_
  refine Protocol.Follows.ensuring (fun r m' => WindowSeen h₀ config v dead m' ∧
    (r = .ok () → (windowStart m'.history).isSome)) ?_ ?_
  · refine alone_step (o := .load .lastBadStatusMs) fun ts m₂ _ hload => ?_
    have hm₂ := hm₁.toWindowSeen.look hload
    obtain ⟨rfl, hworld₂⟩ := hload.load
    have hwindow₂ : windowStart m₂.history = windowStart m₁.history := by rw [hload.history_eq]; rfl
    refine ⟨trivial, ?_⟩
    by_cases hzero : m₁.world.get .lastBadStatusMs = 0
    · rw [decide_eq_true hzero]
      have hm₂' : WindowAt h₀ config v dead m₂ :=
        ⟨hm₂, hload.history_eq ▸ unlooked_cons (by rw [findsStarted, hzero]; rfl)⟩
      refine alone_bind _ (window_nowMs hm₂') (fun now m₃ hnow => ?_)
        fun e m₃ hm₃ => ⟨hm₃.toWindowSeen, nofun⟩
      obtain ⟨hm₃, hpos, hclock, hworld₃⟩ := hnow
      have hnone : windowStart m₃.history = none :=
        hm₃.toTimed.windowStart_eq_none (by rw [hworld₃, hworld₂]; exact hzero)
      refine Protocol.follows_solo_perform fun _ m₄ _ hstore => ?_
      have hstart := hm₃.start hpos hclock hnone hstore
      exact ⟨trivial, hstart.1, fun _ => by rw [hstart.2]; rfl⟩
    · rw [decide_eq_false hzero]
      refine ⟨hm₂, fun _ => ?_⟩
      rw [hwindow₂]
      exact hm₁.toTimed.windowStart_isSome hzero
  · rintro r m₂ ⟨hm₂, hstarted⟩
    refine Protocol.follows_solo_perform fun _ m₃ _ hunlock =>
      ⟨trivial, rfl, hm₂.unlock hunlock, ?_⟩
    rw [hunlock.history_eq]
    exact hstarted

theorem steady_windowAt : Steady Clocked (fun _ => True) (WindowAt h₀ config v dead) where
  inv _ _ := trivial
  drift _ ho _ _ _ hm h := hm.drift ho h
  timer _ hm := (window_updateBadStatusTime hm).mono fun _ _ h => h.1
  busy _ ho _ _ _ hm h := hm.busy ho h

/-- Where a check has been made, too. -/
theorem steady_checkedAt : Steady Clocked (fun _ => True)
    fun m => WindowAt h₀ config v dead m ∧ Checked h₀ m.history := by
  have hkeep : ∀ o r m m', AloneStep Clocked o r m m' → Checked h₀ m.history →
      Checked h₀ m'.history := by
    rintro o r m m' h ⟨start, now, hcheck⟩
    exact ⟨start, now, h.history_eq ▸ checksWindow_cons hcheck _⟩
  exact
    { inv := fun _ _ => trivial
      drift := fun o ho r m m' hm h => ⟨hm.1.drift ho h, hkeep o r m m' h hm.2⟩
      timer := keeps_updateBadStatusTime_and steady_windowAt.timer
        fun o _ r m m' h => hkeep o r m m' h
      busy := fun o ho r m m' hm h => ⟨hm.1.busy ho h, hkeep o r m m' h hm.2⟩ }

/-! ### The turns of the life state -/

/-- Within `TurnToRunning`, once it has taken effect: the window has ended. -/
structure ClearedSeen (h₀ : History) (v : Verdict) (h : History) : Prop where
  since : h₀ <:+ h
  found : Found h₀ v h
  ended : windowStart h = none

/-- The timer has not been looked at last. -/
def Cleared (h₀ : History) (v : Verdict) (h : History) : Prop :=
  ClearedSeen h₀ v h ∧ Unlooked h₀ h

theorem ClearedSeen.cons {h : History} {e : Event ImplSig}
    (hh : ClearedSeen h₀ v h) (hread : clockRead e = none)
    (hwindow : windowStart (e :: h) = none ∨ windowStart (e :: h) = windowStart h) :
    ClearedSeen h₀ v (e :: h) where
  since := hh.since.trans (List.suffix_cons _ _)
  found := found_cons hh.found (.inl hread)
  ended := hwindow.elim id fun h => h.trans hh.ended

/-- `TurnToRunning`. -/
theorem window_turnToRunning (hm : WindowAt h₀ config v dead m) :
    Alone Clocked (fun _ => True) turnToRunning
      (fun r m' => r = .ok () ∧ WindowAt h₀ config v dead m' ∧ m'.world = m.world.promote) m := by
  let running : ImplState := { m.world with lifeState := .running }
  refine alone_turnToRunning (I := fun m' => WindowAt h₀ config v dead m' ∧ m'.world = m.world)
    (K := fun m' => Cleared h₀ v m'.history ∧ m.world.lifeState ≠ .givenUp ∧
      m'.world = running)
    (L := fun m' => Cleared h₀ v m'.history ∧ m.world.lifeState ≠ .givenUp ∧
      m'.world = { running with connectionLost := false }) ⟨hm, rfl⟩ (fun _ _ => trivial)
    ?_ ?_ ?_ ?_ ?_ ?_
  · rintro life m₁ m₂ ⟨hm₁, hworld₁⟩ h
    exact ⟨hm₁.drift (o := .load .lifeState) (.inl rfl) h, h.load.2.trans hworld₁⟩
  · rintro e observed m₁ m₂ hne ⟨hm₁, hworld₁⟩ h
    refine ⟨hm₁.step (o := .casWeak .lifeState e .running) (.inr (.inl hne)) (by rintro ⟨⟩)
      (by rintro ⟨⟩) rfl (by rintro ⟨⟩) h, h.casWeak_error.trans hworld₁⟩
  · rintro e m₁ m₂ hne ⟨hm₁, hworld₁⟩ h
    obtain ⟨heq, hworld₂⟩ := h.casWeak_ok
    refine ⟨trivial, ⟨⟨?_, ?_, ?_⟩, ?_⟩, ?_, ?_⟩
    · exact h.history_eq ▸ hm₁.since.trans (List.suffix_cons _ _)
    · exact h.history_eq ▸ found_cons hm₁.found (.inl rfl)
    · rw [h.history_eq]
      rfl
    · exact h.history_eq ▸ unlooked_cons rfl
    · rw [← hworld₁]
      exact heq.trans_ne hne
    · rw [hworld₂, hworld₁]
      rfl
  · rintro m₁ m₂ ⟨hm₁, hne, hworld₁⟩ h
    refine ⟨trivial, ⟨h.history_eq ▸ hm₁.1.cons rfl (.inr rfl), h.history_eq ▸ unlooked_cons rfl⟩,
      hne, ?_⟩
    rw [h.store, hworld₁]
    rfl
  · rintro m₁ ⟨hm₁, hne, hworld₁⟩
    -- in the block the timer has been looked at, and not been written yet
    refine (alone_resetGiveUpTimer (I := fun m => Cleared h₀ v m.history)
      (J := fun m => ClearedSeen h₀ v m.history) (fun _ _ => trivial) (fun _ _ => trivial)
      ?_ ?_ ?_ ?_ hm₁).mono ?_
    · exact fun _ _ _ hm h => h.history_eq ▸ ⟨hm.1.cons rfl (.inr rfl), unlooked_cons rfl⟩
    · exact fun _ _ _ hm h => h.history_eq ▸ hm.1.cons rfl (.inr rfl)
    · exact fun _ _ _ hm h => h.history_eq ▸ hm.cons rfl (.inr rfl)
    · exact fun _ _ _ hm h => h.history_eq ▸ ⟨hm.cons rfl (.inr rfl), unlooked_cons rfl⟩
    · rintro r m₂ ⟨hr, hworld₂, hm₂⟩
      have hpromote : m₂.world = m.world.promote := by
        rw [hworld₂, hworld₁, ImplState.promote, if_neg hne]
      refine ⟨hr, ⟨⟨⟨?_, ?_, ?_, ?_⟩, hm₂.1.since, hm₂.1.found, ?_⟩, hm₂.2⟩, hpromote⟩
      · rw [hworld₂, hm₂.1.ended]
        rfl
      · rw [hm₂.1.ended]
        rintro _ ⟨⟩
      · rw [hworld₂, hworld₁]
        exact hm.config_eq
      · rw [hworld₂, hworld₁]
        exact hm.isOpen
      · rw [hworld₂, hworld₁]
        rintro ⟨⟩
  · rintro m₁ ⟨hm₁, hworld₁⟩ hdead
    refine ⟨hm₁, ?_⟩
    rw [ImplState.promote, if_pos (hworld₁ ▸ hdead), hworld₁]

/-! ### The window check -/

/-- The first check finds what it finds. -/
theorem found_of_check {h : History} {l e : Event ImplSig} {start now : Int}
    (hfirst : Found h₀ .never (l :: h)) (hread : clockRead e = some now)
    (hstart : windowStart h = some start) (hv : v start now) : Found h₀ v (e :: l :: h) := by
  intro start' now' hcheck
  rcases checksWindow_cons_iff.mp hcheck with hold | ⟨l', es, heq, -, hread', -, hstart'⟩
  · exact (hfirst start' now' hold).elim
  · obtain ⟨rfl, rfl⟩ := List.cons.inj heq
    obtain rfl := Option.some.inj (hread.symm.trans hread')
    obtain rfl := Option.some.inj (hstart.symm.trans hstart')
    exact hv

/-- The first `shouldTriggerGiveUp`, once the timer is started. -/
theorem window_shouldTriggerGiveUp (hm : WindowAt h₀ config .never False m)
    (hstarted : (windowStart m.history).isSome) :
    Alone Clocked (fun _ => True) shouldTriggerGiveUp
      (fun r m' => Ends (WindowAt h₀ config .never False) (fun expired m' =>
        (if expired then WindowAt h₀ config (.over config) True m' ∧ m.world.lastBadStatusMs ≠ 0
          else WindowAt h₀ config (.early config) False m') ∧ Checked h₀ m'.history) r m' ∧
        m'.world = m.world) m := by
  obtain ⟨start, hstart⟩ := Option.isSome_iff_exists.mp hstarted
  have hpos := hm.positive start hstart
  have hts : m.world.lastBadStatusMs = start := by rw [hm.timer, hstart]; rfl
  refine alone_step (o := .load .lastBadStatusMs) fun ts m₁ _ hload => ?_
  have hm₁ := hm.toWindowSeen.look hload
  obtain ⟨rfl, hworld₁⟩ := hload.load
  have hne : m.world.get .lastBadStatusMs ≠ 0 := by rw [ImplState.get, hts]; exact hpos.ne'
  rw [if_neg hne]
  refine ⟨trivial, alone_step (o := .nowMs) fun r m₂ _ hnow => ?_⟩
  have hworld₂ : m₂.world = m.world := (Option.some.inj hnow.exec_eq).symm.trans hworld₁
  have htimed₂ := hm₁.toTimed.step (o := .nowMs) (.inl trivial) id rfl hnow
  refine ⟨trivial, ?_⟩
  cases r with
  | error e =>
      have hm₂ := hm₁.step (o := .nowMs) (.inl trivial) id (.inl rfl) rfl
        trivial hnow
      exact ⟨⟨hm₂, hnow.history_eq ▸ unlooked_cons rfl⟩, hworld₂⟩
  | ok now =>
      have hcheck : ChecksWindow h₀ m₂.history start now := by
        -- the load of the timer and the reading of the clock, one after the other
        rw [hnow.history_eq, hload.history_eq]
        exact ⟨_, _, _, List.suffix_refl _, hm.since, rfl, bne_iff_ne.mpr hne, hstart⟩
      have hsince₂ : h₀ <:+ m₂.history :=
        hnow.history_eq ▸ hm₁.since.trans (List.suffix_cons _ _)
      have hfound₂ : ∀ v : Verdict, v start now → Found h₀ v m₂.history := by
        intro v hv
        have hfirst := hm₁.found
        rw [hload.history_eq] at hfirst
        rw [hnow.history_eq, hload.history_eq]
        exact found_of_check hfirst rfl hstart hv
      refine alone_step (o := .readConfig) fun c m₃ _ hread => ?_
      obtain ⟨rfl, hworld₃⟩ := ImplState.whenever_eq_some.mp hread.exec_eq
      have htimed₃ := htimed₂.step (o := .readConfig) (.inl trivial) id rfl hread
      have hsince₃ : h₀ <:+ m₃.history := hread.history_eq ▸ hsince₂.trans (List.suffix_cons _ _)
      have hfound₃ : ∀ v : Verdict, v start now → Found h₀ v m₃.history := fun v hv =>
        hread.history_eq ▸ found_cons (hfound₂ v hv) (.inl rfl)
      have hunlooked₃ : Unlooked h₀ m₃.history := hread.history_eq ▸ unlooked_cons rfl
      have hchecked₃ : Checked h₀ m₃.history :=
        hread.history_eq ▸ checked_cons ⟨start, now, hcheck⟩ _
      have hthreshold : m₂.world.config = config := htimed₂.config_eq
      refine ⟨trivial, ⟨?_, hchecked₃⟩, hworld₃.symm.trans hworld₂⟩
      rw [hthreshold, show m.world.get .lastBadStatusMs = start from hts]
      by_cases hover : config.giveUpThresholdMs ≤ now - start
      · rw [decide_eq_true hover]
        have hv : Verdict.over config start now := by unfold Verdict.over; omega
        exact ⟨⟨⟨htimed₃, hsince₃, hfound₃ _ hv, fun _ => trivial⟩, hunlooked₃⟩, hne⟩
      · rw [decide_eq_false hover]
        have hv : Verdict.early config start now := by unfold Verdict.early; omega
        refine ⟨⟨htimed₃, hsince₃, hfound₃ _ hv, fun hgone => hm.alive ?_⟩, hunlooked₃⟩
        rw [← hworld₂, hworld₃]
        exact hgone

/-! ### Giving up -/

/-- The window is over, and the client is about to be given up. -/
def DueAt (h₀ : History) (config : ClientConfig) (m : Moment) : Prop :=
  WindowAt h₀ config (.over config) True m ∧ Checked h₀ m.history ∧ m.world.connState = .idle

theorem looking_dueAt : Looking Clocked (fun _ => True) (DueAt h₀ config) where
  inv _ _ := trivial
  look o ho r m m' hm h := ⟨looking_windowAt.look o ho r m m' hm.1 h,
    h.history_eq ▸ checked_cons hm.2.1 _,
    (ImplState.get_of_not_writes (a := .connState) h.exec_eq ho.not_writes).trans hm.2.2⟩

/-- `updateBadStatusTime`, once the window is over. -/
theorem due_updateBadStatusTime (hm : DueAt h₀ config m)
    (hstarted : m.world.lastBadStatusMs ≠ 0) :
    Alone Clocked (fun _ => True) updateBadStatusTime
      (fun r m' => r = .ok () ∧ DueAt h₀ config m') m := by
  refine alone_updateBadStatusTime_started (J := fun m =>
    WindowSeen h₀ config (.over config) True m ∧ Checked h₀ m.history ∧ m.world.connState = .idle)
    looking_dueAt (fun _ _ => trivial) (fun ts m m' hm h => ?_) (fun u m m' hm h => ?_) hstarted hm
  · exact ⟨hm.1.toWindowSeen.look h, h.history_eq ▸ checked_cons hm.2.1 _, h.load.2 ▸ hm.2.2⟩
  · exact ⟨hm.1.unlock h, h.history_eq ▸ checked_cons hm.2.1 _,
      (ImplState.get_of_not_writes (a := .connState) h.exec_eq id).trans hm.2.2⟩

/-- A compare-exchange of `TurnToGiveup`. -/
theorem DueAt.giveUp {e : LifeState} {r : Except LifeState Unit} (hm : DueAt h₀ config m)
    (h : AloneStep Clocked (.casWeak .lifeState e .givenUp) r m m') : DueAt h₀ config m' := by
  have hwindow : windowStart m'.history = windowStart m.history := by rw [h.history_eq]; rfl
  have hworld : m.world = m'.world ∨ { m.world with lifeState := .givenUp } = m'.world := by
    rcases ImplState.cas_eq_some.mp h.exec_eq with ⟨-, -, hworld⟩ | ⟨-, -, hworld⟩
    · exact .inr hworld.symm
    · exact .inl hworld.symm
  have htimed : Timed config m' := by
    rcases hworld with hworld | hworld
    all_goals
      refine ⟨?_, hwindow ▸ hm.1.positive, hworld ▸ hm.1.config_eq, hworld ▸ hm.1.isOpen⟩
      rw [hwindow, ← hworld]
      exact hm.1.timer
  have hsince : h₀ <:+ m'.history := h.history_eq ▸ hm.1.since.trans (List.suffix_cons _ _)
  have hfound : Found h₀ (.over config) m'.history :=
    h.history_eq ▸ found_cons hm.1.found (.inl rfl)
  refine ⟨⟨⟨htimed, hsince, hfound, fun _ => trivial⟩, h.history_eq ▸ unlooked_cons rfl⟩,
    h.history_eq ▸ checked_cons hm.2.1 _, ?_⟩
  rcases hworld with hworld | hworld
  all_goals exact hworld ▸ hm.2.2

/-- `TurnToGiveup`, once the window is over. -/
theorem window_turnToGiveup (hm : DueAt h₀ config m) (hstarted : m.world.lastBadStatusMs ≠ 0) :
    Alone Clocked (fun _ => True) turnToGiveup
      (Ends (fun _ => False) fun _ m' => DueAt h₀ config m' ∧ m'.world.lifeState = .givenUp) m := by
  refine alone_turnToGiveup looking_dueAt ((due_updateBadStatusTime hm hstarted).mono ?_)
    (fun e observed m₁ m₂ hm₁ h => hm₁.giveUp h) (fun e m₁ m₂ hm₁ h => ?_)
    fun _ hm hdead => ⟨hm, hdead⟩
  · rintro r m₁ ⟨rfl, hm₁⟩
    exact hm₁
  · refine ⟨trivial, hm₁.giveUp h, ?_⟩
    rw [h.casWeak_ok.2]
    rfl

/-! ### Calls -/

/-- How a decision that began after `h₀` ends: unless it ends with an exception, it has checked the
window or leaves a sound client. -/
def Decided (h₀ : History) (config : ClientConfig) (r : Except Exn Unit) (m : Moment) : Prop :=
  WindowEnds h₀ config m ∧ (r = .ok () → Checked h₀ m.history ∨ m.world.IsSound)

/-- The window check. -/
theorem window_giveUpIfExpired (hm : WindowAt h₀ config .never False m)
    (hidle : m.world.connState = .idle) :
    Alone Clocked (fun _ => True) giveUpIfExpired
      (Ends (fun m' => ∀ e, Decided h₀ config (.error e) m') fun expired m' =>
        if expired then Decided h₀ config (.ok ()) m'
        else (WindowAt h₀ config (.early config) False m' ∧ Checked h₀ m'.history) ∧
          m'.world.connState = .idle) m := by
  have hkeep : ∀ o : ImplOp, o.Timing → ∀ r m m', AloneStep Clocked o r m m' →
      m.world.connState = .idle → m'.world.connState = .idle := fun o ho r m m' h hidle =>
    (ImplState.get_of_not_writes (a := .connState) h.exec_eq (ho.not_writes nofun)).trans hidle
  have htimer := Protocol.Follows.frame hkeep uses_updateBadStatusTime
    (window_updateBadStatusTime hm) hidle
  have hnever : ∀ start now, Verdict.never start now → Verdict.early config start now :=
    fun _ _ h => h.elim
  refine alone_bind _ htimer ?_ fun e m₁ h e' => ⟨h.1.1.ends hnever h.2, nofun⟩
  rintro ⟨⟩ m₁ ⟨⟨hm₁, hstarted⟩, hidle₁⟩
  refine alone_bind _ (window_shouldTriggerGiveUp hm₁ (hstarted rfl)) ?_ ?_
  · rintro expired m₂ ⟨⟨hm₂, hchecked₂⟩, hworld₂⟩
    have hidle₂ : m₂.world.connState = .idle := hworld₂ ▸ hidle₁
    cases expired with
    | false => exact ⟨⟨hm₂, hchecked₂⟩, hidle₂⟩
    | true =>
        have hdue : DueAt h₀ config m₂ := ⟨hm₂.1, hchecked₂, hidle₂⟩
        refine alone_bind _ (window_turnToGiveup hdue (hworld₂ ▸ hm₂.2)) ?_ fun _ _ h => h.elim
        rintro ⟨⟩ m₃ ⟨⟨hm₃, hchecked₃, hidle₃⟩, hgone⟩
        exact ⟨hm₃.ends_of_over hchecked₃ hgone hidle₃, fun _ => .inl hchecked₃⟩
  · rintro e m₂ ⟨hm₂, hworld₂⟩
    exact fun _ => ⟨hm₂.ends hnever (hworld₂ ▸ hidle₁), nofun⟩

/-- Where the window has been checked and was not over. -/
abbrev EarlyAt (h₀ : History) (config : ClientConfig) (m : Moment) : Prop :=
  WindowAt h₀ config (.early config) False m ∧ Checked h₀ m.history

/-- `TurnToRunning` there. -/
theorem early_turnToRunning (hm : EarlyAt h₀ config m) :
    Alone Clocked (fun _ => True) turnToRunning
      (fun r m' => (r = .ok () ∧ EarlyAt h₀ config m') ∧ m'.world = m.world.promote) m := by
  have hkeep : ∀ o r m m', Traced.StepIf Clocked ImplState.exec 0 o r m m' →
      Checked h₀ m.history → Checked h₀ m'.history := fun o r m m' h hchecked =>
    h.history_eq ▸ checked_cons hchecked _
  refine ((window_turnToRunning hm.1).frame_all hkeep hm.2).mono ?_
  rintro r m' ⟨⟨hr, hm', hworld⟩, hchecked⟩
  exact ⟨⟨hr, hm', hchecked⟩, hworld⟩

/-- `connect` there. -/
theorem early_connect (hm : EarlyAt h₀ config m) (hidle : m.world.connState = .idle) :
    Alone Clocked (fun _ => True) connect (fun r m' =>
      Ends (EarlyAt h₀ config) (ConnectEnds (EarlyAt h₀ config) (EarlyAt h₀ config)
        (EarlyAt h₀ config)) r m' ∧ m'.world.connState = .idle) m :=
  alone_connect_of_steady steady_checkedAt
    (fun _ hm => (early_turnToRunning hm).mono fun _ _ h => h.1) hm hidle

/-- A decision that promotes the client after its check. -/
theorem early_promoted (hm : EarlyAt h₀ config m) (hidle : m.world.connState = .idle) :
    Alone Clocked (fun _ => True) turnToRunning (Decided h₀ config) m := by
  refine (early_turnToRunning hm).mono ?_
  rintro r m' ⟨⟨-, hm'⟩, hworld⟩
  exact ⟨hm'.1.ends (fun _ _ h => h) (hworld ▸ ImplState.idle_promote hidle), fun _ => .inl hm'.2⟩

/-- A decision that finds the client healthy. -/
theorem window_promoted (hm : WindowAt h₀ config .never False m)
    (hidle : m.world.connState = .idle) (hhealthy : m.world.isHealthy = true) :
    Alone Clocked (fun _ => True) turnToRunning (Decided h₀ config) m := by
  refine (window_turnToRunning hm).mono ?_
  rintro r m' ⟨-, hm', hworld⟩
  have hlife : m.world.lifeState ≠ .givenUp := fun hgone => hm.alive hgone
  refine ⟨hm'.ends (fun _ _ h => h.elim) (hworld ▸ ImplState.idle_promote hidle), fun _ => .inr ?_⟩
  exact hworld ▸ ImplState.isSound_promote hlife (ImplState.isReady_of_isHealthy hhealthy)

/-- A decision on a client that was not given up. -/
theorem window_decision (hm : WindowAt h₀ config .never False m)
    (hidle : m.world.connState = .idle) :
    Alone Clocked (fun _ => True) doWatchdogDecision (Decided h₀ config) m := by
  have hends : ∀ m, EarlyAt h₀ config m → m.world.connState = .idle → WindowEnds h₀ config m :=
    fun _ hm hidle => hm.1.ends (fun _ _ h => h) hidle
  exact steady_decision turnToRunning steady_windowAt.toDrifting steady_checkedAt
    (fun _ => window_giveUpIfExpired) (fun _ => early_connect) (fun _ => early_promoted)
    (fun _ hm hidle _ => early_promoted hm hidle) (fun _ hm => hm.1.not_isGone)
    (fun _ m hm hidle => ⟨hends m hm hidle, nofun⟩)
    (fun m hm hidle _ => ⟨hends m hm hidle, fun _ => .inl hm.2⟩)
    (fun _ hm _ hgone => absurd hgone hm.not_isGone)
    (fun _ _ hm hidle => ⟨hm.ends (fun _ _ h => h.elim) hidle, nofun⟩)
    (fun _ => window_promoted) hm hidle

/-- A decision on a client that was given up. -/
theorem gone_decision (hm : WindowAt h₀ config v dead m) (hidle : m.world.connState = .idle)
    (hgone : m.world.lifeState = .givenUp) :
    Alone Clocked (fun _ => True) doWatchdogDecision
      (fun _ m' => WindowAt h₀ config v dead m' ∧ m'.world.connState = .idle) m := by
  have hsteady : Steady Clocked (fun _ => True) (WindowAt h₀ config v dead) := steady_windowAt
  have hI := (drifting_idle hsteady.toDrifting).looking
  have hstop : m.world.stopSignal = true := by simp [ImplState.stopSignal, hgone]
  refine alone_sees (alone_stopSignal hI ⟨hm, hidle⟩) fun m₁ hm₁ _ => ?_
  rw [hstop]
  exact hm₁

/-! ### Sessions -/

/-- What a call of a session does. -/
def CallEnds (c : SessionCall) (m : Moment) (config : ClientConfig) (r : Except Exn ImplReply)
    (m' : Moment) : Prop :=
  (Timed config m' ∧ m'.world.connState = .idle) ∧
    (m.world.lifeState ≠ .givenUp → WindowEnds m.history config m' ∧
      (c = .watchdogDecision → r = .ok .unit →
        Checked m.history m'.history ∨ m'.world.IsSound))

/-- A call of a session. -/
theorem window_sessionCall (c : SessionCall) (hm : Timed config m)
    (hidle : m.world.connState = .idle) :
    Alone Clocked (fun _ => True) c.run (CallEnds c m config) m := by
  have hstart : WindowAt m.history config .never (m.world.lifeState = .givenUp) m :=
    ⟨⟨hm, List.suffix_refl _, found_refl, id⟩, unlooked_refl⟩
  have hsteady : Steady Clocked (fun _ => True)
      (WindowAt m.history config .never (m.world.lifeState = .givenUp)) := steady_windowAt
  have hends : ∀ r m', WindowAt m.history config .never (m.world.lifeState = .givenUp) m' ∧
      m'.world.connState = .idle → c ≠ .watchdogDecision → CallEnds c m config r m' := by
    rintro r m' ⟨hm', hidle'⟩ hc
    refine ⟨⟨hm'.toTimed, hidle'⟩, fun hlife => ⟨?_, fun h => absurd h hc⟩⟩
    have hfalse : WindowAt m.history config .never False m' :=
      ⟨⟨hm'.toTimed, hm'.since, hm'.found, fun h => hlife (hm'.alive h)⟩, hm'.unlooked⟩
    exact hfalse.ends (fun _ _ h => h.elim) hidle'
  by_cases hc : c = .watchdogDecision
  · subst hc
    by_cases hlife : m.world.lifeState = .givenUp
    -- a client that is given up is left alone
    · refine alone_keeps_from (gone_decision hstart hidle hlife) (fun _ m' hm' => ?_)
        fun _ m' hm' => ?_
      all_goals exact ⟨⟨hm'.1.toTimed, hm'.2⟩, fun h => absurd hlife h⟩
    · have hlive : WindowAt m.history config .never False m :=
        ⟨⟨hm, List.suffix_refl _, found_refl, fun h => hlife h⟩, unlooked_refl⟩
      refine alone_bind _ (window_decision hlive hidle) ?_ ?_
      · rintro ⟨⟩ m' ⟨hm', hchecked⟩
        exact ⟨⟨hm'.toTimed, hm'.idle⟩, fun _ => ⟨hm', fun _ _ => hchecked rfl⟩⟩
      · rintro e m' ⟨hm', -⟩
        exact ⟨⟨hm'.toTimed, hm'.idle⟩, fun _ => ⟨hm', nofun⟩⟩
  · have hkeeps := composed_sessionCall (polling_of_drifting (drifting_idle hsteady.toDrifting)) c
      (alone_keeps_connect hsteady fun _ hm => (window_turnToRunning hm).mono
        fun _ _ h => ⟨h.1, h.2.1⟩)
      (alone_keeps_disconnect hsteady) fun h => absurd h hc
    exact (hkeeps m ⟨hstart, hidle⟩).mono fun r m' h => hends r m' h hc

end Impl

/-- In every session on an open client whose clock is positive and never goes back, the timer holds
the beginning of the window, or 0; and a call gives the client up exactly when its check of the
window finds it over. A decision that ends without an exception and without checking the window
leaves a sound client. -/
theorem windowExact {s : ImplState} (hopen : s.IsOpen) (hidle : s.connState = .idle)
    (htimer : s.lastBadStatusMs = 0) {m : Moment} (hm : Session Clocked s m) :
    m.world.lastBadStatusMs = (windowStart m.history).getD 0 ∧
    ∀ (c : SessionCall) (d : ImplPool) (a : Except Exn ImplReply),
      Config.Reach (Traced.StepIf Clocked ImplState.exec) (ImplPool.solo c.run m) d →
      d.Returned 0 a → m.world.lifeState ≠ .givenUp →
      (∀ start now, ChecksWindow m.history d.state.history start now →
        (d.state.world.lifeState = .givenUp ↔ start + s.config.giveUpThresholdMs ≤ now)) ∧
      (d.state.world.lifeState = .givenUp → Checked m.history d.state.history) ∧
      (c = .watchdogDecision → a = .ok .unit →
        Checked m.history d.state.history ∨ d.state.world.IsSound) := by
  have htimed : Timed s.config m ∧ m.world.connState = .idle := by
    have hcall : ∀ c : SessionCall, (aloneProtocol Clocked fun _ => True).Keeps
        (fun m => Timed s.config m ∧ m.world.connState = .idle) 0 c.run :=
      fun c m hm => (Impl.window_sessionCall c hm.1 hm.2).mono fun _ _ h => h.1
    exact hm.keeps (fun _ _ => trivial) hcall ⟨⟨htimer, nofun, rfl, hopen⟩, hidle⟩
  refine ⟨htimed.1.timer, fun c d a hd hret hlife => ?_⟩
  have hcall := Impl.window_sessionCall c htimed.1 htimed.2
  obtain ⟨hends, hchecked⟩ := ((Impl.reach_alone trivial hcall hd).2 a hret).2 hlife
  exact ⟨hends.givenUp_iff, hends.checked, hchecked⟩

/-- A bad status over a closed channel. -/
def faultAt (now : Int) : Environment :=
  { state := ⟨UA_StatusCode.badCommunicationError, .closed, .closed⟩, now := now }

/-- A failed `checkConnected`, with which the window begins. -/
def windowBegins : Option ImplPool :=
  (ImplPool.solo SessionCall.checkConnected.run (.start .connected)).playIf Clocked ImplState.exec
    ((faultAt 7).moves 0 26)

/-- A decision afterwards, when the window is over. -/
def windowCloses (m : Moment) : Option ImplPool :=
  (ImplPool.solo SessionCall.watchdogDecision.run m).playIf Clocked ImplState.exec
    ((faultAt 60007).moves 0 41)

/-- The decision gives the client up, and it has checked the window. -/
theorem windowExact_givesUp :
    ∃ (m : Moment) (d : ImplPool), Session Clocked .connected m ∧
      m.world.lastBadStatusMs = (windowStart m.history).getD 0 ∧ m.world.lastBadStatusMs = 7 ∧
      d.Returned 0 (.ok .unit) ∧ d.state.world.lifeState = .givenUp ∧
      Checked m.history d.state.history := by
  have hplay : windowBegins.any (fun d => d.state.world.lastBadStatusMs == 7 &&
      d.state.world.lifeState != .givenUp && (d.result? 0).isSome &&
      (windowCloses d.state).any fun d' => d'.state.world.lifeState == .givenUp &&
        d'.result? 0 == some (.ok .unit)) = true := by
    decide +kernel
  obtain ⟨d, -, hd, hcheck⟩ := Config.exists_reach_of_play hplay
  simp only [Bool.and_eq_true, beq_iff_eq, bne_iff_ne] at hcheck
  obtain ⟨⟨⟨htimer, hlife⟩, hreturned⟩, hdecision⟩ := hcheck
  obtain ⟨a, ha⟩ := Option.isSome_iff_exists.mp hreturned
  obtain ⟨d', -, hd', hcheck'⟩ := Config.exists_reach_of_play hdecision
  simp only [Bool.and_eq_true, beq_iff_eq] at hcheck'
  obtain ⟨hgone, hreturned'⟩ := hcheck'
  have hret' := Config.returned_of_result? hreturned'
  have hsession : Session Clocked .connected d.state :=
    .call .checkConnected .start hd (Config.returned_of_result? ha)
  obtain ⟨hexact, hcalls⟩ := windowExact ⟨rfl, rfl⟩ rfl rfl hsession
  obtain ⟨-, hchecked, -⟩ := hcalls .watchdogDecision d' _ hd' hret' hlife
  exact ⟨d.state, d', hsession, hexact, htimer, hret', hgone, hchecked hgone⟩

end OPCUAPacking
