import OPCUAPacking.Impl.Schedule

/-!
# Giving up is final

`m_lifeState` has four writers that race through compare-exchanges. Whatever the schedule, none of
them leaves GIVEN_UP once it is reached, and one compare-exchange reaches it.

* `ImplOp.KeepsGivenUp` — the footprint of every call: no operation writes the life state over
  GIVEN_UP.
* `isGiveUp` — the compare-exchange that gives the client up.
* `givenUp_absorbing_once` — the result, for every pool of calls.
-/

namespace OPCUAPacking

open Interleaving

/-- The operation does not write the life state over GIVEN_UP. -/
def ImplOp.KeepsGivenUp : ImplOp → Prop
  | .store .lifeState _ => False
  | .casWeak .lifeState e d | .casStrong .lifeState e d => e = .givenUp → d = .givenUp
  | _ => True

/-- The operation is a compare-exchange that took another life state to GIVEN_UP. -/
def isGiveUp : (o : ImplOp) → o.Resp → Bool
  | .casWeak .lifeState e d, .ok () => e != .givenUp && d == .givenUp
  | .casStrong .lifeState e d, .ok () => e != .givenUp && d == .givenUp
  | _, _ => false

/-- `isGiveUp`, of an event. -/
def isGiveUpEvent (e : Event ImplSig) : Bool := isGiveUp e.op e.resp

namespace ImplOp

/-- An operation that does not write the life state keeps GIVEN_UP. -/
theorem keepsGivenUp_of_not_writes {o : ImplOp} (h : ¬o.Writes .lifeState) :
    o.KeepsGivenUp := by
  cases o with
  | store a v | casWeak a e d | casStrong a e d =>
      cases a <;> first | exact absurd rfl h | trivial
  | _ => trivial

/-- It gives nobody up. -/
theorem isGiveUp_of_not_writes {o : ImplOp} {r : o.Resp} (h : ¬o.Writes .lifeState) :
    isGiveUp o r = false := by
  cases o with
  | casWeak a e d | casStrong a e d => cases a <;> first | rfl | exact absurd rfl h
  | _ => rfl

end ImplOp

namespace ImplState

/-- What an operation that keeps GIVEN_UP does to the life state: it gives the client up, or it
leaves GIVEN_UP alone. -/
theorem lifeState_of_exec {t : Tid} {o : ImplOp} {r : o.Resp} {s s' : ImplState}
    (hk : o.KeepsGivenUp) (h : exec t o r s = some s') :
    (isGiveUp o r = true ∧ s.lifeState ≠ .givenUp ∧ s'.lifeState = .givenUp) ∨
      (isGiveUp o r = false ∧ (s.lifeState = .givenUp → s'.lifeState = .givenUp)) := by
  by_cases hw : o.Writes .lifeState
  · cases o with
    | store a v =>
        obtain rfl : a = .lifeState := hw
        exact hk.elim
    | casWeak a e d | casStrong a e d =>
        obtain rfl : a = .lifeState := hw
        rcases cas_eq_some.mp h with ⟨rfl, hget, rfl⟩ | ⟨rfl, -, rfl⟩
        · have hlife : s.lifeState = e := hget
          by_cases he : e = .givenUp
          · exact .inr ⟨by simp [isGiveUp, he], fun _ => hk he⟩
          · by_cases hd : d = .givenUp
            · exact .inl ⟨by simp [isGiveUp, he, hd], hlife ▸ he, hd⟩
            · exact .inr ⟨by simp [isGiveUp, hd], fun hs => absurd (hlife ▸ hs) he⟩
        · exact .inr ⟨rfl, id⟩
    | _ => exact hw.elim
  · refine .inr ⟨ImplOp.isGiveUp_of_not_writes hw, fun hs => ?_⟩
    exact (get_of_not_writes h hw).trans hs

end ImplState

/-- The operations of the calls keep GIVEN_UP: their compare-exchanges do not expect it. -/
theorem Impl.Footprint.keepsGivenUp {o : ImplOp} (h : Impl.Footprint o) : o.KeepsGivenUp := by
  by_cases hw : o.Writes .lifeState
  · cases o with
    | store a v =>
        obtain rfl : a = .lifeState := hw
        rcases h with (h | h | h | h) | h <;> exact h.elim
    | casWeak a e d | casStrong a e d =>
        obtain rfl : a = .lifeState := hw
        rcases h with (h | h | h | h) | h
        · exact h.elim
        · exact fun he => absurd he h
        · exact h.elim
        · exact h.elim
        · exact h.elim
    | _ => exact hw.elim
  · exact ImplOp.keepsGivenUp_of_not_writes hw

/-! ### Runs -/

/-- At most one compare-exchange has given the client up, and none has unless the life state is
GIVEN_UP. -/
def GivenUpOnce (s : Traced ImplSig ImplState) : Prop :=
  s.history.countP isGiveUpEvent ≤ if s.world.lifeState = .givenUp then 1 else 0

/-- Every step keeps it. -/
theorem givenUpOnce_step {t : Tid} {o : ImplOp} {r : o.Resp} {s s' : Traced ImplSig ImplState}
    (ho : Impl.Footprint o) (hs : GivenUpOnce s) (h : Traced.Step ImplState.exec t o r s s') :
    GivenUpOnce s' := by
  unfold GivenUpOnce at hs ⊢
  rw [h.history_eq]
  rcases ImplState.lifeState_of_exec ho.keepsGivenUp h.exec_eq with
    ⟨hgive, hlive, hdead⟩ | ⟨hgive, hkeep⟩
  · -- the first to give the client up
    have hevent : isGiveUpEvent ⟨t, o, r⟩ = true := hgive
    rw [List.countP_cons_of_pos hevent, if_pos hdead]
    rw [if_neg hlive] at hs
    omega
  · rw [List.countP_cons_of_neg (by simpa [isGiveUpEvent] using hgive)]
    split_ifs at hs with hg
    · rwa [if_pos (hkeep hg)]
    · exact hs.trans (Nat.zero_le _)

variable {calls : Tid → Option ImplCall} {s : ImplState} {c d : ImplPool}

/-- Once GIVEN_UP, always GIVEN_UP. -/
theorem lifeState_givenUp_of_reach (hc : ImplPool.Reach (ImplPool.start calls s) c)
    (hd : ImplPool.Reach c d) (hg : c.state.world.lifeState = .givenUp) :
    d.state.world.lifeState = .givenUp := by
  refine (hd.uses (P := fun s => s.world.lifeState = .givenUp) ?_ (uses_of_reach hc) hg).1
  intro t o r s s' ho hs h
  rcases ImplState.lifeState_of_exec ho.keepsGivenUp h.exec_eq with ⟨-, -, hdead⟩ | ⟨-, hkeep⟩
  · exact hdead
  · exact hkeep hs

/-- Two compare-exchanges that gave the client up are one. -/
theorem giveUp_unique (hc : ImplPool.Reach (ImplPool.start calls s) c) {e e' : Event ImplSig}
    (he : e ∈ c.state.history) (he' : e' ∈ c.state.history) (hp : isGiveUpEvent e = true)
    (hp' : isGiveUpEvent e' = true) : e = e' := by
  have honce : GivenUpOnce c.state :=
    (hc.uses (fun ho hs h => givenUpOnce_step ho hs h) (Impl.uses_start calls s)
      (Nat.zero_le _)).1
  have hle : (c.state.history.filter isGiveUpEvent).length ≤ 1 := by
    rw [← List.countP_eq_length_filter]
    exact honce.trans (by split <;> omega)
  have hmem := List.mem_filter.mpr ⟨he, hp⟩
  have hmem' := List.mem_filter.mpr ⟨he', hp'⟩
  match hl : c.state.history.filter isGiveUpEvent with
  | [] => simp [hl] at hmem
  | [x] =>
      rw [hl] at hmem hmem'
      rw [List.mem_singleton.mp hmem, List.mem_singleton.mp hmem']
  | x :: y :: l => simp [hl] at hle

/-- What `setGiveUpSignal` answers says whether it gave the client up. -/
theorem setGiveUpSignal_follows (t : Tid) :
    (Protocol.own ImplState.exec (Event.seen isGiveUp) fun _ => false).Follows t
      (ImplCall.run .setGiveUpSignal)
      (fun a gaveUp => ∀ r, a = .ok (.giveUp r) → (r = .ok () ↔ gaveUp = true)) false := by
  refine Protocol.Follows.bind (fun a gaveUp => ∀ r, a = .ok r → (r = .ok () ↔ gaveUp = true))
    ?_ ?_ fun e gaveUp _ r hr => by cases hr
  · refine Protocol.Follows.bind (fun _ gaveUp => gaveUp = false)
      (Protocol.follows_own_perform fun _ life => rfl) (fun life gaveUp hgave => ?_) ?_
    · -- the loop goes round only after a compare-exchange that failed
      refine Protocol.Follows.loop (fun _ gaveUp => gaveUp = false) hgave
        fun expected gaveUp hgave => ?_
      subst hgave
      split
      · next hlive =>
        refine Protocol.Follows.bind
          (fun a gaveUp => (a = .ok (.ok ()) ∧ gaveUp = true) ∨
            ((∃ observed, a = .ok (.error observed)) ∧ gaveUp = false))
          (Protocol.follows_own_perform fun _ r => ?_) ?_ ?_
        · rcases r with observed | u
          · exact .inr ⟨⟨observed, rfl⟩, rfl⟩
          · refine .inl ⟨rfl, ?_⟩
            rcases hlive with rfl | rfl <;> rfl
        · rintro r gaveUp (⟨hr, rfl⟩ | ⟨⟨observed, hr⟩, rfl⟩)
          · cases hr
            rintro r' hr'
            cases hr'
            simp
          · cases hr
            rfl
        · rintro e gaveUp (⟨hr, -⟩ | ⟨⟨observed, hr⟩, -⟩) <;> cases hr
      · rintro r hr
        cases hr
        simp
    · rintro e gaveUp - r hr
      cases hr
  · rintro r gaveUp hiff r' hr'
    cases hr'
    exact hiff r rfl

/-- What `setGiveUpSignal` has answered says whether its compare-exchange is in the history. -/
theorem setGiveUpSignal_succeeds_iff {t : Tid} {r : Result Unit RichError}
    (hc : ImplPool.Reach (ImplPool.start calls s) c) (ht : calls t = some .setGiveUpSignal)
    (hr : c.Returned t (.ok (.giveUp r))) :
    r = .ok () ↔ ∃ o r', ⟨t, o, r'⟩ ∈ c.state.history ∧ isGiveUp o r' = true := by
  have hfollows : (Protocol.own ImplState.exec (Event.seen isGiveUp) fun _ => false).Follows t
      ((ImplPool.start calls s).pool t)
      (fun a gaveUp => ∀ r, a = .ok (.giveUp r) → (r = .ok () ↔ gaveUp = true)) false := by
    simpa [ImplPool.start, ht, ImplCall.thread] using setGiveUpSignal_follows t
  rw [Protocol.own_returned hfollows hc hr r rfl]
  exact Event.stage_seen

/-- Giving up is final: GIVEN_UP stays, `setGiveUpSignal` succeeds exactly when its own
compare-exchange made the transition, and at most one succeeds. -/
structure GivesUpOnce (calls : Tid → Option ImplCall) (c : ImplPool) : Prop where
  absorbing : ∀ d, ImplPool.Reach c d → c.state.world.lifeState = .givenUp →
    d.state.world.lifeState = .givenUp
  succeeds_iff : ∀ t r, calls t = some .setGiveUpSignal → c.Returned t (.ok (.giveUp r)) →
    (r = .ok () ↔ ∃ o r', ⟨t, o, r'⟩ ∈ c.state.history ∧ isGiveUp o r' = true)
  unique : ∀ t u, calls t = some .setGiveUpSignal → calls u = some .setGiveUpSignal →
    c.Returned t (.ok (.giveUp (.ok ()))) → c.Returned u (.ok (.giveUp (.ok ()))) → t = u

/-- GIVEN_UP is absorbing and entered once, in every pool of calls on a configured `Impl` and
whatever its state. -/
theorem givenUp_absorbing_once (hc : ImplPool.Reach (ImplPool.start calls s) c) :
    GivesUpOnce calls c where
  absorbing _ hd hg := lifeState_givenUp_of_reach hc hd hg
  succeeds_iff _ _ ht hr := setGiveUpSignal_succeeds_iff hc ht hr
  unique t u ht hu hrt hru := by
    obtain ⟨o, r, hmem, hp⟩ := (setGiveUpSignal_succeeds_iff hc ht hrt).mp rfl
    obtain ⟨o', r', hmem', hp'⟩ := (setGiveUpSignal_succeeds_iff hc hu hru).mp rfl
    exact congrArg Event.tid (giveUp_unique hc hmem hmem' hp hp')

/-- Two users give up while the watchdog, which has read RUNNING before, promotes the client. -/
def giveUpRace : Option ImplPool :=
  let env : Environment := {}
  ImplPool.run [.setGiveUpSignal, .setGiveUpSignal, .turnToRunning]
    (.construct {} "opc.tcp://plc:4840" 1)
    (env.moves 2 1 ++ env.moves 0 3 ++ env.moves 1 2 ++ env.moves 2 3)

/-- One of the users succeeds, and the promotion comes too late. -/
theorem givenUp_absorbing_once_race :
    ∃ c : ImplPool, GivesUpOnce (callsOf [.setGiveUpSignal, .setGiveUpSignal, .turnToRunning]) c ∧
      c.state.world.lifeState = .givenUp ∧ c.Returned 0 (.ok (.giveUp (.ok ()))) ∧
      c.Returned 2 (.ok .unit) := by
  have hplay : giveUpRace.any (fun d => d.state.world.lifeState == .givenUp &&
      (d.result? 0 == some (.ok (.giveUp (.ok ()))) &&
        d.result? 2 == some (.ok .unit))) = true := by
    decide
  obtain ⟨d, -, hd, hcheck⟩ := Config.exists_reach_of_play hplay
  simp only [Bool.and_eq_true, beq_iff_eq] at hcheck
  exact ⟨d, givenUp_absorbing_once hd, hcheck.1, Config.returned_of_result? hcheck.2.1,
    Config.returned_of_result? hcheck.2.2⟩

end OPCUAPacking
