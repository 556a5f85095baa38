import OPCUAPacking.Impl.Drain

/-!
# The last read after the stop signal

Every attempt of `batchRead` looks at the stop signal before it calls `serviceRead`, so a thread
that finds the signal on in its next look has at most one read left.

* `Armed` — what a thread has seen of the stop signal since its last read.
* `reads_le_of_reach` — from the moment the signal is on, every thread starts at most one read.
* `drainHandshake` — the result about `shutdown` and the calls in flight.
-/

namespace OPCUAPacking

open Interleaving

/-- The operation starts a `serviceRead`. -/
def ImplOp.isRead : ImplOp → Bool
  | .sdkCall _ (.serviceRead _) => true
  | _ => false

/-- How many reads thread `t` has started. -/
def reads (t : Tid) (h : History) : Nat := h.countP fun e => e.tid == t && ImplOp.isRead e.op

/-- What a thread has seen since its last read: that the flags did not give the stop signal, and
that the life state did not. -/
structure Armed where
  flags : Bool
  life : Bool
  deriving DecidableEq

namespace Armed

/-- How an operation moves the stage. -/
def track (_ : History) (ℓ : Armed) : (o : ImplOp) → o.Resp → Armed
  | .load .shutdown, false => { ℓ with flags := true }
  | .load .running, true => { ℓ with flags := true }
  | .load .lifeState, life => { ℓ with life := ℓ.life || life != .givenUp }
  | .sdkCall _ (.serviceRead _), _ => ⟨false, false⟩
  | _, _ => ℓ

/-- A read comes after a look at the stop signal. -/
def Allows (ℓ : Armed) (o : ImplOp) (_ : o.Resp) : Prop := o.isRead = true → ℓ = ⟨true, true⟩

/-- A set of stages that looking at the stop signal does not leave. -/
def Stable (I : Armed → Prop) : Prop :=
  ∀ ℓ, I ℓ → I { ℓ with flags := true } ∧ ∀ b, I { ℓ with life := ℓ.life || b }

/-- An operation that starts no read keeps a stable set. -/
theorem track_of_stable {I : Armed → Prop} (hI : Stable I) {o : ImplOp} (h : o.isRead = false)
    (es : History) (ℓ : Armed) (r : o.Resp) (hℓ : I ℓ) : ℓ.Allows o r ∧ I (ℓ.track es o r) := by
  refine ⟨fun hr => absurd (h.symm.trans hr) nofun, ?_⟩
  cases o with
  | load a =>
      cases a with
      | shutdown => cases r <;> first | exact (hI ℓ hℓ).1 | exact hℓ
      | running => cases r <;> first | exact (hI ℓ hℓ).1 | exact hℓ
      | lifeState => exact (hI ℓ hℓ).2 _
      | _ => exact hℓ
  | sdkCall client c => cases c <;> first | exact hℓ | cases h
  | _ => exact hℓ

end Armed

/-- The stage of thread `t` after a history. -/
def armed (t : Tid) (es : History) : Armed := Event.stage Armed.track ⟨false, false⟩ t es

/-- The protocol of the reads. -/
abbrev readProtocol : Protocol ImplSig (Traced ImplSig ImplState) Armed :=
  Protocol.recorded ImplState.exec Armed.Allows Armed.track fun _ => ⟨false, false⟩

namespace Impl

variable {t : Tid}

/-- Operations that start no read. -/
theorem keeps_of_not_read {I : Armed → Prop} (hI : Armed.Stable I) {o : ImplOp}
    (h : o.isRead = false) : readProtocol.Keeps I t (perform o) :=
  Protocol.keeps_recorded_perform fun es ℓ r hℓ => Armed.track_of_stable hI h es ℓ r hℓ

/-- The operations outside the services start no read. -/
theorem isRead_eq_false {o : ImplOp}
    (h : o.Quiet ∨ o.LifeWrite ∨ o.WordWrite ∨ o.Connecting ∨ o.Lifecycle) :
    o.isRead = false := by
  cases o with
  | sdkCall client c =>
      cases c with
      | serviceRead request => rcases h with h | h | h | h | h <;> cases h
      | _ => rfl
  | _ => rfl

/-- The functions that do not read keep every stable set. -/
theorem connecting_read {I : Armed → Prop} (hI : Armed.Stable I) :
    Connecting fun _ (p : Impl _) => readProtocol.Keeps I t p := by
  have hK := Protocol.closed_keeps (ε := Exn) readProtocol I t
  have hop : ∀ o : ImplOp, o.Quiet ∨ o.LifeWrite ∨ o.WordWrite ∨ o.Connecting ∨ o.Lifecycle →
      readProtocol.Keeps I t (perform o) := fun o ho => keeps_of_not_read hI (isRead_eq_false ho)
  have hquiet : ∀ o : ImplOp, o.Quiet → readProtocol.Keeps I t (perform o) := fun o ho =>
    hop o (.inl ho)
  have hlife : ∀ o : ImplOp, o.LifeWrite → readProtocol.Keeps I t (perform o) := fun o ho =>
    hop o (.inr (.inl ho))
  have hword : ∀ o : ImplOp, o.WordWrite → readProtocol.Keeps I t (perform o) := fun o ho =>
    hop o (.inr (.inr (.inl ho)))
  exact (blocks_of_ops hK hquiet hlife (closed_runCallback hK hquiet hlife hword)
    (closed_probe hK hquiet hlife hword)).connecting hK fun o ho =>
      hop o (.inr (.inr (.inr (.inl ho))))

/-- All stages together are stable. -/
theorem stable_true : Armed.Stable fun _ => True := fun _ _ => ⟨trivial, fun _ => trivial⟩

/-- Having seen the signal off is stable. -/
theorem stable_armed : Armed.Stable (· = ⟨true, true⟩) := by
  rintro _ rfl
  exact ⟨rfl, fun _ => rfl⟩

/-- A block under a mutex. -/
theorem read_withLock {α : Type} {m : Mutex} {body : Impl α} {Q : Except Exn α → Armed → Prop}
    {ℓ : Armed} (hb : readProtocol.Follows t body Q ℓ) :
    readProtocol.Follows t (withLock m body) Q ℓ :=
  follows_withLock (fun _ => nofun) (fun _ => nofun) (fun _ _ => rfl) (fun _ _ => rfl) hb

/-- A thread that finds the stop signal off has seen both parts of it off. -/
theorem read_stopSignal (ℓ : Armed) :
    readProtocol.Follows t getEffectiveStopSignal
      (fun r ℓ' => r = .ok false → ℓ' = ⟨true, true⟩) ℓ := by
  have hgivenUp : ∀ ℓ : Armed, ℓ.flags = true → readProtocol.Follows t isGivenUp
      (fun r ℓ' => r = .ok false → ℓ' = ⟨true, true⟩) ℓ := by
    rintro ⟨flags, life⟩ hflags
    obtain rfl : flags = true := hflags
    refine Protocol.follows_recorded_perform fun es value => ⟨nofun, ?_⟩
    cases value with
    | givenUp => exact nofun
    | running | recovering => exact fun _ => by simp [Armed.track]
  refine Protocol.follows_recorded_perform fun es shutdown => ⟨nofun, ?_⟩
  cases shutdown with
  | false => exact hgivenUp _ rfl
  | true =>
      refine Protocol.follows_recorded_perform fun es running => ⟨nofun, ?_⟩
      cases running with
      | false => exact nofun
      | true => exact hgivenUp _ rfl

/-- A thread that has seen the signal off may read. -/
theorem read_service {client : Handle} {request : List UA_ReadValueId} :
    readProtocol.Follows t (withLock .sdkMutex (sdk client (.serviceRead request)))
      (fun _ _ => True) ⟨true, true⟩ := by
  have hK := connecting_read (t := t) stable_true
  refine read_withLock (Protocol.follows_recorded_perform fun es cbs => ⟨fun _ => rfl, ?_⟩)
  refine hK.bind (hK.forEach hK.runCallback cbs) (fun _ => ?_) _ trivial
  exact hK.bind (keeps_of_not_read (o := .sdkReturn client (.serviceRead request)) stable_true rfl)
    fun r => closed_orThrow (Protocol.closed_keeps _ _ _) r

/-- An attempt looks at the stop signal before it reads. -/
theorem keeps_readAttempt {nodes : List ReadValue} {request : List UA_ReadValueId}
    {client : Handle} {startTime : Int} {maxRetries retry : UInt32} :
    readProtocol.Keeps (fun _ => True) t
      (readAttempt nodes request client startTime maxRetries retry) := by
  have hK := connecting_read (t := t) stable_true
  have harmed := connecting_read (t := t) stable_armed
  unfold readAttempt
  split
  case isFalse => exact hK.pure _
  case isTrue =>
  intro ℓ _
  refine Protocol.Follows.bind (fun r ℓ => r = .ok (.ok ()) → ℓ = ⟨true, true⟩) ?_ ?_
    fun _ _ _ => trivial
  -- the stop signal was found off under `m_lock`, and the other checks leave that known
  · refine Protocol.Follows.andThen (fun r ℓ => r = .ok (.ok ()) → ℓ = ⟨true, true⟩) ?_ ?_
      (fun _ _ _ => nofun) fun _ _ _ => nofun
    · refine Protocol.Follows.bind _ (read_withLock (read_stopSignal ℓ)) ?_ fun _ _ _ => nofun
      rintro stop ℓ hstop
      cases stop with
      | true => exact nofun
      | false => exact fun _ => hstop rfl
    · rintro ⟨⟩ ℓ hℓ
      refine (harmed.bind harmed.nowMs (fun now => harmed.bind (harmed.quiet .readConfig trivial)
        fun config => ?_) ℓ (hℓ rfl)).mono fun _ _ h _ => h
      split
      · exact harmed.pure _
      · exact harmed.checkState (keeps_of_not_read stable_armed rfl) _ _ _
  · rintro r ℓ hr
    cases r with
    | error e => trivial
    | ok u =>
        obtain rfl := hr rfl
        exact Protocol.Follows.bind (fun _ _ => True) read_service
          (fun response ℓ _ => hK.readResponse nodes response maxRetries retry ℓ trivial)
          fun _ _ _ => trivial

/-- Every call looks at the stop signal before it reads. -/
theorem keeps_read (c : ImplCall) : readProtocol.Keeps (fun _ => True) t c.run := by
  have hK := connecting_read (t := t) stable_true
  have hlife : ∀ o : ImplOp, o.LifeWrite → readProtocol.Keeps (fun _ => True) t (perform o) :=
    fun o ho => keeps_of_not_read stable_true (isRead_eq_false (.inr (.inl ho)))
  have hops : ∀ o : ImplOp, o.Lifecycle → readProtocol.Keeps (fun _ => True) t (perform o) :=
    fun o ho => keeps_of_not_read stable_true (isRead_eq_false (.inr (.inr (.inr (.inr ho)))))
  have hconn : readProtocol.Keeps (fun _ => True) t (load .connState) :=
    keeps_of_not_read stable_true rfl
  have hclosed := Protocol.closed_keeps (ε := Exn) readProtocol (fun _ => True) t
  have hbusy := hK.busy hclosed (keeps_of_not_read stable_true rfl)
    (keeps_of_not_read stable_true rfl)
  refine hK.run (keeps_of_not_read stable_true rfl) (keeps_of_not_read stable_true rfl)
    (composed_setGiveUpSignal hK.toComposed (fun a => hK.quiet (.load a)) hlife) hbusy.connect
    hbusy.disconnect (fun nodes => ?_) (hbusy.batchWrite hconn fun client request => ?_)
    (hK.toBlocks.shutdown hops) c
  · exact hK.andThen (hK.checkStop _) fun _ => hbusy.inFlight <|
      hK.andThen (hK.readChecks hconn nodes) fun _ =>
        hK.andThen (hK.buildReadRequest nodes) fun _ =>
          hK.andThen (hK.batchClient _ _) fun _ => hK.bind (hK.quiet .readConfig trivial) fun _ =>
            hK.bind hK.nowMs fun _ => hK.loop fun _ => keeps_readAttempt
  · exact hK.withLock _ (closed_sdk hclosed hK.runCallback (keeps_of_not_read stable_true rfl)
      (keeps_of_not_read stable_true rfl))

end Impl

/-! ### Runs -/

theorem armed_cons_self (t : Tid) (o : ImplOp) (r : o.Resp) (es : History) :
    armed t (⟨t, o, r⟩ :: es) = (armed t es).track es o r :=
  @Event.stage_cons_self ImplSig Armed Armed.track ⟨false, false⟩ t o r es

theorem armed_cons_ne {t u : Tid} (h : u ≠ t) (o : ImplOp) (r : o.Resp) (es : History) :
    armed t (⟨u, o, r⟩ :: es) = armed t es :=
  @Event.stage_cons_ne ImplSig Armed Armed.track ⟨false, false⟩ t u h o r es

/-- A read of the thread counts. -/
theorem reads_cons_self (t : Tid) (o : ImplOp) (r : o.Resp) (es : History) :
    reads t (⟨t, o, r⟩ :: es) = reads t es + if o.isRead then 1 else 0 := by
  simp only [reads, List.countP_cons, beq_self_eq_true, Bool.true_and]

/-- What another thread does is no read of the thread. -/
theorem reads_cons_ne {t u : Tid} (h : u ≠ t) (o : ImplOp) (r : o.Resp) (es : History) :
    reads t (⟨u, o, r⟩ :: es) = reads t es := by
  simp [reads, h]

variable {calls : Tid → Option ImplCall} {s : ImplState} {c d : ImplPool}

/-- In every run, threads look at the stop signal before they read. -/
theorem readHistory_of_reach (hc : ImplPool.Reach (ImplPool.start calls s) c) :
    Event.Each (fun es e => (armed e.tid es).Allows e.op e.resp) c.state.history := by
  have hf : ∀ u, readProtocol.Follows u ((ImplPool.start calls s).pool u) (fun _ _ => True)
      ⟨false, false⟩ := by
    intro u
    change readProtocol.Follows u (ImplCall.thread (calls u)) _ _
    cases calls u with
    | none => trivial
    | some call => exact (Impl.keeps_read call _ trivial).mono fun _ _ _ => trivial
  exact (Protocol.recorded_each (Q := fun _ _ (_ : Armed) => True) rfl hf hc).1

/-- If a part of the stop signal stays on, no thread that still has to look at it can see it off,
and every thread has at most one read left. -/
theorem reads_le_of_part {W : ImplState → Prop} {p : Armed → Bool}
    (hkeep : ∀ {t o r s s'}, Impl.Footprint o → W s → ImplState.exec t o r s = some s' → W s')
    (hoff : ∀ {t o r s s' es ℓ}, W s → ImplState.exec t o r s = some s' →
      p (Armed.track es ℓ o r) = true → p ℓ = true)
    (hread : p ⟨true, true⟩ = true ∧ p ⟨false, false⟩ = false)
    (hc : ImplPool.Reach (ImplPool.start calls s) c) (hd : ImplPool.Reach c d)
    (hW : W c.state.world) (t : Tid) :
    W d.state.world ∧
      reads t d.state.history + (if p (armed t d.state.history) then 1 else 0) ≤
        reads t c.state.history + 1 := by
  induction hd with
  | refl =>
      refine ⟨hW, ?_⟩
      split <;> omega
  | @tail d e hd hstep ih =>
      obtain ⟨hWd, hle⟩ := ih
      have hreach := hc.trans hd
      have hallows := readHistory_of_reach (hreach.tail hstep)
      cases hstep with
      | round hp => exact ⟨hWd, hle⟩
      | @perform u o k r s' hp hs =>
          have ho : Impl.Footprint o := by
            have huses := uses_of_reach hreach u
            rw [hp] at huses
            exact huses.1
          refine ⟨hkeep ho hWd hs.exec_eq, ?_⟩
          simp only [hs.history_eq] at hallows ⊢
          by_cases hu : u = t
          · subst hu
            rw [armed_cons_self, reads_cons_self]
            cases hr : o.isRead with
            | true =>
                -- the read uses up what the thread has seen
                have hseen : armed u d.state.history = ⟨true, true⟩ :=
                  (Event.each_cons.mp hallows).1 hr
                rw [hseen, hread.1, if_pos rfl] at hle
                have hspent : Armed.track d.state.history (armed u d.state.history) o r =
                    ⟨false, false⟩ := by
                  cases o with
                  | sdkCall client call => cases call <;> first | rfl | cases hr
                  | _ => cases hr
                rw [hspent, hread.2, if_pos rfl]
                simpa using hle
            | false =>
                have hold : p ((armed u d.state.history).track d.state.history o r) = true →
                    p (armed u d.state.history) = true := hoff hWd hs.exec_eq
                rw [if_neg nofun, Nat.add_zero]
                by_cases hnew : p ((armed u d.state.history).track d.state.history o r) = true
                · rw [if_pos (hold hnew)] at hle
                  rw [if_pos hnew]
                  exact hle
                · rw [if_neg hnew]
                  exact (Nat.le_add_right _ _).trans hle
          · rw [armed_cons_ne hu, reads_cons_ne hu]
            exact hle

/-- The part of the stop signal that the flags give stays on. -/
theorem reads_le_of_flags (hc : ImplPool.Reach (ImplPool.start calls s) c)
    (hd : ImplPool.Reach c d) (hshutdown : c.state.world.shutdown = true)
    (hrunning : c.state.world.running = false) (t : Tid) :
    reads t d.state.history ≤ reads t c.state.history + 1 := by
  refine (Nat.le_add_right _ _).trans (reads_le_of_part (p := Armed.flags)
    (W := fun s => s.shutdown = true ∧ s.running = false) ?_ ?_ ⟨rfl, rfl⟩ hc hd
    ⟨hshutdown, hrunning⟩ t).2
  · intro t o r s s' ho hs h
    obtain ⟨hkeep, hkeep', -⟩ := ImplState.flags_of_exec ho h
    exact ⟨hkeep' hs.1, hkeep hs.2⟩
  · rintro t o r s s' es ℓ ⟨hs, hr⟩ h hp
    cases o with
    | load a =>
        obtain ⟨hget, -⟩ := ImplState.whenever_eq_some.mp h
        cases a with
        | shutdown =>
            obtain rfl : true = r := hs.symm.trans hget
            exact hp
        | running =>
            obtain rfl : false = r := hr.symm.trans hget
            exact hp
        | _ => exact hp
    | sdkCall client call => cases call <;> first | exact hp | cases hp
    | _ => exact hp

/-- The part of the stop signal that the life state gives stays on. -/
theorem reads_le_of_givenUp (hc : ImplPool.Reach (ImplPool.start calls s) c)
    (hd : ImplPool.Reach c d) (hlife : c.state.world.lifeState = .givenUp) (t : Tid) :
    reads t d.state.history ≤ reads t c.state.history + 1 := by
  refine (Nat.le_add_right _ _).trans (reads_le_of_part (p := Armed.life)
    (W := fun s => s.lifeState = .givenUp) ?_ ?_ ⟨rfl, rfl⟩ hc hd hlife t).2
  · intro t o r s s' ho hs h
    rcases ImplState.lifeState_of_exec ho.keepsGivenUp h with ⟨-, -, hdead⟩ | ⟨-, hkeep⟩
    · exact hdead
    · exact hkeep hs
  · intro t o r s s' es ℓ hs h hp
    cases o with
    | load a =>
        obtain ⟨hget, -⟩ := ImplState.whenever_eq_some.mp h
        cases a with
        | lifeState =>
            obtain rfl : LifeState.givenUp = r := hs.symm.trans hget
            simpa [Armed.track] using hp
        | shutdown | running => cases r <;> exact hp
        | _ => exact hp
    | sdkCall client call => cases call <;> first | exact hp | cases hp
    | _ => exact hp

/-- From the moment the stop signal is on, every thread starts at most one read. -/
theorem reads_le_of_reach (hc : ImplPool.Reach (ImplPool.start calls s) c)
    (hd : ImplPool.Reach c d) (hstop : c.state.world.stopSignal = true) (t : Tid) :
    reads t d.state.history ≤ reads t c.state.history + 1 := by
  simp only [ImplState.stopSignal, Bool.or_eq_true, Bool.and_eq_true, Bool.not_eq_true',
    beq_iff_eq] at hstop
  rcases hstop with ⟨hshutdown, hrunning⟩ | hlife
  · exact reads_le_of_flags hc hd hshutdown hrunning t
  · exact reads_le_of_givenUp hc hd hlife t

/-! ### The handshake -/

/-- What `shutdown` and the calls in flight owe each other in a run that has reached `c`. -/
structure DrainHandshake (c : ImplPool) : Prop where
  /-- Every service was started before every wait that found no call in flight. -/
  started_before : ∀ t ms es, ⟨t, .taskWait ms, true⟩ :: es <:+ c.state.history →
    ∀ u client call r es', ⟨u, .sdkCall client call, r⟩ :: es' <:+ c.state.history →
      call.isQuiet = false → es'.length < es.length
  /-- From the moment the stop signal is on, every thread starts at most one more read. -/
  one_more_read : c.state.world.stopSignal = true → ∀ d, ImplPool.Reach c d →
    ∀ t, reads t d.state.history ≤ reads t c.state.history + 1

/-- After a drain no service starts, whatever the calls had passed before, on an `Impl` that nobody
was using and that was not shut down. -/
theorem drainHandshake (hcounter : s.taskCounter = 0) (hflag : s.shutdown = false)
    (hc : ImplPool.Reach (ImplPool.start calls s) c) : DrainHandshake c := by
  refine ⟨?_, fun hstop d hd t => reads_le_of_reach hc hd hstop t⟩
  intro t ms es hdrain u client call r es' hstart hservice
  have hnone := (drainInv_of_reach hcounter hflag hc).2
  by_contra hnot
  have hle : es.length ≤ es'.length := Nat.not_lt.mp hnot
  rcases hle.eq_or_lt with heq | hlt
  · cases (Event.unique hdrain hstart heq).1
  · have hsuf : ⟨t, .taskWait ms, true⟩ :: es <:+ es' :=
      List.suffix_of_suffix_length_le hdrain ((List.suffix_cons _ _).trans hstart) hlt
    have hquiet := hnone _ _ hstart ⟨_, hsuf.subset List.mem_cons_self, rfl⟩
    simp [isServiceStart, hservice] at hquiet

/-- A `batchRead` passes its first look at the stop signal, `shutdown` gives the signal and drains,
and only then does the call count itself. -/
def readDuringShutdown : Option ImplPool :=
  let env : Environment := {}
  let healthy := (Triple.mk .good .open .activated).pack 1
  ImplPool.run [.batchRead [⟨{ ns := 1, id := .numeric 42, dataType := .int }⟩], .shutdown]
    { ImplState.construct {} "opc.tcp://plc:4840" 1 with statePacked := healthy }
    (env.moves 0 4 ++ env.moves 1 10 ++ env.moves 0 13)

/-- It is refused before it reads. -/
theorem drainHandshake_read_refused :
    ∃ c : ImplPool, DrainHandshake c ∧ c.Returned 1 (.ok .unit) ∧
      c.Returned 0 (.ok (.read
        (.error ⟨.alreadyTerminated, "batchRead: client is shutting down"⟩))) := by
  have hplay : readDuringShutdown.any (fun d => d.result? 1 == some (.ok .unit) &&
      d.result? 0 == some (.ok (.read
        (.error ⟨.alreadyTerminated, "batchRead: client is shutting down"⟩)))) = true := by
    decide
  obtain ⟨d, -, hd, hcheck⟩ := Config.exists_reach_of_play hplay
  simp only [Bool.and_eq_true, beq_iff_eq] at hcheck
  exact ⟨d, drainHandshake rfl rfl hd, Config.returned_of_result? hcheck.1,
    Config.returned_of_result? hcheck.2⟩

end OPCUAPacking
