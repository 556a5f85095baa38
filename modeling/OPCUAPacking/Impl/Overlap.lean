import OPCUAPacking.Impl.Dues
import OPCUAPacking.Impl.SingleFlight

/-!
# Business calls beside connection operations

`batchRead` and `batchWrite` look at `m_connState` and then call their service, under
`m_sdkMutex` but not under anything that keeps a connection operation from starting in between.
So a service may run in the middle of a `connect` (`not_servicesApart`).

* `Passage` — whether a thread has found `m_connState` IDLE right before its service, and whether it
  is in a connection operation.
* `Undisturbed` — the condition under which the two do not meet: no connection operation starts
  between a check and the end of its service, and no check finds IDLE between the release of
  `m_connState` by a connection operation and its return. That no check finds IDLE before the
  release is what the `CASGuard` is for, and no part of the condition.
* `servicesApart` — in every run whose steps meet it, no service is executed within a connection
  operation.
-/

namespace OPCUAPacking

open Interleaving

/-- A call of a service for data. -/
def SdkCall.isService : SdkCall → Bool
  | .serviceRead _ | .serviceWrite _ => true
  | _ => false

/-- Where a thread is in the call that counts it in flight. -/
structure Passage where
  /-- It has taken its client. -/
  snapshot : Bool
  /-- Since then it has found `m_connState` IDLE, and its service has not returned. -/
  cleared : Bool
  /-- It has opened or closed the connection. -/
  operating : Bool
  /-- Since then it has released `m_connState`. -/
  leaving : Bool
  deriving DecidableEq

namespace Passage

/-- Outside of the calls in flight. -/
def outside : Passage := ⟨false, false, false, false⟩

/-- How an operation moves the passage. -/
def track (_ : History) (ℓ : Passage) : (o : ImplOp) → o.Resp → Passage
  | .taskInc, _ => outside
  | .taskDec, _ => outside
  | .copyImpl, _ => { ℓ with snapshot := true }
  | .load .connState, conn => { ℓ with cleared := ℓ.cleared || (ℓ.snapshot && conn == .idle) }
  | .store .connState _, _ => { ℓ with leaving := ℓ.operating }
  | .sdkCall _ c, _ => { ℓ with operating := ℓ.operating || c.isConnection }
  | .sdkReturn _ c, _ => { ℓ with cleared := ℓ.cleared && !c.isService }
  | _, _ => ℓ

/-- A service is called and returns only where the check was passed. -/
def Allows (ℓ : Passage) : (o : ImplOp) → o.Resp → Prop
  | .sdkCall _ c, _ | .sdkReturn _ c, _ => c.isService = true → ℓ.cleared = true
  | _, _ => True

end Passage

/-- The passage of thread `t` after a history. -/
def passage (t : Tid) (es : History) : Passage := Event.stage Passage.track .outside t es

/-- The protocol of the business calls. -/
abbrev passageProtocol : Protocol ImplSig (Traced ImplSig ImplState) Passage :=
  Protocol.recorded ImplState.exec Passage.Allows Passage.track fun _ => .outside

/-- The operation starts or ends a service. -/
def ImplOp.Serves : ImplOp → Prop
  | .sdkCall _ c | .sdkReturn _ c => c.isService = true
  | _ => False

instance (o : ImplOp) : Decidable o.Serves := by
  cases o <;> simp only [ImplOp.Serves] <;> infer_instance

/-- Operations other than those of a service are allowed everywhere. -/
theorem Passage.allows_of_not_serves {o : ImplOp} (h : ¬o.Serves) (ℓ : Passage) (r : o.Resp) :
    ℓ.Allows o r := by
  cases o with
  | sdkCall client c | sdkReturn client c => exact fun hc => absurd hc h
  | _ => trivial

/-- The operation starts or ends the counting of a call. -/
def ImplOp.Counts : ImplOp → Prop
  | .taskInc | .taskDec => True
  | _ => False

/-- What the functions other than the batches do within a call. -/
theorem ImplOp.within_call {o : ImplOp} (h : o.Quiet ∨ o.LifeWrite ∨ o.WordWrite) :
    ¬o.Counts ∧ ¬o.Serves := by
  cases o with
  | taskInc | taskDec => rcases h with h | h | h <;> exact h.elim
  | sdkCall client c | sdkReturn client c =>
      refine ⟨id, fun hs => ?_⟩
      rcases h with h | h | h
      · cases c <;> first | exact Bool.false_ne_true hs | exact Bool.false_ne_true h
      all_goals exact h
  | _ => exact ⟨id, id⟩

/-- Nothing but the batches calls a service. -/
theorem ImplOp.not_serves {o : ImplOp} (h : o.Connecting ∨ o.LifeWrite ∨ o.Lifecycle) :
    ¬o.Serves := by
  cases o with
  | sdkCall client c | sdkReturn client c =>
      intro hs
      rcases h with h | h | h
      · cases c <;> first | exact Bool.false_ne_true hs | exact Bool.false_ne_true h
      all_goals exact h
  | _ => exact id

/-- Within a call, the client stays taken. -/
theorem Passage.snapshot_track {o : ImplOp} (h : ¬o.Counts) {ℓ : Passage} (hℓ : ℓ.snapshot = true)
    (es : History) (r : o.Resp) : (ℓ.track es o r).snapshot = true := by
  cases o with
  | taskInc | taskDec => exact absurd trivial h
  | load a | store a v => cases a <;> exact hℓ
  | copyImpl => rfl
  | _ => exact hℓ

/-- Until the service returns, the check stays passed. -/
theorem Passage.cleared_track {o : ImplOp} (h : ¬o.Counts) (hs : ¬o.Serves) {ℓ : Passage}
    (hℓ : ℓ.cleared = true) (es : History) (r : o.Resp) : (ℓ.track es o r).cleared = true := by
  cases o with
  | taskInc | taskDec => exact absurd trivial h
  | load a =>
      cases a with
      | connState => exact Bool.or_eq_true_iff.mpr (.inl hℓ)
      | _ => exact hℓ
  | store a v => cases a <;> exact hℓ
  | sdkReturn client c => simp [track, hℓ, Bool.eq_false_iff.mpr hs]
  | _ => exact hℓ

/-- A set of passages that the operations within a call keep. -/
def Passage.Stable (I : Passage → Prop) : Prop :=
  ∀ (o : ImplOp) (ℓ : Passage) (es : History) (r : o.Resp), ¬o.Counts → ¬o.Serves → I ℓ →
    I (ℓ.track es o r)

/-- Any passage. -/
theorem Passage.stable_true : Stable fun _ => True := fun _ _ _ _ _ _ _ => trivial

/-- The client is taken. -/
theorem Passage.stable_snapshot : Stable fun ℓ => ℓ.snapshot = true :=
  fun _ _ es r hc _ hℓ => snapshot_track hc hℓ es r

/-- The client is taken and the check passed. -/
theorem Passage.stable_cleared : Stable fun ℓ => ℓ.snapshot = true ∧ ℓ.cleared = true :=
  fun _ _ es r hc hs hℓ => ⟨snapshot_track hc hℓ.1 es r, cleared_track hc hs hℓ.2 es r⟩

namespace Impl

variable {t : Tid} {α β : Type} {ℓ : Passage} {I : Passage → Prop}

/-- An operation within a call keeps every stable set. -/
theorem keeps_passage (hI : Passage.Stable I) {o : ImplOp} (hc : ¬o.Counts) (hs : ¬o.Serves) :
    passageProtocol.Keeps I t (perform o) :=
  Protocol.keeps_recorded_perform fun es ℓ r hℓ =>
    ⟨Passage.allows_of_not_serves hs ℓ r, hI o ℓ es r hc hs hℓ⟩

/-- So do the functions that do not count themselves and call no service. -/
theorem blocks_passage (hI : Passage.Stable I) :
    Blocks fun _ (p : Impl _) => passageProtocol.Keeps I t p := by
  have hK := Protocol.closed_keeps (ε := Exn) passageProtocol I t
  have hop : ∀ o : ImplOp, o.Quiet ∨ o.LifeWrite ∨ o.WordWrite →
      passageProtocol.Keeps I t (perform o) := fun o ho =>
    keeps_passage hI (ImplOp.within_call ho).1 (ImplOp.within_call ho).2
  have hquiet : ∀ o : ImplOp, o.Quiet → passageProtocol.Keeps I t (perform o) := fun o ho =>
    hop o (.inl ho)
  have hlife : ∀ o : ImplOp, o.LifeWrite → passageProtocol.Keeps I t (perform o) := fun o ho =>
    hop o (.inr (.inl ho))
  have hword : ∀ o : ImplOp, o.WordWrite → passageProtocol.Keeps I t (perform o) := fun o ho =>
    hop o (.inr (.inr ho))
  exact blocks_of_ops hK hquiet hlife (closed_runCallback hK hquiet hlife hword)
    (closed_probe hK hquiet hlife hword)

/-- A block under a mutex. -/
theorem passage_withLock {m : Mutex} {body : Impl α} {Q : Except Exn α → Passage → Prop}
    (hb : passageProtocol.Follows t body Q ℓ) : passageProtocol.Follows t (withLock m body) Q ℓ :=
  follows_withLock (fun _ => trivial) (fun _ => trivial) (fun _ _ => rfl) (fun _ _ => rfl) hb

/-- Once the client is taken, the check is passed where `m_connState` is found IDLE. -/
theorem passage_checkState {givenUp recovering busy : String} (hℓ : ℓ.snapshot = true) :
    passageProtocol.Follows t (checkState givenUp recovering busy)
      (fun r ℓ' => ℓ'.snapshot = true ∧ (r = .ok (.ok ()) → ℓ'.cleared = true)) ℓ := by
  refine Protocol.follows_recorded_perform fun _ life => ⟨trivial, ?_⟩
  split
  · exact ⟨hℓ, nofun⟩
  · refine Protocol.follows_recorded_perform fun _ life => ⟨trivial, ?_⟩
    split
    · exact ⟨hℓ, nofun⟩
    · refine Protocol.follows_recorded_perform fun _ conn => ⟨trivial, ?_⟩
      split
      · exact ⟨hℓ, nofun⟩
      · next hidle =>
        refine ⟨hℓ, fun _ => ?_⟩
        change (ℓ.cleared || (ℓ.snapshot && conn == .idle)) = true
        rw [hℓ, not_not.mp hidle]
        exact Bool.or_true _

/-- The client snapshot of a batch. -/
theorem passage_batchClient {nullText stopText : String} :
    passageProtocol.Follows t (batchClient nullText stopText)
      (fun _ ℓ' => ℓ'.snapshot = true) ℓ := by
  have hB := blocks_passage (t := t) Passage.stable_snapshot
  refine passage_withLock (Protocol.follows_recorded_perform fun _ impl => ⟨trivial, ?_⟩)
  cases impl with
  | none => rfl
  | some client =>
      refine hB.bind hB.getEffectiveStopSignal (fun stop => ?_) _ rfl
      cases stop <;> exact hB.pure _

/-- A service, after the check. -/
theorem passage_service {client : Handle} {c : SdkCall}
    (hℓ : ℓ.snapshot = true ∧ ℓ.cleared = true) :
    passageProtocol.Follows t (withLock .sdkMutex (sdk client c))
      (fun _ ℓ' => ℓ'.snapshot = true) ℓ := by
  have hB := blocks_passage (t := t) Passage.stable_cleared
  refine passage_withLock
    (Protocol.follows_recorded_perform fun es callbacks => ⟨fun _ => hℓ.2, ?_⟩)
  refine Protocol.Follows.bind _ (hB.forEach hB.runCallback callbacks _ ⟨hℓ.1, hℓ.2⟩) ?_ ?_
  · intro _ ℓ' hℓ'
    refine Protocol.follows_recorded_perform fun es' r => ⟨fun _ => hℓ'.2, ?_⟩
    cases r <;> exact hℓ'.1
  · exact fun _ _ hℓ' => hℓ'.1

/-- A round of the retry loop checks again before it calls the service. -/
theorem passage_readAttempt {nodes : List ReadValue} {request : List UA_ReadValueId}
    {client : Handle} {startTime : Int} {maxRetries retry : UInt32} :
    passageProtocol.Keeps (fun ℓ => ℓ.snapshot = true) t
      (readAttempt nodes request client startTime maxRetries retry) := by
  have hB := blocks_passage (t := t) Passage.stable_snapshot
  unfold readAttempt
  split
  case isFalse => exact hB.pure _
  intro ℓ hℓ
  refine Protocol.Follows.bind
    (fun r ℓ' => ℓ'.snapshot = true ∧ (r = .ok (.ok ()) → ℓ'.cleared = true)) ?_ ?_ ?_
  · refine Protocol.Follows.andThen _ (hB.checkStop _ ℓ hℓ) (fun _ ℓ' hℓ' => ?_)
      (fun _ _ hℓ' => ⟨hℓ', nofun⟩) fun _ _ hℓ' => ⟨hℓ', nofun⟩
    refine Protocol.Follows.bind _ (hB.nowMs ℓ' hℓ') (fun now ℓ' hℓ' => ?_)
      fun _ _ hℓ' => ⟨hℓ', nofun⟩
    refine Protocol.Follows.bind _ (hB.quiet .readConfig trivial ℓ' hℓ') (fun config ℓ' hℓ' => ?_)
      fun _ _ hℓ' => ⟨hℓ', nofun⟩
    split
    · exact ⟨hℓ', nofun⟩
    · exact passage_checkState hℓ'
  · rintro (e | u) ℓ' ⟨hsnapshot, hcleared⟩
    · exact hsnapshot
    · exact Protocol.Follows.bind _ (passage_service ⟨hsnapshot, hcleared rfl⟩)
        (fun response ℓ' hℓ' => hB.readResponse nodes response maxRetries retry ℓ' hℓ')
        fun _ _ hℓ' => hℓ'
  · exact fun _ _ hℓ' => hℓ'.1

/-- The counted part of `batchRead`. -/
theorem passage_batchReadCounted (nodes : List ReadValue) :
    passageProtocol.Keeps (fun _ => True) t (batchReadCounted nodes) := by
  have hany := blocks_passage (t := t) Passage.stable_true
  have hB := blocks_passage (t := t) Passage.stable_snapshot
  have hconn := keeps_passage (t := t) Passage.stable_true (o := .load .connState) id id
  refine hany.andThen (hany.readChecks hconn nodes) fun _ =>
    hany.andThen (hany.buildReadRequest nodes) fun request ℓ _ => ?_
  refine Protocol.Follows.andThen _ passage_batchClient (fun client ℓ' hℓ' => ?_)
    (fun _ _ _ => trivial) fun _ _ _ => trivial
  refine ((hB.bind (hB.quiet .readConfig trivial) fun config => hB.bind hB.nowMs fun _ =>
    hB.loop fun _ => ?_) ℓ' hℓ').mono fun _ _ _ => trivial
  exact passage_readAttempt

/-- The counted part of `batchWrite`. -/
theorem passage_batchWriteCounted (nodes : List WriteValue) :
    passageProtocol.Keeps (fun _ => True) t (batchWriteCounted nodes) := by
  have hany := blocks_passage (t := t) Passage.stable_true
  have hB := blocks_passage (t := t) Passage.stable_snapshot
  have hconn := keeps_passage (t := t) Passage.stable_true (o := .load .connState) id id
  refine hany.andThen (hany.writeChecks hconn nodes) fun _ =>
    hany.andThen (hany.buildWriteRequest nodes) fun request ℓ _ => ?_
  refine Protocol.Follows.andThen _ passage_batchClient (fun client ℓ' hℓ' => ?_)
    (fun _ _ _ => trivial) fun _ _ _ => trivial
  refine Protocol.Follows.andThen _ (hB.checkStop _ ℓ' hℓ') (fun _ ℓ' hℓ' => ?_)
    (fun _ _ _ => trivial) fun _ _ _ => trivial
  refine Protocol.Follows.andThen _ (passage_checkState hℓ') (fun u ℓ' hℓ' => ?_)
    (fun _ _ _ => trivial) fun _ _ _ => trivial
  refine Protocol.Follows.bind _ (passage_service ⟨hℓ'.1, hℓ'.2 rfl⟩) (fun response ℓ' hℓ' => ?_)
    fun _ _ _ => trivial
  exact (hB.writeResults nodes response ℓ' hℓ').mono fun _ _ _ => trivial

/-- Every call makes its check before its service. -/
theorem passage_run (c : ImplCall) : passageProtocol.Keeps (fun _ => True) t c.run := by
  have hK := Protocol.closed_keeps (ε := Exn) passageProtocol (fun _ => True) t
  have hB := blocks_passage (t := t) Passage.stable_true
  have hop : ∀ o : ImplOp, ¬o.Serves → passageProtocol.Keeps (fun _ => True) t (perform o) :=
    fun o hs => Protocol.keeps_recorded_perform fun _ ℓ r _ =>
      ⟨Passage.allows_of_not_serves hs ℓ r, trivial⟩
  have hbusy : Busy fun _ (p : Impl _) => passageProtocol.Keeps (fun _ => True) t p :=
    (hB.connecting hK fun o ho => hop o (ImplOp.not_serves (.inl ho))).busy hK (hop .taskInc id)
      (hop .taskDec id)
  refine hB.run (hop .watchdogBegin id) (hop .watchdogEnd id)
    (composed_setGiveUpSignal hK.toComposed (fun a => hB.quiet (.load a)) fun o ho =>
      hop o (ImplOp.not_serves (.inr (.inl ho))))
    hbusy.connect hbusy.disconnect (fun nodes => ?_) (fun nodes => ?_)
    (hB.shutdown fun o ho => hop o (ImplOp.not_serves (.inr (.inr ho)))) c
  · exact hB.andThen (hB.checkStop _) fun _ => hbusy.inFlight (passage_batchReadCounted nodes)
  · exact hB.andThen (hB.checkStop _) fun _ => hbusy.inFlight (passage_batchWriteCounted nodes)

end Impl

/-! ### Runs -/

theorem passage_cons_self (t : Tid) (o : ImplOp) (r : o.Resp) (es : History) :
    passage t (⟨t, o, r⟩ :: es) = (passage t es).track es o r :=
  @Event.stage_cons_self ImplSig Passage Passage.track .outside t o r es

theorem passage_cons_ne {t u : Tid} (h : u ≠ t) (o : ImplOp) (r : o.Resp) (es : History) :
    passage t (⟨u, o, r⟩ :: es) = passage t es :=
  @Event.stage_cons_ne ImplSig Passage Passage.track .outside t u h o r es

/-- No thread has passed its check and is still to return from its service. -/
def NoneCleared (es : History) : Prop := ∀ t, (passage t es).cleared = false

/-- No thread is in a connection operation. -/
def NoneOperating (es : History) : Prop := ∀ t, (passage t es).operating = false

/-- A property of all passages is one of the threads that have done something. -/
theorem forall_passage_iff {p : Passage → Prop} (hp : p .outside) {es : History} :
    (∀ t, p (passage t es)) ↔ ∀ t ∈ es.map Event.tid, p (passage t es) := by
  refine ⟨fun h t _ => h t, fun h t => ?_⟩
  by_cases ht : t ∈ es.map Event.tid
  · exact h t ht
  · rw [passage, Event.stage_of_not_mem ht]
    exact hp

instance (es : History) : Decidable (NoneCleared es) :=
  decidable_of_iff' _ (forall_passage_iff (p := fun ℓ => ℓ.cleared = false) rfl)

instance (es : History) : Decidable (NoneOperating es) :=
  decidable_of_iff' _ (forall_passage_iff (p := fun ℓ => ℓ.operating = false) rfl)

/-- No thread is between the release of `m_connState` by its connection operation and its return. -/
def NoneLeaving (es : History) : Prop := ∀ t, (passage t es).leaving = false

instance (es : History) : Decidable (NoneLeaving es) :=
  decidable_of_iff' _ (forall_passage_iff (p := fun ℓ => ℓ.leaving = false) rfl)

/-- The condition of a step: no connection operation starts between a check that was passed and the
end of its service, and no check of a call that has taken its client is passed while a connection
operation that has released `m_connState` is still to return. -/
def Undisturbed (es : History) (e : Event ImplSig) : Prop :=
  match e.op, e.resp with
  | .sdkCall _ c, _ => c.isConnection = true → NoneCleared es
  | .load .connState, conn =>
      (passage e.tid es).snapshot = true → conn = .idle → NoneLeaving es
  | _, _ => True

instance (es : History) (e : Event ImplSig) : Decidable (Undisturbed es e) := by
  unfold Undisturbed
  split <;> infer_instance

/-- Who finds `m_connState` IDLE finds it held by nobody. -/
def FindsFree (es : History) (e : Event ImplSig) : Prop :=
  match e.op, e.resp with
  | .load .connState, conn => conn = .idle → ∀ u, (flight u es).holds = false
  | _, _ => True

section Step

variable {t : Tid} {o : ImplOp} {r : o.Resp} {es : History}

/-- An operation that passes no check. -/
theorem noneCleared_cons (h : ((passage t es).track es o r).cleared = true →
    (passage t es).cleared = true) (hs : NoneCleared es) : NoneCleared (⟨t, o, r⟩ :: es) := by
  intro u
  by_cases hu : t = u
  · subst hu
    rw [passage_cons_self]
    exact Bool.eq_false_iff.mpr fun hcleared => absurd ((hs t).symm.trans (h hcleared)) nofun
  · rw [passage_cons_ne hu]
    exact hs u

/-- An operation that does not open or close the connection. -/
theorem noneOperating_cons (h : ((passage t es).track es o r).operating = true →
    (passage t es).operating = true) (hs : NoneOperating es) : NoneOperating (⟨t, o, r⟩ :: es) := by
  intro u
  by_cases hu : t = u
  · subst hu
    rw [passage_cons_self]
    exact Bool.eq_false_iff.mpr fun hop => absurd ((hs t).symm.trans (h hop)) nofun
  · rw [passage_cons_ne hu]
    exact hs u

/-- In a history in which the threads keep the discipline of `m_connState`, a thread holds it from
the opening or closing of the connection until it releases it. -/
theorem leaving_or_holds {h : History} (hh : FlightHistory h)
    (hoperating : (passage t h).operating = true) :
    (passage t h).leaving = true ∨ (flight t h).holds = true := by
  induction h with
  | nil => cases hoperating
  | cons e es ih =>
      obtain ⟨hallows, hes⟩ := Event.each_cons.mp hh
      obtain ⟨u, o, r⟩ := e
      by_cases hu : u = t
      case neg =>
        rw [passage_cons_ne hu] at hoperating ⊢
        rw [flight_cons_ne hu]
        exact ih hes hoperating
      case pos =>
      subst hu
      rw [passage_cons_self] at hoperating ⊢
      rw [flight_cons_self]
      have hallows : (flight u es).Allows o r := hallows
      cases o with
      | taskInc | taskDec => cases hoperating
      | store a v =>
          cases a with
          -- who releases it has been operating until then
          | connState => exact .inl hoperating
          | _ => exact ih hes hoperating
      | casStrong a e d =>
          cases a with
          | connState =>
              refine (ih hes hoperating).imp_right fun hholds => ?_
              rw [show flight u es = ⟨true, false, false, false⟩ from hallows] at hholds
              cases hholds
          | _ => exact ih hes hoperating
      | sdkCall client c =>
          rcases Bool.or_eq_true_iff.mp hoperating with hbefore | hc
          · exact ih hes hbefore
          · exact .inr (hallows.2 hc)
      | load a => cases a <;> exact ih hes hoperating
      | _ => exact ih hes hoperating

/-- Every step that meets the condition keeps checks and connection operations apart. -/
theorem apart_step (hs : NoneCleared es ∨ NoneOperating es) (hok : Undisturbed es ⟨t, o, r⟩)
    (hflight : FlightHistory es) (hfree : FindsFree es ⟨t, o, r⟩) :
    NoneCleared (⟨t, o, r⟩ :: es) ∨ NoneOperating (⟨t, o, r⟩ :: es) := by
  -- an operation that begins neither leaves both as they are
  have hneither : (((passage t es).track es o r).cleared = true → (passage t es).cleared = true) →
      (((passage t es).track es o r).operating = true → (passage t es).operating = true) →
      NoneCleared (⟨t, o, r⟩ :: es) ∨ NoneOperating (⟨t, o, r⟩ :: es) := fun hc ho =>
    hs.imp (noneCleared_cons hc) (noneOperating_cons ho)
  cases o with
  | taskInc | taskDec => exact hneither nofun nofun
  | store a v => cases a <;> exact hneither id id
  | load a =>
      cases a with
      | connState =>
          by_cases hcheck : (passage t es).snapshot = true ∧ r = .idle
          · -- the guard keeps the check out of the operations that hold it, the condition out of
            -- those that have released it
            obtain ⟨hsnapshot, rfl⟩ := hcheck
            have hnone : NoneOperating es := by
              intro u
              refine Bool.eq_false_iff.mpr fun hoperating => ?_
              rcases leaving_or_holds hflight hoperating with hleaving | hholds
              · exact absurd ((hok hsnapshot rfl u).symm.trans hleaving) nofun
              · exact absurd ((hfree rfl u).symm.trans hholds) nofun
            exact .inr (noneOperating_cons id hnone)
          · refine hneither (fun h => ?_) id
            rcases Bool.or_eq_true_iff.mp h with h | h
            · exact h
            · obtain ⟨hsnapshot, hidle⟩ := Bool.and_eq_true_iff.mp h
              exact absurd ⟨hsnapshot, beq_iff_eq.mp hidle⟩ hcheck
      | _ => exact hneither id id
  | sdkCall client c =>
      cases hc : c.isConnection with
      | true => exact .inl (noneCleared_cons id (hok hc))
      | false =>
          refine hneither id fun h => ?_
          simpa [Passage.track, hc] using h
  | sdkReturn client c => exact hneither (fun h => (Bool.and_eq_true_iff.mp h).1) id
  | _ => exact hneither id id

end Step

/-- In a history whose events meet the condition. -/
theorem apart_of_undisturbed {h : History} (hok : Event.Each Undisturbed h)
    (hflight : FlightHistory h) (hfree : Event.Each FindsFree h) :
    NoneCleared h ∨ NoneOperating h := by
  induction h with
  | nil => exact .inl fun _ => rfl
  | cons e es ih =>
      obtain ⟨he, hes⟩ := Event.each_cons.mp hok
      obtain ⟨-, hflight⟩ := Event.each_cons.mp hflight
      obtain ⟨hfound, hfree⟩ := Event.each_cons.mp hfree
      exact apart_step (ih hes hflight hfree) he hflight hfound

/-- No service starts or ends between the opening or closing of the connection and the return of the
call that does it. -/
def ServicesApart (h : History) : Prop :=
  Event.Each (fun es (e : Event ImplSig) => ImplOp.Serves e.op → NoneOperating es) h

instance (h : History) : Decidable (ServicesApart h) :=
  inferInstanceAs (Decidable (Event.Each _ h))

variable {calls : Tid → Option ImplCall} {s : ImplState} {c : ImplPool}

/-- In every run, a service starts and ends only where the check was passed. -/
theorem cleared_of_serves (hc : ImplPool.Reach (ImplPool.start calls s) c) :
    Event.Each (fun es (e : Event ImplSig) => ImplOp.Serves e.op →
      (passage e.tid es).cleared = true) c.state.history := by
  have hfollows : ∀ t, passageProtocol.Follows t (ImplCall.thread (calls t)) (fun _ _ => True)
      .outside := by
    intro t
    cases calls t with
    | none => trivial
    | some call => exact Impl.passage_run call _ trivial
  refine (Protocol.recorded_each rfl hfollows hc).1.mono ?_
  rintro es ⟨t, o, r⟩ - hallows hserves
  cases o with
  | sdkCall client call | sdkReturn client call => exact hallows hserves
  | _ => exact hserves.elim

/-- In every run on an idle `Impl`, who finds `m_connState` IDLE finds it held by nobody. -/
theorem findsFree_of_reach (hidle : s.connState = .idle)
    (hc : ImplPool.Reach (ImplPool.start calls s) c) : Event.Each FindsFree c.state.history := by
  induction hc with
  | refl => exact Event.each_nil
  | @tail d c hd hstep ih =>
      cases hstep with
      | round hp => exact ih
      | @perform t o k r s' hp hs =>
          simp only [hs.history_eq]
          refine Event.each_cons.mpr ⟨?_, ih⟩
          cases o with
          | load a =>
              cases a with
              | connState =>
                  rintro rfl u
                  obtain ⟨hfound, -⟩ := ImplState.whenever_eq_some.mp hs.exec_eq
                  have hconn : d.state.world.connState = .idle := hfound
                  exact Bool.eq_false_iff.mpr fun hholds => absurd
                    (hconn.symm.trans
                      ((heldByOne_of_reach hidle hd).connecting_iff.mpr ⟨u, hholds⟩))
                    nofun
              | _ => trivial
          | _ => trivial

/-- In every run of calls on an idle `Impl` whose connection operations do not start between a check
and the end of its service, and whose checks are not passed between the release of `m_connState` and
the return of a connection operation, no service is executed within a connection operation. -/
theorem servicesApart (hidle : s.connState = .idle)
    (hc : ImplPool.Reach (ImplPool.start calls s) c)
    (hok : Event.Each Undisturbed c.state.history) : ServicesApart c.state.history := by
  rintro ⟨t, o, r⟩ es hs hserves
  have hcleared := cleared_of_serves hc _ _ hs hserves
  have hsuffix := (List.suffix_cons _ _).trans hs
  rcases apart_of_undisturbed (hok.of_suffix hsuffix)
    ((flightHistory_of_reach hc).1.of_suffix hsuffix)
    ((findsFree_of_reach hidle hc).of_suffix hsuffix) with hnone | hnone
  · exact absurd (hcleared.symm.trans (hnone t)) nofun
  · exact hnone

/-- One node to read. -/
def oneNode : List ReadValue := [⟨{ ns := 1, id := .numeric 42, dataType := .int }⟩]

/-- A user connects while a `batchRead` builds its request. -/
def connectBeforeCheck : Option ImplPool :=
  let env : Environment := {}
  ImplPool.run [.batchRead oneNode, .connect] .connected
    (env.moves 0 8 ++ env.moves 1 14 ++ env.moves 0 21)

/-- The second check of the read refuses it. -/
theorem servicesApart_read_refused :
    ∃ c : ImplPool, ServicesApart c.state.history ∧ c.Returned 0
      (.ok (.read (.error ⟨.threadBusy, "batchRead:client life state is THREAD_BUSY"⟩))) := by
  have hplay : connectBeforeCheck.any (fun d => decide (Event.Each Undisturbed d.state.history) &&
      d.result? 0 == some (.ok (.read
        (.error ⟨.threadBusy, "batchRead:client life state is THREAD_BUSY"⟩)))) = true := by
    decide
  obtain ⟨d, -, hd, hcheck⟩ := Config.exists_reach_of_play hplay
  simp only [Bool.and_eq_true, decide_eq_true_eq, beq_iff_eq] at hcheck
  exact ⟨d, servicesApart rfl hd hcheck.1, Config.returned_of_result? hcheck.2⟩

/-! ### Between the check and the service -/

/-- The business calls and the connection operations. -/
def ImplCall.UsesConnection : ImplCall → Prop
  | .batchRead _ | .batchWrite _ | .connect | .disconnect => True
  | _ => False

/-- A user connects after a `batchRead` has made its last check; the read goes on. -/
def connectAfterCheck : Option ImplPool :=
  let env : Environment := {}
  ImplPool.run [.batchRead oneNode, .connect] .connected
    (env.moves 0 28 ++ env.moves 1 14 ++ env.moves 0 2)

/-- The service starts in the middle of the `connect`. -/
theorem not_servicesApart :
    ¬∀ (calls : Tid → Option ImplCall) (s : ImplState) (c : ImplPool),
      (∀ t call, calls t = some call → call.UsesConnection) → s.IsOpen → s.connState = .idle →
      ImplPool.Reach (ImplPool.start calls s) c → ServicesApart c.state.history := by
  intro hall
  have hplay : connectAfterCheck.any (fun d => decide (¬ServicesApart d.state.history)) = true := by
    decide
  obtain ⟨d, -, hd, hcheck⟩ := Config.exists_reach_of_play hplay
  have hcalls : ∀ t call, callsOf [.batchRead oneNode, .connect] t = some call →
      call.UsesConnection := of_callsOf (by simp [ImplCall.UsesConnection])
  exact of_decide_eq_true hcheck (hall _ _ d hcalls ⟨rfl, rfl⟩ rfl hd)

end OPCUAPacking
