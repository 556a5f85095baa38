import OPCUAPacking.Impl.Script

/-!
# What a read returns

`batchRead` along an execution in which nobody else changes the client, as a function of what the
SDK and its clock answer.

* `Progress` — how often the clock was read, how many attempts have returned, and their requests.
* `Impl.Gives` — what a part of the read returns, and how far the read has come then.
* `batchRead_reference` — the call returns what the reference says, and has sent what it says.
-/

namespace OPCUAPacking

open Interleaving

/-- The operations of a read that neither take a mutex nor count for its progress. -/
def ImplOp.isPassive : ImplOp → Bool
  | .load _ | .loadFields | .taskInc | .taskDec | .copyImpl | .readConfig => true
  | .waitBegin _ | .waitBlock | .alloc | .reserve | .statusCodeName _ => true
  | _ => false

/-- The operations of a read that do not count for its progress. -/
def ImplOp.isUncounted : ImplOp → Bool
  | .lock _ | .unlock _ => true
  | o => o.isPassive

/-- The operations of a read; they leave the client as it is. -/
def ImplOp.isReading : ImplOp → Bool
  | .nowMs | .sdkCall _ _ | .sdkReturn _ _ => true
  | o => o.isUncounted

theorem ImplState.Serves.step {client : Handle} {t : Tid} {o : ImplOp} {r : o.Resp}
    {s s' : ImplState} (hs : s.Serves client) (h : exec t o r s = some s')
    (ho : o.isReading = true) : s'.Serves client := by
  cases o with
  | lock m | unlock m =>
      obtain ⟨-, rfl⟩ := whenever_eq_some.mp h
      cases m <;> exact ⟨hs.1, hs.2, hs.3, hs.4, hs.5, hs.6⟩
  | taskInc | taskDec =>
      cases h
      exact ⟨hs.1, hs.2, hs.3, hs.4, hs.5, hs.6⟩
  | load a | loadFields | copyImpl | readConfig =>
      obtain ⟨-, rfl⟩ := whenever_eq_some.mp h
      exact hs
  | nowMs | sdkCall _ _ | sdkReturn _ _ | waitBegin _ | waitBlock | alloc | reserve
  | statusCodeName _ =>
      cases h
      exact hs
  | _ => cases ho

/-! ### Progress -/

/-- How far a read has come. -/
structure Progress where
  /-- How often it has read the clock. -/
  nows : Nat
  /-- How many attempts have returned. -/
  returns : Nat
  /-- The requests of its attempts. -/
  requests : List (List UA_ReadValueId)

/-- How far thread `t` has come. -/
def ImplExecution.progress {c : ImplPool} (E : ImplExecution c) (t : Tid) (n : Nat) : Progress :=
  ⟨E.count t isNow n, E.count t isReadReturn n, E.requests t n⟩

/-- What an operation adds to it. -/
theorem ImplExecution.progress_of_step {c : ImplPool} {E : ImplExecution c} {t : Tid} {n n' : Nat}
    {o : ImplOp} {r : o.Resp} (h : (E.along t Impl.grantable).step o r n n') :
    E.progress t n' = ⟨(E.progress t n).nows + if isNow ⟨t, o, r⟩ then 1 else 0,
      (E.progress t n).returns + if isReadReturn ⟨t, o, r⟩ then 1 else 0,
      (requestOf ⟨t, o, r⟩).toList ++ (E.progress t n).requests⟩ := by
  have hrequests : E.requests t n' = (requestOf ⟨t, o, r⟩).toList ++ E.requests t n := by
    rw [requests, Execution.ops_of_step h, List.filterMap_cons]
    cases requestOf ⟨t, o, r⟩ <;> rfl
  rw [progress, Execution.count_of_step h, Execution.count_of_step h, hrequests]
  rfl

namespace Impl

open Setting

variable {c : ImplPool} {E : ImplExecution c} {t : Tid} {client : Handle} {S : ReadScript}
  {α β : Type}

/-- The thread has come so far and is served. -/
structure Stands (E : ImplExecution c) (t : Tid) (client : Handle) (p : Progress) (n : Nat) :
    Prop where
  serves : (E.config n).state.world.Serves client
  progress_eq : E.progress t n = p

/-- It also holds the mutex `held`. -/
structure At (E : ImplExecution c) (t : Tid) (client : Handle) (held : Option Mutex) (p : Progress)
    (n : Nat) : Prop extends Stands E t client p n where
  holds : Holds E t held n

/-- A program that returns `a` and has then come so far. -/
def Gives (E : ImplExecution c) (t : Tid) (client : Handle) (held : Option Mutex) (p : Progress)
    (a : α) (r : Except Exn α) (n : Nat) : Prop :=
  r = .ok a ∧ At E t client held p n

variable {held : Option Mutex} {p p' : Progress} {n n' : Nat}

theorem gives_pure {a : α} (hn : At E t client held p n) :
    Along E t (pure a) (Gives E t client held p a) n :=
  ends_pure ⟨rfl, hn⟩

/-- What a program returns is passed on. -/
theorem gives_bind {q : Impl α} {f : α → Impl β} {a : α} {Q : Except Exn β → Nat → Prop}
    (hq : Along E t q (Gives E t client held p a) n)
    (hf : ∀ n', At E t client held p n' → Along E t (f a) Q n') : Along E t (q >>= f) Q n := by
  refine Ends.bind _ hq ?_ fun e n' h => nomatch h.1
  rintro _ n' ⟨⟨⟩, hn'⟩
  exact hf n' hn'

/-- A check that passes. -/
theorem gives_andThen {α' β' : Type} {q : Impl (Result α' RichError)}
    {f : α' → Impl (Result β' RichError)} {a : α'}
    {Q : Except Exn (Result β' RichError) → Nat → Prop}
    (hq : Along E t q (Gives E t client held p (.ok a)) n)
    (hf : ∀ n', At E t client held p n' → Along E t (f a) Q n') :
    Along E t (Proc.andThen q f) Q n :=
  gives_bind hq hf

/-- A program that refuses with an error of the code. -/
def Refuses (E : ImplExecution c) (t : Tid) (client : Handle) (held : Option Mutex) (p : Progress)
    (code : ErrorCode) (r : Except Exn (Result α RichError)) (n : Nat) : Prop :=
  ∃ text, Gives E t client held p (.error ⟨code, text⟩) r n

theorem refuses_pure {code : ErrorCode} {text : String} (hn : At E t client held p n) :
    Along E t (pure (.error ⟨code, text⟩) : Impl (Result α RichError))
      (Refuses E t client held p code) n :=
  ends_pure ⟨text, rfl, hn⟩

/-- A check that fails. -/
theorem refuses_andThen {α' β' : Type} {q : Impl (Result α' RichError)}
    {f : α' → Impl (Result β' RichError)} {code : ErrorCode}
    (hq : Along E t q (Refuses E t client held p code) n) :
    Along E t (Proc.andThen q f) (Refuses E t client held p code) n := by
  refine Ends.bind _ hq ?_ fun e n' h => nomatch h.choose_spec.1
  rintro _ n' ⟨text, ⟨⟩, hn'⟩
  exact refuses_pure hn'

/-- An identifier that is refused. -/
theorem refuses_readItem {v : ReadValue} (hv : v.node.rejected = true)
    (hn : At E t client held p n) :
    Along E t (readItem v) (Refuses E t client held p .invalidArgument) n := by
  obtain ⟨text, htext⟩ := NodeId.validate_of_rejected hv
  refine refuses_andThen (refuses_andThen ?_)
  rw [htext]
  exact refuses_pure hn

section Scripted

variable (hE : Scripted E t client S)

include hE

/-- Between its operations the thread is served. -/
theorem serves_of_still (h : E.Still t n n') (hn : (E.config n).state.world.Serves client) :
    (E.config n').state.world.Serves client := by
  obtain ⟨hle, hstill⟩ := h
  induction n', hle using Nat.le_induction with
  | base => exact hn
  | succ m hle ih =>
      refine hE.undisturbed m (hstill m hle (Nat.lt_succ_self m)) ?_
      exact ih fun i hi him => hstill i hi (Nat.lt_succ_of_lt him)

/-- An operation of a read is answered by the script and by a state that serves. -/
theorem Stands.answered {o : ImplOp} {r : o.Resp} (hn : Stands E t client p n)
    (h : (E.along t grantable).step o r n n') (ho : o.isReading = true) :
    (∃ s s' : ImplState, s.Serves client ∧ s.config = c.state.world.config ∧
      ImplState.exec t o r s = some s') ∧ S.Allows (E.ops t n) o r ∧
      (E.config n').state.world.Serves client := by
  obtain ⟨k, hstill, hl, rfl⟩ := h
  obtain ⟨-, -, -, hstep⟩ := Execution.step_of_label hl
  have hserves := serves_of_still hE hstill hn.serves
  refine ⟨⟨_, _, hserves, hE.calls.config_eq k, hstep.exec_eq⟩, ?_,
    hserves.step hstep.exec_eq ho⟩
  rw [← hstill.ops_eq]
  exact hE.answers k o r hl

/-- An operation that does not count. -/
theorem Stands.uncounted {o : ImplOp} {r : o.Resp} (hn : Stands E t client p n)
    (h : (E.along t grantable).step o r n n') (ho : o.isUncounted = true) :
    Stands E t client p n' := by
  have hreading : o.isReading = true := by cases o <;> first | rfl | cases ho
  refine ⟨(hn.answered hE h hreading).2.2, ?_⟩
  have hnow : isNow ⟨t, o, r⟩ = false := by cases o <;> first | rfl | cases ho
  have hreturn : isReadReturn ⟨t, o, r⟩ = false := by cases o <;> first | rfl | cases ho
  have hrequest : requestOf ⟨t, o, r⟩ = none := by cases o <;> first | rfl | cases ho
  rw [ImplExecution.progress_of_step h, hnow, hreturn, hrequest, hn.progress_eq]
  rfl

/-- A passive operation. -/
theorem At.passive {o : ImplOp} {r : o.Resp} (hn : At E t client held p n)
    (h : (E.along t grantable).step o r n n') (ho : o.isPassive = true) :
    At E t client held p n' := by
  have huncounted : o.isUncounted = true := by cases o <;> first | rfl | cases ho
  refine ⟨hn.toStands.uncounted hE h huncounted, hn.holds.step h fun m => ?_⟩
  cases o <;> first | exact ⟨rfl, rfl⟩ | cases ho

/-- A passive operation whose response is known. -/
theorem gives_op {o : ImplOp} {a : o.Resp} (ho : o.isPassive = true)
    (hn : At E t client held p n)
    (ha : ∀ r (s s' : ImplState) es, s.Serves client → s.config = c.state.world.config →
      ImplState.exec t o r s = some s' → S.Allows es o r → r = a) :
    Along E t (perform o) (Gives E t client held p a) n := by
  have hready : grantable o (E.ops t n) := by cases o <;> trivial
  have hreading : o.isReading = true := by cases o <;> first | rfl | cases ho
  refine ends_perform hready fun r n' h => ?_
  obtain ⟨⟨s, s', hserves, hconfig, hexec⟩, hallows, -⟩ := hn.toStands.answered hE h hreading
  exact ⟨congrArg _ (ha r s s' _ hserves hconfig hexec hallows), hn.passive hE h ho⟩

/-- The load of a member whose value is known. -/
theorem gives_load {a : Atomic} {v : a.Val} (hn : At E t client held p n)
    (ha : ∀ s : ImplState, s.Serves client → s.get a = v) :
    Along E t (load a) (Gives E t client held p v) n :=
  gives_op hE rfl hn fun _ s _ _ hs _ hexec _ =>
    (ImplState.whenever_eq_some.mp hexec).1.symm.trans (ha s hs)

/-- The cached fields are those of a client that is ready. -/
theorem along_loadFields {f : StateFields → Impl β} {Q : Except Exn β → Nat → Prop}
    (hn : At E t client held p n)
    (hf : ∀ r n', r.triple.isReady = true → At E t client held p n' → Along E t (f r) Q n') :
    Along E t (loadState >>= f) Q n := by
  refine along_op trivial fun r n' h => ?_
  obtain ⟨⟨s, s', hserves, -, hexec⟩, -⟩ := hn.toStands.answered hE h rfl
  obtain ⟨rfl, -⟩ := ImplState.whenever_eq_some.mp hexec
  exact hf _ n' hserves.ready (hn.passive hE h rfl)

theorem gives_isGivenUp (hn : At E t client held p n) :
    Along E t isGivenUp (Gives E t client held p false) n :=
  gives_bind (gives_load hE hn fun _ hs => hs.running) fun _ hn' => gives_pure hn'

theorem gives_stopSignal (hn : At E t client held p n) :
    Along E t getEffectiveStopSignal (Gives E t client held p false) n :=
  gives_bind (gives_load hE hn fun _ hs => hs.open_eq) fun _ hn' => gives_isGivenUp hE hn'

theorem gives_isHealthyCached (hn : At E t client held p n) :
    Along E t isHealthyCached (Gives E t client held p true) n := by
  refine gives_bind (gives_load hE hn fun _ hs => hs.lost_eq) fun _ hn' => ?_
  refine along_loadFields hE hn' fun f n'' hready hn'' => ends_pure ⟨congrArg _ hready, hn''⟩

theorem gives_readConfig (hn : At E t client held p n) :
    Along E t (perform .readConfig) (Gives E t client held p c.state.world.config) n :=
  gives_op hE rfl hn fun _ _ _ _ _ hconfig hexec _ =>
    (ImplState.whenever_eq_some.mp hexec).1.trans hconfig

/-- A block under a mutex. -/
theorem gives_withLock {m : Mutex} {body : Impl α} {a : α} (hn : At E t client none p n)
    (hbody : ∀ n', At E t client (some m) p n' →
      Along E t body (Gives E t client (some m) p' a) n') :
    Along E t (withLock m body) (Gives E t client none p' a) n := by
  refine (along_withLock (fun n' => Stands E t client p n')
    (fun r n' => r = .ok a ∧ Stands E t client p' n') hn.holds
    (fun n' h => hn.toStands.uncounted hE h rfl) (fun n' hheld hs => ?_)
    fun r n' n'' h hr => ⟨hr.1, hr.2.uncounted hE h rfl⟩).mono fun r n' h => ⟨h.2.1, h.2.2, h.1⟩
  exact (hbody n' ⟨hs, hheld⟩).mono fun r n'' h => ⟨h.2.holds, h.1, h.2.toStands⟩

/-! ### The checks -/

theorem gives_checkStop (text : String) (hn : At E t client none p n) :
    Along E t (checkStop text) (Gives E t client none p (.ok ())) n :=
  gives_bind (gives_withLock hE hn fun _ hn' => gives_stopSignal hE hn') fun _ hn' => gives_pure hn'

theorem gives_checkState (givenUp recovering busy : String) (hn : At E t client held p n) :
    Along E t (checkState givenUp recovering busy) (Gives E t client held p (.ok ())) n := by
  refine gives_bind (gives_load hE hn fun _ hs => hs.running) fun n₁ hn₁ => ?_
  refine gives_bind (gives_load hE hn₁ fun _ hs => hs.running) fun n₂ hn₂ => ?_
  refine gives_bind (gives_load hE hn₂ fun _ hs => hs.idle) fun n₃ hn₃ => ?_
  exact gives_pure hn₃

theorem gives_checkHealthy (text : String) (hn : At E t client held p n) :
    Along E t (checkHealthy text) (Gives E t client held p (.ok ())) n :=
  gives_bind (gives_isHealthyCached hE hn) fun _ hn' => gives_pure hn'

theorem gives_alloc (hn : At E t client held p n) :
    Along E t (perform .alloc) (Gives E t client held p true) n :=
  gives_op hE rfl hn fun _ _ _ _ _ _ _ hallows => hallows

theorem gives_checkAlloc (text : String) (hn : At E t client held p n) :
    Along E t (checkAlloc text) (Gives E t client held p (.ok ())) n :=
  gives_bind (gives_alloc hE hn) fun _ hn' => gives_pure hn'

theorem gives_batchClient (nullText stopText : String) (hn : At E t client none p n) :
    Along E t (batchClient nullText stopText) (Gives E t client none p (.ok client)) n := by
  refine gives_withLock hE hn fun n₁ hn₁ => ?_
  have hcopy : Along E t (perform .copyImpl) (Gives E t client _ p (some client)) n₁ :=
    gives_op hE rfl hn₁ fun _ _ _ _ hs _ hexec _ =>
      (ImplState.whenever_eq_some.mp hexec).1.trans hs.impl_eq
  refine gives_bind hcopy fun n₂ hn₂ => ?_
  exact gives_bind (gives_stopSignal hE hn₂) fun _ hn₃ => gives_pure hn₃

theorem gives_readChecks {nodes : List ReadValue} (hnodes : nodes ≠ [])
    (hn : At E t client held p n) :
    Along E t (readChecks nodes) (Gives E t client held p (.ok ())) n := by
  refine gives_andThen (gives_checkState hE _ _ _ hn) fun n₁ hn₁ => ?_
  have hsome : nodes.isEmpty = false := by simpa using hnodes
  rw [hsome]
  refine gives_andThen (gives_checkHealthy hE _ hn₁) fun n₂ hn₂ => ?_
  exact gives_checkAlloc hE _ hn₂

/-! ### The request -/

/-- An accepted identifier reaches the request as it is. -/
theorem gives_readItem {v : ReadValue} (hv : v.node.rejected = false)
    (hn : At E t client held p n) :
    Along E t (readItem v) (Gives E t client held p (.ok v.item)) n := by
  have halloc : Along E t (uaNodeIDAlloc v.node)
      (Gives E t client held p (.ok ⟨v.node.ns, v.node.id⟩)) n := by
    have hvalidate : Along E t (pure v.node.validate) (Gives E t client held p (.ok ())) n := by
      rw [NodeId.validate_of_not_rejected hv]
      exact gives_pure hn
    refine gives_andThen hvalidate fun n₁ hn₁ => ?_
    cases hid : v.node.id with
    | numeric m => exact gives_pure hn₁
    | string s =>
        unfold NodeId.rejected at hv
        rw [hid] at hv
        obtain ⟨hempty, hnul⟩ := Bool.or_eq_false_iff.mp hv
        refine gives_bind (gives_alloc hE hn₁) fun n₂ hn₂ => ?_
        rw [cString_of_not_containsEmbeddedNul hnul, hempty]
        exact gives_pure hn₂
  exact gives_andThen halloc fun _ hn' => gives_pure hn'

/-- The request of accepted nodes. -/
theorem gives_buildReadRequest {nodes : List ReadValue}
    (hnodes : nodes.any (·.node.rejected) = false) (hn : At E t client held p n) :
    Along E t (buildReadRequest nodes) (Gives E t client held p (.ok (nodes.map ReadValue.item)))
      n := by
  induction nodes generalizing n with
  | nil => exact gives_pure hn
  | cons v nodes ih =>
      rw [List.any_cons, Bool.or_eq_false_iff] at hnodes
      refine gives_andThen (gives_readItem hE hnodes.1 hn) fun n₁ hn₁ => ?_
      exact gives_andThen (ih hnodes.2 hn₁) fun n₂ hn₂ => gives_pure hn₂

/-- A request with a node that is refused. -/
theorem refuses_buildReadRequest {nodes : List ReadValue}
    (hnodes : nodes.any (·.node.rejected) = true) (hn : At E t client held p n) :
    Along E t (buildReadRequest nodes) (Refuses E t client held p .invalidArgument) n := by
  induction nodes generalizing n with
  | nil => cases hnodes
  | cons v nodes ih =>
      cases hv : v.node.rejected with
      | true => exact refuses_andThen (refuses_readItem hv hn)
      | false =>
          rw [List.any_cons, hv, Bool.false_or] at hnodes
          refine gives_andThen (gives_readItem hE hv hn) fun n₁ hn₁ => ?_
          exact refuses_andThen (ih hnodes hn₁)

/-! ### The attempts -/

/-- A reading of the clock. -/
theorem gives_nowMs (hn : At E t client held p n) :
    Along E t nowMs (Gives E t client held { p with nows := p.nows + 1 } (S.clock p.nows)) n := by
  refine along_op trivial fun r n' h => ?_
  obtain ⟨-, hallows, hserves⟩ := hn.toStands.answered hE h rfl
  have hnows : (E.ops t n).countP isNow = p.nows := congrArg Progress.nows hn.progress_eq
  cases hallows
  rw [hnows]
  refine ends_pure ⟨rfl, ⟨hserves, ?_⟩, hn.holds.step h fun m => ⟨rfl, rfl⟩⟩
  rw [ImplExecution.progress_of_step h, hn.progress_eq]
  rfl

/-- A read of the SDK. -/
theorem gives_serviceRead (request : List UA_ReadValueId) (hn : At E t client none p n) :
    Along E t (withLock .sdkMutex (sdk client (.serviceRead request))) (Gives E t client none
      { p with returns := p.returns + 1, requests := request :: p.requests }
      (S.responses p.returns)) n := by
  refine gives_withLock hE hn fun n₁ hn₁ => ?_
  refine along_op trivial fun callbacks n₂ h₂ => ?_
  obtain ⟨-, hcallbacks, hserves₂⟩ := hn₁.toStands.answered hE h₂ rfl
  cases hcallbacks
  have hheld₂ := hn₁.holds.step h₂ fun m => ⟨rfl, rfl⟩
  have hprogress₂ : E.progress t n₂ = { p with requests := request :: p.requests } := by
    rw [ImplExecution.progress_of_step h₂, hn₁.progress_eq]
    rfl
  have hn₂ : At E t client _ _ n₂ := ⟨⟨hserves₂, hprogress₂⟩, hheld₂⟩
  refine along_op trivial fun r n₃ h₃ => ?_
  obtain ⟨-, hallows, hserves₃⟩ := hn₂.toStands.answered hE h₃ rfl
  have hreturns : (E.ops t n₂).countP isReadReturn = p.returns :=
    congrArg Progress.returns hprogress₂
  cases hallows
  rw [hreturns]
  refine ends_pure ⟨rfl, ⟨hserves₃, ?_⟩, hheld₂.step h₃ fun m => ⟨rfl, rfl⟩⟩
  rw [ImplExecution.progress_of_step h₃, hprogress₂]
  rfl

/-- The sleep between two attempts. -/
theorem gives_delayFunction (retry : UInt32) (hn : At E t client held p n) :
    Along E t (delayFunction retry) (Gives E t client held p ()) n := by
  have hI : Accounts E t fun _ n => At E t client held p n :=
    ⟨fun {_ o _ _ _} ho h hn => hn.passive hE h (by cases o <;> first | rfl | cases ho),
      fun _ h hn => hn.passive hE h rfl⟩
  refine (along_delayFunction hI hE.calls hE.waits retry hn).mono fun r n' h => ?_
  obtain ⟨rfl, _, _, hn', -⟩ := h
  exact ⟨rfl, hn'⟩

end Scripted

/-- A program that returns the result and has sent the requests of `reference`. -/
def Returns (E : ImplExecution c) (t : Tid) (client : Handle)
    (reference : Result (List ReadResult) ErrorCode × List (List UA_ReadValueId))
    (r : Except Exn (Result (List ReadResult) RichError)) (n : Nat) : Prop :=
  ∃ a p, Gives E t client none p a r n ∧ (a.mapError RichError.code, p.requests) = reference

/-- How far a read has come before the attempt `k`. -/
def progressAt (request : List UA_ReadValueId) (k : Nat) : Progress :=
  ⟨k + 1, k, List.replicate k request⟩

/-- How an attempt ends: with the next one, as it does not stop the read, or with the result. -/
def AttemptEnds (E : ImplExecution c) (t : Tid) (client : Handle) (S : ReadScript)
    (config : ClientConfig) (nodes : List ReadValue) (request : List UA_ReadValueId) (k : Nat)
    (r : Except Exn (UInt32 ⊕ Result (List ReadResult) RichError)) (n : Nat) : Prop :=
  Sum.elim (fun retry n => retry.toNat = k + 1 ∧ ¬S.Stops config k ∧
      At E t client none (progressAt request (k + 1)) n)
    (Returns E t client (S.outcome config nodes, List.replicate (S.attempts config) request))
    (Proc.roundExit r) n

section Attempts

variable {config : ClientConfig} {nodes : List ReadValue} {request : List UA_ReadValueId} {k : Nat}

/-- The budget is exceeded before the attempt. -/
theorem returns_overBudget {text : String} (hfirst : ∀ i < k, ¬S.Stops config i)
    (hover : S.OverBudget config k) (hp : p.requests = List.replicate k request)
    (hn : At E t client none p n) :
    Returns E t client (S.outcome config nodes, List.replicate (S.attempts config) request)
      (.ok (.error ⟨.budgetExceeded, text⟩)) n := by
  have hstop := ReadScript.stop_eq (.inl hover) hfirst
  refine ⟨_, p, ⟨rfl, hn⟩, ?_⟩
  rw [ReadScript.outcome, ReadScript.attempts, hstop, if_pos hover, if_pos hover, hp]
  rfl

/-- The attempt stops the read. -/
theorem outcome_of_stops (nodes : List ReadValue) {k : Nat} (hfirst : ∀ i < k, ¬S.Stops config i)
    (hstops : S.Stops config k) (hover : ¬S.OverBudget config k) :
    S.outcome config nodes = (if isRetryable (S.responses k).serviceResult = true then
      .error .serviceRetryExhausted else ReadScript.decode nodes (S.responses k)) ∧
      S.attempts config = k + 1 := by
  have hstop := ReadScript.stop_eq hstops hfirst
  rw [ReadScript.outcome, ReadScript.attempts, hstop, if_neg hover, if_neg hover]
  exact ⟨rfl, rfl⟩

variable (hE : Scripted E t client S)

include hE

/-- The checks before an attempt. -/
theorem along_readAttemptChecks (hn : At E t client none (progressAt request k) n) :
    Along E t (readAttemptChecks (S.clock 0)) (fun r n' =>
      (S.OverBudget c.state.world.config k ∧ Refuses E t client none
        { progressAt request k with nows := k + 2 } .budgetExceeded r n') ∨
      (¬S.OverBudget c.state.world.config k ∧ Gives E t client none
        { progressAt request k with nows := k + 2 } (.ok ()) r n')) n := by
  refine gives_andThen (gives_checkStop hE _ hn) fun n₁ hn₁ => ?_
  refine gives_bind (gives_nowMs hE hn₁) fun n₂ hn₂ => ?_
  refine gives_bind (gives_readConfig hE hn₂) fun n₃ hn₃ => ?_
  split
  case isTrue hover => exact ends_pure (.inl ⟨hover, _, rfl, hn₃⟩)
  case isFalse hover =>
    exact (gives_checkState hE _ _ _ hn₃).mono fun r n' h => .inr ⟨hover, h⟩

/-- The results of a response that is not retried. -/
theorem returns_readResults {response : UA_ReadResponse} {attempts : List (List UA_ReadValueId)}
    (hp : p.requests = attempts) (hn : At E t client none p n) :
    Along E t (readResults nodes response)
      (Returns E t client (ReadScript.decode nodes response, attempts)) n := by
  unfold readResults ReadScript.decode
  cases response.results with
  | null size => exact ends_pure ⟨_, p, ⟨rfl, hn⟩, by rw [hp]; rfl⟩
  | data items =>
      dsimp only
      by_cases hgood : response.serviceResult.isGood = true ∧ items.length = nodes.length
      · have hpass : (!response.serviceResult.isGood || items.length != nodes.length) = false := by
          simp [hgood.1, hgood.2]
        rw [if_pos hgood, hpass]
        have hreserve : Along E t (perform .reserve) (Gives E t client none p (.ok ())) n :=
          gives_op hE rfl hn fun _ _ _ _ _ _ _ hallows => hallows
        refine gives_bind hreserve fun n₁ hn₁ => ?_
        exact gives_bind (gives_pure hn₁) fun n₂ hn₂ =>
          ends_pure ⟨_, p, ⟨rfl, hn₂⟩, by rw [hp]; rfl⟩
      · have hfail : (!response.serviceResult.isGood || items.length != nodes.length) = true := by
          rw [Bool.or_eq_true, Bool.not_eq_true', bne_iff_ne, ← Bool.not_eq_true]
          exact not_and_or.mp hgood
        rw [if_neg hgood, hfail]
        exact ends_pure ⟨_, p, ⟨rfl, hn⟩, by rw [hp]; rfl⟩

/-- An attempt within the budget. -/
theorem along_readService (hfirst : ∀ i < k, ¬S.Stops config i) (hover : ¬S.OverBudget config k)
    {retry : UInt32} (hretry : retry.toNat = k) (hlt : k + 1 < 2 ^ 32)
    (hn : At E t client none { progressAt request k with nows := k + 2 } n) :
    Along E t (readService nodes request client config.maxRetries retry)
      (AttemptEnds E t client S config nodes request k) n := by
  refine gives_bind (gives_serviceRead hE request hn) fun n₁ hn₁ => ?_
  change At E t client none (progressAt request (k + 1)) n₁ at hn₁
  change Along E t (if isRetryable (S.responses k).serviceResult then _ else _) _ n₁
  have hsame : retry ≠ config.maxRetries ↔ k ≠ config.maxRetries.toNat := by
    rw [← hretry, ne_eq, ne_eq, UInt32.toNat_inj]
  split
  case isTrue hretryable =>
    split
    case isTrue hmore =>
      refine gives_bind (gives_delayFunction hE retry hn₁) fun n₂ hn₂ => ?_
      -- round again: the counter has not wrapped, and no condition to stop holds at `k`
      refine ends_pure ⟨?_, ?_, hn₂⟩
      · rw [UInt32.toNat_add, hretry]
        exact Nat.mod_eq_of_lt hlt
      · rintro (h | h | h)
        · exact hover h
        · rw [hretryable] at h
          cases h
        · exact hsame.mp hmore h
    case isFalse hlast =>
      -- the retries are exhausted
      have hstops : S.Stops config k := .inr (.inr (not_not.mp fun h => hlast (hsame.mpr h)))
      obtain ⟨houtcome, hattempts⟩ := outcome_of_stops nodes hfirst hstops hover
      rw [if_pos hretryable] at houtcome
      have hname : Along E t (safeStatusCodeName (S.responses k).serviceResult) (fun r n' =>
          ∃ name, Gives E t client none (progressAt request (k + 1)) name r n') n₁ :=
        along_op trivial fun name n₂ h₂ => ends_pure ⟨_, rfl, hn₁.passive hE h₂ rfl⟩
      refine Ends.bind _ hname ?_ fun e n₂ h => nomatch h.choose_spec.1
      rintro _ n₂ ⟨name, ⟨⟩, hn₂⟩
      refine ends_pure ⟨_, _, ⟨rfl, hn₂⟩, ?_⟩
      rw [houtcome, hattempts]
      rfl
  case isFalse hfinal =>
    -- the response is final
    have hstops : S.Stops config k := .inr (.inl (Bool.not_eq_true _ ▸ hfinal))
    obtain ⟨houtcome, hattempts⟩ := outcome_of_stops nodes hfirst hstops hover
    rw [if_neg hfinal] at houtcome
    have hresults : Along E t (readResults nodes (S.responses k)) (Returns E t client
        (ReadScript.decode nodes (S.responses k), List.replicate (k + 1) request)) n₁ :=
      returns_readResults hE rfl hn₁
    refine Ends.bind _ hresults (fun a n₂ h => ends_pure ?_) fun e n₂ ⟨_, _, ⟨h, _⟩, _⟩ => nomatch h
    change Returns E t client (S.outcome config nodes,
      List.replicate (S.attempts config) request) (.ok a) n₂
    rw [houtcome, hattempts]
    exact h

/-- An attempt. -/
theorem along_readAttempt (hvalid : c.state.world.config.Valid)
    (hfirst : ∀ i < k, ¬S.Stops c.state.world.config i)
    (hk : k ≤ c.state.world.config.maxRetries.toNat) {retry : UInt32} (hretry : retry.toNat = k)
    (hn : At E t client none (progressAt request k) n) :
    Along E t (readAttempt nodes request client (S.clock 0) c.state.world.config.maxRetries retry)
      (AttemptEnds E t client S c.state.world.config nodes request k) n := by
  have hattempts := hvalid.toNat_attempts
  have hlt : retry < c.state.world.config.maxRetries + 1 := by
    rw [UInt32.lt_iff_toNat_lt, hretry]
    change k < c.state.world.config.attempts.toNat
    omega
  unfold readAttempt
  rw [if_pos hlt]
  refine Ends.bind _ (along_readAttemptChecks hE hn) ?_ ?_
  · rintro r n₁ (⟨hover, text, ⟨⟩, hn₁⟩ | ⟨hover, ⟨⟩, hn₁⟩)
    · exact ends_pure (returns_overBudget hfirst hover rfl hn₁)
    · have hsmall := c.state.world.config.attempts.toNat_lt
      exact along_readService hE hfirst hover hretry (by omega) hn₁
  · rintro e n₁ (⟨-, text, h, -⟩ | ⟨-, h, -⟩) <;> cases h

/-- The retry loop. -/
theorem returns_attempts (hvalid : c.state.world.config.Valid)
    (hn : At E t client none (progressAt request 0) n) :
    Along E t (Proc.loop 0 fun retry =>
        readAttempt nodes request client (S.clock 0) c.state.world.config.maxRetries retry)
      (Returns E t client (S.outcome c.state.world.config nodes,
        List.replicate (S.attempts c.state.world.config) request)) n := by
  refine Ends.loop (fun left retry n => retry.toNat + left = c.state.world.config.maxRetries.toNat ∧
      (∀ i < retry.toNat, ¬S.Stops c.state.world.config i) ∧
      At E t client none (progressAt request retry.toNat) n)
    (n := c.state.world.config.maxRetries.toNat) ⟨Nat.zero_add _, nofun, hn⟩ ?_
  rintro left retry n' ⟨hleft, hfirst, hn'⟩
  refine (along_readAttempt hE hvalid hfirst (by omega) rfl hn').mono fun r n'' hr => ?_
  unfold AttemptEnds at hr
  cases hexit : Proc.roundExit r with
  | inr a =>
      rw [hexit] at hr
      exact hr
  | inl retry' =>
      rw [hexit] at hr
      obtain ⟨hnext, hgo, hn''⟩ := hr
      have hmore : retry.toNat ≠ c.state.world.config.maxRetries.toNat := fun h =>
        hgo (.inr (.inr h))
      refine ⟨left - 1, by omega, by omega, fun i hi => ?_, hnext ▸ hn''⟩
      rcases Nat.lt_succ_iff_lt_or_eq.mp (hnext ▸ hi) with hlt | rfl
      · exact hfirst i hlt
      · exact hgo

/-- The body of a read. -/
theorem returns_batchReadCounted (hvalid : c.state.world.config.Valid) (hnodes : nodes ≠ [])
    (hn : At E t client none ⟨0, 0, []⟩ n) :
    Along E t (batchReadCounted nodes)
      (Returns E t client (S.reference c.state.world.config nodes)) n := by
  unfold ReadScript.reference
  refine gives_andThen (gives_readChecks hE hnodes hn) fun n₁ hn₁ => ?_
  split
  case isTrue hrejected =>
    refine (refuses_andThen (refuses_buildReadRequest hE hrejected hn₁)).mono ?_
    rintro _ n₂ ⟨text, rfl, hn₂⟩
    exact ⟨_, _, ⟨rfl, hn₂⟩, rfl⟩
  case isFalse haccepted =>
    have hrequest := gives_buildReadRequest hE (Bool.not_eq_true _ ▸ haccepted) hn₁
    refine gives_andThen hrequest fun n₂ hn₂ => ?_
    refine gives_andThen (gives_batchClient hE _ _ hn₂) fun n₃ hn₃ => ?_
    refine gives_bind (gives_readConfig hE hn₃) fun n₄ hn₄ => ?_
    refine gives_bind (gives_nowMs hE hn₄) fun n₅ hn₅ => ?_
    exact returns_attempts hE hvalid hn₅

/-- A read. -/
theorem returns_batchRead (hvalid : c.state.world.config.Valid) (hnodes : nodes ≠ [])
    (hn : At E t client none ⟨0, 0, []⟩ n) :
    Along E t (batchRead nodes)
      (Returns E t client (S.reference c.state.world.config nodes)) n := by
  refine gives_andThen (gives_checkStop hE _ hn) fun n₁ hn₁ => ?_
  refine along_op trivial fun _ n₂ h₂ => ?_
  have hn₂ := hn₁.passive hE h₂ rfl
  refine Ends.ensuring (Q := Returns E t client (S.reference c.state.world.config nodes)) _
    (returns_batchReadCounted hE hvalid hnodes hn₂) ?_
  rintro _ n₃ ⟨a, p, ⟨rfl, hn₃⟩, hreference⟩
  exact .op trivial fun _ n₄ h₄ => .ret ⟨rfl, a, p, ⟨rfl, hn₃.passive hE h₄ rfl⟩, hreference⟩

end Attempts

end Impl

/-! ### The call -/

section Call

variable {calls : Tid → Option ImplCall} {s : ImplState} {t : Tid} {client : Handle}
  {nodes : List ReadValue} {S : ReadScript}

/-- What a read returns, and the requests that it has sent by then. -/
theorem returns_reference (hvalid : s.config.Valid) (hnodes : nodes ≠ [])
    (hcall : calls t = some (.batchRead nodes)) (hserves : s.Serves client)
    {E : ImplExecution (ImplPool.start calls s)} (hsched : E.ScheduledIf t Impl.grantable)
    (hE : Scripted E t client S) :
    ∃ n r, (E.config n).Returned t (.ok (.read r)) ∧
      (r.mapError RichError.code, E.requests t n) = S.reference s.config nodes := by
  have hstart : Impl.At E t client none ⟨0, 0, []⟩ 0 := by
    refine ⟨⟨?_, rfl⟩, fun m => rfl⟩
    rw [E.start]
    exact hserves
  have hread : Impl.Along E t (Impl.batchRead nodes)
      (Impl.Returns E t client (S.reference s.config nodes)) 0 :=
    Impl.returns_batchRead hE hvalid hnodes hstart
  have hthread : (ImplPool.start calls s).pool t =
      Impl.replying .read (Impl.batchRead nodes) := by
    change ImplCall.thread (calls t) = _
    rw [hcall]
    rfl
  have hends : Impl.Along E t (Impl.replying .read (Impl.batchRead nodes)) (fun r n =>
      ∃ a, r = .ok (.read a) ∧
        (a.mapError RichError.code, E.requests t n) = S.reference s.config nodes) 0 := by
    refine Setting.Ends.bind _ hread ?_ fun e n ⟨_, _, ⟨h, _⟩, _⟩ => nomatch h
    rintro a n ⟨_, p, ⟨⟨⟩, hn⟩, hreference⟩
    refine Setting.ends_pure ⟨a, rfl, ?_⟩
    rw [← hreference, ← hn.progress_eq]
    rfl
  unfold Impl.Along at hends
  rw [← hthread] at hends
  obtain ⟨_, n, hret, m, hstill, a, rfl, hreference⟩ := E.returns hsched hends
  refine ⟨n, a, hret, ?_⟩
  -- between its last operation and its return the thread has sent nothing
  have hrequests : E.requests t n = E.requests t m := by
    rw [ImplExecution.requests, hstill.ops_eq]
    rfl
  rw [hrequests, hreference]

/-- `batchRead` is its reference function: what it returns and the requests that it sends follow
from what the SDK and its clock answer. -/
theorem batchRead_reference (hcheck : s.config.check = none) (hnodes : nodes ≠ [])
    (hcall : calls t = some (.batchRead nodes)) (hserves : s.Serves client)
    (E : ImplExecution (ImplPool.start calls s)) (hsched : E.ScheduledIf t Impl.grantable)
    (hdist : E.Undisturbed t client) (hanswers : E.Answers t S)
    (hwaits : E.Recurs t isWait isExpiry) :
    ∃ n r, (E.config n).Returned t (.ok (.read r)) ∧
      (r.mapError RichError.code, E.requests t n) = S.reference s.config nodes :=
  returns_reference (ClientConfig.valid_of_check hcheck) hnodes hcall hserves hsched
    ⟨Impl.uses_start calls s, hdist, hanswers, hwaits⟩

end Call

/-- A node with a number. -/
def readNode : ReadValue := ⟨{ id := .numeric 7, dataType := .bool }⟩

/-- The connection is closed at first, and then the value is read. -/
def retriedOnce : ReadScript where
  responses
    | 0 => ⟨UA_StatusCode.badConnectionClosed, .null 0⟩
    | _ => ⟨UA_StatusCode.good, .data [⟨.scalar (.boolean true), UA_StatusCode.good⟩]⟩
  clock _ := 0

/-- The read of one node that is attempted twice. -/
theorem batchRead_reference_retriedOnce :
    ∃ n r, ((retriedOnce.execution 0 (ImplPool.start (callsOf [.batchRead [readNode]])
        .connectedLocal)).config n).Returned 0 (.ok (.read r)) ∧
      (r.mapError RichError.code, (retriedOnce.execution 0 (ImplPool.start
        (callsOf [.batchRead [readNode]]) .connectedLocal)).requests 0 n) =
        (.ok [{ rawStatus := UA_StatusCode.good, value := some (.bool true) }],
          [[readNode.item], [readNode.item]]) := by
  have hstop : retriedOnce.stop ImplState.connectedLocal.config = 1 :=
    ReadScript.stop_eq (by decide) (by decide)
  have hreference : retriedOnce.reference ImplState.connectedLocal.config [readNode] =
      (.ok [{ rawStatus := UA_StatusCode.good, value := some (.bool true) }],
        [[readNode.item], [readNode.item]]) := by
    rw [ReadScript.reference, ReadScript.outcome, ReadScript.attempts, hstop]
    decide
  rw [← hreference]
  exact batchRead_reference (by decide) (by decide) rfl ⟨rfl, rfl, rfl, rfl, rfl, by decide⟩ _
    (retriedOnce.scheduledIf_execution 0 rfl fun m => by cases m <;> rfl)
    (retriedOnce.undisturbed_execution 0 1) (retriedOnce.answers_execution 0)
    (retriedOnce.waits_execution 0)

end OPCUAPacking
