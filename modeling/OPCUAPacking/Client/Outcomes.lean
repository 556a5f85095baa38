import OPCUAPacking.Client.Schedule
import OPCUAPacking.Interleaving.Returns

/-!
# What the public functions return

No exception leaves a public function of `OPC_UA_Client`, wherever the SDK, the clocks, the
allocators or the creation of a thread throw, and what it returns is a reply to its call.

* `Impl.noThrow_shutdown`, `Impl.noThrow_destroy` — the teardown of an `Impl` throws nothing.
* `Impl.yields_batchRead`, `Impl.yields_batchWrite` — a batch that succeeds has a result for each
  item.
* `calls_return` — every thread that has returned has a reply to each of its calls.
-/

namespace OPCUAPacking

open Interleaving

/-- A batch that succeeds has one result for each of its `n` items. -/
def OnePer {β : Type} (n : Nat) : Result (List β) RichError → Prop
  | .ok results => results.length = n
  | .error _ => True

namespace Impl

variable {α : Type}

/-! ### Programs without exceptions -/

theorem noThrow_perform (o : ImplOp) : Proc.NoThrow (perform o) :=
  @Proc.noThrow_perform ImplSig Exn o

/-- A block under a mutex. -/
theorem noThrow_withLock {m : Mutex} {body : Impl α} (hb : Proc.NoThrow body) :
    Proc.NoThrow (withLock m body) :=
  Proc.composed_noThrow.bind (noThrow_perform (.lock m)) fun _ =>
    (noThrow_perform (.unlock m)).ensuring hb

/-- The stop signal is read from atomics. -/
theorem noThrow_stopSignal : Proc.NoThrow getEffectiveStopSignal :=
  composed_stopSignal Proc.composed_noThrow fun a _ => noThrow_perform (.load a)

/-- `signalShutdown`. -/
theorem noThrow_signalShutdown : Proc.NoThrow signalShutdown := by
  have hK := Proc.composed_noThrow (S := ImplSig) (ε := Exn)
  refine hK.bind (noThrow_withLock (hK.bind (noThrow_perform (.load .shutdown)) fun _ =>
    Proc.Composed.ite (hK.pure true) ?_)) fun _ => hK.when ?_
  · exact hK.bind (noThrow_perform (.store .running false)) fun _ =>
      hK.bind (noThrow_perform (.store .shutdown true)) fun _ => hK.pure false
  · exact hK.bind (noThrow_perform (.load .stop)) fun _ => hK.pure ()

/-- `joinWatchdog`. -/
theorem noThrow_joinWatchdog : Proc.NoThrow joinWatchdog := by
  have hK := Proc.composed_noThrow (S := ImplSig) (ε := Exn)
  exact hK.bind (noThrow_perform .watchdogJoinable) fun _ => hK.when
    (hK.bind (noThrow_perform .watchdogIsSelf) fun _ => Proc.Composed.ite
      (noThrow_perform .watchdogDetach) (noThrow_perform .watchdogJoin))

/-- `Impl::shutdown` is `noexcept`. -/
theorem noThrow_shutdown : Proc.NoThrow shutdown := by
  have hK := Proc.composed_noThrow (S := ImplSig) (ε := Exn)
  have hdrain : Proc.NoThrow drain :=
    hK.bind (noThrow_perform .readConfig) fun _ => noThrow_perform (.taskWait _)
  exact hK.bind noThrow_signalShutdown fun _ => hK.bind noThrow_joinWatchdog fun _ =>
    hK.bind (noThrow_perform (.store .stop true)) fun _ => hK.bind hdrain fun _ => hK.pure ()

/-- `~Impl` is `noexcept`. -/
theorem noThrow_destroy : Proc.NoThrow destroy := by
  have hK := Proc.composed_noThrow (S := ImplSig) (ε := Exn)
  exact hK.bind (noThrow_perform (.load .stop)) fun _ => hK.bind (hK.when noThrow_shutdown)
    fun _ => hK.bind (noThrow_perform (.store .shutdown true)) fun _ =>
      hK.bind (noThrow_perform (.store .running false)) fun _ =>
        hK.bind (noThrow_perform .watchdogExists) fun _ =>
          hK.bind (hK.when noThrow_joinWatchdog) fun _ =>
            noThrow_withLock (noThrow_perform .resetImpl)

/-- The handlers of a public function leave no exception. -/
theorem noThrow_catching (p : Impl (Result α RichError)) : Proc.NoThrow (Api.catching p) := by
  have hK := Proc.composed_noThrow (S := ImplSig) (ε := Exn)
  refine hK.bind (Proc.noThrow_attempt p) fun r => ?_
  cases r with
  | ok a => exact hK.pure a
  | error e => exact hK.pure _

/-- So do those of the batches. -/
theorem noThrow_catchingBatch (p : Impl (Result α RichError)) :
    Proc.NoThrow (Client.catchingBatch p) := by
  have hK := Proc.composed_noThrow (S := ImplSig) (ε := Exn)
  refine hK.bind (Proc.noThrow_attempt p) fun r => ?_
  cases r with
  | ok a => exact hK.pure a
  | error e => exact hK.pure _

/-- A health query. -/
theorem noThrow_query (name : String) (p : Impl (Result Unit RichError)) :
    Proc.NoThrow (Api.query name p) :=
  Proc.composed_noThrow.bind noThrow_stopSignal fun _ => Proc.Composed.ite
    (Proc.composed_noThrow.pure _)
    (noThrow_catching p)

/-! ### The length of a batch -/

/-- The handlers turn an exception into an error. -/
theorem yields_catchingBatch {β : Type} {n : Nat} {p : Impl (Result (List β) RichError)}
    (hp : Proc.Yields (OnePer n) p) : Proc.Yields (OnePer n) (Client.catchingBatch p) := by
  refine Prog.returns_bind.mpr (Prog.returns_bind.mpr (Prog.ReturnsUnless.mono hp fun r hr => ?_))
  cases r with
  | ok a => exact Proc.yields_pure (hr a rfl)
  | error e => exact Proc.yields_pure trivial

/-- The results are decoded when there is one for each node. -/
theorem yields_readResults (nodes : List ReadValue) (response : UA_ReadResponse) :
    Proc.Yields (OnePer nodes.length) (readResults nodes response) := by
  unfold readResults
  cases response.results with
  | null size => exact Proc.yields_pure trivial
  | data items =>
      dsimp only
      split_ifs with hfailed
      · exact Proc.yields_pure trivial
      · refine Proc.yields_bind fun r => Proc.yields_bind fun _ => Proc.yields_pure ?_
        have hlength : items.length = nodes.length := by simp_all
        simp [OnePer, hlength]

/-- A read goes round or ends. -/
theorem yields_readAttempt (nodes : List ReadValue) (request : List UA_ReadValueId)
    (client : Handle) (startTime : Int) (maxRetries retry : UInt32) :
    Proc.Yields (Sum.elim (fun _ => True) (OnePer nodes.length))
      (readAttempt nodes request client startTime maxRetries retry) := by
  unfold readAttempt
  split_ifs
  · refine Proc.yields_bind fun r => ?_
    cases r with
    | error e => exact Proc.yields_pure trivial
    | ok u =>
        refine Proc.yields_bind fun response => ?_
        split_ifs
        · exact Proc.yields_bind fun _ => Proc.yields_pure trivial
        · exact Proc.yields_bind fun name => Proc.yields_pure trivial
        · exact (yields_readResults nodes response).bind fun r hr => Proc.yields_pure hr
  · exact Proc.yields_pure trivial

/-- A `batchRead` that succeeds has a result for each node. -/
theorem yields_batchRead (nodes : List ReadValue) :
    Proc.Yields (OnePer nodes.length) (batchRead nodes) := by
  have herror : ∀ e : RichError, OnePer (β := ReadResult) nodes.length (.error e) :=
    fun _ => trivial
  refine Proc.yields_andThen herror fun _ => Proc.yields_bind fun _ => Proc.YieldsUnless.ensuring ?_
  refine Proc.yields_andThen herror fun _ => Proc.yields_andThen herror fun request =>
    Proc.yields_andThen herror fun client => Proc.yields_bind fun config =>
      Proc.yields_bind fun startTime => Proc.YieldsUnless.loop fun retry => ?_
  exact yields_readAttempt nodes request client startTime config.maxRetries retry

/-- The statuses are reported when there is one for each node. -/
theorem yields_writeResults (nodes : List WriteValue) (response : UA_WriteResponse) :
    Proc.Yields (OnePer nodes.length) (writeResults nodes response) := by
  unfold writeResults
  cases response.results with
  | null size => exact Proc.yields_bind fun name => Proc.yields_pure trivial
  | data items =>
      dsimp only
      split_ifs with hgood
      · refine Proc.yields_bind fun r => Proc.yields_bind fun _ => Proc.yields_pure ?_
        have hlength : items.length = nodes.length := by simp_all
        simp [OnePer, hlength]
      · exact Proc.yields_bind fun name => Proc.yields_pure trivial

/-- A `batchWrite` that succeeds has a result for each node. -/
theorem yields_batchWrite (nodes : List WriteValue) :
    Proc.Yields (OnePer nodes.length) (batchWrite nodes) := by
  have herror : ∀ e : RichError, OnePer (β := WriteResult) nodes.length (.error e) :=
    fun _ => trivial
  refine Proc.yields_andThen herror fun _ => Proc.yields_bind fun _ => Proc.YieldsUnless.ensuring ?_
  refine Proc.yields_andThen herror fun _ => Proc.yields_andThen herror fun request =>
    Proc.yields_andThen herror fun client => Proc.yields_andThen herror fun _ =>
      Proc.yields_andThen herror fun _ => Proc.yields_bind fun response => ?_
  exact yields_writeResults nodes response

end Impl

namespace Client

variable {α : Type}

/-! ### The public functions -/

theorem noThrow_perform (o : ClientOp) : Proc.NoThrow (perform o) :=
  @Proc.noThrow_perform ClientSig Exn o

/-- A member function of an `Impl`. -/
theorem noThrow_onImpl {p : Impl α} (hp : Proc.NoThrow p) (i : ImplId) :
    Proc.NoThrow (onImpl i p) :=
  Prog.Returns.handle hp

/-- Dropping a pointer throws nothing, though it may run the destructor. -/
theorem noThrow_drop (i : ImplId) : Proc.NoThrow (drop i) := by
  have hK := Proc.composed_noThrow (S := ClientSig) (ε := Exn)
  refine hK.bind (noThrow_perform (.release i)) fun last => hK.when ?_
  refine hK.bind (noThrow_onImpl Impl.noThrow_destroy i) fun client => ?_
  cases client with
  | none => exact hK.pure ()
  | some client => exact noThrow_perform (.clientDelete client)

/-- Neither does a shutdown of an `Impl`. -/
theorem noThrow_shutdownImpl (i : ImplId) (caller : ShutdownCaller) :
    Proc.NoThrow (shutdownImpl i caller) :=
  Proc.composed_noThrow.bind (noThrow_perform (.shutdownBegin i caller)) fun _ =>
    noThrow_onImpl Impl.noThrow_shutdown i

/-- The handlers at the end of a public function. -/
theorem noThrow_catching (systemText : String) (p : Client (Result α RichError)) :
    Proc.NoThrow (catching systemText p) := by
  have hK := Proc.composed_noThrow (S := ClientSig) (ε := Exn)
  refine hK.bind (Proc.noThrow_attempt p) fun r => ?_
  cases r with
  | ok a => exact hK.pure a
  | error e => exact hK.pure _

/-- A public function in the scope of its lease. -/
theorem noThrow_leased (refusals : Refusals) {body : Impl (Result α RichError)}
    (hb : Proc.NoThrow body) : Proc.NoThrow (leased refusals body) := by
  have hK := Proc.composed_noThrow (S := ClientSig) (ε := Exn)
  have hcurrent : Proc.NoThrow (onCurrent refusals body) := by
    refine hK.bind (noThrow_perform .pImplCopy) fun i => ?_
    cases i with
    | none => exact hK.pure _
    | some i => exact hK.bind (noThrow_onImpl hb i) fun r => hK.pure _
  refine hK.bind (noThrow_perform .leaseAcquire) fun reason => ?_
  cases reason with
  | recreating => exact hK.pure _
  | terminated => exact hK.pure _
  | active => exact (noThrow_perform .leaseRelease).ensuring hcurrent

/-- A public function under a lease. -/
theorem noThrow_call (refusals : Refusals) {body : Impl (Result α RichError)}
    (hb : Proc.NoThrow body) : Proc.NoThrow (call refusals body) := by
  have hK := Proc.composed_noThrow (S := ClientSig) (ε := Exn)
  refine hK.bind (noThrow_leased refusals hb) fun r => hK.bind ?_ fun _ => hK.pure r.2
  cases r.1 with
  | none => exact hK.pure ()
  | some i => exact noThrow_drop i

/-- What a public function under a lease returns: what `body` does, or a refusal. -/
theorem yields_call {refusals : Refusals} {body : Impl (Result α RichError)}
    {Q : Result α RichError → Prop} (hb : Proc.Yields Q body) (he : ∀ e, Q (.error e)) :
    Proc.Yields Q (call refusals body) := by
  have hcurrent : Proc.Yields (fun r => Q r.2) (onCurrent refusals body) := by
    refine Proc.yields_bind fun i => ?_
    cases i with
    | none => exact Proc.yields_pure (he _)
    | some i =>
        exact Proc.YieldsUnless.bind (R := Q) (Prog.Returns.handle hb)
          fun r hr => Proc.yields_pure hr
  refine Proc.YieldsUnless.bind (R := fun r => Q r.2) (Proc.yields_bind fun reason => ?_)
    fun r hr => Proc.yields_bind fun _ => Proc.yields_pure hr
  cases reason with
  | recreating | terminated => exact Proc.yields_pure (he _)
  | active => exact hcurrent.ensuring

/-- `shutdown`. -/
theorem noThrow_shutdown : Proc.NoThrow shutdown := by
  have hK := Proc.composed_noThrow (S := ClientSig) (ε := Exn)
  refine hK.bind (noThrow_perform .shutdownEnter) fun entry => ?_
  cases entry with
  | recreating => exact hK.pure _
  | terminated => exact hK.pure _
  | won => exact (noThrow_perform .shutdownLeave).ensuring (noThrow_catching _ _)

/-- The destructor. -/
theorem noThrow_destructor : Proc.NoThrow destructor := by
  have hK := Proc.composed_noThrow (S := ClientSig) (ε := Exn)
  exact hK.bind (noThrow_perform .terminate) fun _ =>
    hK.bind (hK.when (noThrow_perform .destructorWait)) fun _ =>
      hK.bind (Proc.noThrow_attempt _) fun _ => hK.pure ()

/-- `recreateGiveUpClient`. -/
theorem noThrow_recreateGiveUpClient : Proc.NoThrow recreateGiveUpClient := by
  have hK := Proc.composed_noThrow (S := ClientSig) (ε := Exn)
  refine hK.bind (noThrow_perform .recreateEnter) fun entry => ?_
  cases entry with
  | recreating => exact hK.pure _
  | terminated => exact hK.pure _
  | won =>
      refine hK.bind (noThrow_perform .guardConstruct) fun _ =>
        (noThrow_perform .guardDestroy).ensuring ?_
      refine hK.bind (noThrow_perform (.recreateDrain 2000)) fun drained =>
        Proc.Composed.ite (hK.pure _) (hK.bind (noThrow_perform .pImplLifeState) fun life => ?_)
      exact Proc.Composed.ite (hK.pure _) (hK.bind (noThrow_perform .pImplConfig) fun config =>
        hK.bind (noThrow_perform .pImplExists) fun found =>
          Proc.Composed.ite (hK.pure _) (noThrow_catching _ _))

end Client

/-! ### Every call -/

namespace ClientCall

/-- The call is not the body of a watchdog thread. -/
def IsPublic : ClientCall → Prop
  | .watchdog _ => False
  | _ => True

/-- A reply to the call. -/
def Answers : ClientCall → ClientReply → Prop
  | .batchRead nodes, .read r => OnePer nodes.length r
  | .batchWrite nodes, .write r => OnePer nodes.length r
  | .checkLifeState, .lifeState _ => True
  | .destructor, .unit => True
  | .connect, .result _ | .disconnect, .result _ | .checkConnected, .result _ => True
  | .isHealthy, .result _ | .setGiveUpSignal, .result _ => True
  | .recreateGiveUpClient, .result _ | .shutdown, .result _ => True
  | _, _ => False

/-- A public function returns a reply, and throws nothing. -/
theorem returns_run {c : ClientCall} (hc : c.IsPublic) :
    Prog.Returns c.run fun r => ∃ reply, r = .ok reply ∧ c.Answers reply := by
  have hreply : ∀ {α : Type} {wrap : α → ClientReply} {p : Client α} {Q : α → Prop},
      Proc.NoThrow p → Proc.Yields Q p → (∀ a, Q a → c.Answers (wrap a)) →
      Prog.Returns (Client.replying wrap p) fun r => ∃ reply, r = .ok reply ∧ c.Answers reply := by
    intro α wrap p Q hn hy hwrap
    refine Prog.returns_bind.mpr ((hn.and hy).mono ?_)
    rintro _ ⟨⟨a, rfl⟩, ha⟩
    exact ⟨wrap a, rfl, hwrap a (ha a rfl)⟩
  have hresult : ∀ {α : Type} {wrap : α → ClientReply} {p : Client α},
      Proc.NoThrow p → (∀ a, c.Answers (wrap a)) →
      Prog.Returns (Client.replying wrap p) fun r => ∃ reply, r = .ok reply ∧ c.Answers reply :=
    fun hn hwrap => hreply hn (Proc.yields_of_forall (Q := fun _ => True) (fun _ => trivial) _)
      fun a _ => hwrap a
  cases c with
  | connect | disconnect | setGiveUpSignal =>
      exact hresult (Client.noThrow_call _ (Impl.noThrow_catching _)) fun _ => trivial
  | checkConnected | isHealthy =>
      exact hresult (Client.noThrow_call _ (Impl.noThrow_query _ _)) fun _ => trivial
  | checkLifeState =>
      -- a load alone: there is no handler here, and none is needed
      refine hresult (Client.noThrow_call _ ?_) fun _ => trivial
      exact Proc.composed_noThrow.bind (Impl.noThrow_perform (.load .lifeState)) fun life =>
        Proc.composed_noThrow.pure _
  | batchRead nodes =>
      -- the handler answers for every node too, so the length holds on both ways out
      exact hreply (Client.noThrow_call _ (Impl.noThrow_catchingBatch _))
        (Client.yields_call (Impl.yields_catchingBatch (Impl.yields_batchRead nodes))
          fun _ => trivial) fun _ h => h
  | batchWrite nodes =>
      exact hreply (Client.noThrow_call _ (Impl.noThrow_catchingBatch _))
        (Client.yields_call (Impl.yields_catchingBatch (Impl.yields_batchWrite nodes))
          fun _ => trivial) fun _ h => h
  | recreateGiveUpClient => exact hresult Client.noThrow_recreateGiveUpClient fun _ => trivial
  | shutdown => exact hresult Client.noThrow_shutdown fun _ => trivial
  | destructor => exact hresult Client.noThrow_destructor fun _ => trivial
  | watchdog i => exact hc.elim

/-- So a thread returns a reply to each of its calls. -/
theorem returns_runAll {cs : List ClientCall} (hcs : ∀ c ∈ cs, c.IsPublic) :
    Prog.Returns (runAll cs) fun r =>
      ∃ replies, r = .ok replies ∧ List.Forall₂ Answers cs replies := by
  induction cs with
  | nil => exact ⟨[], rfl, .nil⟩
  | cons c cs ih =>
      obtain ⟨hc, hrest⟩ := List.forall_mem_cons.mp hcs
      refine Prog.returns_bind.mpr ((returns_run hc).mono ?_)
      rintro _ ⟨reply, rfl, hreply⟩
      refine Prog.returns_bind.mpr ((ih hrest).mono ?_)
      rintro _ ⟨replies, rfl, hreplies⟩
      exact ⟨reply :: replies, rfl, .cons hreply hreplies⟩

end ClientCall

/-! ### Runs -/

variable {calls : Tid → List ClientCall} {w : ClientState} {c : ClientPool} {t : Tid}
  {a : Except Exn (List ClientReply)}

/-- In every run, whatever throws in it, a thread whose calls have ended has a reply to each. -/
theorem calls_return (hpublic : ∀ call ∈ calls t, call.IsPublic)
    (hc : ClientPool.Reach (.start calls w) c) (ha : c.Returned t a) :
    ∃ replies, a = .ok replies ∧ List.Forall₂ ClientCall.Answers (calls t) replies := by
  have hreturns := hc.returns (t := t) (ClientCall.returns_runAll hpublic)
  rw [show c.pool t = .ret a from ha] at hreturns
  exact hreturns

/-- What thread `t` is answered when every call of the SDK throws. -/
def Environment.clientThrows (env : Environment) (t : Tid) : Oracle ClientSig ClientState
  | .impl _ (.sdkReturn _ _), _ => .error .other
  | o, s => env.clientAnswer t o s

/-- A thread checks the connection, and then whether the client is healthy. -/
def checksOnThrow : Option ClientPool :=
  ClientPool.run [[.checkConnected, .isHealthy]] .connected
    (List.replicate 25 (0, ({} : Environment).clientThrows 0))

/-- The exception that ends the first check is its reply. -/
theorem calls_return_exception :
    ∃ c : ClientPool, ∃ a, c.Returned 0 a ∧
      (∃ replies, a = .ok replies ∧
        List.Forall₂ ClientCall.Answers [.checkConnected, .isHealthy] replies) ∧
      a = .ok [.result (.error ⟨.unknown, "Unknown error"⟩), .result (.ok ())] := by
  have hplay : checksOnThrow.any (fun d => d.result? 0 ==
      some (.ok [.result (.error ⟨.unknown, "Unknown error"⟩), .result (.ok ())])) = true := by
    decide
  obtain ⟨d, -, hd, hret⟩ := Config.exists_reach_of_play hplay
  have hreturned := Config.returned_of_result? (beq_iff_eq.mp hret)
  refine ⟨d, _, hreturned, calls_return ?_ hd hreturned, rfl⟩
  exact List.forall_mem_cons.mpr ⟨trivial, List.forall_mem_cons.mpr ⟨trivial,
    fun _ h => absurd h List.not_mem_nil⟩⟩

end OPCUAPacking
