import OPCUAPacking.Impl.Backoff
import Mathlib.Data.Nat.Find

/-!
# What a read is answered

The SDK and its clock, as `batchRead` meets them when nobody else changes the client.

* `ReadScript` — the responses and the readings of the clock; `ReadScript.reference` is the result
  and the requests that follow from them.
* `ImplState.Serves` — the client is healthy, RUNNING and idle.
* `Undisturbed`, `Answers` — nobody else changes that, and the answers are those of a script.
* `ReadScript.execution` — every script is that of an execution.
-/

namespace OPCUAPacking

open Interleaving

/-! ### The reference -/

/-- The identifier is refused: an empty string, or one with an embedded NUL. -/
def NodeId.rejected (node : NodeId) : Bool :=
  match node.id with
  | .string s => s.isEmpty || containsEmbeddedNul s
  | .numeric _ => false

/-- The checks refuse exactly these. -/
theorem NodeId.validate_of_rejected {node : NodeId} (h : node.rejected = true) :
    ∃ text, node.validate = .error ⟨.invalidArgument, text⟩ := by
  unfold validate
  unfold rejected at h
  cases hid : node.id with
  | numeric n =>
      rw [hid] at h
      cases h
  | string s =>
      rw [hid] at h
      dsimp only at h ⊢
      split
      · exact ⟨_, rfl⟩
      · next hempty =>
        rw [Bool.or_eq_true] at h
        rw [if_pos (h.resolve_left hempty)]
        exact ⟨_, rfl⟩

theorem NodeId.validate_of_not_rejected {node : NodeId} (h : node.rejected = false) :
    node.validate = .ok () := by
  unfold validate
  unfold rejected at h
  cases hid : node.id with
  | numeric n => rfl
  | string s =>
      rw [hid] at h
      obtain ⟨hempty, hnul⟩ := Bool.or_eq_false_iff.mp h
      simp [hempty, hnul]

/-- The item of a read request for a node. -/
def ReadValue.item (v : ReadValue) : UA_ReadValueId := ⟨⟨v.node.ns, v.node.id⟩, attributeIdValue⟩

/-- What the SDK and its clock answer a `batchRead`. -/
structure ReadScript where
  /-- The responses to its attempts. -/
  responses : Nat → UA_ReadResponse
  /-- The readings of the clock: one at the start, then one before each attempt. -/
  clock : Nat → Int

namespace ReadScript

variable (S : ReadScript) (config : ClientConfig)

/-- The time that has passed before an attempt. -/
def elapsed (i : Nat) : Int := S.clock (i + 1) - S.clock 0

/-- The time budget is exceeded before an attempt. -/
def OverBudget (i : Nat) : Prop := S.elapsed i > config.maxTotalWaitMs.toNat

instance (i : Nat) : Decidable (S.OverBudget config i) := inferInstanceAs (Decidable (_ > _))

/-- There is nothing after this attempt. -/
def Stops (i : Nat) : Prop :=
  S.OverBudget config i ∨ Impl.isRetryable (S.responses i).serviceResult = false ∨
    i = config.maxRetries.toNat

instance (i : Nat) : Decidable (S.Stops config i) := inferInstanceAs (Decidable (_ ∨ _ ∨ _))

theorem exists_stops : ∃ i, S.Stops config i := ⟨config.maxRetries.toNat, .inr (.inr rfl)⟩

/-- The first attempt that stops the read. -/
def stop : Nat := Nat.find (S.exists_stops config)

/-- The number of attempts that reach the SDK. -/
def attempts : Nat :=
  if S.OverBudget config (S.stop config) then S.stop config else S.stop config + 1

/-- What a response that is not to be retried gives. -/
def decode (nodes : List ReadValue) (response : UA_ReadResponse) :
    Result (List ReadResult) ErrorCode :=
  match response.results with
  | .null _ => .error .serviceFailed
  | .data items =>
      if response.serviceResult.isGood = true ∧ items.length = nodes.length then
        .ok (List.zipWith Impl.decodeRead nodes items)
      else .error .serviceFailed

/-- The result of a read whose nodes are accepted. -/
def outcome (nodes : List ReadValue) : Result (List ReadResult) ErrorCode :=
  if S.OverBudget config (S.stop config) then .error .budgetExceeded
  else if Impl.isRetryable (S.responses (S.stop config)).serviceResult = true then
    .error .serviceRetryExhausted
  else decode nodes (S.responses (S.stop config))

/-- The result of a read, and the requests that it sends. -/
def reference (nodes : List ReadValue) :
    Result (List ReadResult) ErrorCode × List (List UA_ReadValueId) :=
  if nodes.any (·.node.rejected) then (.error .invalidArgument, [])
  else (S.outcome config nodes, List.replicate (S.attempts config) (nodes.map ReadValue.item))

variable {S config}

/-- The first attempt that stops the read. -/
theorem stop_eq {k : Nat} (hstops : S.Stops config k) (hfirst : ∀ i < k, ¬S.Stops config i) :
    S.stop config = k :=
  (Nat.find_eq_iff _).mpr ⟨hstops, hfirst⟩

end ReadScript

/-! ### The setting -/

/-- The client is healthy, RUNNING and idle. -/
structure ImplState.Serves (client : Handle) (s : ImplState) : Prop where
  open_eq : s.shutdown = false
  impl_eq : s.impl = some client
  running : s.lifeState = .running
  idle : s.connState = .idle
  lost_eq : s.connectionLost = false
  ready : (unpackState s.statePacked).triple.isReady = true

/-- The clock of the SDK is read. -/
def isNow (e : Event ImplSig) : Bool :=
  match e.op with
  | .nowMs => true
  | _ => false

/-- The SDK returns from a read. -/
def isReadReturn (e : Event ImplSig) : Bool :=
  match e.op with
  | .sdkReturn _ (.serviceRead _) => true
  | _ => false

/-- The request of a read that begins. -/
def requestOf (e : Event ImplSig) : Option (List UA_ReadValueId) :=
  match e.op with
  | .sdkCall _ (.serviceRead request) => some request
  | _ => none

/-- What may be answered after the operations `es`: the script, allocations that succeed, and no
callbacks. -/
def ReadScript.Allows (S : ReadScript) (es : History) : (o : ImplOp) → o.Resp → Prop
  | .nowMs, now => now = .ok (S.clock (es.countP isNow))
  | .sdkReturn _ (.serviceRead _), response =>
      response = .ok (S.responses (es.countP isReadReturn))
  | .sdkCall _ _, callbacks => callbacks = []
  | .alloc, allocated => allocated = true
  | .reserve, r => r = .ok ()
  | _, _ => True

namespace ImplExecution

variable {c : ImplPool} (E : ImplExecution c) (t : Tid)

/-- The requests of the reads that thread `t` has begun, newest first. -/
def requests (n : Nat) : List (List UA_ReadValueId) := (E.ops t n).filterMap requestOf

/-- Thread `t` is answered by the script. -/
def Answers (S : ReadScript) : Prop :=
  ∀ n o r, E.label n = .perform ⟨t, o, r⟩ → S.Allows (E.ops t n) o r

/-- The other threads leave the client as it is. -/
def Undisturbed (client : Handle) : Prop :=
  ∀ n, (∀ o r, E.label n ≠ .perform ⟨t, o, r⟩) → (E.config n).state.world.Serves client →
    (E.config (n + 1)).state.world.Serves client

end ImplExecution

/-- The setting of a read: the other threads make calls that leave the client as it is, the script
answers, and a wait that goes on for ever is ended by the time again and again. -/
structure Scripted {c : ImplPool} (E : ImplExecution c) (t : Tid) (client : Handle)
    (S : ReadScript) : Prop where
  calls : c.OfCalls
  undisturbed : E.Undisturbed t client
  answers : E.Answers t S
  waits : E.Recurs t isWait isExpiry

/-! ### The execution of a script -/

/-- An operation that ends whenever it is asked for, unless it asks for a mutex. -/
def ImplOp.Answered : ImplOp → Prop
  | .watchdogJoin | .watchdogBegin => False
  | _ => True

/-- A read asks for nothing else. -/
theorem Impl.uses_batchRead (nodes : List ReadValue) :
    Impl.Uses ImplOp.Answered _ (Impl.batchRead nodes) := by
  have hK : @Proc.Closed ImplSig Exn (Impl.Uses ImplOp.Answered) :=
    @Proc.closed_uses ImplSig Exn ImplOp.Answered
  have hquiet : ∀ o : ImplOp, o.Quiet → Impl.Uses ImplOp.Answered _ (perform o) := fun o ho =>
    Impl.uses_perform (by cases o <;> trivial)
  have hlife : ∀ o : ImplOp, o.LifeWrite → Impl.Uses ImplOp.Answered _ (perform o) := fun o ho =>
    Impl.uses_perform (by cases o <;> trivial)
  have hword : ∀ o : ImplOp, o.WordWrite → Impl.Uses ImplOp.Answered _ (perform o) := fun o ho =>
    Impl.uses_perform (by cases o <;> trivial)
  have hcallback := closed_runCallback hK hquiet hlife hword
  have hblocks := Impl.blocks_of_ops hK hquiet hlife hcallback
    (Impl.closed_probe hK hquiet hlife hword)
  have hbusy := (hblocks.connecting hK fun o ho => Impl.uses_perform
    (by cases o <;> trivial)).busy hK (Impl.uses_perform trivial)
    (Impl.uses_perform trivial)
  exact hbusy.batchRead (Impl.uses_perform trivial) (fun client request => hbusy.withLock _
    (Impl.closed_sdk hK hcallback (Impl.uses_perform trivial) (Impl.uses_perform trivial))) nodes

/-- The mutexes that thread `t` holds, judging by what it has done, are its own, and the others are
free. -/
def ImplState.OwnedBy (t : Tid) (es : History) (s : ImplState) : Prop :=
  ∀ m, (s.owner m = none ∧ es.countP (locks m) = es.countP (unlocks m)) ∨
    (s.owner m = some t ∧ es.countP (locks m) = es.countP (unlocks m) + 1)

namespace ImplState

variable {t : Tid} {o : ImplOp} {r : o.Resp} {s s' : ImplState} {es : History}

@[simp]
theorem owner_set (s : ImplState) (a : Atomic) (v : a.Val) (m : Mutex) :
    (s.set a v).owner m = s.owner m := by
  cases a <;> cases m <;> rfl

@[simp]
theorem owner_setOwner (s : ImplState) (u : Option Tid) (m m' : Mutex) :
    (s.setOwner u m).owner m' = if m = m' then u else s.owner m' := by
  cases m <;> cases m' <;> rfl

/-- An operation on no mutex changes no owner. -/
theorem owner_of_exec (h : exec t o r s = some s') (hlock : ∀ m, o ≠ .lock m)
    (hunlock : ∀ m, o ≠ .unlock m) (m : Mutex) : s'.owner m = s.owner m := by
  cases o with
  | lock m' => exact absurd rfl (hlock m')
  | unlock m' => exact absurd rfl (hunlock m')
  | store b v =>
      cases h
      exact owner_set s b v m
  | casWeak b e d | casStrong b e d =>
      rcases cas_eq_some.mp h with ⟨-, -, rfl⟩ | ⟨-, -, rfl⟩
      · exact owner_set s b d m
      · rfl
  | watchdogCreate => rcases r with _ | _ <;> cases h <;> cases m <;> rfl
  | watchdogEnd =>
      simp only [exec, Option.some.injEq] at h
      subst h
      split <;> cases m <;> rfl
  | _ =>
      simp only [exec, whenever_eq_some, Option.some.injEq] at h
      obtain ⟨-, rfl⟩ := h
      cases m <;> rfl

/-- An operation of the only thread that moves. -/
theorem OwnedBy.step (hs : s.OwnedBy t es) (h : exec t o r s = some s') :
    s'.OwnedBy t (⟨t, o, r⟩ :: es) := by
  intro m
  cases o with
  | lock m' =>
      -- a mutex is taken when it is free, so its locks and unlocks are even then
      obtain ⟨hfree, rfl⟩ := whenever_eq_some.mp h
      rcases hs m with ⟨howner, hcount⟩ | ⟨howner, hcount⟩
      · by_cases hm : m' = m
        · right
          simp [locks, unlocks, hm, hcount]
        · left
          simp [locks, unlocks, hm, howner, hcount]
      · have hm : m' ≠ m := by
          rintro rfl
          cases hfree.symm.trans howner
        right
        simp [locks, unlocks, hm, howner, hcount]
  | unlock m' =>
      obtain ⟨hmine, rfl⟩ := whenever_eq_some.mp h
      rcases hs m with ⟨howner, hcount⟩ | ⟨howner, hcount⟩
      · have hm : m' ≠ m := by
          rintro rfl
          cases hmine.symm.trans howner
        left
        simp [locks, unlocks, hm, howner, hcount]
      · by_cases hm : m' = m
        · left
          simp [locks, unlocks, hm, hcount]
        · right
          simp [locks, unlocks, hm, howner, hcount]
  | _ =>
      rw [owner_of_exec h (by rintro _ ⟨⟩) (by rintro _ ⟨⟩)]
      exact hs m

end ImplState

namespace ReadScript

variable (S : ReadScript) (t : Tid)

/-- What a thread is answered: the script, and otherwise what a silent environment answers. -/
def answer : Oracle ImplSig (Traced ImplSig ImplState)
  | .nowMs, s => .ok (S.clock (s.history.countP isNow))
  | .sdkReturn _ (.serviceRead _), s => .ok (S.responses (s.history.countP isReadReturn))
  | o, s => Environment.answer {} t o s.world

/-- The execution in which thread `t` is answered by the script, and nobody else moves. -/
abbrev execution (c : ImplPool) : ImplExecution c := .answering ImplState.exec (S.answer t) t c

/-- The script allows its answers. -/
theorem allows_answer (s : Traced ImplSig ImplState) (o : ImplOp) :
    S.Allows s.history o (S.answer t o s) := by
  cases o with
  | sdkReturn client c => cases c <;> first | rfl | trivial
  | _ => first | rfl | trivial

/-- The operations can end with these answers, mutexes apart. -/
theorem exec_answer {o : ImplOp} (ho : o.Answered) (s : Traced ImplSig ImplState)
    (hlock : ∀ m, o = .lock m → s.world.owner m = none)
    (hunlock : ∀ m, o = .unlock m → s.world.owner m = some t) :
    ImplState.exec t o (S.answer t o s) s.world ≠ none := by
  cases o with
  | lock m => simp [ImplState.exec, ImplState.whenever, hlock m rfl]
  | unlock m => simp [ImplState.exec, ImplState.whenever, hunlock m rfl]
  | casWeak a e d | casStrong a e d =>
      by_cases h : s.world.get a = e <;>
        simp [ImplState.exec, answer, Environment.answer, ImplState.cas, ImplState.whenever, h]
  | watchdogJoin | watchdogBegin => exact ho.elim
  | _ => simp [ImplState.exec, answer, Environment.answer, ImplState.whenever]

section Execution

variable {calls : Tid → Option ImplCall} {s : ImplState}

/-- The answers are those of the script. -/
theorem answers_execution : (S.execution t (ImplPool.start calls s)).Answers t S := by
  intro n o r hl
  have hhistory : ((S.execution t (ImplPool.start calls s)).config n).state.history =
      (S.execution t (ImplPool.start calls s)).ops t n := Execution.history_answering rfl n
  obtain ⟨-, rfl⟩ := Execution.answering_perform hl
  rw [← hhistory]
  exact S.allows_answer t _ o

/-- Nobody disturbs it. -/
theorem undisturbed_execution (client : Handle) :
    (S.execution t (ImplPool.start calls s)).Undisturbed t client := by
  intro n hl hserves
  rw [Execution.state_answering hl]
  exact hserves

/-- Every wait is ended by the time. -/
theorem waits_execution :
    (S.execution t (ImplPool.start calls s)).Recurs t isWait isExpiry := by
  intro hmany k
  obtain ⟨n, hn⟩ := hmany k
  refine ⟨n, hn.trans ?_⟩
  refine Execution.answering_invariant
    (P := fun _ es => es.countP isWait ≤ es.countP isExpiry) (Nat.le_refl 0) ?_ n
  intro o s s' es hle _
  rw [List.countP_cons, List.countP_cons]
  refine Nat.add_le_add hle ?_
  cases o <;> exact Nat.le_refl _

/-- The thread owns the mutexes that it holds. -/
theorem ownedBy_execution (hfree : ∀ m, s.owner m = none) (n : Nat) :
    ((S.execution t (ImplPool.start calls s)).config n).state.world.OwnedBy t
      ((S.execution t (ImplPool.start calls s)).ops t n) :=
  Execution.answering_invariant (P := fun s es => ImplState.OwnedBy t es s.world)
    (fun m => .inl ⟨hfree m, rfl⟩) (fun _ _ _ _ hs h => hs.step h.exec_eq) n

/-- A reading thread is scheduled. -/
theorem scheduledIf_execution {nodes : List ReadValue} (hcall : calls t = some (.batchRead nodes))
    (hfree : ∀ m, s.owner m = none) :
    (S.execution t (ImplPool.start calls s)).ScheduledIf t Impl.grantable := by
  have huses : ((ImplPool.start calls s).pool t).Uses ImplOp.Answered := by
    have hK := @Proc.closed_uses ImplSig Exn ImplOp.Answered
    change (ImplCall.thread (calls t)).Uses _
    rw [hcall]
    exact hK.bind (Impl.uses_batchRead nodes) fun _ => hK.pure _
  refine Execution.scheduledIf_answering fun n o k hp hready => ?_
  have ho : ImplOp.Answered o := by
    have hprog := ((S.execution t (ImplPool.start calls s)).reach n).uses_thread huses
    rw [hp] at hprog
    exact hprog.1
  have howned : ((S.execution t (ImplPool.start calls s)).config n).state.world.OwnedBy t
      ((S.execution t (ImplPool.start calls s)).ops t n) := S.ownedBy_execution t hfree n
  refine S.exec_answer t ho _ ?_ ?_
  · rintro m rfl
    rcases howned m with ⟨howner, -⟩ | ⟨-, hcount⟩
    · exact howner
    · exact absurd (hready.symm.trans hcount) (Nat.ne_of_lt (Nat.lt_succ_self _))
  · rintro m rfl
    rcases howned m with ⟨-, hcount⟩ | ⟨howner, -⟩
    · exact absurd (hcount.symm.trans hready) (Nat.ne_of_lt (Nat.lt_succ_self _))
    · exact howner

end Execution

end ReadScript

end OPCUAPacking
