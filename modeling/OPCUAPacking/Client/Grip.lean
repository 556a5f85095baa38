import OPCUAPacking.Client.Members
import OPCUAPacking.Client.Outcomes
import OPCUAPacking.Interleaving.Census
import OPCUAPacking.Interleaving.Handlers

/-!
# What a thread has in its grip

The pointers, the clients and the duties that a thread has, which its own operations change and
those of the others do not.

* `Grip` — the `shared_ptr`s that a thread holds, a client on its way from one owner to the next,
  the destructor that it runs, and the watchdog that it is or has to join.
* `Grip.Allows` — a thread drops what it holds, hands on what it has, and runs functions only on an
  `Impl` that it holds or destroys.
* `Client.grip_runAll` — the public functions and the watchdog threads keep to this, and a thread
  that ends its calls without an exception has nothing in its grip.
-/

namespace OPCUAPacking

open Interleaving

/-- The `Impl` that a thread has to shut down. -/
inductive Charge where
  | none
  /-- One that it has constructed, and whose watchdog it may start. -/
  | fresh (i : ImplId)
  /-- One whose watchdog it has to join. -/
  | held (i : ImplId)
  /-- One whose watchdog is joined, and whose stop flag it has to set. -/
  | joined (i : ImplId)
  deriving DecidableEq

namespace Charge

/-- The `Impl`. -/
def impl? : Charge → Option ImplId
  | .none => Option.none
  | .fresh i | .held i | .joined i => some i

/-- The watchdog of `Impl` number `i` may not be started any more. -/
def start (i : ImplId) (c : Charge) : Charge := if c = .fresh i then .held i else c

/-- It is joined, or there is none. -/
def settle (i : ImplId) (c : Charge) : Charge := if c = .held i then .joined i else c

/-- The stop flag is set. -/
def finish (i : ImplId) (c : Charge) : Charge := if c = .joined i then .none else c

end Charge

/-- How far a thread is with the destructor of an `Impl`. -/
inductive Ending where
  | none
  /-- It has dropped the last pointer. -/
  | begun (i : ImplId)
  /-- It has released the client. -/
  | emptied (i : ImplId)
  deriving DecidableEq

/-- The `Impl` that is destroyed. -/
def Ending.impl? : Ending → Option ImplId
  | .none => Option.none
  | .begun i | .emptied i => some i

/-- What a thread has in its grip. -/
structure Grip where
  /-- The `shared_ptr`s that it holds. -/
  owns : List ImplId := []
  /-- A client that no `Impl` has. -/
  raw : Option Handle := none
  ending : Ending := .none
  charge : Charge := .none
  /-- The `Impl` whose watchdog thread it is, until it holds a pointer to it. -/
  early : Option ImplId := none
  /-- The `Impl` whose watchdog thread it has found itself to be. -/
  self : Option ImplId := none
  deriving DecidableEq

namespace Grip

/-- One more `shared_ptr`. -/
def hold (ℓ : Grip) (i : ImplId) : Grip := { ℓ with owns := i :: ℓ.owns }

/-- One `shared_ptr` less. -/
def letGo (ℓ : Grip) (i : ImplId) : Grip := { ℓ with owns := ℓ.owns.erase i }

/-- The `Impl` is there as long as the thread has it in its grip. -/
def Reaches (ℓ : Grip) (i : ImplId) : Prop :=
  i ∈ ℓ.owns ∨ ℓ.ending.impl? = some i ∨ ℓ.early = some i

/-- The thread is in the middle of shutting the `Impl` down. -/
def Stops (ℓ : Grip) (i : ImplId) : Prop :=
  ℓ.charge = .held i ∨ ℓ.ending = .begun i ∧ ℓ.charge = .none

instance (ℓ : Grip) (i : ImplId) : Decidable (ℓ.Stops i) := inferInstanceAs (Decidable (_ ∨ _))

/-- How an operation of an `Impl` changes what the thread has in its grip. -/
def trackImpl (ℓ : Grip) (i : ImplId) : (o : ImplOp) → o.Resp → Grip
  | .watchdogCreate, _ => { ℓ with charge := ℓ.charge.start i }
  | .watchdogJoinable, false => { ℓ with charge := ℓ.charge.settle i }
  | .watchdogIsSelf, true => if ℓ.Stops i then { ℓ with self := some i } else ℓ
  | .watchdogJoin, _ => { ℓ with charge := ℓ.charge.settle i }
  | .watchdogDetach, _ => { ℓ with charge := ℓ.charge.settle i, self := none }
  | .store .stop _, _ => { ℓ with charge := ℓ.charge.finish i }
  | .resetImpl, client => { ℓ with raw := client, ending := .emptied i }
  | .unlock .lock, _ => if ℓ.ending = .emptied i then { ℓ with ending := .none } else ℓ
  | .watchdogBegin, _ => { ℓ with early := some i }
  | _, _ => ℓ

/-- How an operation changes it. -/
def track (_ : ClientHistory) (ℓ : Grip) : (o : ClientOp) → o.Resp → Grip
  | .pImplCopy, some i => ℓ.hold i
  | .pImplTake, some i => { ℓ.hold i with charge := .held i }
  | .pImplAdopt _, .replaced (some i) => { ℓ.hold i with charge := .held i }
  | .pImplAdopt _, .replaced none => { ℓ with charge := .none }
  | .implConstruct _ _, i => { ℓ.hold i with raw := none, charge := .fresh i }
  | .retain i, _ => ℓ.hold i
  | .lockSelf i, true => { ℓ.hold i with early := none }
  | .release i, true => { ℓ.letGo i with ending := .begun i }
  | .release i, false => ℓ.letGo i
  | .clientNew, .ok (some client) => { ℓ with raw := some client }
  | .clientDelete _, _ => { ℓ with raw := none }
  | .shutdownBegin i _, _ => { ℓ with charge := ℓ.charge.start i }
  | .impl i o, r => ℓ.trackImpl i o r
  | _, _ => ℓ

/-- What a thread may do with an `Impl`. -/
def AllowsImpl (ℓ : Grip) (i : ImplId) : (o : ImplOp) → o.Resp → Prop
  | .watchdogBegin, _ => ℓ.early = none
  | .watchdogEnd, _ => ℓ.early = none ∧ ℓ.self = none
  | .watchdogCreate, _ => ℓ.charge = .fresh i ∧ ℓ.Reaches i
  | .watchdogDetach, _ => ℓ.self = some i ∧ ℓ.early = none ∧ ℓ.Reaches i
  | .store .stop v, _ => v = true ∧ ℓ.Reaches i
  | .casWeak .stop _ _, _ | .casStrong .stop _ _, _ => False
  | .writeConfig _, _ | .store .lifeState _, _ => ℓ.charge = .fresh i ∧ ℓ.Reaches i
  | .casWeak .lifeState e _, _ | .casStrong .lifeState e _, _ => e ≠ .givenUp ∧ ℓ.Reaches i
  | .resetImpl, _ => ℓ.raw = none ∧ ℓ.ending = .begun i
  | _, _ => ℓ.Reaches i

/-- What a thread may do. -/
def Allows (ℓ : Grip) : (o : ClientOp) → o.Resp → Prop
  | .pImplTake, _ => ℓ.charge = .none
  | .pImplAdopt candidate, _ => ℓ.charge.impl? = some candidate ∧ candidate ∈ ℓ.owns
  | .retain i, _ => i ∈ ℓ.owns
  | .lockSelf i, _ => ℓ.early = some i
  | .release i, _ => i ∈ ℓ.owns ∧ ℓ.raw = none ∧ ℓ.ending = .none ∧ ℓ.charge = .none
  | .clientNew, _ => ℓ.raw = none
  | .clientDelete client, _ => ℓ.raw = some client
  | .implConstruct _ client, _ => ℓ.raw = some client ∧ ℓ.charge = .none
  | .impl i o, r => ℓ.AllowsImpl i o r
  | _, _ => True

@[simp]
theorem hold_letGo (ℓ : Grip) (i : ImplId) : (ℓ.hold i).letGo i = ℓ := by
  simp [hold, letGo]

end Grip

/-- What thread `t` has in its grip after a history. -/
def grip (t : Tid) (h : ClientHistory) : Grip := Event.stage Grip.track {} t h

/-- The protocol of the grips. -/
abbrev gripProtocol : Protocol ClientSig (Traced ClientSig ClientState) Grip :=
  Protocol.recorded ClientState.exec Grip.Allows Grip.track fun _ => {}

/-- The operation leaves what a thread has in its grip, and is always allowed. -/
def ClientOp.Harmless : ClientOp → Prop
  | .leaseAcquire | .leaseRelease | .recreateEnter | .recreateDrain _ => True
  | .guardConstruct | .guardReset | .guardDestroy => True
  | .shutdownEnter | .shutdownLeave | .terminate | .destructorWait => True
  | .pImplLifeState | .pImplConfig | .pImplExists | .allocate => True
  | _ => False

theorem ClientOp.Harmless.keeps {o : ClientOp} (h : o.Harmless) (es : ClientHistory) (ℓ : Grip)
    (r : o.Resp) : ℓ.Allows o r ∧ ℓ.track es o r = ℓ := by
  cases o <;> first | exact ⟨trivial, rfl⟩ | exact h.elim

/-- The thread is in the middle of a call on the `Impl`. -/
def Grip.Visits (ℓ : Grip) (i : ImplId) : Prop :=
  (i ∈ ℓ.owns ∨ ℓ.early = some i) ∧ ℓ.ending = .none ∧ ℓ.charge ≠ .held i

theorem Grip.Visits.reaches {ℓ : Grip} {i : ImplId} (h : ℓ.Visits i) : ℓ.Reaches i :=
  h.1.imp_right .inr

/-- The thread has no duty. -/
def Grip.IsIdle (ℓ : Grip) : Prop :=
  ℓ.raw = none ∧ ℓ.ending = .none ∧ ℓ.charge = .none ∧ ℓ.early = none ∧ ℓ.self = none

namespace ImplOp

variable {o : ImplOp} {ℓ : Grip} {i : ImplId}

/-- In the middle of a call, the calm operations change nothing in the grip. -/
theorem Calm.keeps (ho : o.Calm) (hℓ : ℓ.Visits i) (r : o.Resp) :
    ℓ.AllowsImpl i o r ∧ ℓ.trackImpl i o r = ℓ := by
  have hreach := hℓ.reaches
  obtain ⟨-, hending, hcharge⟩ := hℓ
  cases o with
  | store a v => cases a <;> first | exact ⟨hreach, rfl⟩ | exact ho.elim
  | casWeak a e d | casStrong a e d =>
      cases a <;> first | exact ⟨hreach, rfl⟩ | exact ⟨⟨ho, hreach⟩, rfl⟩ | exact ho.elim
  | unlock m => cases m <;> simp [Grip.AllowsImpl, Grip.trackImpl, hreach, hending]
  | watchdogJoinable =>
      cases r <;> simp [Grip.AllowsImpl, Grip.trackImpl, Charge.settle, hreach, hcharge]
  | watchdogIsSelf =>
      cases r <;> simp [Grip.AllowsImpl, Grip.trackImpl, Grip.Stops, hreach, hcharge, hending]
  | _ => first | exact ⟨hreach, rfl⟩ | exact ho.elim

/-- The calm operations that do not look at the watchdog thread. -/
def Bland (o : ImplOp) : Prop := o.Calm ∧ o ≠ .watchdogJoinable ∧ o ≠ .watchdogIsSelf

/-- They change nothing while a thread shuts the `Impl` down, either. -/
theorem Bland.keeps (ho : o.Bland) (hreach : ℓ.Reaches i) (hending : ℓ.ending ≠ .emptied i)
    (r : o.Resp) : ℓ.AllowsImpl i o r ∧ ℓ.trackImpl i o r = ℓ := by
  obtain ⟨ho, hjoinable, hself⟩ := ho
  cases o with
  | store a v => cases a <;> first | exact ⟨hreach, rfl⟩ | exact ho.elim
  | casWeak a e d | casStrong a e d =>
      cases a <;> first | exact ⟨hreach, rfl⟩ | exact ⟨⟨ho, hreach⟩, rfl⟩ | exact ho.elim
  | unlock m => cases m <;> simp [Grip.AllowsImpl, Grip.trackImpl, hreach, hending]
  | watchdogJoinable => exact absurd rfl hjoinable
  | watchdogIsSelf => exact absurd rfl hself
  | _ => first | exact ⟨hreach, rfl⟩ | exact ho.elim

end ImplOp

namespace Impl

/-- `signalShutdown` does not look at the watchdog. -/
theorem bland_signalShutdown : Uses ImplOp.Bland _ signalShutdown := by
  have hK := @Proc.closed_uses ImplSig Exn ImplOp.Bland
  have hop : ∀ {o : ImplOp}, o.Calm → o ≠ .watchdogJoinable → o ≠ .watchdogIsSelf →
      Uses ImplOp.Bland _ (perform o) := fun ho hj hs => uses_perform ⟨ho, hj, hs⟩
  refine hK.bind (hK.bind (hop (o := .lock .lock) trivial (by rintro ⟨⟩) (by rintro ⟨⟩)) fun _ =>
    hK.ensuring (hop (o := .unlock .lock) trivial (by rintro ⟨⟩) (by rintro ⟨⟩)) ?_)
    fun _ => hK.when ?_
  · refine hK.bind (hop (o := .load .shutdown) trivial (by rintro ⟨⟩) (by rintro ⟨⟩)) fun _ => ?_
    split_ifs
    · exact hK.pure true
    refine hK.bind (hop (o := .store .running false) trivial (by rintro ⟨⟩) (by rintro ⟨⟩))
      fun _ => ?_
    exact hK.bind (hop (o := .store .shutdown true) trivial (by rintro ⟨⟩) (by rintro ⟨⟩))
      fun _ => hK.pure false
  · exact hK.bind (hop (o := .load .stop) trivial (by rintro ⟨⟩) (by rintro ⟨⟩)) fun _ => hK.pure ()

/-- Nor does the drain. -/
theorem bland_drain : Uses ImplOp.Bland _ drain := by
  have hK := @Proc.closed_uses ImplSig Exn ImplOp.Bland
  refine hK.bind (uses_perform (o := .readConfig) ⟨trivial, by rintro ⟨⟩, by rintro ⟨⟩⟩)
    fun config => ?_
  exact uses_perform ⟨trivial, by rintro ⟨⟩, by rintro ⟨⟩⟩

theorem noThrow_drain : Proc.NoThrow drain :=
  Proc.composed_noThrow.bind (noThrow_perform .readConfig) fun _ => noThrow_perform (.taskWait _)

end Impl

namespace Client

variable {α β : Type} {t : Tid} {ℓ m : Grip} {i : ImplId}

/-! ### Rules -/

/-- A program that cannot throw, then the rest. -/
theorem grip_seq {p : Client α} {f : α → Client β} {Q : Except Exn β → Grip → Prop}
    (hp : gripProtocol.Follows t p (fun _ ℓ' => ℓ' = m) ℓ) (hn : Proc.NoThrow p)
    (hf : ∀ a, gripProtocol.Follows t (f a) Q m) :
    gripProtocol.Follows t (p >>= f : Client β) Q ℓ := by
  refine Protocol.Follows.bind_noThrow (fun _ ℓ' => ℓ' = m) (hp.mono fun _ _ h _ _ => h) hn ?_
  rintro a _ rfl
  exact hf a

/-- Such a function of an `Impl`, then the rest of a function of the same. -/
theorem grip_impl_seq {p : Impl α} {f : α → Impl β} {Q : Except Exn β → Grip → Prop}
    (hp : gripProtocol.Follows t (onImpl i p) (fun _ ℓ' => ℓ' = m) ℓ) (hn : Proc.NoThrow p)
    (hf : ∀ a, gripProtocol.Follows t (onImpl i (f a)) Q m) :
    gripProtocol.Follows t (onImpl i (p >>= f : Impl β)) Q ℓ := by
  rw [show onImpl i (p >>= f : Impl β) = onImpl i p >>= fun a => onImpl i (f a) from
    Proc.handle_bind _ p f]
  exact grip_seq hp (noThrow_onImpl hn i) hf

/-- One operation of an `Impl`. -/
theorem grip_impl_op {o : ImplOp} (h : ∀ r, ℓ.AllowsImpl i o r ∧ ℓ.trackImpl i o r = m) :
    gripProtocol.Follows t (onImpl i (Impl.perform o)) (fun _ ℓ' => ℓ' = m) ℓ :=
  Protocol.follows_recorded_op fun _ r => h r

/-- One operation of an `Impl`, then the rest of a function of the same. -/
theorem grip_impl_perform {o : ImplOp} {f : o.Resp → Impl β} {Q : Except Exn β → Grip → Prop}
    (h : ∀ r, ℓ.AllowsImpl i o r ∧
      gripProtocol.Follows t (onImpl i (f r)) Q (ℓ.trackImpl i o r)) :
    gripProtocol.Follows t (onImpl i (Impl.perform o >>= f : Impl β)) Q ℓ :=
  Protocol.follows_recorded_op fun _ r => h r

/-- One operation as a statement. -/
theorem grip_op {o : ClientOp} {Q : Except Exn o.Resp → Grip → Prop} (hQ : ∀ r, Q (.ok r) ℓ)
    (ho : o.Harmless := by exact trivial) : gripProtocol.Follows t (perform o) Q ℓ := by
  refine Protocol.follows_recorded_op fun es r => ?_
  obtain ⟨hallows, hsame⟩ := ho.keeps es ℓ r
  rw [hsame]
  exact ⟨hallows, hQ r⟩

/-- A program of an `Impl` whose operations change nothing in the grip. -/
theorem grip_onImpl_of_uses {A : ImplOp → Prop} {p : Impl α}
    (hA : ∀ o, A o → ∀ r, ℓ.AllowsImpl i o r ∧ ℓ.trackImpl i o r = ℓ) (hp : Impl.Uses A α p) :
    gripProtocol.Follows t (onImpl i p) (fun _ ℓ' => ℓ' = ℓ) ℓ := by
  have hp' : Proc.Uses (fun o : ClientOp => ∃ o', o = .impl i o' ∧ A o') (onImpl i p) :=
    @Prog.Uses.handle ImplSig ClientSig (Except Exn α) (fun o => .op (.impl i o) .ret)
      A _ (fun o ho => ⟨⟨o, rfl, ho⟩, fun _ => trivial⟩) p hp
  refine Protocol.keeps_recorded_of_uses (I := (· = ℓ)) ?_ hp' ℓ rfl
  rintro _ ⟨o, rfl, ho⟩ es _ r rfl
  exact hA o ho r

/-- An operation that changes nothing in the grip, then the rest. -/
theorem grip_perform {o : ClientOp} {f : o.Resp → Client β} {Q : Except Exn β → Grip → Prop}
    (hf : ∀ r, gripProtocol.Follows t (f r) Q ℓ) (ho : o.Harmless := by exact trivial) :
    gripProtocol.Follows t (perform o >>= f : Client β) Q ℓ := by
  refine Protocol.follows_recorded_perform fun es r => ?_
  obtain ⟨hallows, hsame⟩ := ho.keeps es ℓ r
  rw [hsame]
  exact ⟨hallows, hf r⟩

/-! ### The functions of an `Impl` -/

/-- The member functions that a client runs change nothing in the grip. -/
theorem grip_member {p : Impl α} (hp : Impl.Uses ImplOp.Calm α p) (hℓ : ℓ.Visits i) :
    gripProtocol.Follows t (onImpl i p) (fun _ ℓ' => ℓ' = ℓ) ℓ :=
  grip_onImpl_of_uses (fun _ ho r => ho.keeps hℓ r) hp

/-- They are calm. -/
theorem members_calm : Impl.Members (Impl.Uses ImplOp.Calm) :=
  Impl.members_of_ops (@Proc.closed_uses ImplSig Exn _) fun _ ho _ => Impl.uses_perform ho

theorem calm_batchWrite (nodes : List WriteValue) :
    Impl.Uses ImplOp.Calm _ (catchingBatch (Impl.batchWrite nodes)) :=
  Impl.batchWrite_of_ops (@Proc.closed_uses ImplSig Exn _) (fun _ ho => Impl.uses_perform ho) nodes

/-- `configureClient` on a candidate. -/
theorem grip_configureClient (hℓ : ℓ.Visits i) (hfresh : ℓ.charge = .fresh i) (useDefault : Bool) :
    gripProtocol.Follows t (onImpl i (Impl.configureClient useDefault)) (fun _ ℓ' => ℓ' = ℓ) ℓ := by
  have hK := @Proc.closed_uses ImplSig Exn fun o => o.Calm ∨ o.Configures
  refine grip_onImpl_of_uses (A := fun o => o.Calm ∨ o.Configures) ?_
    ((Impl.busy_of_ops hK fun o ho _ => Impl.uses_perform (.inl ho)).toPolling.configureClient hK
      (fun o ho => Impl.uses_perform (.inr ho)) useDefault)
  rintro o (ho | ho) r
  · exact ho.keeps hℓ r
  · cases o with
    | writeConfig config => exact ⟨⟨hfresh, hℓ.reaches⟩, rfl⟩
    | store a v =>
        cases a <;>
          first | exact ⟨hℓ.reaches, rfl⟩ | exact ⟨⟨hfresh, hℓ.reaches⟩, rfl⟩ | exact ho.elim
    | _ => exact ho.elim

/-- `startWatchdog` on a candidate. -/
theorem grip_startWatchdog (hℓ : ℓ.Visits i) (hfresh : ℓ.charge = .fresh i) :
    gripProtocol.Follows t (onImpl i Impl.startWatchdog)
      (fun _ ℓ' => ℓ' = ℓ ∨ ℓ' = { ℓ with charge := .held i }) ℓ := by
  have hcalm : ∀ {o : ImplOp}, o.Calm → gripProtocol.Follows t (onImpl i (Impl.perform o))
      (fun _ ℓ' => ℓ' = ℓ) ℓ := fun ho => grip_member (Impl.uses_perform ho) hℓ
  refine grip_impl_seq (hcalm (o := .watchdogJoinable) trivial)
    (Impl.noThrow_perform .watchdogJoinable) fun joinable => ?_
  cases joinable with
  | true => exact .inl rfl
  | false =>
      refine grip_impl_seq (hcalm (o := .store .running true) trivial)
        (Impl.noThrow_perform (.store .running true)) fun _ => ?_
      refine grip_impl_seq (m := { ℓ with charge := .held i }) (grip_impl_op fun r => ?_)
        (Impl.noThrow_perform .watchdogCreate) fun r => ?_
      · refine ⟨⟨hfresh, hℓ.reaches⟩, ?_⟩
        simp [Grip.trackImpl, Charge.start, hfresh]
      · cases r <;> exact .inr rfl

/-- A block of `Impl::shutdown` that does not look at the watchdog. -/
theorem grip_bland {p : Impl α} (hp : Impl.Uses ImplOp.Bland α p) (hreach : ℓ.Reaches i)
    (hending : ℓ.ending ≠ .emptied i) :
    gripProtocol.Follows t (onImpl i p) (fun _ ℓ' => ℓ' = ℓ) ℓ :=
  grip_onImpl_of_uses (fun _ ho r => ho.keeps hreach hending r) hp

/-- `joinWatchdog`. -/
theorem grip_joinWatchdog (hreach : ℓ.Reaches i) (hstops : ℓ.Stops i) (hearly : ℓ.early = none)
    (hself : ℓ.self = none) :
    gripProtocol.Follows t (onImpl i Impl.joinWatchdog)
      (fun _ ℓ' => ℓ' = { ℓ with charge := ℓ.charge.settle i }) ℓ := by
  refine grip_impl_perform fun joinable => ⟨hreach, ?_⟩
  cases joinable with
  | false => exact rfl
  | true =>
      refine grip_impl_perform fun isSelf => ⟨hreach, ?_⟩
      cases isSelf with
      | false => exact grip_impl_op fun _ => ⟨hreach, rfl⟩
      | true =>
          rw [show Grip.trackImpl (ℓ.trackImpl i .watchdogJoinable true) i .watchdogIsSelf true =
            { ℓ with self := some i } from if_pos hstops]
          refine grip_impl_op fun _ => ⟨⟨rfl, hearly, hreach⟩, ?_⟩
          obtain ⟨owns, raw, ending, charge, early, self⟩ := ℓ
          obtain rfl := hself
          rfl

/-- `Impl::shutdown`. -/
theorem grip_implShutdown (hreach : ℓ.Reaches i) (hending : ℓ.ending ≠ .emptied i)
    (hstops : ℓ.Stops i) (hearly : ℓ.early = none) (hself : ℓ.self = none) :
    gripProtocol.Follows t (onImpl i Impl.shutdown)
      (fun _ ℓ' => ℓ' = { ℓ with charge := .none }) ℓ := by
  refine grip_impl_seq (grip_bland Impl.bland_signalShutdown hreach hending)
    Impl.noThrow_signalShutdown fun _ => ?_
  refine grip_impl_seq (grip_joinWatchdog hreach hstops hearly hself) Impl.noThrow_joinWatchdog
    fun _ => ?_
  refine grip_impl_seq (m := { ℓ with charge := .none }) (grip_impl_op fun _ => ?_)
    (Impl.noThrow_perform (.store .stop true)) fun _ => ?_
  · refine ⟨⟨rfl, hreach⟩, ?_⟩
    rcases hstops with hcharge | ⟨-, hcharge⟩ <;>
      simp [Grip.trackImpl, Charge.settle, Charge.finish, hcharge]
  refine grip_impl_seq (grip_bland Impl.bland_drain hreach hending) Impl.noThrow_drain fun _ => ?_
  exact rfl

/-- The destructor releases the client of the `Impl`. -/
theorem grip_destroy (hℓ : ℓ.IsIdle) :
    gripProtocol.Follows t (onImpl i Impl.destroy)
      (fun r ℓ' => ∀ client, r = .ok client → ℓ' = { ℓ with raw := client })
      { ℓ with ending := .begun i } := by
  obtain ⟨owns, raw, ending, charge, early, self⟩ := ℓ
  obtain ⟨rfl, rfl, rfl, rfl, rfl⟩ := hℓ
  have hreach : (⟨owns, none, .begun i, .none, none, none⟩ : Grip).Reaches i := .inr (.inl rfl)
  have hending : Ending.begun i ≠ .emptied i := by rintro ⟨⟩
  have hstops : (⟨owns, none, .begun i, .none, none, none⟩ : Grip).Stops i := .inr ⟨rfl, rfl⟩
  have hop : ∀ {o : ImplOp}, o.Bland → gripProtocol.Follows t (onImpl i (Impl.perform o))
      (fun _ ℓ' => ℓ' = ⟨owns, none, .begun i, .none, none, none⟩)
      ⟨owns, none, .begun i, .none, none, none⟩ := fun ho =>
    grip_bland (Impl.uses_perform ho) hreach hending
  refine grip_impl_seq (hop (o := .load .stop) ⟨trivial, by rintro ⟨⟩, by rintro ⟨⟩⟩)
    (Impl.noThrow_perform (.load .stop)) fun stop => ?_
  refine grip_impl_seq (m := ⟨owns, none, .begun i, .none, none, none⟩) ?_
    (Proc.composed_noThrow.when Impl.noThrow_shutdown) fun _ => ?_
  · cases stop with
    | true => exact rfl
    | false => exact grip_implShutdown hreach hending hstops rfl rfl
  refine grip_impl_seq (hop (o := .store .shutdown true) ⟨trivial, by rintro ⟨⟩, by rintro ⟨⟩⟩)
    (Impl.noThrow_perform (.store .shutdown true)) fun _ => ?_
  refine grip_impl_seq (hop (o := .store .running false) ⟨trivial, by rintro ⟨⟩, by rintro ⟨⟩⟩)
    (Impl.noThrow_perform (.store .running false)) fun _ => ?_
  refine grip_impl_seq (hop (o := .watchdogExists) ⟨trivial, by rintro ⟨⟩, by rintro ⟨⟩⟩)
    (Impl.noThrow_perform .watchdogExists) fun started => ?_
  refine grip_impl_seq (m := ⟨owns, none, .begun i, .none, none, none⟩) ?_
    (Proc.composed_noThrow.when Impl.noThrow_joinWatchdog) fun _ => ?_
  · cases started with
    | true => exact grip_joinWatchdog hreach hstops rfl rfl
    | false => exact rfl
  -- `doCleanup`: lock, reset, unlock
  refine grip_impl_perform fun _ => ⟨hreach, ?_⟩
  refine Protocol.follows_recorded_op fun es client => ⟨⟨rfl, rfl⟩, ?_⟩
  refine Protocol.follows_recorded_op fun es _ => ⟨.inr (.inl rfl), ?_⟩
  rintro _ ⟨⟩
  exact if_pos rfl

/-! ### Dropping a pointer -/

/-- The client that was released is deleted. -/
theorem grip_deleteClient (client : Option Handle) (hℓ : ℓ.raw = none) :
    gripProtocol.Follows t (deleteClient client) (fun _ ℓ' => ℓ' = ℓ) { ℓ with raw := client } := by
  obtain ⟨owns, raw, ending, charge, early, self⟩ := ℓ
  obtain rfl := hℓ
  cases client with
  | none => exact rfl
  | some client => exact Protocol.follows_recorded_op fun es _ => ⟨rfl, rfl⟩

/-- Dropping a pointer. -/
theorem grip_drop (i : ImplId) (hℓ : ℓ.IsIdle) :
    gripProtocol.Follows t (drop i) (fun _ ℓ' => ℓ' = ℓ) (ℓ.hold i) := by
  refine Protocol.follows_recorded_perform fun es last =>
    ⟨⟨List.mem_cons_self, hℓ.1, hℓ.2.1, hℓ.2.2.1⟩, ?_⟩
  cases last with
  | false => exact ℓ.hold_letGo i
  | true =>
      have hsame : Grip.track es (ℓ.hold i) (.release i) true = { ℓ with ending := .begun i } := by
        simp [Grip.track]
      rw [hsame]
      refine Protocol.Follows.bind_noThrow (fun client ℓ' => ℓ' = { ℓ with raw := client })
        (grip_destroy hℓ) (noThrow_onImpl Impl.noThrow_destroy i) ?_
      rintro client _ rfl
      exact grip_deleteClient client hℓ.1

/-! ### The calls under a lease -/

/-- The pointer that `pImpl` was copied to, if there is one, is dropped at the end. -/
theorem grip_call (refusals : Refusals) {body : Impl (Result α RichError)}
    (hn : Proc.NoThrow body) (hb : Impl.Uses ImplOp.Calm _ body) :
    gripProtocol.Follows t (call refusals body) (fun _ ℓ' => ℓ' = {}) {} := by
  have hcurrent : gripProtocol.Follows t (onCurrent refusals body)
      (fun r ℓ' => ∀ a, r = .ok a → ℓ' = a.1.elim {} ({} : Grip).hold) {} := by
    -- the copy is what the thread holds until the end of the call
    refine Protocol.follows_recorded_perform fun es i => ⟨trivial, ?_⟩
    cases i with
    | none =>
        rintro _ ⟨⟩
        rfl
    | some i =>
        refine grip_seq (grip_member (ℓ := ({} : Grip).hold i) hb ?_) (noThrow_onImpl hn i)
          fun r => ?_
        · exact ⟨.inl List.mem_cons_self, rfl, by rintro ⟨⟩⟩
        · rintro _ ⟨⟩
          rfl
  have hleased : gripProtocol.Follows t (leased refusals body)
      (fun r ℓ' => ∀ a, r = .ok a → ℓ' = a.1.elim {} ({} : Grip).hold) {} := by
    refine grip_perform fun reason => ?_
    cases reason with
    | recreating | terminated =>
        rintro _ ⟨⟩
        rfl
    | active => exact Protocol.Follows.ensuring _ hcurrent fun r ℓ' h => grip_op fun _ => ⟨rfl, h⟩
  refine Protocol.Follows.bind_noThrow _ hleased (noThrow_leased refusals hn) ?_
  rintro ⟨_ | i, r⟩ _ rfl
  · exact rfl
  · exact grip_seq (grip_drop i ⟨rfl, rfl, rfl, rfl, rfl⟩) (noThrow_drop i) fun _ => rfl

/-! ### shutdown and the destructor -/

/-- An `Impl` is shut down, and its pointer is dropped; then the rest. -/
theorem grip_discard {caller : ShutdownCaller} {p : Client β} {Q : Except Exn β → Grip → Prop}
    (hℓ : ℓ.IsIdle) (hp : gripProtocol.Follows t p Q ℓ) :
    gripProtocol.Follows t (do shutdownImpl i caller; drop i; p : Client β) Q
      { ℓ.hold i with charge := .held i } := by
  obtain ⟨owns, raw, ending, charge, early, self⟩ := ℓ
  obtain ⟨rfl, rfl, rfl, rfl, rfl⟩ := hℓ
  refine grip_seq (m := ⟨i :: owns, none, .none, .none, none, none⟩)
    (Protocol.follows_recorded_perform fun es _ => ⟨trivial, ?_⟩)
    (noThrow_shutdownImpl i caller) fun _ => ?_
  · refine grip_implShutdown (ℓ := ⟨i :: owns, none, .none, .held i, none, none⟩)
      (.inl List.mem_cons_self) ?_ (.inl rfl) rfl rfl
    rintro ⟨⟩
  · exact grip_seq (grip_drop i ⟨rfl, rfl, rfl, rfl, rfl⟩) (noThrow_drop i) fun _ => hp

/-- What `shutdownInternal` moves out it drops. -/
theorem grip_shutdownInternal :
    gripProtocol.Follows t shutdownInternal (fun _ ℓ' => ℓ' = {}) {} := by
  refine Protocol.follows_recorded_perform fun es doomed => ⟨rfl, ?_⟩
  cases doomed with
  | none => exact rfl
  | some i => exact grip_discard ⟨rfl, rfl, rfl, rfl, rfl⟩ rfl

/-- The handlers of a public function. -/
theorem grip_catching {systemText : String} {p : Client (Result α RichError)} {I : Grip → Prop}
    (hp : gripProtocol.Follows t p (fun _ => I) ℓ) :
    gripProtocol.Follows t (catching systemText p) (fun _ => I) ℓ := by
  refine Protocol.Follows.bind (fun _ => I) (Protocol.follows_attempt.mpr hp) ?_ fun _ _ h => h
  rintro (e | a) ℓ' hℓ'
  · exact hℓ'
  · exact hℓ'

/-- `shutdown`. -/
theorem grip_shutdown : gripProtocol.Follows t shutdown (fun _ ℓ' => ℓ' = {}) {} := by
  refine grip_perform fun entry => ?_
  cases entry with
  | recreating | terminated => exact rfl
  | won =>
      refine Protocol.Follows.ensuring (fun _ ℓ' => ℓ' = {}) (grip_catching grip_shutdownInternal)
        ?_
      rintro r _ rfl
      exact grip_op fun _ => ⟨rfl, rfl⟩

/-- The destructor. -/
theorem grip_destructor : gripProtocol.Follows t destructor (fun _ ℓ' => ℓ' = {}) {} := by
  refine grip_perform fun settled => ?_
  refine Protocol.Follows.bind (fun _ ℓ' => ℓ' = {}) ?_ ?_ fun _ _ h => h
  · cases settled with
    | true => exact rfl
    | false => exact grip_op fun _ => rfl
  · rintro _ _ rfl
    refine Protocol.Follows.bind (fun _ ℓ' => ℓ' = {})
      (Protocol.follows_attempt.mpr grip_shutdownInternal) ?_ fun _ _ h => h
    rintro _ _ rfl
    exact rfl

/-! ### recreateGiveUpClient -/

/-- What the scope of the candidate `i` finds: no duty when it was adopted, and else the duty to
shut it down. -/
def BroughtUp (i : ImplId) (r : Except Exn (Bool × Result Unit RichError)) (ℓ : Grip) : Prop :=
  (∃ a, r = .ok (true, a)) ∧ ℓ = { owns := [i, i] } ∨
    (∀ a, r ≠ .ok (true, a)) ∧ ∃ c, (c = .fresh i ∨ c = .held i) ∧
      ℓ = { owns := [i, i], charge := c }

/-- The candidate goes into `pImpl`, and what was there is shut down. -/
theorem grip_adopt {c : Charge} (hc : c = .fresh i ∨ c = .held i) :
    gripProtocol.Follows t (adopt i) (BroughtUp i) { owns := [i, i], charge := c } := by
  have hcandidate : c.impl? = some i := by rcases hc with rfl | rfl <;> rfl
  refine Protocol.follows_recorded_perform fun es adoption =>
    ⟨⟨hcandidate, List.mem_cons_self⟩, ?_⟩
  have hreset : gripProtocol.Follows t
      (do perform .guardReset; pure (true, .ok ()) : Client (Bool × Result Unit RichError))
      (BroughtUp i) { owns := [i, i] } :=
    grip_perform fun _ => .inl ⟨⟨_, rfl⟩, rfl⟩
  cases adoption with
  | terminated => exact .inr ⟨by rintro _ ⟨⟩, c, hc, rfl⟩
  | replaced old =>
      cases old with
      | none => exact hreset
      | some j => exact grip_discard (ℓ := { owns := [i, i] }) ⟨rfl, rfl, rfl, rfl, rfl⟩ hreset

/-- The candidate is brought up. -/
theorem grip_bringUp :
    gripProtocol.Follows t (bringUp i) (BroughtUp i) { owns := [i, i], charge := .fresh i } := by
  have hfailed : ∀ {r : Except Exn (Bool × Result Unit RichError)}, (∀ a, r ≠ .ok (true, a)) →
      BroughtUp i r { owns := [i, i], charge := .fresh i } := fun hr => .inr ⟨hr, _, .inl rfl, rfl⟩
  have hvisits : (⟨[i, i], none, .none, .fresh i, none, none⟩ : Grip).Visits i :=
    ⟨.inl List.mem_cons_self, rfl, by rintro ⟨⟩⟩
  refine Protocol.Follows.bind _ (grip_configureClient hvisits rfl true) ?_ ?_
  rotate_left
  · rintro e _ rfl
    exact hfailed (by rintro _ ⟨⟩)
  rintro (e | u) _ rfl
  · exact hfailed (by rintro _ ⟨⟩)
  refine Protocol.Follows.bind _ (grip_member members_calm.connect hvisits) ?_ ?_
  rotate_left
  · rintro e _ rfl
    exact hfailed (by rintro _ ⟨⟩)
  rintro (e | u) _ rfl
  · exact hfailed (by rintro _ ⟨⟩)
  refine Protocol.Follows.bind _ (grip_startWatchdog hvisits rfl) ?_ ?_
  rotate_left
  · rintro e _ (rfl | rfl)
    · exact hfailed (by rintro _ ⟨⟩)
    · exact .inr ⟨by rintro _ ⟨⟩, _, .inr rfl, rfl⟩
  rintro (e | u) _ (rfl | rfl)
  -- a watchdog was started (`held`), or there was one already (`fresh`)
  · exact hfailed (by rintro _ ⟨⟩)
  · exact .inr ⟨by rintro _ ⟨⟩, _, .inr rfl, rfl⟩
  · exact grip_adopt (.inl rfl)
  · exact grip_adopt (.inr rfl)

/-- The scope of the candidate drops both of its pointers. -/
theorem grip_candidateScope :
    gripProtocol.Follows t (candidateScope i) (fun _ ℓ' => ℓ' = {})
      { owns := [i], charge := .fresh i } := by
  refine Protocol.follows_recorded_perform fun es _ => ⟨List.mem_cons_self, ?_⟩
  refine Protocol.Follows.bind_noThrow (BroughtUp i) (Protocol.follows_attempt.mpr
    (grip_bringUp.mono fun r ℓ h _ he => by cases he; exact h)) (Proc.noThrow_attempt _)
    fun r ℓ hℓ => ?_
  have hdrops : ∀ {p : Client (Result Unit RichError)},
      gripProtocol.Follows t p (fun _ ℓ' => ℓ' = {}) {} →
      gripProtocol.Follows t (do drop i; drop i; p : Client (Result Unit RichError))
        (fun _ ℓ' => ℓ' = {}) { owns := [i, i] } := fun hp =>
    grip_seq (grip_drop (ℓ := { owns := [i] }) i ⟨rfl, rfl, rfl, rfl, rfl⟩) (noThrow_drop i)
      fun _ => grip_seq (grip_drop (ℓ := {}) i ⟨rfl, rfl, rfl, rfl, rfl⟩) (noThrow_drop i)
        fun _ => hp
  -- a candidate that was not adopted is shut down first
  have hdiscard : ∀ {c : Charge} {p : Client (Result Unit RichError)}, c = .fresh i ∨ c = .held i →
      gripProtocol.Follows t p (fun _ ℓ' => ℓ' = {}) {} →
      gripProtocol.Follows t
        (do shutdownImpl i .candidate; drop i; drop i; p : Client (Result Unit RichError))
        (fun _ ℓ' => ℓ' = {}) { owns := [i, i], charge := c } := by
    intro c p hc hp
    have hstart : c.start i = .held i := by
      rcases hc with rfl | rfl <;> simp [Charge.start]
    refine grip_seq (m := { owns := [i, i] }) (Protocol.follows_recorded_perform fun es _ =>
      ⟨trivial, ?_⟩) (noThrow_shutdownImpl i .candidate) fun _ => hdrops hp
    refine grip_implShutdown (ℓ := { owns := [i, i], charge := c.start i })
      (.inl List.mem_cons_self) ?_ (.inl hstart) rfl rfl
    rintro ⟨⟩
  rcases hℓ with ⟨⟨a, rfl⟩, rfl⟩ | ⟨hr, c, hc, rfl⟩
  · exact hdrops rfl
  · rcases r with e | ⟨adopted, a⟩
    · exact hdiscard hc rfl
    · cases adopted with
      | false => exact hdiscard hc rfl
      | true => exact absurd rfl (hr a)

/-- A response that may be an exception. -/
theorem grip_orThrow (r : Except Exn α) (ℓ : Grip) :
    gripProtocol.Follows t (orThrow r) (fun _ ℓ' => ℓ' = ℓ) ℓ := by
  cases r <;> exact rfl

/-- When an allocation fails, the client that the scope owns is deleted. -/
theorem grip_allocateOwning (client : Option Handle) :
    gripProtocol.Follows t (allocateOwning client)
      (fun r ℓ' => (r = .ok () → ℓ' = { raw := client }) ∧ ∀ e, r = .error e → ℓ' = {})
      { raw := client } := by
  refine grip_perform fun r => ?_
  cases r with
  | ok u => exact ⟨fun _ => rfl, by rintro _ ⟨⟩⟩
  | error e =>
      refine Protocol.Follows.bind _ (grip_deleteClient (ℓ := {}) client rfl) ?_ ?_
      · rintro _ _ rfl
        exact ⟨by rintro ⟨⟩, fun _ _ => rfl⟩
      · rintro e _ rfl
        exact ⟨by rintro ⟨⟩, fun _ _ => rfl⟩

/-- An allocation while a client is owned, then the rest. -/
theorem grip_allocateOwning_bind {client : Option Handle} {f : Unit → Client α}
    (hf : gripProtocol.Follows t (f ()) (fun _ ℓ' => ℓ' = {}) { raw := client }) :
    gripProtocol.Follows t (allocateOwning client >>= f : Client α) (fun _ ℓ' => ℓ' = {})
      { raw := client } := by
  refine Protocol.Follows.bind _ (grip_allocateOwning client) ?_ ?_
  · rintro u ℓ' ⟨hok, -⟩
    rw [hok rfl]
    exact hf
  · rintro e ℓ' ⟨-, herror⟩
    exact herror e rfl

/-- The `try` block of `recreateGiveUpClient`. -/
theorem grip_recreateWith (config : ClientConfig) :
    gripProtocol.Follows t (recreateWith config) (fun _ ℓ' => ℓ' = {}) {} := by
  refine grip_perform fun r => ?_
  refine Protocol.Follows.bind _ (grip_orThrow r {}) ?_ fun _ _ h => h
  rintro _ _ rfl
  refine Protocol.follows_recorded_perform fun es r => ⟨rfl, ?_⟩
  rcases r with e | client
  · exact rfl
  have hraw : Grip.track es {} .clientNew (.ok client) = { raw := client } := by
    cases client <;> rfl
  rw [hraw]
  refine grip_allocateOwning_bind ?_
  cases client with
  | none => exact rfl
  | some handle =>
      refine grip_allocateOwning_bind ?_
      exact Protocol.follows_recorded_perform fun es i => ⟨⟨rfl, rfl⟩, grip_candidateScope⟩

/-- `recreateGiveUpClient`. -/
theorem grip_recreateGiveUpClient :
    gripProtocol.Follows t recreateGiveUpClient (fun _ ℓ' => ℓ' = {}) {} := by
  refine grip_perform fun entry => ?_
  cases entry with
  | recreating | terminated => exact rfl
  | won =>
      refine grip_perform fun _ => ?_
      refine Protocol.Follows.ensuring (fun _ ℓ' => ℓ' = {}) ?_ ?_
      · refine grip_perform fun drained => ?_
        cases drained with
        | false => exact rfl
        | true =>
            refine grip_perform fun life => ?_
            split_ifs
            · exact rfl
            refine grip_perform fun config => grip_perform fun found => ?_
            cases found with
            | false => exact rfl
            | true => exact grip_catching (grip_recreateWith _)
      · rintro r _ rfl
        exact grip_op fun _ => ⟨rfl, rfl⟩

/-! ### The watchdog threads and every call -/

/-- A part of a watchdog thread, which may throw. -/
theorem grip_member_bind {p : Impl α} {f : α → Client β} {R : β → Grip → Prop}
    (hp : Impl.Uses ImplOp.Calm α p) (hℓ : ℓ.Visits i)
    (hf : ∀ a, gripProtocol.Follows t (f a) (fun r ℓ' => ∀ b, r = .ok b → R b ℓ') ℓ) :
    gripProtocol.Follows t (onImpl i p >>= f : Client β) (fun r ℓ' => ∀ b, r = .ok b → R b ℓ')
      ℓ := by
  refine Protocol.Follows.bind _ (grip_member hp hℓ) ?_ ?_
  · rintro a _ rfl
    exact hf a
  · rintro e _ - b ⟨⟩

/-- A watchdog thread that ends without an exception has dropped its pointer. -/
theorem grip_watchdogThread (i : ImplId) :
    gripProtocol.Follows t (watchdogThread i) (fun r ℓ' => ∀ a, r = .ok a → ℓ' = {}) {} := by
  refine Protocol.follows_recorded_perform fun es _ => ⟨rfl, ?_⟩
  refine grip_member_bind (ℓ := { early := some i }) members_calm.nowMs
    ⟨.inr rfl, rfl, by rintro ⟨⟩⟩ fun last => ?_
  refine Protocol.follows_recorded_perform fun es found => ⟨rfl, ?_⟩
  cases found with
  | false => rintro _ ⟨⟩
  | true =>
      refine grip_member_bind (ℓ := { owns := [i] }) (members_calm.watchdogRounds (last, 0))
        ⟨.inl List.mem_cons_self, rfl, by rintro ⟨⟩⟩ fun _ => ?_
      refine grip_seq (grip_drop (ℓ := {}) i ⟨rfl, rfl, rfl, rfl, rfl⟩) (noThrow_drop i) fun _ => ?_
      exact Protocol.follows_recorded_op fun es _ => ⟨⟨rfl, rfl⟩, fun _ _ => rfl⟩

/-- Every call that ends without an exception leaves nothing in the grip. -/
theorem grip_run (c : ClientCall) :
    gripProtocol.Follows t c.run (fun r ℓ' => ∀ a, r = .ok a → ℓ' = {}) {} := by
  have hreply : ∀ {γ : Type} {wrap : γ → ClientReply} {p : Client γ},
      gripProtocol.Follows t p (fun r ℓ' => ∀ a, r = .ok a → ℓ' = {}) {} →
      gripProtocol.Follows t (replying wrap p) (fun r ℓ' => ∀ a, r = .ok a → ℓ' = {}) {} := by
    refine fun hp => Protocol.Follows.bind _ hp (fun a ℓ h b _ => h a rfl) ?_
    rintro e ℓ - b ⟨⟩
  have hends : ∀ {γ : Type} {wrap : γ → ClientReply} {p : Client γ},
      gripProtocol.Follows t p (fun _ ℓ' => ℓ' = {}) {} →
      gripProtocol.Follows t (replying wrap p) (fun r ℓ' => ∀ a, r = .ok a → ℓ' = {}) {} :=
    fun hp => hreply (hp.mono fun _ _ h _ _ => h)
  cases c with
  | connect => exact hends (grip_call _ (Impl.noThrow_catching _) members_calm.apiConnect)
  | disconnect => exact hends (grip_call _ (Impl.noThrow_catching _) members_calm.apiDisconnect)
  | checkConnected => exact hends (grip_call _ (Impl.noThrow_query _ _) members_calm.checkConnected)
  | isHealthy => exact hends (grip_call _ (Impl.noThrow_query _ _) members_calm.isHealthy)
  | checkLifeState =>
      exact hends (grip_call _ (Proc.composed_noThrow.bind (Impl.noThrow_perform (.load .lifeState))
        fun _ => Proc.composed_noThrow.pure _) members_calm.checkLifeState)
  | setGiveUpSignal =>
      exact hends (grip_call _ (Impl.noThrow_catching _) members_calm.setGiveUpSignal)
  | batchRead nodes =>
      exact hends (grip_call _ (Impl.noThrow_catchingBatch _) (members_calm.batchRead nodes))
  | batchWrite nodes =>
      exact hends (grip_call _ (Impl.noThrow_catchingBatch _) (calm_batchWrite nodes))
  | recreateGiveUpClient => exact hends grip_recreateGiveUpClient
  | shutdown => exact hends grip_shutdown
  | destructor => exact hends grip_destructor
  | watchdog i => exact hreply (grip_watchdogThread i)

/-- So does every thread. -/
theorem grip_runAll (cs : List ClientCall) :
    gripProtocol.Follows t (ClientCall.runAll cs) (fun r ℓ' => ∀ a, r = .ok a → ℓ' = {}) {} := by
  have hfailed : ∀ {γ δ : Type} (e : Exn) (ℓ : Grip),
      (∀ a : γ, (.error e : Except Exn γ) = .ok a → ℓ = {}) →
        ∀ b : δ, (.error e : Except Exn δ) = .ok b → ℓ = {} := by
    rintro γ δ e ℓ - b ⟨⟩
  induction cs with
  | nil => exact fun _ _ => rfl
  | cons c cs ih =>
      refine Protocol.Follows.bind _ (grip_run c) (fun reply ℓ h => ?_) hfailed
      obtain rfl := h reply rfl
      exact Protocol.Follows.bind _ ih (fun replies ℓ h _ _ => h replies rfl) hfailed

end Client

end OPCUAPacking
