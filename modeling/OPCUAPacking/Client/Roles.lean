import OPCUAPacking.Client.Footprints
import OPCUAPacking.Interleaving.Census

/-!
# Roles

What a thread has won under `m_recreateLock` and not given back yet: an active lease, the flag of a
recreate, the right to shut the client down.

* `Role` — the role of a thread, which its own operations move (`Role.track`).
* `Role.Allows` — the discipline: which operation is performed in which role.
* `Client.role_run`, `Client.role_runAll` — every call keeps the discipline, and ends at rest.
-/

namespace OPCUAPacking

open Interleaving

/-- What a thread has won. -/
inductive Role where
  | free
  /-- It holds an active lease. -/
  | leased
  /-- It holds an active lease, and has copied `pImpl`. -/
  | serving
  /-- It has set `m_recreating`. -/
  | entered
  /-- So it has, and its `RecreateGuard` is constructed. -/
  | guarded
  /-- The calls in flight have been drained. -/
  | drained
  /-- It has found an `Impl` in `pImpl` since. -/
  | found
  /-- It has reset its `RecreateGuard`. -/
  | released
  /-- It is the one `shutdown` that goes on. -/
  | closing
  /-- It is the destructor, which has set `m_terminated` and waits. -/
  | waiting
  /-- It is the destructor, after its wait. -/
  | passed
  deriving DecidableEq, Repr

namespace Role

/-- Between two calls. -/
def rests : Role → Bool
  | .free | .passed => true
  | _ => false

/-- The thread holds an active lease. -/
def leases : Role → Bool
  | .leased | .serving => true
  | _ => false

/-- `recreateGiveUpClient` between winning the flag and releasing it. -/
def recreates : Role → Bool
  | .entered | .guarded | .drained | .found => true
  | _ => false

/-- So it is, after its drain. -/
def swaps : Role → Bool
  | .drained | .found => true
  | _ => false

/-- The winner of `shutdown`. -/
def closes : Role → Bool
  | .closing => true
  | _ => false

/-- In the scope of a `RecreateGuard`. -/
abbrev Guarded (ℓ : Role) : Prop := ℓ = .guarded ∨ ℓ = .drained ∨ ℓ = .found ∨ ℓ = .released

/-- How an operation moves the role. -/
def track (_ : ClientHistory) (ℓ : Role) : (o : ClientOp) → o.Resp → Role
  | .leaseAcquire, .active => .leased
  | .pImplCopy, _ => .serving
  | .leaseRelease, _ => .free
  | .recreateEnter, .won => .entered
  | .guardConstruct, _ => .guarded
  | .recreateDrain _, true => .drained
  | .pImplLifeState, some _ => .found
  | .guardReset, _ => .released
  | .guardDestroy, _ => .free
  | .shutdownEnter, .won => .closing
  | .shutdownLeave, _ => .free
  | .terminate, true => .passed
  | .terminate, false => .waiting
  | .destructorWait, _ => .passed
  | _, _ => ℓ

/-- What a thread may do in a role. -/
def Allows (ℓ : Role) : (o : ClientOp) → o.Resp → Prop
  | .leaseAcquire, _ => ℓ.rests = true
  | .recreateEnter, _ => ℓ.rests = true
  | .shutdownEnter, _ => ℓ.rests = true
  | .terminate, _ => ℓ.rests = true
  | .pImplCopy, _ => ℓ = .leased
  | .leaseRelease, _ => ℓ = .serving
  | .guardConstruct, _ => ℓ = .entered
  | .recreateDrain _, _ => ℓ = .guarded
  | .pImplLifeState, _ => ℓ = .drained
  | .pImplConfig, _ => ℓ = .found
  | .pImplExists, _ => ℓ = .found
  | .pImplAdopt _, _ => ℓ = .found
  | .guardReset, _ => ℓ = .found
  | .guardDestroy, _ => ℓ.Guarded
  | .shutdownLeave, _ => ℓ = .closing
  | .destructorWait, _ => ℓ = .waiting
  | .pImplTake, _ => ℓ = .closing ∨ ℓ = .passed
  | _, _ => True

end Role

/-- The role of thread `t` after a history. -/
def role (t : Tid) (es : ClientHistory) : Role := Event.stage Role.track .free t es

/-- The protocol of the roles. -/
abbrev roleProtocol : Protocol ClientSig (Traced ClientSig ClientState) Role :=
  Protocol.recorded ClientState.exec Role.Allows Role.track fun _ => .free

/-- The operation does not concern the roles. -/
def ClientOp.Plain : ClientOp → Prop
  | .allocate | .clientNew | .clientDelete _ | .implConstruct _ _ => True
  | .retain _ | .lockSelf _ | .release _ | .shutdownBegin _ _ | .impl _ _ => True
  | _ => False

/-- It is allowed in every role and leaves it. -/
theorem ClientOp.Plain.track_eq {o : ClientOp} (h : o.Plain) (es : ClientHistory) (ℓ : Role)
    (r : o.Resp) : ℓ.Allows o r ∧ ℓ.track es o r = ℓ := by
  cases o <;> first | exact ⟨trivial, rfl⟩ | exact h.elim

namespace Client

variable {α : Type} {t : Tid} {ℓ : Role}

/-! ### The parts that do not concern the roles -/

/-- Dropping a pointer does not. -/
theorem plain_drop (i : ImplId) : Proc.Uses ClientOp.Plain (drop i) :=
  (uses_drop i).mono fun o ho => by cases o <;> trivial

/-- Neither does a call of `Impl::shutdown`. -/
theorem plain_shutdownImpl (i : ImplId) (caller : ShutdownCaller) :
    Proc.Uses ClientOp.Plain (shutdownImpl i caller) :=
  (Proc.closed_uses ClientOp.Plain).bind
    (uses_perform (o := .shutdownBegin i caller) trivial) fun _ =>
      uses_onImpl (fun _ => trivial) _

/-- The part of a program that does not concern the roles leaves them. -/
theorem role_of_plain {p : Client α} (hp : Proc.Uses ClientOp.Plain p) (ℓ : Role) :
    roleProtocol.Follows t p (fun _ ℓ' => ℓ' = ℓ) ℓ := by
  refine Protocol.keeps_recorded_of_uses (I := (· = ℓ)) ?_ hp ℓ rfl
  rintro o ho es _ r rfl
  exact ho.track_eq es _ r

/-- A member function of an `Impl` leaves the role. -/
theorem role_onImpl (i : ImplId) (p : Impl α) (ℓ : Role) :
    roleProtocol.Follows t (onImpl i p) (fun _ ℓ' => ℓ' = ℓ) ℓ :=
  role_of_plain (uses_onImpl (fun _ => trivial) p) ℓ

/-- So does dropping a pointer. -/
theorem role_drop (i : ImplId) (ℓ : Role) :
    roleProtocol.Follows t (drop i) (fun _ ℓ' => ℓ' = ℓ) ℓ :=
  role_of_plain (plain_drop i) ℓ

/-- The handlers of a public function. -/
theorem role_catching {systemText : String} {p : Client (Result α RichError)} {I : Role → Prop}
    (hp : roleProtocol.Follows t p (fun _ => I) ℓ) :
    roleProtocol.Follows t (catching systemText p) (fun _ => I) ℓ := by
  refine Protocol.Follows.bind (fun _ => I) (Protocol.follows_attempt.mpr hp) ?_ fun _ _ h => h
  rintro (e | a) ℓ' hℓ'
  · exact hℓ'
  · exact hℓ'

/-! ### The calls under a lease -/

/-- The scope of a lease gives it back. -/
theorem role_leased (refusals : Refusals) (body : Impl (Result α RichError))
    (hℓ : ℓ.rests = true) :
    roleProtocol.Follows t (leased refusals body) (fun _ ℓ' => ℓ'.rests = true) ℓ := by
  refine Protocol.follows_recorded_perform fun es reason => ⟨hℓ, ?_⟩
  cases reason with
  | recreating | terminated => exact hℓ
  | active =>
      refine Protocol.Follows.ensuring (fun _ ℓ' => ℓ' = .serving) ?_ ?_
      · refine Protocol.follows_recorded_perform fun es' i => ⟨rfl, ?_⟩
        cases i with
        | none => exact rfl
        | some i =>
            exact Protocol.Follows.bind _ (role_onImpl i body _) (fun _ _ h => h) fun _ _ h => h
      · rintro r _ rfl
        exact Protocol.follows_recorded_op fun es' _ => ⟨rfl, rfl, rfl⟩

/-- A public function under a lease. -/
theorem role_call (refusals : Refusals) (body : Impl (Result α RichError)) (hℓ : ℓ.rests = true) :
    roleProtocol.Follows t (call refusals body) (fun _ ℓ' => ℓ'.rests = true) ℓ := by
  refine Protocol.Follows.bind _ (role_leased refusals body hℓ) ?_ fun _ _ h => h
  intro r ℓ' hℓ'
  refine Protocol.Follows.bind (fun _ ℓ'' => ℓ''.rests = true) ?_ (fun _ _ h => ?_) fun _ _ h => h
  case refine_2 => exact h
  rcases r with ⟨_ | i, r⟩
  · exact hℓ'
  · exact (role_drop i ℓ').mono fun _ _ h => h ▸ hℓ'

/-! ### shutdown and the destructor -/

/-- `shutdownInternal` is run by the winner and by the destructor. -/
theorem role_shutdownInternal (hℓ : ℓ = .closing ∨ ℓ = .passed) :
    roleProtocol.Follows t shutdownInternal (fun _ ℓ' => ℓ' = ℓ) ℓ := by
  refine Protocol.follows_recorded_perform fun es doomed => ⟨hℓ, ?_⟩
  cases doomed with
  | none => exact rfl
  | some i =>
      refine Protocol.Follows.bind _ (role_of_plain (plain_shutdownImpl i .internal) ℓ) ?_
        fun _ _ h => h
      rintro _ _ rfl
      exact Protocol.Follows.bind _ (role_drop i _) (fun _ _ h => h) fun _ _ h => h

/-- `shutdown` ends at rest. -/
theorem role_shutdown (hℓ : ℓ.rests = true) :
    roleProtocol.Follows t shutdown (fun _ ℓ' => ℓ'.rests = true) ℓ := by
  refine Protocol.follows_recorded_perform fun es entry => ⟨hℓ, ?_⟩
  cases entry with
  | recreating | terminated => exact hℓ
  | won =>
      refine Protocol.Follows.ensuring (fun _ ℓ' => ℓ' = .closing)
        (role_catching (role_shutdownInternal (.inl rfl))) ?_
      rintro r _ rfl
      exact Protocol.follows_recorded_op fun es' _ => ⟨rfl, rfl, rfl⟩

/-- The destructor passes its wait before it tears anything down. -/
theorem role_destructor (hℓ : ℓ.rests = true) :
    roleProtocol.Follows t destructor (fun _ ℓ' => ℓ'.rests = true) ℓ := by
  refine Protocol.follows_recorded_perform fun es settled => ⟨hℓ, ?_⟩
  refine Protocol.Follows.bind (fun _ ℓ' => ℓ' = .passed) ?_ ?_ fun _ _ h => h ▸ rfl
  · cases settled with
    | true => exact rfl
    | false => exact Protocol.follows_recorded_op fun es' _ => ⟨rfl, rfl⟩
  · rintro _ _ rfl
    refine Protocol.Follows.bind (fun _ ℓ' => ℓ' = .passed)
      (Protocol.follows_attempt.mpr (role_shutdownInternal (.inr rfl))) ?_ fun _ _ h => h ▸ rfl
    rintro _ _ rfl
    exact rfl

/-! ### recreateGiveUpClient -/

/-- The candidate is adopted, and the guard reset, by a thread that has found an `Impl`. -/
theorem role_adopt (i : ImplId) :
    roleProtocol.Follows t (adopt i) (fun _ ℓ' => ℓ' = .found ∨ ℓ' = .released) .found := by
  refine Protocol.follows_recorded_perform fun es adoption => ⟨rfl, ?_⟩
  have hreset : roleProtocol.Follows t
      (do perform .guardReset; pure (true, .ok ()) : Client (Bool × Result Unit RichError))
      (fun _ ℓ' => ℓ' = .found ∨ ℓ' = .released) .found :=
    Protocol.follows_recorded_perform fun es' _ => ⟨rfl, .inr rfl⟩
  cases adoption with
  | terminated => exact .inl rfl
  | replaced old =>
      cases old with
      | none => exact hreset
      | some j =>
          refine Protocol.Follows.bind _ (role_of_plain (plain_shutdownImpl j .replaced) _) ?_
            fun _ _ h => .inl h
          rintro _ _ rfl
          refine Protocol.Follows.bind _ (role_drop j _) ?_ fun _ _ h => .inl h
          rintro _ _ rfl
          exact hreset

/-- The candidate is brought up. -/
theorem role_bringUp (i : ImplId) :
    roleProtocol.Follows t (bringUp i) (fun _ ℓ' => ℓ' = .found ∨ ℓ' = .released) .found := by
  refine Protocol.Follows.bind _ (role_onImpl i _ _) ?_ fun _ _ h => .inl h
  rintro (e | ⟨⟩) _ rfl
  · exact .inl rfl
  refine Protocol.Follows.bind _ (role_onImpl i _ _) ?_ fun _ _ h => .inl h
  rintro (e | ⟨⟩) _ rfl
  · exact .inl rfl
  refine Protocol.Follows.bind _ (role_onImpl i _ _) ?_ fun _ _ h => .inl h
  rintro (e | ⟨⟩) _ rfl
  · exact .inl rfl
  · exact role_adopt i

/-- The scope of the candidate. -/
theorem role_candidateScope (i : ImplId) :
    roleProtocol.Follows t (candidateScope i) (fun _ ℓ' => ℓ' = .found ∨ ℓ' = .released)
      .found := by
  refine Protocol.follows_recorded_perform fun es _ => ⟨trivial, ?_⟩
  refine Protocol.Follows.bind (fun _ ℓ => ℓ = .found ∨ ℓ = .released)
    (Protocol.follows_attempt.mpr (role_bringUp i)) ?_ fun _ _ h => h
  intro r ℓ hℓ
  -- what follows the attempt does not concern the roles
  have hplain : ∀ {p : Client Unit}, Proc.Uses ClientOp.Plain p → ∀ ℓ,
      ℓ = .found ∨ ℓ = .released → roleProtocol.Follows t p
        (fun _ ℓ' => ℓ' = .found ∨ ℓ' = .released) ℓ := fun hp ℓ hℓ =>
    (role_of_plain hp ℓ).mono fun _ _ h => h ▸ hℓ
  have hK := Proc.closed_uses (S := ClientSig) (ε := Exn) ClientOp.Plain
  refine Protocol.Follows.bind _ (hplain (hK.when (plain_shutdownImpl i .candidate)) ℓ hℓ) ?_
    fun _ _ h => h
  refine fun _ ℓ hℓ => Protocol.Follows.bind _ (hplain (plain_drop i) ℓ hℓ) ?_ fun _ _ h => h
  refine fun _ ℓ hℓ => Protocol.Follows.bind _ (hplain (plain_drop i) ℓ hℓ) ?_ fun _ _ h => h
  intro _ ℓ hℓ
  cases r with
  | error e => exact hℓ
  | ok a => exact hℓ

/-- An allocation does not concern the roles. -/
theorem plain_allocateOwning (client : Option Handle) :
    Proc.Uses ClientOp.Plain (allocateOwning client) := by
  have hK := Proc.closed_uses (S := ClientSig) (ε := Exn) ClientOp.Plain
  refine hK.bind (uses_perform (o := .allocate) trivial) fun r => ?_
  cases r with
  | ok u => exact hK.pure ()
  | error e => exact hK.bind (uses_deleteClient (fun _ => trivial) client) fun _ => hK.throw e

/-- A response that may be an exception. -/
theorem role_orThrow (r : Except Exn α) (ℓ : Role) :
    roleProtocol.Follows t (orThrow r) (fun _ ℓ' => ℓ' = ℓ) ℓ := by
  cases r <;> exact rfl

/-- The `try` block of `recreateGiveUpClient`. -/
theorem role_recreateWith (config : ClientConfig) :
    roleProtocol.Follows t (recreateWith config) (fun _ ℓ' => ℓ' = .found ∨ ℓ' = .released)
      .found := by
  refine Protocol.follows_recorded_perform fun es r => ⟨trivial, ?_⟩
  refine Protocol.Follows.bind _ (role_orThrow r .found) ?_ fun _ _ h => .inl h
  rintro _ _ rfl
  refine Protocol.follows_recorded_perform fun es r => ⟨trivial, ?_⟩
  refine Protocol.Follows.bind _ (role_orThrow r .found) ?_ fun _ _ h => .inl h
  rintro client _ rfl
  refine Protocol.Follows.bind _ (role_of_plain (plain_allocateOwning client) _) ?_
    fun _ _ h => .inl h
  rintro _ _ rfl
  cases client with
  | none => exact .inl rfl
  | some handle =>
      refine Protocol.Follows.bind _ (role_of_plain (plain_allocateOwning _) _) ?_
        fun _ _ h => .inl h
      rintro _ _ rfl
      exact Protocol.follows_recorded_perform fun es i => ⟨trivial, role_candidateScope i⟩

/-- The scope of the `RecreateGuard`. -/
theorem role_recreateGuarded :
    roleProtocol.Follows t recreateGuarded (fun _ ℓ' => ℓ'.Guarded) .guarded := by
  refine Protocol.follows_recorded_perform fun es drained => ⟨rfl, ?_⟩
  cases drained with
  | false => exact .inl rfl
  | true =>
      refine Protocol.follows_recorded_perform fun es life => ⟨rfl, ?_⟩
      cases life with
      | none => exact .inr (.inl rfl)
      | some life =>
          dsimp only [Option.getD_some]
          split_ifs with hlife
          · exact .inr (.inr (.inl rfl))
          refine Protocol.follows_recorded_perform fun es config => ⟨rfl, ?_⟩
          refine Protocol.follows_recorded_perform fun es found => ⟨rfl, ?_⟩
          cases found with
          | false => exact .inr (.inr (.inl rfl))
          | true =>
              exact role_catching ((role_recreateWith _).mono fun _ _ h => .inr (.inr h))

/-- `recreateGiveUpClient` ends at rest. -/
theorem role_recreateGiveUpClient (hℓ : ℓ.rests = true) :
    roleProtocol.Follows t recreateGiveUpClient (fun _ ℓ' => ℓ'.rests = true) ℓ := by
  refine Protocol.follows_recorded_perform fun es entry => ⟨hℓ, ?_⟩
  cases entry with
  | recreating | terminated => exact hℓ
  | won =>
      refine Protocol.follows_recorded_perform fun es _ => ⟨rfl, ?_⟩
      refine Protocol.Follows.ensuring _ role_recreateGuarded fun r ℓ' hℓ' => ?_
      exact Protocol.follows_recorded_op fun es' _ => ⟨hℓ', rfl, rfl⟩

/-! ### Every call -/

/-- A watchdog thread does not concern the roles. -/
theorem plain_watchdogThread (i : ImplId) : Proc.Uses ClientOp.Plain (watchdogThread i) := by
  refine (uses_watchdogThread i).mono fun o ho => ?_
  rcases ho with ho | ⟨j, rfl⟩
  · cases o <;> trivial
  · trivial

/-- Every call keeps the discipline, and ends at rest. -/
theorem role_run (c : ClientCall) (hℓ : ℓ.rests = true) :
    roleProtocol.Follows t c.run (fun _ ℓ' => ℓ'.rests = true) ℓ := by
  have hreply : ∀ {α : Type} {wrap : α → ClientReply} {p : Client α},
      roleProtocol.Follows t p (fun _ ℓ' => ℓ'.rests = true) ℓ →
      roleProtocol.Follows t (replying wrap p) (fun _ ℓ' => ℓ'.rests = true) ℓ := fun hp =>
    Protocol.Follows.bind _ hp (fun _ _ h => h) fun _ _ h => h
  cases c with
  | recreateGiveUpClient => exact hreply (role_recreateGiveUpClient hℓ)
  | shutdown => exact hreply (role_shutdown hℓ)
  | destructor => exact hreply (role_destructor hℓ)
  | watchdog i =>
      exact hreply ((role_of_plain (plain_watchdogThread i) ℓ).mono fun _ _ h => h ▸ hℓ)
  | _ => exact hreply (role_call _ _ hℓ)

/-- So does every thread. -/
theorem role_runAll (cs : List ClientCall) (hℓ : ℓ.rests = true) :
    roleProtocol.Follows t (ClientCall.runAll cs) (fun _ ℓ' => ℓ'.rests = true) ℓ := by
  induction cs generalizing ℓ with
  | nil => exact hℓ
  | cons c cs ih =>
      refine Protocol.Follows.bind _ (role_run c hℓ) (fun _ ℓ' hℓ' => ?_) fun _ _ h => h
      exact Protocol.Follows.bind _ (ih hℓ') (fun _ _ h => h) fun _ _ h => h

end Client

end OPCUAPacking
