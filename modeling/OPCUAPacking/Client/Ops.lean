import OPCUAPacking.Impl.Lifecycle

/-!
# The operations of an `OPC_UA_Client`

The atomic operations that the public functions of `OPC_UA_Client` are built from, on top of those
of the `Impl`s that it owns, and what they do to its state.

* `ClientOp` — one operation for each block under `m_recreateLock` and for each block under
  `RecreateSync::m_lock`, the steps of construction, and `ClientOp.impl`, an operation of an `Impl`.
* `ClientState` — the members of `RecreateSync` and of `OPC_UA_Client`, the `Impl`s constructed so
  far with the number of their `shared_ptr`s, and the clients of the SDK.
* `ClientState.exec` — the transition function.

There is one SDK, so `m_sdkForRecreate` and `m_sdk` are not modelled; neither is the
`CallbackContext`, except that its allocation may fail. `m_endpointUrl` is written once, before any
thread can see it. A member function or a callback takes a `shared_ptr` of its own only while its
caller has one; these are not counted.
-/

namespace OPCUAPacking

open Interleaving

/-- An `Impl`, by the number that it was constructed with. -/
abbrev ImplId := Nat

/-- `ApiLease::Reason`. -/
inductive LeaseReason where
  | active
  | recreating
  | terminated
  deriving DecidableEq, Repr

/-- How the first block of `recreateGiveUpClient` or of `shutdown` ends. -/
inductive Entry where
  /-- The call goes on. -/
  | won
  /-- It found `m_recreating` set. -/
  | recreating
  /-- It found `m_terminated` set. -/
  | terminated
  deriving DecidableEq, Repr

/-- How the block that replaces `pImpl` ends. -/
inductive Adoption where
  /-- It found `m_terminated` set. -/
  | terminated
  /-- The `Impl` that was replaced. -/
  | replaced (old : Option ImplId)
  deriving DecidableEq, Repr

/-- Who calls `Impl::shutdown`. -/
inductive ShutdownCaller where
  /-- `shutdownInternal`. -/
  | internal
  /-- `recreateGiveUpClient`, on the `Impl` that it has replaced. -/
  | replaced
  /-- `~CandidateGuard`. -/
  | candidate
  deriving DecidableEq, Repr

/-! ### Operations -/

/-- The atomic operations. -/
inductive ClientOp where
  /-- The constructor of `ApiLease`. -/
  | leaseAcquire
  /-- The destructor of an active `ApiLease`. -/
  | leaseRelease
  /-- The first block of `recreateGiveUpClient`. -/
  | recreateEnter
  /-- `m_inFlightCv.wait_for`: whether the counter was zero in time. -/
  | recreateDrain (timeoutMs : Nat)
  /-- The constructor of `RecreateGuard`. -/
  | guardConstruct
  /-- `RecreateGuard::reset`. -/
  | guardReset
  /-- The destructor of `RecreateGuard`. -/
  | guardDestroy
  /-- The first block of `shutdown`. -/
  | shutdownEnter
  /-- The destructor of `ShutdownCallGuard`. -/
  | shutdownLeave
  /-- `~OPC_UA_Client` sets `m_terminated`; whether it need not wait. -/
  | terminate
  /-- It blocks in `m_recreateCv.wait` until it need not wait any more. -/
  | destructorWait
  /-- Copy `pImpl`, under `m_lock`. -/
  | pImplCopy
  /-- Move `pImpl` out, under `m_lock`. -/
  | pImplTake
  /-- Replace `pImpl`, under `m_lock`. -/
  | pImplAdopt (candidate : ImplId)
  /-- Read `pImpl->m_lifeState` if there is one, under `m_lock`. -/
  | pImplLifeState
  /-- `pImpl->getEffectiveConfig()` if there is one, under `m_lock`. -/
  | pImplConfig
  /-- `pImpl` is not null, under `m_lock`. -/
  | pImplExists
  /-- An allocation of the standard library. -/
  | allocate
  /-- `ISdk::clientNew`. -/
  | clientNew
  /-- `ISdk::clientDelete`, through `UA_ClientDeleter`. -/
  | clientDelete (client : Handle)
  /-- The constructor of `Impl`, with the `shared_ptr` that `make_shared` returns. -/
  | implConstruct (config : ClientConfig) (client : Handle)
  /-- Copy a `shared_ptr<Impl>`. -/
  | retain (i : ImplId)
  /-- `shared_from_this`, which copies a `shared_ptr<Impl>` if there is one left. -/
  | lockSelf (i : ImplId)
  /-- Drop a `shared_ptr<Impl>`: whether it was the last. -/
  | release (i : ImplId)
  /-- A call of `Impl::shutdown` starts. -/
  | shutdownBegin (i : ImplId) (caller : ShutdownCaller)
  /-- An operation of an `Impl`. -/
  | impl (i : ImplId) (o : ImplOp)

namespace ClientOp

/-- The responses to an operation. -/
@[reducible]
def Resp : ClientOp → Type
  | .leaseAcquire => LeaseReason
  | .leaseRelease => Unit
  | .recreateEnter => Entry
  | .recreateDrain _ => Bool
  | .guardConstruct => Unit
  | .guardReset => Unit
  | .guardDestroy => Unit
  | .shutdownEnter => Entry
  | .shutdownLeave => Unit
  | .terminate => Bool
  | .destructorWait => Unit
  | .pImplCopy => Option ImplId
  | .pImplTake => Option ImplId
  | .pImplAdopt _ => Adoption
  | .pImplLifeState => Option LifeState
  | .pImplConfig => Option ClientConfig
  | .pImplExists => Bool
  | .allocate => Except Exn Unit
  | .clientNew => Except Exn (Option Handle)
  | .clientDelete _ => Unit
  | .implConstruct _ _ => ImplId
  | .retain _ => Unit
  | .lockSelf _ => Bool
  | .release _ => Bool
  | .shutdownBegin _ _ => Unit
  | .impl _ o => o.Resp

end ClientOp

/-- The signature of the operations of a client. -/
@[reducible]
def ClientSig : Sig := ⟨ClientOp, ClientOp.Resp⟩

/-- The code of the public functions. -/
abbrev Client (α : Type) := Proc ClientSig Exn α

/-! ### The state -/

/-- The members of `RecreateSync` and of `OPC_UA_Client`, and the objects that they refer to. -/
structure ClientState where
  recreating : Bool := false
  terminated : Bool := false
  inFlight : Int := 0
  shutdownInFlight : Int := 0
  endpointUrl : String
  pImpl : Option ImplId
  /-- The `Impl`s constructed so far. -/
  impls : ImplId → Option ImplState
  /-- The number of `shared_ptr`s to each of them. -/
  refs : ImplId → Nat
  /-- `isReset` of the `RecreateGuard` of each thread. -/
  isReset : Tid → Bool := fun _ => false
  /-- The clients that `clientNew` returned and that were not deleted. -/
  clients : List Handle

namespace ClientState

/-- A client that owns one `Impl` and that nobody has called yet. -/
def start (endpointUrl : String) (s : ImplState) : ClientState where
  endpointUrl := endpointUrl
  pImpl := some 0
  impls := Function.update (fun _ => none) 0 (some s)
  refs := Function.update (fun _ => 0) 0 1
  clients := s.impl.toList

/-- The state, provided the condition holds. -/
def whenever (c : Prop) [Decidable c] (s : ClientState) : Option ClientState :=
  if c then some s else none

/-- What the constructor of `ApiLease` finds. -/
def leaseReason (s : ClientState) : LeaseReason :=
  if s.terminated then .terminated else if s.recreating then .recreating else .active

/-- What the first block of `recreateGiveUpClient` and that of `shutdown` find. -/
def entry (s : ClientState) : Entry :=
  if s.recreating then .recreating else if s.terminated then .terminated else .won

/-- The predicate of `m_recreateCv.wait` in the destructor. -/
def isSettled (s : ClientState) : Bool := !s.recreating && decide (s.shutdownInFlight = 0)

/-- The release of a `RecreateGuard`, by `reset` or by the destructor: once only. -/
def releaseGuard (t : Tid) (s : ClientState) : ClientState :=
  if s.isReset t then s
  else { s with isReset := Function.update s.isReset t true, recreating := false }

/-- One more `shared_ptr`. -/
def retain (s : ClientState) (i : ImplId) : ClientState :=
  { s with refs := Function.update s.refs i (s.refs i + 1) }

/-- One `shared_ptr` less. -/
def drop (s : ClientState) (i : ImplId) : ClientState :=
  { s with refs := Function.update s.refs i (s.refs i - 1) }

/-- The `Impl` that `pImpl` points to. -/
def current (s : ClientState) : Option ImplState := s.pImpl.bind s.impls

/-- Replace the state of an `Impl`. -/
def setImpl (s : ClientState) (i : ImplId) (w : ImplState) : ClientState :=
  { s with impls := Function.update s.impls i (some w) }

/-- Thread `t` performs an operation that ends with the response `r`; `none` if it cannot. -/
def exec (t : Tid) : (o : ClientOp) → o.Resp → ClientState → Option ClientState
  | .leaseAcquire, reason, s =>
      whenever (reason = s.leaseReason)
        (if reason = .active then { s with inFlight := s.inFlight + 1 } else s)
  | .leaseRelease, _, s => some { s with inFlight := s.inFlight - 1 }
  | .recreateEnter, e, s =>
      whenever (e = s.entry) (if e = .won then { s with recreating := true } else s)
  | .recreateDrain _, drained, s => whenever (drained = decide (s.inFlight = 0)) s
  | .guardConstruct, _, s => some { s with isReset := Function.update s.isReset t false }
  | .guardReset, _, s => some (s.releaseGuard t)
  | .guardDestroy, _, s => some (s.releaseGuard t)
  | .shutdownEnter, e, s =>
      whenever (e = s.entry)
        (if e = .won then { s with terminated := true, shutdownInFlight := s.shutdownInFlight + 1 }
          else s)
  | .shutdownLeave, _, s =>
      some (if 0 < s.shutdownInFlight then
        { s with shutdownInFlight := s.shutdownInFlight - 1 } else s)
  | .terminate, settled, s => whenever (settled = s.isSettled) { s with terminated := true }
  | .destructorWait, _, s => whenever (s.isSettled = true) s
  | .pImplCopy, i, s => whenever (i = s.pImpl) (i.elim s s.retain)
  | .pImplTake, i, s => whenever (i = s.pImpl) { s with pImpl := none }
  | .pImplAdopt _, .terminated, s => whenever (s.terminated = true) s
  | .pImplAdopt candidate, .replaced old, s =>
      whenever (s.terminated = false ∧ old = s.pImpl)
        { s.retain candidate with pImpl := some candidate }
  | .pImplLifeState, life, s => whenever (life = s.current.map (·.lifeState)) s
  | .pImplConfig, config, s => whenever (config = s.current.map (·.config)) s
  | .pImplExists, b, s => whenever (b = s.pImpl.isSome) s
  | .allocate, _, s => some s
  | .clientNew, .ok (some client), s =>
      whenever (client ∉ s.clients) { s with clients := client :: s.clients }
  | .clientNew, .ok none, s => some s
  | .clientNew, .error _, s => some s
  | .clientDelete client, _, s => some { s with clients := s.clients.erase client }
  | .implConstruct config client, i, s =>
      whenever (s.impls i = none)
        ((s.setImpl i (.construct config s.endpointUrl client)).retain i)
  | .retain i, _, s => some (s.retain i)
  | .lockSelf i, found, s =>
      whenever (found = decide (s.refs i ≠ 0)) (if found then s.retain i else s)
  | .release i, last, s => whenever (last = decide (s.refs i = 1)) (s.drop i)
  | .shutdownBegin _ _, _, s => some s
  | .impl i o, r, s => (s.impls i).bind fun w => (w.exec t o r).map (s.setImpl i)

@[simp]
theorem whenever_eq_some {c : Prop} [Decidable c] {s s' : ClientState} :
    whenever c s = some s' ↔ c ∧ s = s' := by
  simp [whenever]

end ClientState

end OPCUAPacking
