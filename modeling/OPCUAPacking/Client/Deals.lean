import OPCUAPacking.Client.Grip

/-!
# Deals

What an operation that a thread is allowed changes: its own grip, and the part of the state that
says who has what.

* `Estate` — the pointers, the clients, and of each `Impl` its client, its watchdog and its stop
  flag.
* `Deal t ℓ y ℓ' y'` — what one operation of thread `t` may change.
* `ClientState.deal_of_exec` — every allowed operation is one of these.
-/

namespace OPCUAPacking

open Interleaving

/-- What an `Impl` has. -/
structure Assets where
  client : Option Handle
  watchdog : Watchdog
  stop : Bool

/-- The watchdog is joined, or there is none, and the stop flag is set. -/
def Assets.IsDown (k : Assets) : Prop := k.watchdog.joinable = false ∧ k.stop = true

/-- Who has what. -/
structure Estate where
  pImpl : Option ImplId
  refs : ImplId → Nat
  clients : List Handle
  impls : ImplId → Option Assets

namespace Estate

/-- One more `shared_ptr`. -/
def retain (y : Estate) (i : ImplId) : Estate :=
  { y with refs := Function.update y.refs i (y.refs i + 1) }

/-- One `shared_ptr` less. -/
def drop (y : Estate) (i : ImplId) : Estate :=
  { y with refs := Function.update y.refs i (y.refs i - 1) }

/-- Replace what an `Impl` has. -/
def setImpl (y : Estate) (i : ImplId) (k : Assets) : Estate :=
  { y with impls := Function.update y.impls i (some k) }

end Estate

/-- What an `Impl` has in a state. -/
def ImplState.assets (s : ImplState) : Assets := ⟨s.impl, s.watchdog, s.stop⟩

/-- Who has what in a state. -/
def ClientState.estate (s : ClientState) : Estate :=
  ⟨s.pImpl, s.refs, s.clients, fun i => (s.impls i).map (·.assets)⟩

/-- What an operation of thread `t` may change. -/
inductive Deal (t : Tid) : Grip → Estate → Grip → Estate → Prop where
  /-- Nothing. -/
  | stay {ℓ : Grip} {y : Estate} : Deal t ℓ y ℓ y
  /-- `pImpl` is copied. -/
  | copy {ℓ : Grip} {y : Estate} {i : ImplId} (hy : y.pImpl = some i) :
      Deal t ℓ y (ℓ.hold i) (y.retain i)
  /-- `pImpl` is moved out. -/
  | take {ℓ : Grip} {y : Estate} {i : ImplId} (hℓ : ℓ.charge = .none) (hy : y.pImpl = some i) :
      Deal t ℓ y { ℓ.hold i with charge := .held i } { y with pImpl := none }
  /-- A candidate replaces an `Impl`. -/
  | replace {ℓ : Grip} {y : Estate} {i j : ImplId} (hℓ : ℓ.charge.impl? = some j)
      (hj : j ∈ ℓ.owns) (hy : y.pImpl = some i) :
      Deal t ℓ y { ℓ.hold i with charge := .held i } { y.retain j with pImpl := some j }
  /-- It takes an empty place. -/
  | fill {ℓ : Grip} {y : Estate} {j : ImplId} (hℓ : ℓ.charge.impl? = some j) (hj : j ∈ ℓ.owns)
      (hy : y.pImpl = none) :
      Deal t ℓ y { ℓ with charge := .none } { y.retain j with pImpl := some j }
  /-- An `Impl` is constructed. -/
  | construct {ℓ : Grip} {y : Estate} {i : ImplId} {client : Handle} (hℓ : ℓ.raw = some client)
      (hcharge : ℓ.charge = .none) (hy : y.impls i = none) :
      Deal t ℓ y { ℓ.hold i with raw := none, charge := .fresh i }
        ((y.setImpl i ⟨some client, .none, false⟩).retain i)
  /-- A pointer is copied. -/
  | retain {ℓ : Grip} {y : Estate} {i : ImplId} (hℓ : i ∈ ℓ.owns) :
      Deal t ℓ y (ℓ.hold i) (y.retain i)
  /-- A watchdog thread gets a pointer. -/
  | lockSelf {ℓ : Grip} {y : Estate} {i : ImplId} (hℓ : ℓ.early = some i) (hy : y.refs i ≠ 0) :
      Deal t ℓ y { ℓ.hold i with early := none } (y.retain i)
  /-- A pointer is dropped. -/
  | release {ℓ : Grip} {y : Estate} {i : ImplId} (hℓ : i ∈ ℓ.owns) (hcharge : ℓ.charge = .none)
      (hy : y.refs i ≠ 1) : Deal t ℓ y (ℓ.letGo i) (y.drop i)
  /-- The last pointer is dropped. -/
  | releaseLast {ℓ : Grip} {y : Estate} {i : ImplId} (hℓ : i ∈ ℓ.owns) (hending : ℓ.ending = .none)
      (hcharge : ℓ.charge = .none) (hy : y.refs i = 1) :
      Deal t ℓ y { ℓ.letGo i with ending := .begun i } (y.drop i)
  /-- A client is created. -/
  | new {ℓ : Grip} {y : Estate} {client : Handle} (hℓ : ℓ.raw = none) (hy : client ∉ y.clients) :
      Deal t ℓ y { ℓ with raw := some client } { y with clients := client :: y.clients }
  /-- It is deleted. -/
  | delete {ℓ : Grip} {y : Estate} {client : Handle} (hℓ : ℓ.raw = some client) :
      Deal t ℓ y { ℓ with raw := none } { y with clients := y.clients.erase client }
  /-- The destructor releases the client. -/
  | empty {ℓ : Grip} {y : Estate} {i : ImplId} {k : Assets} (hℓ : ℓ.raw = none)
      (hending : ℓ.ending = .begun i) (hy : y.impls i = some k) :
      Deal t ℓ y { ℓ with raw := k.client, ending := .emptied i }
        (y.setImpl i { k with client := none })
  /-- The destructor ends. -/
  | leave {ℓ : Grip} {y : Estate} {i : ImplId} (hℓ : ℓ.ending = .emptied i) :
      Deal t ℓ y { ℓ with ending := .none } y
  /-- The watchdog may not be started any more. -/
  | start {ℓ : Grip} {y : Estate} (i : ImplId) :
      Deal t ℓ y { ℓ with charge := ℓ.charge.start i } y
  /-- It is started. -/
  | create {ℓ : Grip} {y : Estate} {i : ImplId} {k : Assets} (hℓ : ℓ.charge = .fresh i)
      (hy : y.impls i = some k) :
      Deal t ℓ y { ℓ with charge := ℓ.charge.start i } (y.setImpl i { k with watchdog := .created })
  /-- There is nothing to join. -/
  | settle {ℓ : Grip} {y : Estate} {i : ImplId} {k : Assets} (hy : y.impls i = some k)
      (hk : k.watchdog.joinable = false) :
      Deal t ℓ y { ℓ with charge := ℓ.charge.settle i } y
  /-- The watchdog is joined. -/
  | join {ℓ : Grip} {y : Estate} {i : ImplId} {k : Assets} (hy : y.impls i = some k)
      (hk : k.watchdog = .finished) :
      Deal t ℓ y { ℓ with charge := ℓ.charge.settle i } (y.setImpl i { k with watchdog := .joined })
  /-- The thread is the watchdog. -/
  | isSelf {ℓ : Grip} {y : Estate} {i : ImplId} {k : Assets} (hy : y.impls i = some k)
      (hk : k.watchdog = .running t) : Deal t ℓ y { ℓ with self := some i } y
  /-- So it is detached. -/
  | detach {ℓ : Grip} {y : Estate} {i : ImplId} {k : Assets} (hℓ : ℓ.self = some i)
      (hearly : ℓ.early = none) (hy : y.impls i = some k) :
      Deal t ℓ y { ℓ with charge := ℓ.charge.settle i, self := none }
        (y.setImpl i { k with watchdog := .detached })
  /-- The stop flag is set. -/
  | finish {ℓ : Grip} {y : Estate} {i : ImplId} {k : Assets} (hy : y.impls i = some k) :
      Deal t ℓ y { ℓ with charge := ℓ.charge.finish i } (y.setImpl i { k with stop := true })
  /-- The watchdog thread starts. -/
  | begin {ℓ : Grip} {y : Estate} {i : ImplId} {k : Assets} (hℓ : ℓ.early = none)
      (hy : y.impls i = some k) (hk : k.watchdog = .created) :
      Deal t ℓ y { ℓ with early := some i } (y.setImpl i { k with watchdog := .running t })
  /-- It ends. -/
  | finishThread {ℓ : Grip} {y : Estate} {i : ImplId} {k : Assets} (hℓ : ℓ.early = none)
      (hself : ℓ.self = none) (hy : y.impls i = some k) (hk : k.watchdog = .running t) :
      Deal t ℓ y ℓ (y.setImpl i { k with watchdog := .finished })

namespace Estate

/-- Replacing what an `Impl` has by the same changes nothing. -/
theorem setImpl_self {y : Estate} {i : ImplId} {k : Assets} (hy : y.impls i = some k) :
    y.setImpl i k = y := by
  have himpls : Function.update y.impls i (some k) = y.impls :=
    Function.update_eq_self_iff.mpr hy.symm
  exact congrArg (Estate.mk y.pImpl y.refs y.clients) himpls

end Estate

namespace ClientState

theorem estate_setImpl (s : ClientState) (i : ImplId) (w : ImplState) :
    (s.setImpl i w).estate = s.estate.setImpl i w.assets := by
  have himpls : (fun j => (Function.update s.impls i (some w) j).map (·.assets)) =
      Function.update (fun j => (s.impls j).map (·.assets)) i (some w.assets) := by
    funext j
    by_cases hj : j = i
    · subst hj
      simp
    · simp [hj]
  exact congrArg (Estate.mk s.pImpl s.refs s.clients) himpls

end ClientState

/-- The client of an `Impl` and its watchdog thread stay, and `m_stop` is not written. -/
def ImplOp.KeepsAssets : ImplOp → Prop
  | .resetImpl | .watchdogCreate | .watchdogJoin | .watchdogDetach => False
  | .watchdogBegin | .watchdogEnd => False
  | .store .stop _ | .casWeak .stop _ _ | .casStrong .stop _ _ => False
  | _ => True

namespace ImplState

variable {t : Tid} {o : ImplOp} {r : o.Resp} {w w' : ImplState}

/-- Then its assets are the same. -/
theorem assets_of_keeps (ho : o.KeepsAssets) (h : w.exec t o r = some w') :
    w'.assets = w.assets := by
  have hreset : o ≠ .resetImpl := by
    rintro rfl
    exact ho
  have hhandles : ¬o.Handles := fun hhandles => by
    cases o <;> first | exact ho.elim | exact hhandles.elim
  have hwrites : ¬o.Writes .stop := by
    intro hwrites
    cases o with
    | store a v | casWeak a e d | casStrong a e d =>
        obtain rfl : a = .stop := hwrites
        exact ho
    | _ => exact hwrites
  have hframe := frame_of_exec h
  have hstop : w'.stop = w.stop := get_of_not_writes h hwrites
  unfold assets
  rw [hframe.impl hreset, hframe.watchdog hhandles, hstop]

variable {s : ClientState} {i : ImplId} {ℓ : Grip}

/-- And so is the estate. -/
theorem estate_of_keeps (hi : s.impls i = some w) (ho : o.KeepsAssets)
    (h : w.exec t o r = some w') :
    (s.setImpl i w').estate = s.estate := by
  rw [ClientState.estate_setImpl, assets_of_keeps ho h]
  exact Estate.setImpl_self (by simp [ClientState.estate, hi])

/-- What an operation of an `Impl` changes. -/
theorem deal_of_exec (hi : s.impls i = some w) (h : w.exec t o r = some w')
    (hallows : ℓ.AllowsImpl i o r) :
    Deal t ℓ s.estate (ℓ.trackImpl i o r) (s.setImpl i w').estate := by
  have hy : s.estate.impls i = some w.assets := by simp [ClientState.estate, hi]
  have hkeeps : o.KeepsAssets → (s.setImpl i w').estate = s.estate := fun ho =>
    estate_of_keeps hi ho h
  -- the operations on other members are no deal at all
  cases o with
  | store a v =>
      cases a with
      | stop =>
          cases h
          obtain ⟨rfl, -⟩ := hallows
          rw [ClientState.estate_setImpl]
          exact .finish hy
      | _ =>
          rw [hkeeps trivial]
          exact .stay
  | casWeak a e d | casStrong a e d =>
      cases a with
      | stop => exact hallows.elim
      | _ =>
          rw [hkeeps trivial]
          exact .stay
  | unlock m =>
      rw [hkeeps trivial]
      cases m with
      | lock =>
          simp only [Grip.trackImpl]
          split_ifs with hending
          · exact .leave hending
          · exact .stay
      | _ => exact .stay
  | resetImpl =>
      obtain ⟨rfl, rfl⟩ := whenever_eq_some.mp h
      rw [ClientState.estate_setImpl]
      exact .empty hallows.1 hallows.2 hy
  | watchdogCreate =>
      rw [ClientState.estate_setImpl]
      rcases r with e | u
      · cases h
        rw [Estate.setImpl_self hy]
        exact .start i
      · cases h
        exact .create hallows.1 hy
  | watchdogJoinable =>
      rw [hkeeps trivial]
      obtain ⟨hr, -⟩ := whenever_eq_some.mp h
      cases r with
      | true => exact .stay
      | false => exact .settle hy hr.symm
  | watchdogIsSelf =>
      rw [hkeeps trivial]
      obtain ⟨hr, -⟩ := whenever_eq_some.mp h
      cases r with
      | true =>
          simp only [Grip.trackImpl]
          split_ifs
          · exact .isSelf hy (of_decide_eq_true hr.symm)
          · exact .stay
      | false => exact .stay
  | watchdogJoin =>
      obtain ⟨hfinished, rfl⟩ := whenever_eq_some.mp h
      rw [ClientState.estate_setImpl]
      exact .join hy hfinished
  | watchdogDetach =>
      cases h
      rw [ClientState.estate_setImpl]
      exact .detach hallows.1 hallows.2.1 hy
  | watchdogBegin =>
      obtain ⟨hcreated, rfl⟩ := whenever_eq_some.mp h
      rw [ClientState.estate_setImpl]
      exact .begin hallows hy hcreated
  | watchdogEnd =>
      simp only [exec, Option.some.injEq] at h
      subst h
      rw [ClientState.estate_setImpl]
      split_ifs with hrunning
      · exact .finishThread hallows.1 hallows.2 hy hrunning
      · rw [Estate.setImpl_self hy]
        exact .stay
  | _ =>
      rw [hkeeps trivial]
      exact .stay

end ImplState

namespace ClientState

variable {t : Tid} {o : ClientOp} {r : o.Resp} {s s' : ClientState} {ℓ : Grip} {h : ClientHistory}

/-- Every allowed operation is a deal. -/
theorem deal_of_exec (hexec : s.exec t o r = some s') (hallows : ℓ.Allows o r) :
    Deal t ℓ s.estate (ℓ.track h o r) s'.estate := by
  cases o with
  | pImplCopy =>
      obtain ⟨rfl, rfl⟩ := whenever_eq_some.mp hexec
      cases hy : s.pImpl with
      | none => exact .stay
      | some i => exact .copy hy
  | pImplTake =>
      obtain ⟨rfl, rfl⟩ := whenever_eq_some.mp hexec
      cases hy : s.pImpl with
      | none =>
          -- `pImpl` was null already: the exchange takes nothing
          rw [show ({ s with pImpl := none } : ClientState).estate = s.estate from
            congrArg (fun p => Estate.mk p _ _ _) hy.symm]
          exact .stay
      | some i => exact .take hallows hy
  | pImplAdopt candidate =>
      obtain ⟨hcharge, howns⟩ := hallows
      cases r with
      | terminated =>
          obtain ⟨-, rfl⟩ := whenever_eq_some.mp hexec
          exact .stay
      | replaced old =>
          obtain ⟨⟨-, hy⟩, rfl⟩ := whenever_eq_some.mp hexec
          cases old with
          | none => exact .fill hcharge howns hy.symm
          | some i => exact .replace hcharge howns hy.symm
  | implConstruct config client =>
      obtain ⟨hnone, rfl⟩ := whenever_eq_some.mp hexec
      -- `make_shared`: no `Impl` had the number `r`, and the thread holds the pointer to it
      have hestate := estate_setImpl s r (.construct config s.endpointUrl client)
      rw [show ((s.setImpl r (.construct config s.endpointUrl client)).retain r).estate =
        (s.setImpl r (.construct config s.endpointUrl client)).estate.retain r from rfl, hestate]
      exact .construct hallows.1 hallows.2 (by simp [estate, hnone])
  | retain i =>
      cases hexec
      exact .retain hallows
  | lockSelf i =>
      obtain ⟨hr, rfl⟩ := whenever_eq_some.mp hexec
      cases r with
      | true => exact .lockSelf hallows (of_decide_eq_true hr.symm)
      | false => exact .stay
  | release i =>
      obtain ⟨howns, -, hending, hcharge⟩ := hallows
      obtain ⟨hr, rfl⟩ := whenever_eq_some.mp hexec
      cases r with
      -- the last pointer leaves the destructor to this thread
      | true => exact .releaseLast howns hending hcharge (of_decide_eq_true hr.symm)
      | false => exact .release howns hcharge (of_decide_eq_false hr.symm)
  | clientNew =>
      rcases r with e | _ | client
      · cases hexec
        exact .stay
      · cases hexec
        exact .stay
      · obtain ⟨hnew, rfl⟩ := whenever_eq_some.mp hexec
        exact .new hallows hnew
  | clientDelete client =>
      cases hexec
      exact .delete hallows
  | shutdownBegin i caller =>
      cases hexec
      exact .start i
  | impl i o =>
      -- the operations of one `Impl` are dealt with above, in terms of its own state
      obtain ⟨w, hi, hw⟩ := Option.bind_eq_some_iff.mp hexec
      obtain ⟨w', hw', rfl⟩ := Option.map_eq_some_iff.mp hw
      exact ImplState.deal_of_exec hi hw' hallows
  | leaseAcquire | recreateEnter | shutdownEnter =>
      obtain ⟨-, rfl⟩ := whenever_eq_some.mp hexec
      split_ifs <;> exact .stay
  | guardReset | guardDestroy =>
      cases hexec
      unfold releaseGuard
      split_ifs <;> exact .stay
  | shutdownLeave =>
      simp only [exec, Option.some.injEq] at hexec
      subst hexec
      split_ifs <;> exact .stay
  | recreateDrain ms | terminate | destructorWait | pImplLifeState | pImplConfig | pImplExists =>
      obtain ⟨-, rfl⟩ := whenever_eq_some.mp hexec
      exact .stay
  | leaseRelease | guardConstruct | allocate =>
      cases hexec
      exact .stay

end ClientState

end OPCUAPacking
