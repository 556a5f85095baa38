import OPCUAPacking.Client.Calls
import OPCUAPacking.Client.Exclusion
import OPCUAPacking.Client.Outcomes
import OPCUAPacking.Client.Refusals
import OPCUAPacking.Impl.Drain

/-!
# Balance

Each guard gives back what it took, on every path and whatever throws. So a call that failed leaves
nothing behind that refuses a later one: what refuses a call is another call that is still running.

* `Scope` — the guards on an `Impl` in whose scope a thread is.
* `Client.scope_runAll` — a thread ends its calls outside of all scopes.
* `each_obstructed` — where an operation has found something taken, another thread was in a scope.
* `balance` — the result about every run.
-/

namespace OPCUAPacking

open Interleaving

/-- The guards on an `Impl` in whose scope a thread is. -/
inductive Scope where
  | outside
  /-- An `InFlightGuard`. -/
  | counted (i : ImplId)
  /-- A `CASGuard` inside it. -/
  | holding (i : ImplId)
  deriving DecidableEq

namespace Scope

/-- The thread is in the scope of an `InFlightGuard` on the `Impl`. -/
def counts (i : ImplId) : Scope → Bool
  | .outside => false
  | .counted j | .holding j => j == i

/-- How an operation of an `Impl` opens and closes scopes. -/
def trackImpl (ℓ : Scope) (i : ImplId) : (o : ImplOp) → o.Resp → Scope
  | .taskInc, _ => .counted i
  | .taskDec, _ => .outside
  | .casStrong .connState _ _, .ok () => .holding i
  | .store .connState _, _ => if ℓ = .holding i then .counted i else ℓ
  | _, _ => ℓ

/-- How an operation does. -/
def track (_ : ClientHistory) (ℓ : Scope) : (o : ClientOp) → o.Resp → Scope
  | .impl i o, r => ℓ.trackImpl i o r
  | _, _ => ℓ

/-- What a thread may do to an `Impl` in its scope. -/
def AllowsImpl (ℓ : Scope) (i : ImplId) : ImplOp → Prop
  | .taskInc | .taskWait _ => ℓ = .outside
  | .taskDec | .load .connState => ℓ = .counted i
  | .casStrong .connState e d => ℓ = .counted i ∧ e = .idle ∧ d = .connecting
  | .store .connState v => v = .idle ∧ (ℓ = .holding i ∨ ℓ = .outside)
  | .casWeak .connState _ _ => False
  | .sdkCall _ c => c.isConnection = true → ℓ = .holding i
  | _ => True

/-- What a thread may do. -/
def Allows (ℓ : Scope) : (o : ClientOp) → o.Resp → Prop
  | .impl i o, _ => ℓ.AllowsImpl i o
  | _, _ => True

end Scope

/-- The scope of thread `t` after a history. -/
def scope (t : Tid) (h : ClientHistory) : Scope := Event.stage Scope.track .outside t h

/-- The protocol of the scopes. -/
abbrev scopeProtocol : Protocol ClientSig (Traced ClientSig ClientState) Scope :=
  Protocol.recorded ClientState.exec Scope.Allows Scope.track fun _ => .outside

/-- The operation does not concern the scopes. -/
def ImplOp.Unscoped : ImplOp → Prop
  | .taskInc | .taskDec | .taskWait _ | .load .connState => False
  | .store .connState _ | .casWeak .connState _ _ | .casStrong .connState _ _ => False
  | .sdkCall _ c => c.isConnection = false
  | _ => True

namespace ImplOp

variable {o : ImplOp}

/-- It is allowed in every scope and leaves it. -/
theorem Unscoped.keeps (ho : o.Unscoped) (ℓ : Scope) (i : ImplId) (r : o.Resp) :
    ℓ.AllowsImpl i o ∧ ℓ.trackImpl i o r = ℓ := by
  cases o with
  | load a | store a v | casWeak a e d | casStrong a e d =>
      cases a <;> first | exact ⟨trivial, rfl⟩ | exact ho.elim
  | sdkCall client c => exact ⟨fun hc => absurd (hc.symm.trans ho) (by decide), rfl⟩
  | taskInc | taskDec | taskWait ms => exact ho.elim
  | _ => exact ⟨trivial, rfl⟩

theorem Quiet.unscoped (ho : o.Quiet) : o.Unscoped := by
  cases o with
  | load a => cases a <;> first | trivial | exact absurd rfl ho.2
  | store a v => cases a <;> trivial
  | sdkCall client c => cases c <;> first | rfl | cases ho
  | _ => trivial

theorem LifeWrite.unscoped (ho : o.LifeWrite) : o.Unscoped := by
  cases o with
  | store a v | casWeak a e d | casStrong a e d => cases a <;> trivial
  | _ => trivial

theorem WordWrite.unscoped (ho : o.WordWrite) : o.Unscoped := by
  cases o with
  | load a | casWeak a e d | casStrong a e d => cases a <;> trivial
  | _ => trivial

end ImplOp

namespace Client

variable {α : Type} {t : Tid} {i : ImplId} {ℓ : Scope}

/-! ### The functions of an `Impl` -/

/-- In the scope `ℓ`, the program on the `Impl` ends where it began. -/
abbrev InScope (t : Tid) (i : ImplId) (ℓ : Scope) (α : Type) (p : Impl α) : Prop :=
  scopeProtocol.Keeps (· = ℓ) t (onImpl i p)

theorem closed_inScope (t : Tid) (i : ImplId) (ℓ : Scope) :
    @Proc.Closed ImplSig Exn (InScope t i ℓ) :=
  (Protocol.closed_keeps scopeProtocol (· = ℓ) t).handle _

/-- One operation that keeps the scope. -/
theorem inScope_perform {o : ImplOp} (ho : ∀ r, ℓ.AllowsImpl i o ∧ ℓ.trackImpl i o r = ℓ) :
    InScope t i ℓ _ (Impl.perform o) := by
  rintro _ rfl
  exact Protocol.follows_recorded_op fun _ r => ho r

/-- The functions that open no scope. -/
theorem blocks_inScope (t : Tid) (i : ImplId) (ℓ : Scope) : Impl.Blocks (InScope t i ℓ) := by
  have hK := closed_inScope t i ℓ
  have hquiet : ∀ o : ImplOp, o.Quiet → InScope t i ℓ _ (Impl.perform o) := fun o ho =>
    inScope_perform (ho.unscoped.keeps ℓ i)
  have hlife : ∀ o : ImplOp, o.LifeWrite → InScope t i ℓ _ (Impl.perform o) := fun o ho =>
    inScope_perform (ho.unscoped.keeps ℓ i)
  have hword : ∀ o : ImplOp, o.WordWrite → InScope t i ℓ _ (Impl.perform o) := fun o ho =>
    inScope_perform (ho.unscoped.keeps ℓ i)
  exact Impl.blocks_of_ops hK hquiet hlife (Impl.closed_runCallback hK hquiet hlife hword)
    (Impl.closed_probe hK hquiet hlife hword)

/-- An SDK call. -/
theorem inScope_sdk (client : Handle) {c : SdkCall} (hc : c.isConnection = true → ℓ = .holding i) :
    InScope t i ℓ _ (Impl.sdk client c) :=
  Impl.closed_sdk (closed_inScope t i ℓ) (blocks_inScope t i ℓ).runCallback
    (inScope_perform (o := .sdkCall client c) fun _ => ⟨hc, rfl⟩)
    (inScope_perform (o := .sdkReturn client c) fun _ => ⟨trivial, rfl⟩)

/-- The call of a service. -/
theorem inScope_service (client : Handle) {c : SdkCall} (hc : c.isConnection = false) :
    InScope t i ℓ _ (Impl.withLock .sdkMutex (Impl.sdk client c)) :=
  (blocks_inScope t i ℓ).withLock .sdkMutex
    (inScope_sdk client fun h => absurd (h.symm.trans hc) (by decide))

/-- A look at `m_connState`, inside an `InFlightGuard`. -/
theorem inScope_connState : InScope t i (.counted i) _ (Impl.load .connState) :=
  inScope_perform fun _ => ⟨rfl, rfl⟩

/-- In the scope of a `CASGuard` the connection may be opened and closed. -/
theorem driving_inScope (t : Tid) (i : ImplId) : Impl.Driving (InScope t i (.holding i)) where
  toBlocks := blocks_inScope t i _
  sdkConnection client _ _ := inScope_sdk client fun _ => rfl

/-- The body of a scope, and the operation that closes it. -/
theorem scope_ensuring {release : Impl Unit} {body : Impl α} {m : Scope} (hb : InScope t i m α body)
    (hr : scopeProtocol.Follows t (onImpl i release) (fun u ℓ' => u = .ok () ∧ ℓ' = ℓ) m) :
    scopeProtocol.Follows t (onImpl i (Proc.ensuring release body)) (fun _ ℓ' => ℓ' = ℓ) m := by
  rw [show onImpl i (Proc.ensuring release body) =
    Proc.ensuring (onImpl i release) (onImpl i body) from Proc.handle_ensuring _ release body]
  refine Protocol.Follows.ensuring _ (hb m rfl) ?_
  rintro r _ rfl
  exact hr

/-- The scope of a `CASGuard`. -/
theorem inScope_singleFlight {busy : ConnState → α} {body : Impl α}
    (hb : InScope t i (.holding i) α body) :
    InScope t i (.counted i) α (Impl.singleFlight busy body) := by
  rintro _ rfl
  refine Protocol.follows_recorded_op fun es r => ⟨⟨rfl, rfl, rfl⟩, ?_⟩
  rcases r with observed | u
  · exact rfl
  · exact scope_ensuring hb
      (Protocol.follows_recorded_op fun es' _ => ⟨⟨rfl, .inl rfl⟩, rfl, if_pos rfl⟩)

/-- That of an `InFlightGuard`. -/
theorem inScope_inFlight {body : Impl α} (hb : InScope t i (.counted i) α body) :
    InScope t i .outside α (Impl.inFlight body) := by
  rintro _ rfl
  refine Protocol.follows_recorded_op fun es _ => ⟨rfl, ?_⟩
  exact scope_ensuring hb (Protocol.follows_recorded_op fun es' _ => ⟨rfl, rfl, rfl⟩)

theorem inScope_connect : InScope t i .outside _ Impl.connect := by
  have hK := blocks_inScope t i (.counted i)
  refine inScope_inFlight (hK.bind hK.getEffectiveStopSignal fun _ => Proc.Composed.ite (hK.pure _)
    (hK.bind hK.connectClient fun r => ?_))
  cases r with
  | error e => exact hK.pure _
  | ok client => exact inScope_singleFlight ((driving_inScope t i).connectHeld client)

theorem inScope_disconnect : InScope t i .outside _ Impl.disconnect := by
  have hK := blocks_inScope t i (.counted i)
  refine inScope_inFlight (hK.bind hK.disconnectClient fun r => ?_)
  cases r with
  | error e => exact hK.pure _
  | ok client => exact inScope_singleFlight ((driving_inScope t i).disconnectHeld client)

theorem inScope_batchRead (nodes : List ReadValue) :
    InScope t i .outside _ (Impl.batchRead nodes) := by
  have hK := blocks_inScope t i .outside
  exact hK.andThen (hK.checkStop _) fun _ => inScope_inFlight
    ((blocks_inScope t i _).batchReadCounted inScope_connState
      (fun client _ => inScope_service client rfl) nodes)

theorem inScope_batchWrite (nodes : List WriteValue) :
    InScope t i .outside _ (Impl.batchWrite nodes) := by
  have hK := blocks_inScope t i .outside
  exact hK.andThen (hK.checkStop _) fun _ => inScope_inFlight
    ((blocks_inScope t i _).batchWriteCounted inScope_connState
      (fun client _ => inScope_service client rfl) nodes)

theorem members_inScope (t : Tid) (i : ImplId) : Impl.Members (InScope t i .outside) :=
  Impl.members_of_blocks (closed_inScope t i _) (blocks_inScope t i _) inScope_connect
    inScope_disconnect inScope_batchRead
    (Impl.composed_setGiveUpSignal (closed_inScope t i _).toComposed
      (fun _ ha => inScope_perform ((Atomic.quiet_load ha).unscoped.keeps _ i))
      fun _ ho => inScope_perform (ho.unscoped.keeps _ i))

/-- The operations that start and stop an `Impl` are performed outside. -/
theorem inScope_lifecycle (o : ImplOp) (ho : o.Lifecycle) :
    InScope t i .outside _ (Impl.perform o) := by
  refine inScope_perform fun r => ?_
  cases o with
  | store a v => cases a <;> first | exact ⟨trivial, rfl⟩ | exact ho.elim
  | taskWait ms => exact ⟨rfl, rfl⟩
  | watchdogCreate | watchdogJoin | watchdogDetach | watchdogBegin | watchdogEnd =>
      exact ⟨trivial, rfl⟩
  | _ => exact ho.elim

/-- So are those that configure it: `m_connState` is written without having been won. -/
theorem inScope_configures (o : ImplOp) (ho : o.Configures) :
    InScope t i .outside _ (Impl.perform o) := by
  refine inScope_perform fun r => ?_
  cases o with
  | writeConfig config => exact ⟨trivial, rfl⟩
  | store a v =>
      cases a <;> first | exact ⟨⟨ho, .inr rfl⟩, rfl⟩ | exact ⟨trivial, rfl⟩
  | _ => exact ho.elim

/-! ### The calls -/

/-- An operation of the client itself. -/
theorem scope_perform {o : ClientOp} (ho : o.Common ∨ o.Recreates) :
    scopeProtocol.Keeps (· = .outside) t (perform o) := by
  refine Protocol.keeps_recorded_perform fun es ℓ r hℓ => ?_
  cases o <;> first | exact ⟨trivial, hℓ⟩ | exact (ho.elim id id).elim

/-- Every call ends outside of all scopes, as it began. -/
theorem scope_runAll (t : Tid) (cs : List ClientCall) :
    scopeProtocol.Keeps (· = .outside) t (ClientCall.runAll cs) := by
  have hK : Parts fun _ p => scopeProtocol.Keeps (· = .outside) t p :=
    { Protocol.closed_keeps scopeProtocol _ t with
      common := fun _ ho => scope_perform (.inl ho)
      member := members_inScope t
      shutdown := fun i => (blocks_inScope t i _).shutdown inScope_lifecycle
      destroy := fun i => (blocks_inScope t i _).destroy inScope_lifecycle
        (inScope_perform (o := .resetImpl) fun _ => ⟨trivial, rfl⟩)
      watchdogBegin := fun i => inScope_lifecycle (i := i) .watchdogBegin trivial
      watchdogEnd := fun i => inScope_lifecycle (i := i) .watchdogEnd trivial }
  refine hK.runAll cs fun c _ => hK.run c (fun nodes _ => ?_) ?_
  · exact hK.call _ fun i =>
      Impl.closed_catchingBatch (closed_inScope t i _) (inScope_batchWrite nodes)
  · exact fun _ => hK.recreateGiveUpClient (fun _ ho => scope_perform (.inr ho))
      (fun i => (blocks_inScope t i _).toPolling.configureClient (closed_inScope t i _)
        inScope_configures true)
      fun i => (blocks_inScope t i _).toPolling.startWatchdog (closed_inScope t i _)
        (inScope_configures (.store .running true) rfl) (inScope_lifecycle .watchdogCreate trivial)

end Client

/-! ### What the members count -/

/-- `m_taskCounter` of an `Impl`, once it is constructed. -/
def ClientState.tasks (s : ClientState) (i : ImplId) : Nat := (s.impls i).elim 0 (·.taskCounter)

/-- `m_connState` of an `Impl`, once it is constructed. -/
def ClientState.connState (s : ClientState) (i : ImplId) : ConnState :=
  (s.impls i).elim .idle (·.connState)

/-- The threads that are in the scope of an `InFlightGuard` on an `Impl`. -/
def inFlightTids (i : ImplId) (h : ClientHistory) : Finset Tid :=
  Event.census Scope.track .outside (Scope.counts i) h

/-- The members of the `Impl`s agree with the scopes. -/
structure ScopeInv (h : ClientHistory) (s : ClientState) : Prop where
  counted : ∀ i, s.tasks i = (inFlightTids i h).card
  held : ∀ i, s.connState i = .connecting → ∃ t, scope t h = .holding i

variable {t u : Tid} {o : ClientOp} {r : o.Resp} {s s' : ClientState} {h : ClientHistory}
  {i j : ImplId} {ℓ : Scope} {w w' : ImplState}

theorem scope_cons_self : scope t (⟨t, o, r⟩ :: h) = (scope t h).track h o r :=
  @Event.stage_cons_self ClientSig Scope Scope.track .outside t o r h

theorem scope_cons_ne (hu : t ≠ u) : scope u (⟨t, o, r⟩ :: h) = scope u h :=
  @Event.stage_cons_ne ClientSig Scope Scope.track .outside u t hu o r h

theorem mem_inFlightTids : t ∈ inFlightTids i h ↔ (scope t h).counts i = true :=
  Event.mem_census rfl

theorem card_inFlightTids_cons :
    ((inFlightTids i (⟨t, o, r⟩ :: h)).card : Int) = (inFlightTids i h).card +
      (if ((scope t h).track h o r).counts i then 1 else 0) -
      (if (scope t h).counts i then 1 else 0) :=
  @Event.card_census_cons ClientSig Scope Scope.track .outside (Scope.counts i) t h rfl o r

namespace Scope

@[simp]
theorem counts_counted : (counted i).counts j = true ↔ i = j := by simp [counts]

@[simp]
theorem counts_outside : outside.counts j = false := rfl

/-- An operation that touches no counter leaves the thread counted or not. -/
theorem counts_of_exec {o : ImplOp} {r : o.Resp} (hallows : ℓ.AllowsImpl j o)
    (hinc : o ≠ .taskInc) (hdec : o ≠ .taskDec) (i : ImplId) :
    (ℓ.trackImpl j o r).counts i = ℓ.counts i := by
  cases o with
  | taskInc => exact absurd rfl hinc
  | taskDec => exact absurd rfl hdec
  | store a v =>
      cases a with
      | connState =>
          rw [trackImpl]
          split_ifs with hℓ
          · rw [hℓ]
            rfl
          · rfl
      | _ => rfl
  | casStrong a e d =>
      cases a with
      | connState =>
          rw [hallows.1]
          rcases r with e | u <;> rfl
      | _ => rcases r with e | u <;> rfl
  | _ => rfl

/-- So does one that touches the counter of another `Impl`. -/
theorem counts_of_ne (hij : i ≠ j) {o : ImplOp} (hallows : ℓ.AllowsImpl j o) (r : o.Resp) :
    (ℓ.trackImpl j o r).counts i = ℓ.counts i := by
  have hoff : (counted j).counts i = false := Bool.eq_false_iff.mpr fun h =>
    hij (counts_counted.mp h).symm
  by_cases hinc : o = .taskInc
  · subst hinc
    obtain rfl : ℓ = .outside := hallows
    exact hoff
  by_cases hdec : o = .taskDec
  · subst hdec
    obtain rfl : ℓ = .counted j := hallows
    exact hoff.symm
  exact counts_of_exec hallows hinc hdec i

/-- The counter of an `Impl` goes up when the thread comes to be counted, and down when it ceases to
be. -/
theorem counter_of_exec {o : ImplOp} {r : o.Resp} (hw : w.exec t o r = some w')
    (hallows : ℓ.AllowsImpl i o) (hpos : ℓ.counts i = true → 0 < w.taskCounter) :
    (w'.taskCounter : Int) = w.taskCounter + (if (ℓ.trackImpl i o r).counts i then 1 else 0) -
      (if ℓ.counts i then 1 else 0) := by
  have hcounter := ImplState.taskCounter_of_exec hw
  have hon : (counted i).counts i = true := counts_counted.mpr rfl
  by_cases hinc : o = .taskInc
  · subst hinc
    obtain rfl : ℓ = .outside := hallows
    rw [hcounter, show (outside.trackImpl i .taskInc r).counts i = true from hon]
    simp
  by_cases hdec : o = .taskDec
  · subst hdec
    obtain rfl : ℓ = .counted i := hallows
    have h1 := hpos hon
    rw [hcounter, show ((counted i).trackImpl i .taskDec r).counts i = false from rfl, hon]
    simp only [Bool.false_eq_true, if_false, if_true]
    omega
  · rw [counts_of_exec hallows hinc hdec i]
    have hsame : w'.taskCounter = w.taskCounter := by
      cases o <;> first | exact hcounter | exact absurd rfl hinc | exact absurd rfl hdec
    omega

/-- The operations that do not write `m_connState` leave the thread holding what it holds. -/
theorem holding_of_not_writes {o : ImplOp} {r : o.Resp} (hallows : ℓ.AllowsImpl j o)
    (hℓ : ℓ = .holding i) (hwrites : j = i → ¬o.Writes .connState) :
    ℓ.trackImpl j o r = .holding i := by
  subst hℓ
  cases o with
  | taskInc | taskDec => cases hallows
  | store a v =>
      cases a with
      | connState =>
          refine if_neg ?_
          rintro ⟨⟩
          exact hwrites rfl rfl
      | _ => rfl
  | casStrong a e d =>
      cases a with
      | connState => cases hallows.1
      | _ => rcases r with e | u <;> rfl
  | _ => rfl

/-- Who leaves an `Impl` CONNECTING holds it, unless it was CONNECTING before and held by
another. -/
theorem holding_of_exec {o : ImplOp} {r : o.Resp} (hw : w.exec t o r = some w')
    (hallows : ℓ.AllowsImpl i o) (hconn : w'.connState = .connecting) :
    ℓ.trackImpl i o r = .holding i ∨ w.connState = .connecting ∧ ℓ ≠ .holding i := by
  by_cases hwrites : o.Writes .connState
  · cases o with
    | store a v =>
        obtain rfl : a = .connState := hwrites
        obtain rfl := hallows.1
        cases hw
        cases hconn
    | casStrong a e d =>
        obtain rfl : a = .connState := hwrites
        obtain ⟨rfl, -, -⟩ := hallows
        -- the one exchange that takes IDLE to CONNECTING: it wins the scope, or changes nothing
        rcases r with observed | u
        · obtain ⟨-, rfl⟩ := ImplState.whenever_eq_some.mp hw
          exact .inr ⟨hconn, by rintro ⟨⟩⟩
        · exact .inl rfl
    | casWeak a e d =>
        obtain rfl : a = .connState := hwrites
        exact hallows.elim
    | _ => exact hwrites.elim
  · by_cases hℓ : ℓ = .holding i
    · exact .inl (holding_of_not_writes hallows hℓ fun _ => hwrites)
    · exact .inr ⟨(ImplState.get_of_not_writes hw hwrites).symm.trans hconn, hℓ⟩

end Scope

namespace ScopeInv

/-- An operation that changes no scope, and nothing that the members count. -/
theorem same (hinv : ScopeInv h s) (htrack : (scope t h).track h o r = scope t h)
    (htasks : ∀ i, s'.tasks i = s.tasks i) (hconn : ∀ i, s'.connState i = s.connState i) :
    ScopeInv (⟨t, o, r⟩ :: h) s' where
  counted i := by
    have hcard := card_inFlightTids_cons (t := t) (o := o) (r := r) (h := h) (i := i)
    rw [htrack] at hcard
    rw [htasks i, hinv.counted i]
    omega
  held i hi := by
    obtain ⟨u, hu⟩ := hinv.held i ((hconn i).symm.trans hi)
    refine ⟨u, ?_⟩
    by_cases htu : t = u
    · subst htu
      rw [scope_cons_self, htrack, hu]
    · rwa [scope_cons_ne htu]

/-- An operation of an `Impl` counts its thread as its counter does. -/
theorem counted_impl {o : ImplOp} {r : o.Resp} (hinv : ScopeInv h s) (hi : s.impls j = some w)
    (hw : w.exec t o r = some w') (hallows : (scope t h).AllowsImpl j o) (i : ImplId) :
    (s.setImpl j w').tasks i = (inFlightTids i (⟨t, .impl j o, r⟩ :: h)).card := by
  have hbefore := hinv.counted i
  have hcard := card_inFlightTids_cons (t := t) (o := .impl j o) (r := r) (h := h) (i := i)
  change _ = _ + (if ((scope t h).trackImpl j o r).counts i then 1 else 0) - _ at hcard
  by_cases hij : i = j
  · subst hij
    have htasks : s.tasks i = w.taskCounter := by simp [ClientState.tasks, hi]
    have htasks' : (s.setImpl i w').tasks i = w'.taskCounter := by
      simp [ClientState.tasks, ClientState.setImpl]
    have hcounter := Scope.counter_of_exec hw hallows fun hcounts => by
      rw [← htasks, hbefore]
      exact Finset.card_pos.mpr ⟨t, mem_inFlightTids.mpr hcounts⟩
    omega
  · have htasks : (s.setImpl j w').tasks i = s.tasks i := by
      simp [ClientState.tasks, ClientState.setImpl, hij]
    rw [Scope.counts_of_ne hij hallows] at hcard
    omega

/-- An operation of an `Impl`. -/
theorem impl {o : ImplOp} {r : o.Resp} (hinv : ScopeInv h s) (hi : s.impls j = some w)
    (hw : w.exec t o r = some w') (hallows : (scope t h).AllowsImpl j o) :
    ScopeInv (⟨t, .impl j o, r⟩ :: h) (s.setImpl j w') where
  counted := hinv.counted_impl hi hw hallows
  held i hconn := by
    by_cases hij : i = j
    · subst hij
      have hconn' : w'.connState = .connecting := by
        simpa [ClientState.connState, ClientState.setImpl] using hconn
      rcases Scope.holding_of_exec hw hallows hconn' with hwon | ⟨hbefore, hnot⟩
      · exact ⟨t, scope_cons_self.trans hwon⟩
      · obtain ⟨u, hu⟩ := hinv.held i (by simpa [ClientState.connState, hi] using hbefore)
        refine ⟨u, (scope_cons_ne ?_).trans hu⟩
        rintro rfl
        exact hnot hu
    · obtain ⟨u, hu⟩ := hinv.held i
        (by simpa [ClientState.connState, ClientState.setImpl, hij] using hconn)
      refine ⟨u, ?_⟩
      by_cases htu : t = u
      · subst htu
        exact scope_cons_self.trans
          (Scope.holding_of_not_writes hallows hu fun hji => absurd hji.symm hij)
      · rwa [scope_cons_ne htu]

/-- Every operation keeps the agreement. -/
theorem step (hinv : ScopeInv h s) (hexec : s.exec t o r = some s')
    (hallows : (scope t h).Allows o r) : ScopeInv (⟨t, o, r⟩ :: h) s' := by
  by_cases hbuilds : o.Builds
  · cases o with
    | impl j o =>
        obtain ⟨w, hi, hw⟩ := Option.bind_eq_some_iff.mp hexec
        obtain ⟨w', hw', rfl⟩ := Option.map_eq_some_iff.mp hw
        exact hinv.impl hi hw' hallows
    | implConstruct config client =>
        obtain ⟨hnone, rfl⟩ := ClientState.whenever_eq_some.mp hexec
        -- what the constructor writes is what an `Impl` that is not there counts
        have hnew : ∀ {β : Type} (f : ImplState → β) (b : β),
            f (.construct config s.endpointUrl client) = b → ∀ i,
              (Function.update s.impls r (some (.construct config s.endpointUrl client)) i).elim b
                f = (s.impls i).elim b f := by
          intro β f b hb i
          by_cases hir : i = r
          · subst hir
            simpa [hnone] using hb
          · rw [Function.update_of_ne hir]
        exact hinv.same rfl (hnew _ _ rfl) (hnew _ _ rfl)
    | _ => exact hbuilds.elim
  · have himpls := (ClientState.frame_of_exec hexec).impls hbuilds
    refine hinv.same ?_ (fun i => ?_) fun i => ?_
    · cases o <;> first | rfl | exact absurd trivial hbuilds
    · rw [ClientState.tasks, himpls, ClientState.tasks]
    · rw [ClientState.connState, himpls, ClientState.connState]

end ScopeInv

/-! ### Runs -/

variable {calls : Tid → List ClientCall} {endpointUrl : String} {c : ClientPool}

/-- A client whose `Impl` is at rest satisfies the invariant. -/
theorem scopeInv_start (hzero : w.taskCounter = 0) (hidle : w.connState = .idle) :
    ScopeInv [] (ClientState.start endpointUrl w) where
  counted i := by
    by_cases hi : i = 0
    · subst hi
      exact hzero
    · simp [ClientState.tasks, ClientState.start, hi, inFlightTids, Event.census]
  held i hconn := by
    by_cases hi : i = 0
    · subst hi
      exact absurd (hidle.symm.trans hconn) (by decide)
    · simp [ClientState.connState, ClientState.start, hi] at hconn

/-- It holds in every run; every operation was allowed, and a thread that has returned is
outside. -/
theorem scopeInv_of_reach (hzero : w.taskCounter = 0) (hidle : w.connState = .idle)
    (hc : ClientPool.Reach (.start calls (.start endpointUrl w)) c) :
    ScopeInv c.state.history c.state.world ∧
      Event.Each (fun es e => (scope e.tid es).Allows e.op e.resp) c.state.history ∧
        ∀ t a, c.Returned t a → scope t c.state.history = .outside := by
  have hfollows : ∀ u, scopeProtocol.Follows u
      ((ClientPool.start calls (.start endpointUrl w)).pool u) (fun _ ℓ => ℓ = .outside) .outside :=
    fun u => Client.scope_runAll u (calls u) .outside rfl
  refine ⟨?_, Protocol.recorded_each (Q := fun _ _ (ℓ : Scope) => ℓ = .outside) rfl hfollows hc⟩
  refine Protocol.recorded_invariant
    (fun s : Traced ClientSig ClientState => ScopeInv s.history s.world)
    (Q := fun _ _ (ℓ : Scope) => ℓ = .outside) rfl hfollows (scopeInv_start hzero hidle) ?_ hc
  intro t o r s s' hinv hs hallows
  rw [hs.history_eq]
  exact hinv.step hs.exec_eq hallows

/-- The thread is in the scope of no guard. -/
def IsOutside (t : Tid) (h : ClientHistory) : Prop :=
  (role t h).rests = true ∧ scope t h = .outside

/-- A thread that has won something is not at rest. -/
theorem Role.rests_eq_false {ℓ : Role}
    (hℓ : ℓ.leases = true ∨ ℓ.recreates = true ∨ ℓ.closes = true) : ℓ.rests = false := by
  cases ℓ <;> revert hℓ <;> decide

/-- Where an `Impl` is counted by somebody, a thread is in a scope. -/
theorem ScopeInv.exists_counted (hinv : ScopeInv h s) (hi : s.tasks i ≠ 0) :
    ∃ u, (scope u h).counts i = true := by
  rw [hinv.counted i] at hi
  obtain ⟨u, hu⟩ := Finset.card_pos.mp (Nat.pos_of_ne_zero hi)
  exact ⟨u, mem_inFlightTids.mp hu⟩

/-- What an operation of a client finds taken, another thread has won. -/
theorem ExclusionInv.obstructed (hinv : ExclusionInv h s.sync) (hexec : s.exec t o r = some s')
    (hrole : (role t h).Allows o r) (ho : o.obstructed r = true) :
    (∃ i p, o = .impl i p) ∨ ∃ u, u ≠ t ∧ (role u h).rests = false := by
  -- the thread itself is at rest, or still before the end of its drain
  have hrecreating : s.recreating = true → (role t h).rests = true →
      ∃ u, u ≠ t ∧ (role u h).rests = false := by
    intro hset ht
    obtain ⟨u, hu⟩ := hinv.recreating.mp hset
    have hrests := Role.rests_eq_false (.inr (.inl hu))
    exact ⟨u, fun hut => absurd (hrests.symm.trans (hut ▸ ht)) (by decide), hrests⟩
  cases o with
  | leaseAcquire =>
      obtain ⟨hreason, -⟩ := ClientState.whenever_eq_some.mp hexec
      refine .inr (hrecreating ?_ hrole)
      rw [show r = .recreating from beq_iff_eq.mp ho, ClientState.leaseReason] at hreason
      by_contra hset
      split_ifs at hreason
  | recreateEnter | shutdownEnter =>
      obtain ⟨hentry, -⟩ := ClientState.whenever_eq_some.mp hexec
      refine .inr (hrecreating ?_ hrole)
      rw [show r = .recreating from beq_iff_eq.mp ho, ClientState.entry] at hentry
      by_contra hset
      split_ifs at hentry
  | recreateDrain ms =>
      obtain ⟨hdrained, -⟩ := ClientState.whenever_eq_some.mp hexec
      have hlate : r = false := by simpa [ClientOp.obstructed] using ho
      have hne : s.sync.inFlight ≠ 0 := of_decide_eq_false (hdrained.symm.trans hlate)
      rw [hinv.inFlight] at hne
      obtain ⟨u, hu⟩ := Finset.card_pos.mp (Nat.pos_of_ne_zero (by exact_mod_cast hne))
      have hleases := mem_leasedTids.mp hu
      refine .inr ⟨u, ?_, Role.rests_eq_false (.inl hleases)⟩
      rintro rfl
      rw [show role u h = .guarded from hrole] at hleases
      cases hleases
  | terminate =>
      obtain ⟨hsettled, -⟩ := ClientState.whenever_eq_some.mp hexec
      have hlate : r = false := by simpa [ClientOp.obstructed] using ho
      by_cases hset : s.recreating = true
      · exact .inr (hrecreating hset hrole)
      have hne : s.sync.shutdownInFlight ≠ 0 := by
        intro hzero
        refine absurd (hsettled.symm.trans hlate) ?_
        simp [ClientState.isSettled_iff.mpr ⟨Bool.eq_false_iff.mpr hset, hzero⟩]
      rw [hinv.shutdownInFlight] at hne
      obtain ⟨u, hu⟩ := Finset.card_pos.mp (Nat.pos_of_ne_zero (by exact_mod_cast hne))
      have hrests := Role.rests_eq_false (.inr (.inr (mem_closingTids.mp hu)))
      exact .inr ⟨u, fun hut => absurd (hrests.symm.trans (hut ▸ hrole)) (by decide), hrests⟩
  | impl i p => exact .inl ⟨i, p, rfl⟩
  | _ => cases ho

/-- So it is with what an operation of an `Impl` finds. -/
theorem ScopeInv.obstructed {o : ImplOp} {r : o.Resp} (hinv : ScopeInv h s)
    (hexec : s.exec t (.impl i o) r = some s') (hallows : (scope t h).AllowsImpl i o)
    (ho : o.obstructed r = true) : ∃ u, u ≠ t ∧ scope u h ≠ .outside := by
  obtain ⟨w, hi, hw⟩ := Option.bind_eq_some_iff.mp hexec
  obtain ⟨w', hw', -⟩ := Option.map_eq_some_iff.mp hw
  -- CONNECTING is held by a thread in the scope of its `CASGuard`
  have hholder : w.connState = .connecting → scope t h = .counted i →
      ∃ u, u ≠ t ∧ scope u h ≠ .outside := by
    intro hconn hℓ
    obtain ⟨u, hu⟩ := hinv.held i (by simpa [ClientState.connState, hi] using hconn)
    refine ⟨u, ?_, by rw [hu]; rintro ⟨⟩⟩
    rintro rfl
    cases hu.symm.trans hℓ
  cases o with
  | load a =>
      cases a with
      | connState =>
          obtain ⟨hfound, -⟩ := ImplState.whenever_eq_some.mp hw'
          exact hholder (hfound.trans (beq_iff_eq.mp ho)) hallows
      | _ => cases ho
  | casStrong a e d =>
      cases a with
      | connState =>
          -- a lost exchange has found CONNECTING, and its thread holds nothing
          rcases r with observed | u
          · obtain ⟨⟨hfound, -⟩, -⟩ := ImplState.whenever_eq_some.mp hw'
            exact hholder (hfound.trans (beq_iff_eq.mp ho)) hallows.1
          · cases ho
      | _ => cases ho
  | taskWait ms =>
      obtain ⟨hcompleted, -⟩ := ImplState.whenever_eq_some.mp hw'
      have hlate : r = false := by simpa [ImplOp.obstructed] using ho
      have hne : s.tasks i ≠ 0 := by
        simpa [ClientState.tasks, hi] using of_decide_eq_false (hcompleted.symm.trans hlate)
      obtain ⟨u, hu⟩ := hinv.exists_counted hne
      refine ⟨u, ?_, fun hout => by rw [hout] at hu; cases hu⟩
      rintro rfl
      rw [show scope u h = .outside from hallows] at hu
      cases hu
  | _ => cases ho

/-- Where an operation has found something taken, another thread was in a scope. -/
theorem each_obstructed (hzero : w.taskCounter = 0) (hidle : w.connState = .idle)
    (hc : ClientPool.Reach (.start calls (.start endpointUrl w)) c) :
    Event.Each (fun es e => ClientOp.obstructed e.op e.resp = true →
      ∃ u, u ≠ e.tid ∧ ¬IsOutside u es) c.state.history := by
  induction hc with
  | refl => exact Event.each_nil
  | tail hc hs ih =>
      have hd := hc.tail hs
      cases hs with
      | round hp => exact ih
      | perform hp hs =>
          obtain ⟨-, hallows, -⟩ := scopeInv_of_reach hzero hidle hd
          rw [hs.history_eq] at hallows ⊢
          refine Event.each_cons.mpr ⟨fun ho => ?_, ih⟩
          -- the two layers: the roles under `m_recreateLock`, and the scopes inside an `Impl`
          have hperforms : ClientPool.Performs _ _ _ _ _ := ⟨.perform hp hs, hs.history_eq⟩
          rcases (exclusionInv_of_reach hc).obstructed hs.exec_eq (hperforms.role_allows hc) ho with
            ⟨i, p, rfl⟩ | ⟨u, hut, hu⟩
          · obtain ⟨u, hut, hu⟩ := (scopeInv_of_reach hzero hidle hc).1.obstructed hs.exec_eq
              (Event.each_cons.mp hallows).1 ho
            exact ⟨u, hut, fun hout => hu hout.2⟩
          · exact ⟨u, hut, fun hout => absurd (hu.symm.trans hout.1) (by decide)⟩

/-- The guards of the calls are balanced. -/
structure Balance (calls : Tid → List ClientCall) (c : ClientPool) : Prop where
  /-- `m_taskCounter` is the number of the threads in the scope of an `InFlightGuard`. -/
  counted : ∀ i, c.state.world.tasks i = (inFlightTids i c.state.history).card
  /-- While `m_connState` is CONNECTING, some thread is in the scope of its `CASGuard`. -/
  held : ∀ i, c.state.world.connState i = .connecting → ∃ t, scope t c.state.history = .holding i
  /-- Only such a thread opens or closes the connection. -/
  driven : ∀ d t i client (call : SdkCall) r, c.Performs t (.impl i (.sdkCall client call)) r d →
    call.isConnection = true → scope t c.state.history = .holding i
  /-- Whenever an operation of a thread has found something taken, another thread was in a scope. -/
  obstructed : ∀ t, ∀ es ∈ obstructions t c.state.history, ∃ u, u ≠ t ∧ ¬IsOutside u es
  /-- Only such an operation makes a call be refused. -/
  refused : ∀ t replies, c.Returned t (.ok replies) →
    Chained RefusedFor (calls t) [] replies (obstructions t c.state.history)
  /-- A thread whose calls have ended, with or without an exception, is in none. -/
  outside : ∀ t a, c.Returned t a → IsOutside t c.state.history
  /-- When no thread is, nothing is counted, held or being recreated. -/
  settled : (∀ t, IsOutside t c.state.history) →
    c.state.world.inFlight = 0 ∧ c.state.world.shutdownInFlight = 0 ∧
      c.state.world.recreating = false ∧
        ∀ i, c.state.world.tasks i = 0 ∧ c.state.world.connState i = .idle

/-- In every run, from a client whose `Impl` is at rest, the guards are balanced. -/
theorem balance (hzero : w.taskCounter = 0) (hidle : w.connState = .idle)
    (hc : ClientPool.Reach (.start calls (.start endpointUrl w)) c) : Balance calls c := by
  obtain ⟨hscopes, -, hreturned⟩ := scopeInv_of_reach hzero hidle hc
  have hinv := exclusionInv_of_reach hc
  refine ⟨hscopes.counted, hscopes.held, ?_, ?_, fun t replies => refusals_of_reach hc, ?_, ?_⟩
  · intro d t i client call r hd
    have heach := (scopeInv_of_reach hzero hidle (hc.tail hd.1)).2.1
    rw [hd.2] at heach
    exact (Event.each_cons.mp heach).1
  · intro t es hes
    obtain ⟨o, r, ho, hs⟩ := Event.mem_moments.mp hes
    exact each_obstructed hzero hidle hc ⟨t, o, r⟩ es hs ho
  · intro t a ha
    refine ⟨?_, hreturned t a ha⟩
    exact (Protocol.recorded_each (Q := fun _ _ (ℓ : Role) => ℓ.rests = true) rfl
      (ClientPool.follows_role _) hc).2 t a ha
  · intro hout
    -- a thread at rest is in no census, so every counter is the cardinality of the empty set
    have hrests : ∀ t, ¬((role t c.state.history).leases = true ∨
        (role t c.state.history).recreates = true ∨ (role t c.state.history).closes = true) :=
      fun t ht => absurd ((Role.rests_eq_false ht).symm.trans (hout t).1) (by decide)
    refine ⟨?_, ?_, Bool.eq_false_iff.mpr fun hset => ?_, fun i => ⟨?_, ?_⟩⟩
    · have hempty : leasedTids c.state.history = ∅ :=
        Finset.eq_empty_of_forall_notMem fun t ht => hrests t (.inl (mem_leasedTids.mp ht))
      have hcard := hinv.inFlight
      rw [hempty] at hcard
      exact hcard
    · have hempty : closingTids c.state.history = ∅ :=
        Finset.eq_empty_of_forall_notMem fun t ht =>
          hrests t (.inr (.inr (mem_closingTids.mp ht)))
      have hcard := hinv.shutdownInFlight
      rw [hempty] at hcard
      exact hcard
    · obtain ⟨t, ht⟩ := hinv.recreating.mp hset
      exact hrests t (.inr (.inl ht))
    · by_contra hne
      obtain ⟨u, hu⟩ := hscopes.exists_counted hne
      rw [(hout u).2] at hu
      cases hu
    · cases hconn : c.state.world.connState i with
      | idle => rfl
      | connecting =>
          obtain ⟨u, hu⟩ := hscopes.held i hconn
          cases (hout u).2.symm.trans hu

/-- A thread disconnects, and every call of the SDK throws. -/
def disconnectThrows : Option ClientPool :=
  ClientPool.run [[.disconnect]] .connected
    (List.replicate 17 (0, ({} : Environment).clientThrows 0))

/-- The exception passes through three guards, and leaves the client as it was. -/
theorem balance_throws :
    ∃ c : ClientPool, Balance (ClientPool.callsOf [[.disconnect]]) c ∧
      c.Returned 0 (.ok [.result (.error ⟨.unknown, "Unknown error"⟩)]) ∧
      c.state.world.tasks 0 = 0 ∧ c.state.world.connState 0 = .idle ∧
      c.state.world.inFlight = 0 := by
  have hplay : disconnectThrows.any (fun d =>
      d.result? 0 == some (.ok [.result (.error ⟨.unknown, "Unknown error"⟩)]) &&
      d.state.world.tasks 0 == 0 && d.state.world.connState 0 == .idle &&
      d.state.world.inFlight == 0) = true := by
    decide
  obtain ⟨d, -, hd, hcheck⟩ := Config.exists_reach_of_play hplay
  simp only [Bool.and_eq_true, beq_iff_eq] at hcheck
  obtain ⟨⟨⟨hret, htasks⟩, hconn⟩, hflight⟩ := hcheck
  exact ⟨d, balance rfl rfl hd, Config.returned_of_result? hret, htasks, hconn, hflight⟩

end OPCUAPacking
