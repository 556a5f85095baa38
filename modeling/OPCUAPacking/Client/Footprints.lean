import OPCUAPacking.Client.Api

/-!
# Footprints

Which operations occur in the functions that most of the others call.

* `ClientOp.Drops` — dropping a `shared_ptr`, with the destructor that it may run.
* `ClientOp.Serves` — a public function under a lease.
* `ClientOp.Watches` — a watchdog thread.

And what the operations leave alone: `ClientState.frame_of_exec`.
-/

namespace OPCUAPacking

open Interleaving

namespace ClientOp

/-- The operations of dropping a `shared_ptr`. -/
def Drops : ClientOp → Prop
  | .release _ | .clientDelete _ | .impl _ _ => True
  | _ => False

/-- The operations of a public function under a lease. -/
def Serves (o : ClientOp) : Prop :=
  o.Drops ∨ o = .leaseAcquire ∨ o = .leaseRelease ∨ o = .pImplCopy

/-- The operations of a watchdog thread. -/
def Watches (o : ClientOp) : Prop := o.Drops ∨ ∃ i, o = .lockSelf i

/-- The operation constructs an `Impl` or is one of an `Impl`. -/
def Builds : ClientOp → Prop
  | .implConstruct _ _ | .impl _ _ => True
  | _ => False

/-- The operation may change `pImpl`. -/
def Replaces : ClientOp → Prop
  | .pImplTake | .pImplAdopt _ => True
  | _ => False

/-- The operation obtains a client or deletes one. -/
def Trades : ClientOp → Prop
  | .clientNew | .clientDelete _ => True
  | _ => False

end ClientOp

/-- `pImpl`, the `Impl`s and the clients are left alone by all operations but those that are for
them. -/
structure ClientState.Frame (o : ClientOp) (s s' : ClientState) : Prop where
  pImpl : ¬o.Replaces → s'.pImpl = s.pImpl
  impls : ¬o.Builds → s'.impls = s.impls
  clients : ¬o.Trades → s'.clients = s.clients

/-- So does every operation. -/
theorem ClientState.frame_of_exec {t : Tid} {o : ClientOp} {r : o.Resp} {s s' : ClientState}
    (hexec : s.exec t o r = some s') : Frame o s s' := by
  have hkept : ∀ {z : ClientState}, z.pImpl = s.pImpl → z.impls = s.impls →
      z.clients = s.clients → Frame o s z :=
    fun hpImpl himpls hclients => ⟨fun _ => hpImpl, fun _ => himpls, fun _ => hclients⟩
  cases o with
  | pImplTake =>
      obtain ⟨-, rfl⟩ := whenever_eq_some.mp hexec
      exact ⟨fun ho => absurd trivial ho, fun _ => rfl, fun _ => rfl⟩
  | pImplAdopt candidate =>
      cases r <;> obtain ⟨-, rfl⟩ := whenever_eq_some.mp hexec
      · exact hkept rfl rfl rfl
      · exact ⟨fun ho => absurd trivial ho, fun _ => rfl, fun _ => rfl⟩
  | implConstruct config client =>
      obtain ⟨-, rfl⟩ := whenever_eq_some.mp hexec
      exact ⟨fun _ => rfl, fun ho => absurd trivial ho, fun _ => rfl⟩
  | impl i o =>
      obtain ⟨w, -, hw⟩ := Option.bind_eq_some_iff.mp hexec
      obtain ⟨w', -, rfl⟩ := Option.map_eq_some_iff.mp hw
      exact ⟨fun _ => rfl, fun ho => absurd trivial ho, fun _ => rfl⟩
  | clientNew =>
      rcases r with e | _ | client
      · cases hexec
        exact hkept rfl rfl rfl
      · cases hexec
        exact hkept rfl rfl rfl
      · obtain ⟨-, rfl⟩ := whenever_eq_some.mp hexec
        exact ⟨fun _ => rfl, fun _ => rfl, fun ho => absurd trivial ho⟩
  | clientDelete client =>
      cases hexec
      exact ⟨fun _ => rfl, fun _ => rfl, fun ho => absurd trivial ho⟩
  -- the others write the flags, the counters and the guards, or nothing
  | leaseAcquire | recreateEnter | shutdownEnter =>
      obtain ⟨-, rfl⟩ := whenever_eq_some.mp hexec
      split_ifs <;> exact hkept rfl rfl rfl
  | guardReset | guardDestroy =>
      cases hexec
      unfold releaseGuard
      split_ifs <;> exact hkept rfl rfl rfl
  | shutdownLeave =>
      simp only [exec, Option.some.injEq] at hexec
      subst hexec
      split_ifs <;> exact hkept rfl rfl rfl
  | pImplCopy | lockSelf i =>
      cases r <;> (obtain ⟨-, rfl⟩ := whenever_eq_some.mp hexec; exact hkept rfl rfl rfl)
  | recreateDrain ms | terminate | destructorWait | pImplLifeState | pImplConfig | pImplExists
  | release i =>
      obtain ⟨-, rfl⟩ := whenever_eq_some.mp hexec
      exact hkept rfl rfl rfl
  | leaseRelease | guardConstruct | allocate | retain i | shutdownBegin i caller =>
      cases hexec
      exact hkept rfl rfl rfl

namespace Client

variable {α : Type} {A : ClientOp → Prop}

/-- A single operation. -/
theorem uses_perform {o : ClientOp} (ho : A o) : Proc.Uses A (perform o) := ⟨ho, fun _ => trivial⟩

/-- Member functions of an `Impl` use its operations. -/
theorem uses_onImpl {i : ImplId} (hA : ∀ o, A (.impl i o)) (p : Impl α) :
    Proc.Uses A (onImpl i p : Client α) := by
  refine @Prog.uses_handle ImplSig ClientSig _ A _ (fun o => ?_) p
  exact ⟨hA o, fun _ => trivial⟩

/-- Deleting the client of an `Impl`. -/
theorem uses_deleteClient (hA : ∀ c, A (.clientDelete c)) (client : Option Handle) :
    Proc.Uses A (deleteClient client) := by
  cases client with
  | none => exact trivial
  | some client => exact uses_perform (hA client)

/-- Dropping a pointer. -/
theorem uses_drop (i : ImplId) : Proc.Uses ClientOp.Drops (drop i) := by
  have hK := Proc.closed_uses (S := ClientSig) (ε := Exn) ClientOp.Drops
  refine hK.bind (uses_perform (o := .release i) trivial) fun last => hK.when ?_
  exact hK.bind (uses_onImpl (fun _ => trivial) _) fun client =>
    uses_deleteClient (fun _ => trivial) client

/-- A public function under a lease. -/
theorem uses_call (refusals : Refusals) (body : Impl (Result α RichError)) :
    Proc.Uses ClientOp.Serves (call refusals body) := by
  have hK := Proc.closed_uses (S := ClientSig) (ε := Exn) ClientOp.Serves
  have hcurrent : Proc.Uses ClientOp.Serves (onCurrent refusals body) := by
    refine hK.bind (uses_perform (.inr (.inr (.inr rfl)))) fun i => ?_
    cases i with
    | none => exact hK.pure _
    | some i => exact hK.bind (uses_onImpl (fun _ => .inl trivial) _) fun r => hK.pure _
  have hleased : Proc.Uses ClientOp.Serves (leased refusals body) := by
    refine hK.bind (uses_perform (.inr (.inl rfl))) fun reason => ?_
    cases reason with
    | recreating | terminated => exact hK.pure _
    | active => exact hK.ensuring (uses_perform (.inr (.inr (.inl rfl)))) hcurrent
  refine hK.bind hleased fun r => hK.bind ?_ fun _ => hK.pure r.2
  cases r.1 with
  | none => exact hK.pure ()
  | some i => exact (uses_drop i).mono fun _ ho => .inl ho

/-- A watchdog thread. -/
theorem uses_watchdogThread (i : ImplId) : Proc.Uses ClientOp.Watches (watchdogThread i) := by
  have hK := Proc.closed_uses (S := ClientSig) (ε := Exn) ClientOp.Watches
  have himpl : ∀ {β : Type} (p : Impl β), Proc.Uses ClientOp.Watches (onImpl i p) := fun p =>
    uses_onImpl (fun _ => .inl trivial) p
  exact hK.bind (himpl _) fun _ => hK.bind (himpl _) fun _ =>
    hK.bind (uses_perform (.inr ⟨i, rfl⟩)) fun _ => hK.bind (hK.when (hK.throw _)) fun _ =>
      hK.bind (himpl _) fun _ =>
        hK.bind ((uses_drop i).mono fun _ ho => .inl ho) fun _ => himpl _

end Client

end OPCUAPacking
