import OPCUAPacking.Client.Calls
import OPCUAPacking.Client.Exclusion
import OPCUAPacking.Client.Lifetime
import OPCUAPacking.Impl.GiveUp

/-!
# Succession

Recreating a client replaces an `Impl` that was given up by one with the same configuration, or
changes nothing.

* `Plan` — what a thread knows that recreates a client.
* `Client.plan_recreateGiveUpClient` — a recreate that succeeds has adopted one candidate, and one
  that fails has adopted none.
* `FoundGivenUp`, `SameConfig` — what the threads know is so.
* `succession` — the result about every run.
-/

namespace OPCUAPacking

open Interleaving

/-- What a thread knows that recreates a client. -/
structure Plan where
  /-- The configuration that it has read last. -/
  config : Option ClientConfig := none
  /-- It has found the `Impl` in `pImpl` given up. -/
  gone : Bool := false
  /-- The candidate that it has constructed since. -/
  built : Option ImplId := none
  /-- The candidates that it has adopted so far. -/
  adopted : List ImplId := []

namespace Plan

/-- How an operation of an `Impl` changes what the thread knows. -/
def trackImpl (ℓ : Plan) : (o : ImplOp) → o.Resp → Plan
  | .readConfig, config => { ℓ with config := some config }
  | _, _ => ℓ

/-- How an operation changes it. -/
def track (_ : ClientHistory) (ℓ : Plan) : (o : ClientOp) → o.Resp → Plan
  | .pImplLifeState, life => { ℓ with gone := life.getD .running == .givenUp, built := none }
  | .pImplConfig, config => { ℓ with config := some (config.getD {}) }
  | .implConstruct _ _, i => { ℓ with built := some i }
  | .pImplAdopt i, .replaced _ =>
      { ℓ with gone := false, built := none, adopted := ℓ.adopted ++ [i] }
  | .impl _ o, r => ℓ.trackImpl o r
  | _, _ => ℓ

/-- What a thread may do to an `Impl`, as far as this matters. -/
def AllowsImpl (ℓ : Plan) : ImplOp → Prop
  | .writeConfig config => ∃ c, ℓ.config = some c ∧ config = c.applyDefaultIfInvalid.1
  | _ => True

/-- What a thread may do, as far as this matters. -/
def Allows (ℓ : Plan) : (o : ClientOp) → o.Resp → Prop
  | .implConstruct config _, _ => ℓ.config = some config ∧ ℓ.gone = true
  | .pImplAdopt i, _ => ℓ.gone = true ∧ ℓ.built = some i
  | .impl _ o, _ => ℓ.AllowsImpl o
  | _, _ => True

end Plan

/-- What thread `t` knows after a history. -/
def plan (t : Tid) (h : ClientHistory) : Plan := Event.stage Plan.track {} t h

/-- The protocol of the recreates. -/
abbrev planProtocol : Protocol ClientSig (Traced ClientSig ClientState) Plan :=
  Protocol.recorded ClientState.exec Plan.Allows Plan.track fun _ => {}

/-- A set of plans that does not depend on the configuration. -/
def ConfigFree (I : Plan → Prop) : Prop := ∀ ℓ config, I ℓ → I { ℓ with config := config }

namespace Client

variable {α : Type} {t : Tid} {i : ImplId} {I : Plan → Prop} {ℓ : Plan}

/-! ### The parts that do not matter -/

/-- The program on the `Impl` keeps a set of plans. -/
abbrev PlanOn (I : Plan → Prop) (t : Tid) (i : ImplId) (α : Type) (p : Impl α) : Prop :=
  planProtocol.Keeps I t (onImpl i p)

theorem closed_planOn (I : Plan → Prop) (t : Tid) (i : ImplId) :
    @Proc.Closed ImplSig Exn (PlanOn I t i) :=
  (Protocol.closed_keeps planProtocol I t).handle _

/-- The operations other than a change of the configuration. -/
theorem planOn_perform (hI : ConfigFree I) {o : ImplOp} (ho : ∀ config, o ≠ .writeConfig config) :
    PlanOn I t i _ (Impl.perform o) := by
  refine fun ℓ hℓ => Protocol.follows_recorded_op fun es r => ?_
  cases o with
  | writeConfig config => exact absurd rfl (ho config)
  | readConfig => exact ⟨trivial, hI ℓ _ hℓ⟩
  | _ => exact ⟨trivial, hℓ⟩

/-- The functions that the calls are made of. -/
theorem busy_planOn (hI : ConfigFree I) (t : Tid) (i : ImplId) : Impl.Busy (PlanOn I t i) :=
  Impl.busy_of_ops (closed_planOn I t i) fun o ho _ => planOn_perform hI (by rintro _ rfl; exact ho)

theorem lifecycle_planOn (hI : ConfigFree I) (o : ImplOp) (ho : o.Lifecycle) :
    PlanOn I t i _ (Impl.perform o) :=
  planOn_perform hI (by rintro _ rfl; exact ho)

/-- The parts of the calls. -/
theorem parts_plan (hI : ConfigFree I) (t : Tid) : Parts fun _ p => planProtocol.Keeps I t p where
  toClosed := Protocol.closed_keeps planProtocol I t
  common o ho := Protocol.keeps_recorded_perform fun es ℓ r hℓ => by
    cases o <;> first | exact ⟨trivial, hℓ⟩ | exact ho.elim
  member i := Impl.members_of_ops (closed_planOn I t i) fun o ho _ =>
    planOn_perform hI (by rintro _ rfl; exact ho)
  shutdown i := (busy_planOn hI t i).toBlocks.shutdown (lifecycle_planOn hI)
  destroy i := (busy_planOn hI t i).toBlocks.destroy (lifecycle_planOn hI)
    (planOn_perform hI (by rintro _ ⟨⟩))
  watchdogBegin i := planOn_perform hI (by rintro _ ⟨⟩)
  watchdogEnd i := planOn_perform hI (by rintro _ ⟨⟩)

/-- `batchWrite`. -/
theorem plan_batchWrite (hI : ConfigFree I) (nodes : List WriteValue) :
    planProtocol.Keeps I t (batchWrite nodes) :=
  (parts_plan hI t).call _ fun i => Impl.batchWrite_of_ops (closed_planOn I t i)
    (fun o ho => planOn_perform hI (by rintro _ rfl; exact ho)) nodes

/-! ### The candidate -/

/-- The configuration is repaired from what was read of it. -/
theorem plan_applyDefault (hI : ConfigFree I) (useDefault : Bool) :
    PlanOn I t i _ (Impl.applyDefault useDefault) := by
  cases useDefault with
  | false => exact fun ℓ hℓ => hℓ
  | true =>
      intro ℓ hℓ
      rw [Impl.applyDefault, if_pos rfl]
      refine follows_onImpl_perform fun es config => ⟨trivial, ?_⟩
      refine follows_onImpl_perform fun es' _ => ⟨⟨config, rfl, rfl⟩, ?_⟩
      cases config.applyDefaultIfInvalid.2 <;> exact hI ℓ _ hℓ

/-- `configureClient`. -/
theorem plan_configureClient (hI : ConfigFree I) (useDefault : Bool) :
    PlanOn I t i _ (Impl.configureClient useDefault) :=
  (busy_planOn hI t i).toPolling.configureClient_of_default (closed_planOn I t i)
    (plan_applyDefault hI useDefault) fun a v _ => planOn_perform hI (by rintro _ ⟨⟩)

/-- `startWatchdog`. -/
theorem plan_startWatchdog (hI : ConfigFree I) : PlanOn I t i _ Impl.startWatchdog :=
  (busy_planOn hI t i).toPolling.startWatchdog (closed_planOn I t i)
    (planOn_perform hI (by rintro _ ⟨⟩)) (planOn_perform hI (by rintro _ ⟨⟩))

/-- It may adopt the candidate. -/
def Ready (i : ImplId) (A : List ImplId) (ℓ : Plan) : Prop :=
  ℓ.gone = true ∧ ℓ.built = some i ∧ ℓ.adopted = A

/-- It has adopted the candidate, or fails. -/
def Adopts (i : ImplId) (A : List ImplId) (r : Except Exn (Bool × Result Unit RichError))
    (ℓ : Plan) : Prop :=
  (r = .ok (true, .ok ()) ∧ ℓ.adopted = A ++ [i]) ∨
    (ℓ.adopted = A ∧ ∀ a, r = .ok a → a.1 = false ∧ ∃ e, a.2 = .error e)

/-- It succeeds with one candidate adopted, or fails with none. -/
def Recreates (A : List ImplId) (r : Except Exn (Result Unit RichError)) (ℓ : Plan) : Prop :=
  (r = .ok (.ok ()) ∧ ∃ i, ℓ.adopted = A ++ [i]) ∨
    (ℓ.adopted = A ∧ ∀ a, r = .ok a → ∃ e, a = .error e)

theorem configFree_ready (i : ImplId) (A : List ImplId) : ConfigFree (Ready i A) :=
  fun _ _ h => h

theorem configFree_adopted (A : List ImplId) : ConfigFree (·.adopted = A) := fun _ _ h => h

variable {A : List ImplId}

/-- A program that throws nothing and adopts nothing, then the rest. -/
theorem plan_seq {β : Type} {p : Client α} {f : α → Client β} {Q : Except Exn β → Plan → Prop}
    (hp : planProtocol.Keeps (·.adopted = A) t p) (hn : Proc.NoThrow p) (hℓ : ℓ.adopted = A)
    (hf : ∀ a ℓ', ℓ'.adopted = A → planProtocol.Follows t (f a) Q ℓ') :
    planProtocol.Follows t (p >>= f : Client β) Q ℓ :=
  Protocol.Follows.bind_noThrow (fun _ ℓ' => ℓ'.adopted = A) ((hp ℓ hℓ).mono fun _ _ h _ _ => h) hn
    hf

/-- Once a candidate is adopted, the call succeeds. -/
theorem plan_adopt (hℓ : Ready i A ℓ) : planProtocol.Follows t (adopt i) (Adopts i A) ℓ := by
  obtain ⟨hgone, hbuilt, rfl⟩ := hℓ
  refine Protocol.follows_recorded_perform fun es adoption => ⟨⟨hgone, hbuilt⟩, ?_⟩
  cases adoption with
  | terminated =>
      refine .inr ⟨rfl, ?_⟩
      rintro _ ⟨⟩
      exact ⟨rfl, _, rfl⟩
  | replaced old =>
      have hK := parts_plan (configFree_adopted (ℓ.adopted ++ [i])) t
      have hreset : ∀ ℓ' : Plan, ℓ'.adopted = ℓ.adopted ++ [i] → planProtocol.Follows t
          (do perform .guardReset; pure (true, .ok ()) : Client (Bool × Result Unit RichError))
          (Adopts i ℓ.adopted) ℓ' := fun ℓ' hℓ' =>
        Protocol.follows_recorded_perform fun es' _ => ⟨trivial, .inl ⟨rfl, hℓ'⟩⟩
      cases old with
      | none => exact hreset _ rfl
      | some j =>
          refine plan_seq (hK.shutdownImpl j .replaced) (noThrow_shutdownImpl j .replaced) rfl
            fun _ ℓ' hℓ' => ?_
          exact plan_seq (hK.drop j) (noThrow_drop j) hℓ' fun _ => hreset

/-- The candidate is brought up. -/
theorem plan_bringUp (hℓ : Ready i A ℓ) : planProtocol.Follows t (bringUp i) (Adopts i A) ℓ := by
  have hI := configFree_ready i A
  have hfailed : ∀ e (ℓ : Plan), Ready i A ℓ → Adopts i A (.ok (false, .error e)) ℓ := by
    refine fun e ℓ hℓ => .inr ⟨hℓ.2.2, ?_⟩
    rintro _ ⟨⟩
    exact ⟨rfl, e, rfl⟩
  have hthrown : ∀ x (ℓ : Plan), Ready i A ℓ → Adopts i A (.error x) ℓ :=
    fun x ℓ hℓ => .inr ⟨hℓ.2.2, by rintro _ ⟨⟩⟩
  refine Protocol.Follows.bind _ (plan_configureClient hI true ℓ hℓ) ?_ hthrown
  rintro (e | ⟨⟩) ℓ hℓ
  · exact hfailed _ ℓ hℓ
  refine Protocol.Follows.bind _ ((busy_planOn hI t i).connect ℓ hℓ) ?_ hthrown
  rintro (e | ⟨⟩) ℓ hℓ
  · exact hfailed _ ℓ hℓ
  refine Protocol.Follows.bind _ (plan_startWatchdog hI ℓ hℓ) ?_ hthrown
  rintro (e | ⟨⟩) ℓ hℓ
  · exact hfailed _ ℓ hℓ
  · exact plan_adopt hℓ

/-- The scope of the candidate. -/
theorem plan_candidateScope (hℓ : Ready i A ℓ) :
    planProtocol.Follows t (candidateScope i) (Recreates A) ℓ := by
  refine Protocol.follows_recorded_perform fun es _ => ⟨trivial, ?_⟩
  refine Protocol.Follows.bind (fun r ℓ' => ∃ b, r = .ok b ∧ Adopts i A b ℓ')
    (Protocol.follows_attempt.mpr ((plan_bringUp hℓ).mono fun r ℓ' h => ⟨r, rfl, h⟩)) ?_
    (by rintro x ℓ' ⟨b, ⟨⟩, -⟩)
  rintro r ℓ' ⟨_, ⟨⟩, h⟩
  -- what follows the attempt adopts nothing
  have hK := parts_plan (configFree_adopted ℓ'.adopted) t
  refine plan_seq (A := ℓ'.adopted) (hK.when (hK.shutdownImpl i .candidate))
    (Proc.composed_noThrow.when (noThrow_shutdownImpl i .candidate)) rfl fun _ ℓ₁ h₁ => ?_
  refine plan_seq (hK.drop i) (noThrow_drop i) h₁ fun _ ℓ₂ h₂ => ?_
  refine plan_seq (hK.drop i) (noThrow_drop i) h₂ fun _ ℓ₃ h₃ => ?_
  rcases h with ⟨rfl, hadopted⟩ | ⟨hsame, hfails⟩
  · exact .inl ⟨rfl, i, h₃.trans hadopted⟩
  · cases r with
    | ok a =>
        obtain ⟨-, e, he⟩ := hfails a rfl
        refine .inr ⟨h₃.trans hsame, ?_⟩
        rintro _ ⟨⟩
        exact ⟨e, he⟩
    | error x => exact .inr ⟨h₃.trans hsame, by rintro _ ⟨⟩⟩

/-! ### The call -/

/-- An allocation changes nothing that the thread knows. -/
theorem plan_allocateOwning (client : Option Handle) :
    planProtocol.Follows t (allocateOwning client) (fun _ ℓ' => ℓ' = ℓ) ℓ := by
  refine Protocol.follows_recorded_perform fun es r => ⟨trivial, ?_⟩
  cases r with
  | ok u => exact rfl
  | error x =>
      refine Protocol.Follows.bind (fun _ ℓ' => ℓ' = ℓ) ?_ (fun _ _ h => h) fun _ _ h => h
      cases client with
      | none => exact rfl
      | some client => exact Protocol.follows_recorded_op fun es' _ => ⟨trivial, rfl⟩

theorem plan_orThrow {β : Type} (r : Except Exn β) :
    planProtocol.Follows t (orThrow r) (fun _ ℓ' => ℓ' = ℓ) ℓ := by
  cases r <;> exact rfl

/-- A call fails that has adopted nothing. -/
theorem Recreates.failed (hℓ : ℓ.adopted = A) (e : RichError) :
    Recreates A (.ok (.error e)) ℓ := by
  refine .inr ⟨hℓ, ?_⟩
  rintro _ ⟨⟩
  exact ⟨e, rfl⟩

theorem Recreates.thrown (hℓ : ℓ.adopted = A) (x : Exn) : Recreates A (.error x) ℓ :=
  .inr ⟨hℓ, by rintro _ ⟨⟩⟩

/-- The `try` block. -/
theorem plan_recreateWith {config : ClientConfig} (hconfig : ℓ.config = some config)
    (hgone : ℓ.gone = true) (hℓ : ℓ.adopted = A) :
    planProtocol.Follows t (recreateWith config) (Recreates A) ℓ := by
  have hthrown : ∀ (x : Exn) (ℓ' : Plan), ℓ' = ℓ → Recreates A (.error x) ℓ' :=
    fun x ℓ' h => .thrown (h ▸ hℓ) x
  refine Protocol.follows_recorded_perform fun es r => ⟨trivial, ?_⟩
  refine Protocol.Follows.bind _ (plan_orThrow r) ?_ hthrown
  rintro _ _ rfl
  refine Protocol.follows_recorded_perform fun es r => ⟨trivial, ?_⟩
  refine Protocol.Follows.bind _ (plan_orThrow r) ?_ hthrown
  rintro client _ rfl
  refine Protocol.Follows.bind _ (plan_allocateOwning client) ?_ hthrown
  rintro _ _ rfl
  cases client with
  | none => exact .failed hℓ _
  | some handle =>
      refine Protocol.Follows.bind _ (plan_allocateOwning _) ?_ hthrown
      rintro _ _ rfl
      refine Protocol.follows_recorded_perform fun es i => ⟨⟨hconfig, hgone⟩, ?_⟩
      exact plan_candidateScope ⟨hgone, rfl, hℓ⟩

/-- The handlers of the call. -/
theorem plan_catching {p : Client (Result Unit RichError)}
    (hp : planProtocol.Follows t p (Recreates A) ℓ) :
    planProtocol.Follows t (catching "System error:" p) (Recreates A) ℓ := by
  refine Protocol.Follows.bind (fun r ℓ' => ∃ b, r = .ok b ∧ Recreates A b ℓ')
    (Protocol.follows_attempt.mpr (hp.mono fun r ℓ' h => ⟨r, rfl, h⟩)) ?_
    (by rintro x ℓ' ⟨b, ⟨⟩, -⟩)
  rintro (x | a) ℓ' ⟨_, ⟨⟩, h⟩
  · rcases h with ⟨⟨⟩, -⟩ | ⟨hsame, -⟩
    exact .failed hsame _
  · exact h

/-- The scope of the `RecreateGuard`. -/
theorem plan_recreateGuarded (hℓ : ℓ.adopted = A) :
    planProtocol.Follows t recreateGuarded (Recreates A) ℓ := by
  refine Protocol.follows_recorded_perform fun es drained => ⟨trivial, ?_⟩
  cases drained with
  | false => exact .failed hℓ _
  | true =>
      refine Protocol.follows_recorded_perform fun es life => ⟨trivial, ?_⟩
      split_ifs with hlife
      · exact .failed hℓ _
      refine Protocol.follows_recorded_perform fun es config => ⟨trivial, ?_⟩
      refine Protocol.follows_recorded_perform fun es found => ⟨trivial, ?_⟩
      cases found with
      | false => exact .failed hℓ _
      | true =>
          have hgone : life.getD .running = .givenUp := not_not.mp hlife
          exact plan_catching (plan_recreateWith rfl (beq_iff_eq.mpr hgone) hℓ)

/-- `recreateGiveUpClient` succeeds with one candidate adopted, or fails with none. -/
theorem plan_recreateGiveUpClient (hℓ : ℓ.adopted = A) :
    planProtocol.Follows t recreateGiveUpClient (Recreates A) ℓ := by
  refine Protocol.follows_recorded_perform fun es entry => ⟨trivial, ?_⟩
  cases entry with
  | recreating | terminated => exact .failed hℓ _
  | won =>
      refine Protocol.follows_recorded_perform fun es _ => ⟨trivial, ?_⟩
      refine Protocol.Follows.ensuring _ (plan_recreateGuarded hℓ) fun r ℓ' h => ?_
      exact Protocol.follows_recorded_op fun es' _ => ⟨trivial, rfl, h⟩

end Client

/-- What a call has adopted that returns a reply: a recreate that succeeds one candidate, and any
other call nothing. -/
def ClientCall.Succeeds (c : ClientCall) (ℓ : Plan) (reply : ClientReply) (ℓ' : Plan) : Prop :=
  match c, reply with
  | .recreateGiveUpClient, .result (.ok ()) => ∃ i, ℓ'.adopted = ℓ.adopted ++ [i]
  | _, _ => ℓ'.adopted = ℓ.adopted

namespace Client

variable {t : Tid}

/-- Every call. -/
theorem plan_run (c : ClientCall) (ℓ : Plan) :
    planProtocol.Follows t c.run (fun r ℓ' => ∀ reply, r = .ok reply → c.Succeeds ℓ reply ℓ')
      ℓ := by
  have hK := parts_plan (configFree_adopted ℓ.adopted) t
  -- only a recreate adopts
  have hother : c ≠ .recreateGiveUpClient → planProtocol.Follows t c.run
      (fun r ℓ' => ∀ reply, r = .ok reply → c.Succeeds ℓ reply ℓ') ℓ := by
    intro hc
    refine (hK.run c (fun nodes _ => plan_batchWrite (configFree_adopted ℓ.adopted) nodes)
      (fun h => absurd h hc) ℓ rfl).mono fun r ℓ' h reply _ => ?_
    cases c with
    | recreateGiveUpClient => exact absurd rfl hc
    | _ => exact h
  cases c with
  | recreateGiveUpClient =>
      refine Protocol.Follows.bind _ (plan_recreateGiveUpClient rfl) ?_ (by rintro x ℓ' - _ ⟨⟩)
      rintro a ℓ' h _ ⟨⟩
      rcases h with ⟨⟨⟩, hadopted⟩ | ⟨hsame, hfails⟩
      · exact hadopted
      · obtain ⟨e, rfl⟩ := hfails a rfl
        exact hsame
  | _ => exact hother (by rintro ⟨⟩)

/-- A list of calls. -/
theorem plan_runAll (cs : List ClientCall) (ℓ : Plan) :
    planProtocol.Follows t (ClientCall.runAll cs)
      (fun r ℓ' => ∀ replies, r = .ok replies → Chained ClientCall.Succeeds cs ℓ replies ℓ') ℓ :=
  follows_runAll (I := fun _ _ => True)
    (fun c _ ℓ _ => (plan_run c ℓ).mono fun _ _ h reply hr => ⟨h reply hr, trivial⟩) cs trivial

end Client

/-! ### What a step changes -/

section Steps

variable {t : Tid} {o : ClientOp} {r : o.Resp} {s s' : ClientState} {ℓ : Role} {h : ClientHistory}
  {i : ImplId}

/-- Only a look at the life state leads a thread to where it may replace `pImpl`. -/
theorem Role.found_of_track (hℓ : ℓ.track h o r = .found) : ℓ = .found ∨ o = .pImplLifeState := by
  cases o with
  | pImplLifeState => exact .inr rfl
  | leaseAcquire | recreateEnter | shutdownEnter | terminate =>
      cases r <;> first | exact .inl hℓ | cases hℓ
  | recreateDrain ms => cases r <;> first | exact .inl hℓ | cases hℓ
  | leaseRelease | guardConstruct | guardReset | guardDestroy | shutdownLeave | pImplCopy
  | destructorWait => cases hℓ
  | _ => exact .inl hℓ

/-- The configuration of an `Impl` was so before, or it was constructed with it, or it was
written. -/
theorem ClientState.config_of_exec {w' : ImplState} (hexec : s.exec t o r = some s')
    (hi : s'.impls i = some w') :
    (∃ w, s.impls i = some w ∧ w'.config = w.config) ∨
      (∃ client, o = .implConstruct w'.config client) ∨ o = .impl i (.writeConfig w'.config) := by
  by_cases ho : o.Builds
  · cases o with
    | implConstruct config client =>
        obtain ⟨-, rfl⟩ := whenever_eq_some.mp hexec
        by_cases hir : i = r
        · subst hir
          have hw' : ImplState.construct config s.endpointUrl client = w' := by
            simpa [retain, setImpl] using hi
          exact .inr (.inl ⟨client, hw' ▸ rfl⟩)
        · exact .inl ⟨w', by simpa [retain, setImpl, hir] using hi, rfl⟩
    | impl j o =>
        obtain ⟨w, hj, hw⟩ := Option.bind_eq_some_iff.mp hexec
        obtain ⟨v, hv, rfl⟩ := Option.map_eq_some_iff.mp hw
        by_cases hij : i = j
        · subst hij
          obtain rfl : v = w' := by simpa [setImpl] using hi
          by_cases hwrite : ∃ config, o = .writeConfig config
          · obtain ⟨config, rfl⟩ := hwrite
            cases hv
            exact .inr (.inr rfl)
          · exact .inl ⟨w, hj, (ImplState.frame_of_exec hv).config fun config hconfig =>
              hwrite ⟨config, hconfig⟩⟩
        · exact .inl ⟨w', by simpa [setImpl, hij] using hi, rfl⟩
    | _ => exact ho.elim
  · exact .inl ⟨w', (frame_of_exec hexec).impls ho ▸ hi, rfl⟩

end Steps

/-! ### Every run -/

theorem plan_cons_self (t : Tid) (o : ClientOp) (r : o.Resp) (h : ClientHistory) :
    plan t (⟨t, o, r⟩ :: h) = (plan t h).track h o r :=
  @Event.stage_cons_self ClientSig Plan Plan.track {} t o r h

theorem plan_cons_ne {t u : Tid} (hut : u ≠ t) (o : ClientOp) (r : o.Resp) (h : ClientHistory) :
    plan t (⟨u, o, r⟩ :: h) = plan t h :=
  @Event.stage_cons_ne ClientSig Plan Plan.track {} t u hut o r h

section Runs

variable {calls : Tid → List ClientCall} {endpointUrl : String} {w : ImplState} {c d : ClientPool}
  {t u : Tid} {o : ClientOp} {r : o.Resp} {j : ImplId} {v : ImplState}

/-- Every operation was performed as the plans allow, and so are the replies. -/
theorem plans_of_reach {s : ClientState} (hc : ClientPool.Reach (.start calls s) c) :
    Event.Each (fun es e => (plan e.tid es).Allows e.op e.resp) c.state.history ∧
      ∀ t replies, c.Returned t (.ok replies) →
        Chained ClientCall.Succeeds (calls t) {} replies (plan t c.state.history) := by
  obtain ⟨heach, hreturned⟩ := Protocol.recorded_each rfl
    (fun u => Client.plan_runAll (t := u) (calls u) {}) hc
  exact ⟨heach, fun t replies ht => hreturned t _ ht replies rfl⟩

namespace ClientPool.Performs

theorem plan_allows {s : ClientState} (h : c.Performs t o r d)
    (hc : ClientPool.Reach (.start calls s) c) : (plan t c.state.history).Allows o r := by
  have heach := (plans_of_reach (hc.tail h.1)).1
  rw [h.2] at heach
  exact (Event.each_cons.mp heach).1

variable (h : c.Performs u o r d)
  (hc : ClientPool.Reach (.start calls (.start endpointUrl w)) c)

include h hc

/-- While a thread recreates a client, nobody else changes `pImpl`. -/
theorem pImpl_of_recreates (ht : (role t c.state.history).recreates = true) (hut : u ≠ t) :
    d.state.world.pImpl = c.state.world.pImpl := by
  have hinv := exclusionInv_of_reach hc
  have hset := hinv.recreating.mpr ⟨t, ht⟩
  have hallows := h.role_allows hc
  refine (ClientState.frame_of_exec h.exec_eq).pImpl fun ho => ?_
  cases o with
  | pImplAdopt i =>
      have hu : role u c.state.history = .found := hallows
      exact hut (hinv.unique u t (by rw [hu]; rfl) ht)
  | pImplTake =>
      rcases hallows with hclosing | hpassed
      · exact absurd (hset.symm.trans (hinv.closing u hclosing).2) nofun
      · exact absurd (hset.symm.trans (hinv.ended (hinv.passed u hpassed)).2.1) nofun
  | _ => exact ho.elim

/-- Nobody brings the `Impl` in `pImpl` back that is given up. -/
theorem givenUp (hcurrent : c.state.world.pImpl = some j) (hj : c.state.world.impls j = some v)
    (hlife : v.lifeState = .givenUp) :
    ∃ v', d.state.world.impls j = some v' ∧ v'.lifeState = .givenUp := by
  have hexec := h.exec_eq
  by_cases ho : o.Builds
  · cases o with
    | implConstruct config client =>
        obtain ⟨hnone, hd⟩ := ClientState.whenever_eq_some.mp hexec
        have hjr : j ≠ r := by
          rintro rfl
          exact absurd (hj.symm.trans hnone) nofun
        exact ⟨v, by simpa [← hd, ClientState.retain, ClientState.setImpl, hjr] using hj, hlife⟩
    | impl i o =>
        obtain ⟨w₁, hi, hw⟩ := Option.bind_eq_some_iff.mp hexec
        obtain ⟨w₂, hw₂, hd⟩ := Option.map_eq_some_iff.mp hw
        by_cases hji : j = i
        · subst hji
          obtain rfl : w₁ = v := Option.some.inj (hi.symm.trans hj)
          have hkeeps : o.KeepsGivenUp := by
            have hallows := h.grip_allows hc
            cases o with
            | store a x =>
                cases a with
                | lifeState =>
                    -- only a candidate is stored to, and `pImpl` holds none
                    obtain ⟨hfresh, -⟩ := hallows
                    have hcharge : c.state.world.estate.charges (fun u => grip u c.state.history)
                        (some u) = some j := by
                      change (grip u c.state.history).charge.impl? = some j
                      rw [hfresh]
                      rfl
                    exact absurd ((upkeep_of_reach hc).1.apart hcharge (b := none) hcurrent) nofun
                | _ => trivial
            | casWeak a e x | casStrong a e x =>
                cases a with
                | lifeState => exact fun he => absurd he hallows.1
                | _ => trivial
            | _ => trivial
          refine ⟨w₂, by simp [← hd, ClientState.setImpl], ?_⟩
          rcases ImplState.lifeState_of_exec hkeeps hw₂ with ⟨-, -, hlife'⟩ | ⟨-, hkept⟩
          · exact hlife'
          · exact hkept hlife
        · exact ⟨v, by simpa [← hd, ClientState.setImpl, hji] using hj, hlife⟩
    | _ => exact ho.elim
  · exact ⟨v, by rw [(ClientState.frame_of_exec hexec).impls ho, hj], hlife⟩

end ClientPool.Performs

/-! ### What the threads know is so -/

/-- A thread that has found the `Impl` in `pImpl` given up still finds it so, and its candidate is
another one. -/
def FoundGivenUp (h : ClientHistory) (s : ClientState) : Prop :=
  ∀ t, role t h = .found → (plan t h).gone = true →
    ∃ j v, s.pImpl = some j ∧ s.impls j = some v ∧ v.lifeState = .givenUp ∧
      (plan t h).built ≠ some j

/-- Every `Impl` has the configuration `cfg`, and so the threads know it. -/
structure SameConfig (cfg : ClientConfig) (h : ClientHistory) (s : ClientState) : Prop where
  impls : ∀ i v, s.impls i = some v → v.config = cfg
  known : ∀ t config, (plan t h).config = some config → config = cfg

@[simp]
theorem Plan.trackImpl_gone (ℓ : Plan) (o : ImplOp) (r : o.Resp) :
    (ℓ.trackImpl o r).gone = ℓ.gone := by
  cases o <;> rfl

@[simp]
theorem Plan.trackImpl_built (ℓ : Plan) (o : ImplOp) (r : o.Resp) :
    (ℓ.trackImpl o r).built = ℓ.built := by
  cases o <;> rfl

namespace ClientPool.Performs

variable (h : c.Performs u o r d)
  (hc : ClientPool.Reach (.start calls (.start endpointUrl w)) c)

include h hc

/-- What a step leaves of what the threads have found. -/
theorem foundGivenUp (hinv : FoundGivenUp c.state.history c.state.world) :
    FoundGivenUp d.state.history d.state.world := by
  have hexec := h.exec_eq
  have hallows := h.role_allows hc
  -- `pImpl` and the plan of the thread stay, up to a new candidate
  have hkeep : ∀ t (ℓ : Plan), role t c.state.history = .found →
      (plan t c.state.history).gone = true → d.state.world.pImpl = c.state.world.pImpl →
      (∀ j, c.state.world.impls j ≠ none → (plan t c.state.history).built ≠ some j →
        ℓ.built ≠ some j) →
      ∃ j v, d.state.world.pImpl = some j ∧ d.state.world.impls j = some v ∧
        v.lifeState = .givenUp ∧ ℓ.built ≠ some j := by
    intro t ℓ hrole hgone hsame hbuilt
    obtain ⟨j, v, hcurrent, hj, hlife, hother⟩ := hinv t hrole hgone
    obtain ⟨v', hj', hlife'⟩ := h.givenUp hc hcurrent hj hlife
    exact ⟨j, v', hsame.trans hcurrent, hj', hlife',
      hbuilt j (Option.ne_none_iff_exists'.mpr ⟨v, hj⟩) hother⟩
  rw [FoundGivenUp, h.2]
  intro t hrole hgone
  by_cases hut : u = t
  · subst hut
    rw [role_cons_self] at hrole
    rw [plan_cons_self] at hgone ⊢
    have hfound := Role.found_of_track hrole
    cases o with
    | pImplLifeState =>
        obtain ⟨hlife, hd⟩ := ClientState.whenever_eq_some.mp hexec
        cases r with
        | none =>
            -- a null `pImpl` leaves the role
            have hdrained : role u c.state.history = .drained := hallows
            cases hdrained.symm.trans hrole
        | some life =>
            obtain ⟨v, hv, rfl⟩ := Option.map_eq_some_iff.mp hlife.symm
            obtain ⟨j, hcurrent, hj⟩ := Option.bind_eq_some_iff.mp hv
            exact ⟨j, v, hd ▸ hcurrent, hd ▸ hj, beq_iff_eq.mp hgone, nofun⟩
    | implConstruct config client =>
        obtain ⟨hnone, -⟩ := ClientState.whenever_eq_some.mp hexec
        -- the new number is that of no `Impl` so far, so it is not in `pImpl`
        refine hkeep u _ (hfound.resolve_right nofun) hgone
          ((ClientState.frame_of_exec hexec).pImpl id) fun j hj _ hij => ?_
        obtain rfl : r = j := Option.some.inj hij
        exact hj hnone
    | pImplAdopt i =>
        cases r with
        | replaced old => cases hgone
        | terminated =>
            obtain ⟨-, hd⟩ := ClientState.whenever_eq_some.mp hexec
            exact hkeep u _ (hfound.resolve_right nofun) hgone (by rw [hd]) fun _ _ hother => hother
    | pImplTake =>
        have hrole' : role u c.state.history = .found := hrole
        rcases hallows with hclosing | hpassed
        · cases hclosing.symm.trans hrole'
        · cases hpassed.symm.trans hrole'
    | impl i o =>
        have hgone' := (Plan.trackImpl_gone _ o r).symm.trans hgone
        refine hkeep u _ (hfound.resolve_right nofun) hgone'
          ((ClientState.frame_of_exec hexec).pImpl id) fun j _ hother hbuilt => ?_
        exact hother ((Plan.trackImpl_built _ o r).symm.trans hbuilt)
    | _ =>
        exact hkeep u _ (hfound.resolve_right nofun) hgone
          ((ClientState.frame_of_exec hexec).pImpl id) fun _ _ hother => hother
  · rw [role_cons_ne hut] at hrole
    rw [plan_cons_ne hut] at hgone ⊢
    refine hkeep t _ hrole hgone (h.pImpl_of_recreates hc ?_ hut) fun _ _ hother => hother
    rw [hrole]
    rfl

/-- A step keeps the configuration of every `Impl`, provided it passes its check. -/
theorem sameConfig {cfg : ClientConfig} (hvalid : cfg.check = none)
    (hinv : SameConfig cfg c.state.history c.state.world) :
    SameConfig cfg d.state.history d.state.world := by
  have hexec := h.exec_eq
  have hplan := h.plan_allows hc
  refine ⟨fun i v hi => ?_, fun t config => ?_⟩
  · rcases ClientState.config_of_exec hexec hi with ⟨v₀, hi₀, hsame⟩ | ⟨client, rfl⟩ | rfl
    · exact hsame.trans (hinv.impls i v₀ hi₀)
    · exact hinv.known u _ hplan.1
    · -- what passes its check is repaired to itself
      obtain ⟨config, hknown, hrepaired⟩ := hplan
      rw [hinv.known u config hknown,
          ClientConfig.applyDefaultIfInvalid_of_check hvalid] at hrepaired
      exact hrepaired
  · rw [h.2]
    by_cases hut : u = t
    · subst hut
      rw [plan_cons_self]
      cases o with
      | pImplConfig =>
          rintro ⟨⟩
          -- `pImpl` was found not to be null, and nobody else replaces it
          obtain ⟨hconfig, -⟩ := ClientState.whenever_eq_some.mp hexec
          have hfound : role u c.state.history = .found := h.role_allows hc
          obtain ⟨j, hcurrent⟩ :=
            Option.ne_none_iff_exists'.mp ((exclusionInv_of_reach hc).found u hfound)
          obtain ⟨⟨hledger, -⟩, -⟩ := ledger_of_reach hc
          have hbuilt : c.state.world.estate.impls j ≠ none :=
            hledger.built_of_refs_pos (hledger.refs_pos_of_pImpl hcurrent)
          obtain ⟨v, hj⟩ := Option.ne_none_iff_exists'.mp
            (fun hnone => hbuilt (by simp [ClientState.estate, hnone]) :
              c.state.world.impls j ≠ none)
          have hv : c.state.world.current = some v := Option.bind_eq_some_iff.mpr ⟨j, hcurrent, hj⟩
          rw [hconfig, hv]
          exact hinv.impls j v hj
      | impl i o =>
          cases o with
          | readConfig =>
              rintro ⟨⟩
              obtain ⟨v, hi, hv⟩ := Option.bind_eq_some_iff.mp hexec
              obtain ⟨v', hv', -⟩ := Option.map_eq_some_iff.mp hv
              obtain ⟨hread, -⟩ := ImplState.whenever_eq_some.mp hv'
              rw [hread]
              exact hinv.impls i v hi
          | _ => exact hinv.known u config
      | pImplAdopt i => cases r <;> exact hinv.known u config
      | _ => exact hinv.known u config
    · rw [plan_cons_ne hut]
      exact hinv.known t config

end ClientPool.Performs

/-- What the threads have found is so in every run. -/
theorem foundGivenUp_of_reach (hc : ClientPool.Reach (.start calls (.start endpointUrl w)) c) :
    FoundGivenUp c.state.history c.state.world := by
  induction hc with
  | refl => exact fun t ht => nomatch ht
  | tail hc hs ih =>
      cases hs with
      | perform hp hs =>
          exact ClientPool.Performs.foundGivenUp ⟨.perform hp hs, hs.history_eq⟩ hc ih
      | round hp => exact ih

/-- So is what they know of the configuration. -/
theorem sameConfig_of_reach (hc : ClientPool.Reach (.start calls (.start endpointUrl w)) c)
    (hvalid : w.config.check = none) : SameConfig w.config c.state.history c.state.world := by
  induction hc with
  | refl =>
      refine ⟨fun i v hi => ?_, nofun⟩
      by_cases hi0 : i = 0
      · subst hi0
        obtain rfl : w = v := by simpa [ClientPool.start, ClientState.start, Traced.start] using hi
        rfl
      · exact absurd hi (by simp [ClientPool.start, ClientState.start, Traced.start, hi0])
  | tail hc hs ih =>
      cases hs with
      | perform hp hs =>
          exact ClientPool.Performs.sameConfig ⟨.perform hp hs, hs.history_eq⟩ hc hvalid ih
      | round hp => exact ih

/-- Each `Impl` succeeds one that was given up. -/
structure Succession (cfg : ClientConfig) (calls : Tid → List ClientCall) (c : ClientPool) :
    Prop where
  /-- All have the configuration of the first one, provided it passes its check. -/
  config : cfg.check = none → ∀ i v, c.state.world.impls i = some v → v.config = cfg
  /-- What a recreate adopts is the candidate that it has constructed since, which replaces another
  `Impl` that is given up, while no call is under a lease. -/
  adopts : ∀ d t i old, c.Performs t (.pImplAdopt i) (.replaced old) d →
    (plan t c.state.history).built = some i ∧ leasedTids c.state.history = ∅ ∧
      d.state.world.pImpl = some i ∧ ∃ j v, old = some j ∧ c.state.world.pImpl = some j ∧ i ≠ j ∧
        c.state.world.impls j = some v ∧ v.lifeState = .givenUp
  /-- While a thread recreates a client, nobody else changes `pImpl`. -/
  kept : ∀ d t u o r, (role t c.state.history).recreates = true → c.Performs u o r d → u ≠ t →
    d.state.world.pImpl = c.state.world.pImpl
  /-- The `Impl` in `pImpl` stays given up until it is replaced. -/
  final : ∀ d u o r, c.Performs u o r d → ∀ j v, c.state.world.pImpl = some j →
    c.state.world.impls j = some v → v.lifeState = .givenUp →
      ∃ v', d.state.world.impls j = some v' ∧ v'.lifeState = .givenUp
  /-- A recreate that succeeds has adopted one candidate, and no other call any. -/
  replies : ∀ t replies, c.Returned t (.ok replies) →
    Chained ClientCall.Succeeds (calls t) {} replies (plan t c.state.history)

/-- In every run, recreating a client replaces what was given up, by one of the same configuration,
or changes nothing. -/
theorem succession (hc : ClientPool.Reach (.start calls (.start endpointUrl w)) c) :
    Succession w.config calls c where
  config hvalid := (sameConfig_of_reach hc hvalid).impls
  adopts d t i old h := by
    obtain ⟨hgone, hbuilt⟩ := h.plan_allows hc
    have hfound : role t c.state.history = .found := h.role_allows hc
    obtain ⟨⟨-, hold⟩, hd⟩ := ClientState.whenever_eq_some.mp h.exec_eq
    obtain ⟨j, v, hcurrent, hj, hlife, hother⟩ := foundGivenUp_of_reach hc t hfound hgone
    -- the drain has seen to the leases, the invariant to the rest
    refine ⟨hbuilt, ?_, by rw [← hd], j, v, hold.trans hcurrent, hcurrent, ?_, hj, hlife⟩
    · refine Finset.eq_empty_of_forall_notMem fun u hu => ?_
      have hleases := (exclusionInv_of_reach hc).drained t (by rw [hfound]; rfl) u
      exact absurd (hleases.symm.trans (mem_leasedTids.mp hu)) nofun
    · rintro rfl
      exact hother hbuilt
  kept _ _ _ _ _ ht h hut := h.pImpl_of_recreates hc ht hut
  final _ _ _ _ h _ _ hcurrent hj hlife := h.givenUp hc hcurrent hj hlife
  replies := (plans_of_reach hc).2

end Runs

/-- A client that is given up is recreated, and then once more. -/
def recreatedOnce : Option ClientPool :=
  ClientPool.run [[.recreateGiveUpClient, .recreateGiveUpClient]]
    { ImplState.connected with lifeState := .givenUp } (({} : Environment).clientMoves 0 123)

/-- The second time it is not given up. -/
theorem succession_recreatedOnce :
    ∃ c : ClientPool, Succession ImplState.connected.config
        (ClientPool.callsOf [[.recreateGiveUpClient, .recreateGiveUpClient]]) c ∧
      c.Returned 0 (.ok [.result (.ok ()), .result (.error ⟨.notGivenUp,
        "recreateGiveUpClient: client is not in GIVEN_UP state"⟩)]) ∧
      c.state.world.pImpl = some 1 ∧ (plan 0 c.state.history).adopted = [1] := by
  have hplay : recreatedOnce.any (fun d =>
      d.result? 0 == some (.ok [.result (.ok ()), .result (.error ⟨.notGivenUp,
        "recreateGiveUpClient: client is not in GIVEN_UP state"⟩)]) &&
      d.state.world.pImpl == some 1 && (plan 0 d.state.history).adopted == [1]) = true := by
    decide
  obtain ⟨d, -, hd, hcheck⟩ := Config.exists_reach_of_play hplay
  simp only [Bool.and_eq_true, beq_iff_eq] at hcheck
  have hsuccession := succession hd
  exact ⟨d, hsuccession, Config.returned_of_result? hcheck.1.1, hcheck.1.2, hcheck.2⟩

end OPCUAPacking
