import OPCUAPacking.Client.Schedule
import OPCUAPacking.Client.Turns

/-!
# Lifecycle exclusion

The leases, the flag of a recreate, the winner of `shutdown` and the destructor exclude each other
as their guards intend, in every run of any number of threads.

* `ExclusionInv` — what the flags and the counters have to do with the roles of the threads.
* `exclusion_step` — every turn keeps it.
* `lifecycleExclusion` — the result about every run.
-/

namespace OPCUAPacking

open Interleaving

/-- The threads that hold an active lease. -/
def leasedTids (h : ClientHistory) : Finset Tid := Event.census Role.track .free Role.leases h

/-- The winners of `shutdown` that are still inside. -/
def closingTids (h : ClientHistory) : Finset Tid := Event.census Role.track .free Role.closes h

/-- The event ends the wait of the destructor. -/
def endsWait (e : Event ClientSig) : Bool :=
  match e.op, e.resp with
  | .terminate, settled => settled
  | .destructorWait, _ => true
  | _, _ => false

/-- The wait of the destructor is satisfied. -/
def WaitEnded (h : ClientHistory) : Prop := ∃ e ∈ h, endsWait e = true

theorem role_cons_self (t : Tid) (o : ClientOp) (r : o.Resp) (es : ClientHistory) :
    role t (⟨t, o, r⟩ :: es) = (role t es).track es o r :=
  @Event.stage_cons_self ClientSig Role Role.track .free t o r es

theorem role_cons_ne {t u : Tid} (h : u ≠ t) (o : ClientOp) (r : o.Resp) (es : ClientHistory) :
    role t (⟨u, o, r⟩ :: es) = role t es :=
  @Event.stage_cons_ne ClientSig Role Role.track .free t u h o r es

theorem mem_leasedTids {t : Tid} {h : ClientHistory} :
    t ∈ leasedTids h ↔ (role t h).leases = true :=
  Event.mem_census rfl

theorem mem_closingTids {t : Tid} {h : ClientHistory} :
    t ∈ closingTids h ↔ (role t h).closes = true :=
  Event.mem_census rfl

/-- An event changes the number of active leases by what it does to its own thread. -/
theorem card_leasedTids_cons (t : Tid) (o : ClientOp) (r : o.Resp) (h : ClientHistory) :
    ((leasedTids (⟨t, o, r⟩ :: h)).card : Int) = (leasedTids h).card +
      (if ((role t h).track h o r).leases then 1 else 0) - (if (role t h).leases then 1 else 0) :=
  @Event.card_census_cons ClientSig Role Role.track .free Role.leases t h rfl o r

/-- So it changes the number of winners of `shutdown`. -/
theorem card_closingTids_cons (t : Tid) (o : ClientOp) (r : o.Resp) (h : ClientHistory) :
    ((closingTids (⟨t, o, r⟩ :: h)).card : Int) = (closingTids h).card +
      (if ((role t h).track h o r).closes then 1 else 0) - (if (role t h).closes then 1 else 0) :=
  @Event.card_census_cons ClientSig Role Role.track .free Role.closes t h rfl o r

/-! ### The invariant -/

/-- What the flags, the counters and the roles of the threads have to do with each other. -/
structure ExclusionInv (h : ClientHistory) (y : Sync) : Prop where
  inFlight : y.inFlight = (leasedTids h).card
  shutdownInFlight : y.shutdownInFlight = (closingTids h).card
  recreating : y.recreating = true ↔ ∃ t, (role t h).recreates = true
  unique : ∀ t u, (role t h).recreates = true → (role u h).recreates = true → t = u
  guards : ∀ t, GuardAgrees t (role t h) y
  /-- After its drain a recreate is alone with `pImpl`. -/
  drained : ∀ t, (role t h).swaps = true → ∀ u, (role u h).leases = false
  found : ∀ t, role t h = .found → y.pImpl ≠ none
  /-- A `shutdown` that has won excludes every recreate. -/
  closing : ∀ t, role t h = .closing → y.terminated = true ∧ y.recreating = false
  waiting : ∀ t, role t h = .waiting → y.terminated = true
  passed : ∀ t, role t h = .passed → WaitEnded h
  /-- So does a destructor that has passed its wait, and it excludes every `shutdown`. -/
  ended : WaitEnded h → y.terminated = true ∧ y.IsSettled

variable {t : Tid} {o : ClientOp} {r : o.Resp} {h : ClientHistory} {y y' : Sync}

/-- The roles after an event. -/
theorem role_cons (u : Tid) : role u (⟨t, o, r⟩ :: h) =
    if u = t then (role t h).track h o r else role u h := by
  split_ifs with hu
  · rw [hu, role_cons_self]
  · exact role_cons_ne (Ne.symm hu) o r h

/-- A property of roles, after an event: it holds of the thread by its turn, of the others as
before. -/
theorem forall_role_cons (P : Tid → Role → Prop) (hself : P t ((role t h).track h o r))
    (hothers : ∀ u, u ≠ t → P u (role u h)) (u : Tid) : P u (role u (⟨t, o, r⟩ :: h)) := by
  rw [role_cons]
  split_ifs with hu
  · exact hu ▸ hself
  · exact hothers u hu

/-- Only the wait of the destructor leads past it. -/
theorem endsWait_of_track {ℓ : Role} (hℓ : ℓ.track h o r = .passed) :
    ℓ = .passed ∨ endsWait ⟨t, o, r⟩ = true := by
  cases o with
  | terminate =>
      cases r with
      | true => exact .inr rfl
      | false => cases hℓ
  | destructorWait => exact .inr rfl
  | leaseAcquire | recreateEnter | shutdownEnter =>
      cases r <;> first | exact .inl hℓ | cases hℓ
  | recreateDrain ms => cases r <;> first | exact .inl hℓ | cases hℓ
  | pImplLifeState => cases r <;> first | exact .inl hℓ | cases hℓ
  | leaseRelease | guardConstruct | guardReset | guardDestroy | shutdownLeave | pImplCopy =>
      cases hℓ
  | _ => exact .inl hℓ

/-- Where the wait of the destructor ends, nobody recreates and nobody shuts down. -/
theorem settled_of_endsWait {s s' : ClientState} (hexec : s.exec t o r = some s')
    (he : endsWait ⟨t, o, r⟩ = true) :
    s'.sync.IsSettled ∧ (s'.terminated = true ∨ o = .destructorWait) := by
  cases o with
  | terminate =>
      obtain rfl : r = true := he
      obtain ⟨hr, rfl⟩ := ClientState.whenever_eq_some.mp hexec
      exact ⟨ClientState.isSettled_iff.mp hr.symm, .inl rfl⟩
  | destructorWait =>
      obtain ⟨hr, rfl⟩ := ClientState.whenever_eq_some.mp hexec
      exact ⟨ClientState.isSettled_iff.mp hr, .inr rfl⟩
  | _ => cases he

/-- The two flags settle together: once `m_terminated` is set, no recreate wins and no `shutdown`
does. -/
theorem Turn.isSettled {ℓ ℓ' : Role} (hturn : Turn t ℓ y ℓ' y') (hguard : GuardAgrees t ℓ y)
    (hterm : y.terminated = true) (hy : y.IsSettled) : y'.IsSettled := by
  constructor
  · rcases hturn.recreating_eq hguard with ⟨heq, -⟩ | ⟨hopen, -⟩ | ⟨hfalse, -⟩
    · exact heq.trans hy.1
    · exact absurd (hterm.symm.trans hopen.2) nofun
    · exact hfalse
  · cases hturn with
    | close _ hopen => exact absurd (hterm.symm.trans hopen.2) nofun
    | reset | destroy hℓ => exact (y.release_shutdownInFlight t).trans hy.2
    | leave => simp [Sync.leave, hy.2]
    | _ => exact hy.2

/-- Every turn keeps the invariant. -/
theorem exclusion_step {s s' : Traced ClientSig ClientState}
    (hinv : ExclusionInv s.history s.world.sync) (hs : Traced.Step ClientState.exec t o r s s')
    (hallows : (role t s.history).Allows o r) : ExclusionInv s'.history s'.world.sync := by
  have hturn := ClientState.turn_of_exec s.history hs.exec_eq hallows
  have hguard := hinv.guards t
  rw [hs.history_eq]
  -- the flag of a recreate, and who has won it
  have hrec := hturn.recreating_eq hguard
  have hhas : ∀ u, (role u s.history).recreates = true → s.world.sync.recreating = true :=
    fun u hu => hinv.recreating.mpr ⟨u, hu⟩
  have hunset : ∀ u, (role u s.history).recreates = true →
      s.world.sync.recreating = false → False :=
    fun u hu hfalse => absurd ((hhas u hu).symm.trans hfalse) nofun
  refine ⟨?_, ?_, ?_, ?_, ?_, ?_, ?_, ?_, ?_, ?_, ?_⟩
  · rw [hturn.inFlight_eq, hinv.inFlight, card_leasedTids_cons]
  · have hpos : (role t s.history).closes = true → 0 < s.world.sync.shutdownInFlight := by
      intro hcloses
      rw [hinv.shutdownInFlight]
      exact_mod_cast Finset.card_pos.mpr ⟨t, mem_closingTids.mpr hcloses⟩
    rw [hturn.shutdownInFlight_eq hpos, hinv.shutdownInFlight, card_closingTids_cons]
  · rcases hrec with ⟨hflag, hrole⟩ | ⟨-, hset, -, hrole⟩ | ⟨hclear, hbefore, hafter⟩
    · rw [hflag, hinv.recreating]
      refine exists_congr fun u => ?_
      rw [role_cons]
      split_ifs with hu
      · rw [hu, hrole]
      · rfl
    · refine ⟨fun _ => ⟨t, ?_⟩, fun _ => hset⟩
      rw [role_cons_self]
      exact hrole
    · rw [hclear]
      refine ⟨nofun, ?_⟩
      rintro ⟨u, hu⟩
      rw [role_cons] at hu
      split_ifs at hu with hut
      · exact absurd (hafter.symm.trans hu) nofun
      · exact absurd (hinv.unique u t hu hbefore) hut
  · -- a second winner would have found the flag set
    have hothers : ∀ u, u ≠ t → (role u s.history).recreates = true →
        ((role t s.history).track s.history o r).recreates = true → False := by
      intro u hut hu ht
      rcases hrec with ⟨-, hrole⟩ | ⟨hopen, -⟩ | ⟨-, -, hafter⟩
      · exact hut (hinv.unique u t hu (hrole ▸ ht))
      · exact hunset u hu hopen.1
      · exact absurd (hafter.symm.trans ht) nofun
    intro u v hu hv
    rw [role_cons] at hu hv
    split_ifs at hu hv with hut hvt hvt
    · exact hut.trans hvt.symm
    · exact (hothers v hvt hv hu).elim
    · exact (hothers u hut hu hv).elim
    · exact hinv.unique u v hu hv
  · refine forall_role_cons (fun u ℓ => GuardAgrees u ℓ _) (hturn.guardAgrees hguard) fun u hu => ?_
    obtain ⟨hholds, hreset⟩ := hinv.guards u
    exact ⟨fun hℓ => (hturn.isReset_eq hu).trans (hholds hℓ),
      fun hℓ => (hturn.isReset_eq hu).trans (hreset hℓ)⟩
  · -- while somebody swaps, the flag is set, so no lease becomes active
    have hleases : (∀ u, (role u s.history).leases = false) → s.world.sync.recreating = true →
        ∀ u, (role u (⟨t, o, r⟩ :: s.history)).leases = false := by
      intro hnone hset
      refine forall_role_cons (fun _ ℓ => ℓ.leases = false) ?_ fun u _ => hnone u
      refine Bool.eq_false_iff.mpr fun hℓ => ?_
      rcases hturn.leases hℓ with hbefore | hopen
      · exact absurd ((hnone t).symm.trans hbefore) nofun
      · exact absurd (hset.symm.trans hopen.1) nofun
    refine forall_role_cons (fun _ ℓ => ℓ.swaps = true → _) (fun hℓ => ?_) fun u _ hu =>
      hleases (hinv.drained u hu) (hhas u (Role.recreates_of_swaps hu))
    rcases hturn.swaps hℓ with hbefore | hzero
    · exact hleases (hinv.drained t hbefore) (hhas t (Role.recreates_of_swaps hbefore))
    · -- the drain itself: the counter is zero
      have hempty : leasedTids s.history = ∅ := by
        rw [hinv.inFlight] at hzero
        exact Finset.card_eq_zero.mp (by exact_mod_cast hzero)
      have hnone : ∀ u, (role u s.history).leases = false :=
        Event.stage_of_census_eq_empty rfl hempty
      refine forall_role_cons (fun _ ℓ => ℓ.leases = false) ?_ fun u _ => hnone u
      cases hℓ' : (role t s.history).track s.history o r <;>
        first | rfl | (rw [hℓ'] at hℓ; cases hℓ)
  · -- nobody else moves the pointer out of an `Impl` that was found
    refine forall_role_cons (fun _ ℓ => ℓ = .found → _) (fun hℓ => ?_) fun u _ hu hnone => ?_
    · rcases hturn.found hℓ with hbefore | hsome
      · intro hnone
        rcases hturn.pImpl_eq_none hnone with hold | hclosing | hpassed
        · exact hinv.found t hbefore hold
        · rw [hbefore] at hclosing
          cases hclosing
        · rw [hbefore] at hpassed
          cases hpassed
      · exact hsome
    · have hrecreates : (role u s.history).recreates = true := by rw [hu]; rfl
      rcases hturn.pImpl_eq_none hnone with hold | hclosing | hpassed
      · exact hinv.found u hu hold
      · exact hunset u hrecreates (hinv.closing t hclosing).2
      · exact hunset u hrecreates (hinv.ended (hinv.passed t hpassed)).2.1
  · have hkeep : ∀ u, role u s.history = .closing →
        s'.world.sync.terminated = true ∧ s'.world.sync.recreating = false := by
      intro u hu
      obtain ⟨hterm, hfalse⟩ := hinv.closing u hu
      refine ⟨hturn.terminated hterm, ?_⟩
      rcases hrec with ⟨hflag, -⟩ | ⟨hopen, -⟩ | ⟨hclear, -⟩
      · exact hflag.trans hfalse
      · exact absurd (hterm.symm.trans hopen.2) nofun
      · exact hclear
    refine forall_role_cons (fun _ ℓ => ℓ = .closing → _) (fun hℓ => ?_) fun u _ => hkeep u
    rcases hturn.closing hℓ with hbefore | ⟨hterm, hfalse, -⟩
    · exact hkeep t hbefore
    · exact ⟨hterm, hfalse⟩
  · refine forall_role_cons (fun _ ℓ => ℓ = .waiting → _) (fun hℓ => ?_) fun u _ hu =>
      hturn.terminated (hinv.waiting u hu)
    rcases hturn.waiting hℓ with hbefore | hterm
    · exact hturn.terminated (hinv.waiting t hbefore)
    · exact hterm
  · have hkeep : ∀ u, role u s.history = .passed → WaitEnded (⟨t, o, r⟩ :: s.history) := by
      intro u hu
      obtain ⟨e, hmem, he⟩ := hinv.passed u hu
      exact ⟨e, List.mem_cons_of_mem _ hmem, he⟩
    refine forall_role_cons (fun _ ℓ => ℓ = .passed → _) (fun hℓ => ?_) fun u _ => hkeep u
    rcases endsWait_of_track hℓ with hbefore | he
    · exact hkeep t hbefore
    · exact ⟨_, List.mem_cons_self, he⟩
  · rintro ⟨e, hmem, he⟩
    rcases List.mem_cons.mp hmem with rfl | hmem
    · obtain ⟨hsettled, hterm | rfl⟩ := settled_of_endsWait hs.exec_eq he
      · exact ⟨hterm, hsettled⟩
      · exact ⟨hturn.terminated (hinv.waiting t hallows), hsettled⟩
    · obtain ⟨hterm, hsettled⟩ := hinv.ended ⟨e, hmem, he⟩
      exact ⟨hturn.terminated hterm, hturn.isSettled hguard hterm hsettled⟩

/-! ### Runs -/

variable {calls : Tid → List ClientCall} {endpointUrl : String} {s : ImplState} {c : ClientPool}

/-- The threads of a pool keep their roles, from wherever they start. -/
theorem ClientPool.follows_role (w : ClientState) (u : Tid) :
    roleProtocol.Follows u ((ClientPool.start calls w).pool u) (fun _ ℓ => ℓ.rests = true) .free :=
  Client.role_runAll (calls u) rfl

/-- In every run, every operation was performed in its role. -/
theorem allows_of_reach {w : ClientState} (hc : ClientPool.Reach (.start calls w) c) :
    Event.Each (fun es e => (role e.tid es).Allows e.op e.resp) c.state.history :=
  (Protocol.recorded_each (Q := fun _ _ (ℓ : Role) => ℓ.rests = true) rfl
    (ClientPool.follows_role w) hc).1

/-- So is the one that a step performs. -/
theorem ClientPool.Performs.role_allows {w : ClientState} {d : ClientPool}
    (h : c.Performs t o r d) (hc : ClientPool.Reach (.start calls w) c) :
    (role t c.state.history).Allows o r := by
  have heach := allows_of_reach (hc.tail h.1)
  rw [h.2] at heach
  exact (Event.each_cons.mp heach).1

/-- A client that nobody has called yet satisfies the invariant. -/
theorem exclusionInv_start : ExclusionInv [] (ClientState.start endpointUrl s).sync where
  inFlight := rfl
  shutdownInFlight := rfl
  recreating := ⟨nofun, fun ⟨_, ht⟩ => nomatch ht⟩
  unique _ _ ht := nomatch ht
  guards _ := ⟨nofun, nofun⟩
  drained _ ht := nomatch ht
  found _ ht := nomatch ht
  closing _ ht := nomatch ht
  waiting _ ht := nomatch ht
  passed _ ht := nomatch ht
  ended := fun ⟨_, hmem, _⟩ => absurd hmem List.not_mem_nil

/-- The invariant holds in every run. -/
theorem exclusionInv_of_reach (hc : ClientPool.Reach (.start calls (.start endpointUrl s)) c) :
    ExclusionInv c.state.history c.state.world.sync :=
  Protocol.recorded_invariant
    (fun s : Traced ClientSig ClientState => ExclusionInv s.history s.world.sync)
    (Q := fun _ _ (ℓ : Role) => ℓ.rests = true) rfl (ClientPool.follows_role _) exclusionInv_start
    exclusion_step hc

/-- The calls of a client exclude each other as their guards intend. -/
structure LifecycleExclusion (c : ClientPool) : Prop where
  /-- `m_inFlight` is the number of active leases. -/
  inFlight : c.state.world.inFlight = (leasedTids c.state.history).card
  /-- `m_shutdownInFlight` is the number of winners of `shutdown` that are still inside. -/
  shutdownInFlight : c.state.world.shutdownInFlight = (closingTids c.state.history).card
  /-- `m_recreating` is set exactly while a recreate is between winning and releasing it. -/
  recreating : c.state.world.recreating = true ↔
    ∃ t, (role t c.state.history).recreates = true
  /-- There is never more than one such call. -/
  unique : ∀ t u, (role t c.state.history).recreates = true →
    (role u c.state.history).recreates = true → t = u
  /-- Only that call clears the flag: the late destructor of a guard that was reset does not. -/
  cleared : ∀ d, ClientPool.Step c d → c.state.world.recreating = true →
    d.state.world.recreating = false →
      ∃ t, (role t c.state.history).recreates = true ∧ (role t d.state.history).recreates = false
  /-- From its drain to the release, no lease is active. -/
  drained : ∀ t, (role t c.state.history).swaps = true → leasedTids c.state.history = ∅
  /-- A recreate and a winner of `shutdown` never coexist. -/
  apart : ∀ t u, (role t c.state.history).recreates = true → role u c.state.history ≠ .closing
  /-- Once the wait of the destructor is satisfied there is neither. -/
  ended : WaitEnded c.state.history → ∀ t,
    (role t c.state.history).recreates = false ∧ role t c.state.history ≠ .closing

/-- In every run, the lifecycle calls exclude each other. -/
theorem lifecycleExclusion (hc : ClientPool.Reach (.start calls (.start endpointUrl s)) c) :
    LifecycleExclusion c := by
  have hinv := exclusionInv_of_reach hc
  have hapart : ∀ t u, (role t c.state.history).recreates = true →
      role u c.state.history ≠ .closing := by
    intro t u ht hu
    have hset := hinv.recreating.mpr ⟨t, ht⟩
    exact absurd (hset.symm.trans (hinv.closing u hu).2) nofun
  refine ⟨hinv.inFlight, hinv.shutdownInFlight, hinv.recreating, hinv.unique, ?_, ?_, hapart, ?_⟩
  · rintro d hd hset hclear
    have hinv' := exclusionInv_of_reach (hc.tail hd)
    obtain ⟨t, ht⟩ := hinv.recreating.mp hset
    refine ⟨t, ht, Bool.eq_false_iff.mpr fun ht' => ?_⟩
    exact absurd ((hinv'.recreating.mpr ⟨t, ht'⟩).symm.trans hclear) nofun
  · intro t ht
    refine Finset.eq_empty_of_forall_notMem fun u hu => ?_
    exact absurd ((hinv.drained t ht u).symm.trans (mem_leasedTids.mp hu)) nofun
  · intro hended t
    obtain ⟨-, hfalse, hzero⟩ := hinv.ended hended
    constructor
    · refine Bool.eq_false_iff.mpr fun ht => ?_
      exact absurd ((hinv.recreating.mpr ⟨t, ht⟩).symm.trans hfalse) nofun
    · intro ht
      have hcard : closingTids c.state.history = ∅ := by
        rw [hinv.shutdownInFlight] at hzero
        exact Finset.card_eq_zero.mp (by exact_mod_cast hzero)
      have hmem : t ∈ closingTids c.state.history := mem_closingTids.mpr (by rw [ht]; rfl)
      rw [hcard] at hmem
      exact absurd hmem (Finset.notMem_empty t)

/-- The destructor runs while a recreate is in progress. -/
def destructorDuringRecreate : Option ClientPool :=
  let env : Environment := {}
  ClientPool.run [[.recreateGiveUpClient], [.destructor]] .connected
    (env.clientMoves 0 2 ++ env.clientMoves 1 1)

/-- It waits. -/
theorem lifecycleExclusion_waiting :
    ∃ c : ClientPool, LifecycleExclusion c ∧ c.state.world.recreating = true ∧
      role 0 c.state.history = .guarded ∧ role 1 c.state.history = .waiting := by
  have hplay : destructorDuringRecreate.any (fun d => d.state.world.recreating &&
      role 0 d.state.history == .guarded && role 1 d.state.history == .waiting) = true := by
    decide
  obtain ⟨d, -, hd, hcheck⟩ := Config.exists_reach_of_play hplay
  simp only [Bool.and_eq_true, beq_iff_eq] at hcheck
  exact ⟨d, lifecycleExclusion hd, hcheck.1.1, hcheck.1.2, hcheck.2⟩

end OPCUAPacking
