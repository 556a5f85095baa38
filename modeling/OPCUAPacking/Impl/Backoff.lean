import OPCUAPacking.Impl.Bounds
import OPCUAPacking.Impl.Executions
import OPCUAPacking.Impl.Schedule

/-!
# The sleep between two attempts

`delayFunction` along an execution in which the other threads make any calls.

* `slices` — the times that a thread asked its waits to last.
* `Heeds` — after a look at a stop signal that is on, no further slice is started.
* `backoff_sleeps` — the sleep ends, in slices of at most 100 ms that add up to the backoff unless
  the stop signal comes.
-/

namespace OPCUAPacking

open Interleaving

/-! ### What a thread asked its waits to last -/

/-- The time of a slice that begins. -/
def sliceOf (e : Event ImplSig) : Option UInt32 :=
  match e.op with
  | .waitBegin ms => some ms
  | _ => none

/-- What a sleeping thread does, but to start a slice. -/
def ImplOp.isIdle : ImplOp → Bool
  | .load _ | .readConfig | .waitBlock => true
  | _ => false

/-- A wait blocks. -/
def isWait (e : Event ImplSig) : Bool :=
  match e.op with
  | .waitBlock => true
  | _ => false

/-- A wait ends because the time is up. -/
def isExpiry : Event ImplSig → Bool
  | ⟨_, .waitBlock, expired⟩ => expired
  | _ => false

namespace ImplExecution

variable {c : ImplPool} (E : ImplExecution c) (t : Tid)

/-- The slices that thread `t` has started, newest first. -/
def slices (n : Nat) : List UInt32 := (E.ops t n).filterMap sliceOf

/-- The stop signal is on. -/
def StopAt (n : Nat) : Prop := (E.config n).state.world.stopSignal = true

/-- Thread `t` begins a look at the stop signal. -/
def LooksAt (n : Nat) : Prop := ∃ b, E.label n = .perform ⟨t, .load .shutdown, b⟩

/-- No slice was started after a look at a stop signal that was on. -/
def Heeds (n : Nat) : Prop :=
  ∀ i j ms, i < j → j < n → E.LooksAt t i → E.StopAt i →
    E.label j ≠ .perform ⟨t, .waitBegin ms, ()⟩

/-- No look found the stop signal on. -/
def Clear (n : Nat) : Prop := ∀ i < n, E.LooksAt t i → ¬E.StopAt i

variable {E t} {n n' : Nat} {o : ImplOp} {r : o.Resp}

/-- A load answers what the member holds at that moment. -/
theorem load_along {a : Atomic} {v : a.Val} (h : (E.along t Impl.grantable).step (.load a) v n n') :
    ∃ k, E.Still t n k ∧ n' = k + 1 ∧ E.label k = .perform ⟨t, .load a, v⟩ ∧
      v = (E.config k).state.world.get a := by
  obtain ⟨k, hstill, hl, rfl⟩ := h
  obtain ⟨-, -, -, hstep⟩ := Execution.step_of_label hl
  obtain ⟨hget, -⟩ := ImplState.whenever_eq_some.mp hstep.exec_eq
  exact ⟨k, hstill, rfl, hl, hget.symm⟩

/-- What a thread has done before the next moment: what it had done, or the operation. -/
theorem label_lt_of_step (h : (E.along t Impl.grantable).step o r n n') {i : Nat} (hi : i < n')
    {o' : ImplOp} {r' : o'.Resp} (hl : E.label i = .perform ⟨t, o', r'⟩) :
    i < n ∨ (n' = i + 1 ∧ (⟨t, o', r'⟩ : Event ImplSig) = ⟨t, o, r⟩) := by
  obtain ⟨k, hstill, hk, rfl⟩ := h
  rcases Nat.lt_succ_iff_lt_or_eq.mp hi with hik | rfl
  · by_contra hno
    have hni : n ≤ i := Nat.not_lt.mp fun h => hno (.inl h)
    exact hstill.2 i hni hik o' r' hl
  · exact .inr ⟨rfl, Label.perform.inj (hl.symm.trans hk)⟩

/-- Another operation is no look. -/
theorem Clear.step (hn : E.Clear t n) (h : (E.along t Impl.grantable).step o r n n')
    (ho : o ≠ .load .shutdown) : E.Clear t n' := by
  rintro i hi ⟨b, hl⟩
  rcases label_lt_of_step h hi hl with hlt | ⟨-, heq⟩
  · exact hn i hlt ⟨b, hl⟩
  · cases heq
    exact absurd rfl ho

/-- An operation that starts no slice. -/
theorem Heeds.step (hn : E.Heeds t n) (h : (E.along t Impl.grantable).step o r n n')
    (ho : ∀ ms, o ≠ .waitBegin ms) : E.Heeds t n' := by
  intro i j ms hij hj hlook hstop hl
  rcases label_lt_of_step h hj hl with hlt | ⟨-, heq⟩
  · exact hn i j ms hij hlt hlook hstop hl
  · cases heq
    exact ho ms rfl

/-- A slice that is started after the last look found the signal off. -/
theorem Heeds.waitBegin {ms : UInt32} {u : Unit} (hn : E.Heeds t n) (hclear : E.Clear t n)
    (h : (E.along t Impl.grantable).step (.waitBegin ms) u n n') : E.Heeds t n' := by
  intro i j ms' hij hj hlook hstop hl
  rcases label_lt_of_step h hj hl with hlt | ⟨heq, -⟩
  · exact hn i j ms' hij hlt hlook hstop hl
  · obtain ⟨b, hlook'⟩ := hlook
    rcases label_lt_of_step h (Nat.lt_trans hij hj) hlook' with hlt | ⟨heq', -⟩
    · exact hclear i hlt ⟨b, hlook'⟩ hstop
    · omega

/-- The slices after an operation. -/
theorem slices_of_step (h : (E.along t Impl.grantable).step o r n n') :
    E.slices t n' = ((sliceOf ⟨t, o, r⟩).toList ++ E.slices t n) := by
  rw [slices, slices, Execution.ops_of_step h, List.filterMap_cons]
  cases sliceOf ⟨t, o, r⟩ <;> rfl

end ImplExecution

namespace Impl

open Setting

variable {c : ImplPool} {E : ImplExecution c} {t : Tid} {n : Nat} {α β : Type}

/-- How a look at the stop signal ends, which keeps `I`: if it finds the signal off, so did all
looks before it. -/
def Looked (E : ImplExecution c) (t : Tid) (I : Nat → Prop) (r : Except Exn Bool) (n : Nat) :
    Prop :=
  ∃ b, r = .ok b ∧ I n ∧ (b = false → E.Clear t n) ∧ (b = true → ∃ k, E.StopAt k)

section Look

variable {I : Nat → Prop} (hc : c.OfCalls)
  (hI : ∀ a v n n', (E.along t Impl.grantable).step (.load a) v n n' → I n → I n')

include hc hI

/-- The look at the life state. -/
theorem along_isGivenUp (hn : I n)
    (hclear : (E.config n).state.world.lifeState ≠ .givenUp → E.Clear t n) :
    Along E t isGivenUp (Looked E t I) n := by
  refine along_op trivial fun life n' h => ends_pure ?_
  have hn' := hI _ _ _ _ h hn
  have hstep := h
  obtain ⟨k, hstill, rfl, -, rfl⟩ := ImplExecution.load_along h
  refine ⟨_, rfl, hn', fun hlive => ?_, fun hdead => ⟨k, ?_⟩⟩
  · refine (hclear fun hgone => ?_).step hstep nofun
    have hgone' := hc.keep (P := fun s => s.lifeState = .givenUp)
      (fun ho hs h => ImplState.givenUp_of_footprint ho h hs) hstill.1 hgone
    exact (beq_eq_false_iff_ne.mp hlive) hgone'
  · have hgone : (E.config k).state.world.lifeState = .givenUp := beq_iff_eq.mp hdead
    simp [ImplExecution.StopAt, ImplState.stopSignal, hgone]

/-- The look at the stop signal. -/
theorem along_stopSignal (hn : I n) : Along E t getEffectiveStopSignal (Looked E t I) n := by
  refine along_op trivial fun shutdown n₁ h₁ => ?_
  have hn₁ := hI _ _ _ _ h₁ hn
  obtain ⟨k, hstill, rfl, hl, rfl⟩ := ImplExecution.load_along h₁
  -- if the signal is off when the look begins, it was off at all looks before
  have hclear : ¬E.StopAt k → E.Clear t (k + 1) := fun hoff i hi _ hstop =>
    hoff (hc.stop_of_le (Nat.le_of_lt_succ hi) hstop)
  have hlife : ∀ {m}, k ≤ m → (E.config m).state.world.lifeState ≠ .givenUp →
      (E.config k).state.world.lifeState ≠ .givenUp := fun hkm hm hk =>
    hm (hc.keep (P := fun s => s.lifeState = .givenUp)
      (fun ho hs h => ImplState.givenUp_of_footprint ho h hs) hkm hk)
  cases hshutdown : (E.config k).state.world.get .shutdown with
  | false =>
      have hoff : (E.config k).state.world.shutdown = false := hshutdown
      refine along_isGivenUp hc hI hn₁ fun hm => hclear ?_
      simp [ImplExecution.StopAt, ImplState.stopSignal, hoff, hlife (Nat.le_succ k) hm]
  | true =>
      have hon : (E.config k).state.world.shutdown = true := hshutdown
      refine along_op trivial fun running n₂ h₂ => ?_
      have hn₂ := hI _ _ _ _ h₂ hn₁
      have hstep₂ := h₂
      obtain ⟨k₂, hstill₂, rfl, -, rfl⟩ := ImplExecution.load_along h₂
      have hle : k ≤ k₂ := Nat.le_of_succ_le hstill₂.1
      cases hrunning : (E.config k₂).state.world.get .running with
      | false =>
          have hstopped : (E.config k₂).state.world.running = false := hrunning
          have hon₂ := hc.keep (P := fun s => s.shutdown = true)
            (fun ho hs h => (ImplState.flags_of_exec ho h).2.1 hs) hle hon
          refine ends_pure ⟨true, rfl, hn₂, by rintro ⟨⟩, fun _ => ⟨k₂, ?_⟩⟩
          simp [ImplExecution.StopAt, ImplState.stopSignal, hon₂, hstopped]
      | true =>
          have hrun₂ : (E.config k₂).state.world.running = true := hrunning
          have hrun : (E.config k).state.world.running = true := by
            by_contra hnot
            have hkeep := hc.keep (P := fun s => s.running = false)
              (fun ho hs h => (ImplState.flags_of_exec ho h).1 hs) hle
              (Bool.not_eq_true _ ▸ hnot)
            cases hrun₂.symm.trans hkeep
          refine along_isGivenUp hc hI hn₂ fun hm => (hclear ?_).step hstep₂ (by rintro ⟨⟩)
          simp [ImplExecution.StopAt, ImplState.stopSignal, hrun,
            hlife (Nat.le_succ_of_le hle) hm]

end Look

/-! ### The sleep -/

/-- An account `I` of the slices that a thread has started, which a sleep keeps up. -/
structure Accounts (E : ImplExecution c) (t : Tid) (I : List UInt32 → Nat → Prop) : Prop where
  idle : ∀ {l o r n n'}, o.isIdle = true → (E.along t grantable).step o r n n' → I l n → I l n'
  /-- A slice is started after the last look has found the signal off. -/
  begin : ∀ {l ms n n'}, E.Clear t n → (E.along t grantable).step (.waitBegin ms) () n n' → I l n →
    I (ms :: l) n'

/-- A thread that has started the slices `l`, and none against the stop signal. -/
structure Dozes (E : ImplExecution c) (t : Tid) (l : List UInt32) (n : Nat) : Prop where
  heeds : E.Heeds t n
  slices_eq : E.slices t n = l

theorem accounts_dozes : Accounts E t (Dozes E t) where
  idle {l o r n n'} ho h hn := by
    have hne : ∀ ms, o ≠ .waitBegin ms := by
      rintro ms rfl
      cases ho
    have hnone : sliceOf ⟨t, o, r⟩ = none := by
      cases o with
      | waitBegin ms => exact absurd rfl (hne ms)
      | _ => rfl
    refine ⟨hn.heeds.step h hne, ?_⟩
    rw [ImplExecution.slices_of_step h, hnone, hn.slices_eq]
    rfl
  begin hclear h hn := by
    refine ⟨hn.heeds.waitBegin hclear h, ?_⟩
    rw [ImplExecution.slices_of_step h, hn.slices_eq]
    rfl

/-- The next slice: at most 100 ms, and no more than what is left. -/
theorem slice_bounds {elapsed backoff : UInt32} (h : elapsed < backoff) :
    1 ≤ (min 100 (backoff - elapsed)).toNat ∧ (min 100 (backoff - elapsed)).toNat ≤ 100 ∧
      (elapsed + min 100 (backoff - elapsed)).toNat =
        (min 100 (backoff - elapsed)).toNat + elapsed.toNat ∧
      (elapsed + min 100 (backoff - elapsed)).toNat ≤ backoff.toNat := by
  have hlt : elapsed.toNat < backoff.toNat := UInt32.lt_iff_toNat_lt.mp h
  have hbackoff : backoff.toNat < 2 ^ 32 := backoff.toNat_lt
  have hleft : (backoff - elapsed).toNat = backoff.toNat - elapsed.toNat :=
    UInt32.toNat_sub_of_le _ _ (UInt32.le_iff_toNat_le.mpr (Nat.le_of_lt hlt))
  have hmin : (min 100 (backoff - elapsed)).toNat = min 100 (backoff.toNat - elapsed.toNat) := by
    change (if (100 : UInt32) ≤ backoff - elapsed then 100 else backoff - elapsed).toNat = _
    rw [← hleft]
    split
    · next hle => exact (Nat.min_eq_left (UInt32.le_iff_toNat_le.mp hle)).symm
    · next hgt =>
      have hlt := Nat.not_le.mp fun h => hgt (UInt32.le_iff_toNat_le.mpr h)
      exact (Nat.min_eq_right (Nat.le_of_lt hlt)).symm
  rw [UInt32.toNat_add, hmin]
  omega

/-- The slices `l` are in range, and add up to `total`. -/
structure Slept (l : List UInt32) (total : Nat) : Prop where
  range : ∀ ms ∈ l, 1 ≤ ms.toNat ∧ ms.toNat ≤ 100
  sum_eq : (l.map UInt32.toNat).sum = total

section Sleep

variable {I : List UInt32 → Nat → Prop} (hI : Accounts E t I)

include hI

/-- A wait ends, if waits that go on for ever are ended by the time again and again. -/
theorem along_waitForStop (hc : c.OfCalls) (hwaits : E.Recurs t isWait isExpiry) (ms : UInt32)
    {l : List UInt32} (hn : I l n) (hclear : E.Clear t n) :
    Along E t (waitForStop ms) (fun r n' => r = .ok () ∧ I (ms :: l) n') n := by
  refine along_op trivial fun _ n₁ h₁ => ?_
  have hn₁ : I (ms :: l) n₁ := hI.begin hclear h₁ hn
  refine Execution.ends_loop hwaits (fun _ => I (ms :: l)) hn₁ fun _ n hn => ?_
  -- looking at the signal neither asks nor is answered
  have hlook : ∀ a v k k', (E.along t grantable).step (.load a) v k k' →
      I (ms :: l) k ∧ E.count t isWait k = E.count t isWait n ∧
        E.count t isExpiry k = E.count t isExpiry n →
      I (ms :: l) k' ∧ E.count t isWait k' = E.count t isWait n ∧
        E.count t isExpiry k' = E.count t isExpiry n := by
    rintro a v k k' h ⟨hd, hask, hans⟩
    refine ⟨hI.idle rfl h hd, ?_, ?_⟩
    · rw [Execution.count_of_step h, hask]
      rfl
    · rw [Execution.count_of_step h, hans]
      rfl
  refine Ends.bind _ (along_stopSignal hc hlook ⟨hn, rfl, rfl⟩) ?_ nofun
  rintro stop n₂ ⟨_, ⟨⟩, ⟨hn₂, hask, hans⟩, -, -⟩
  cases stop with
  | true => exact ends_pure ⟨rfl, hn₂⟩
  | false =>
      refine along_op trivial fun expired n₃ h₃ => ?_
      have hn₃ := hI.idle rfl h₃ hn₂
      cases expired with
      | true =>
          refine Ends.bind _ (along_stopSignal hc (fun _ _ _ _ h => hI.idle rfl h) hn₃) ?_ nofun
          rintro _ n₄ ⟨_, ⟨⟩, hn₄, -, -⟩
          exact ends_pure ⟨rfl, hn₄⟩
      | false =>
          refine ends_pure ⟨hn₃, ?_, ?_⟩
          · rw [Execution.count_of_step h₃, hask]
            exact Nat.lt_succ_self _
          · rw [Execution.count_of_step h₃, hans]
            rfl

/-- The sleep ends. Unless the stop signal is on at some time, the slices add up to the backoff. -/
theorem along_delayFunction (hc : c.OfCalls) (hwaits : E.Recurs t isWait isExpiry) (retry : UInt32)
    (hn : I [] n) :
    Along E t (delayFunction retry) (fun r n' => r = .ok () ∧ ∃ l total, I l n' ∧
      Slept l total ∧
      ((∀ k, ¬E.StopAt k) → total = (calculateBackoff c.state.world.config retry).toNat)) n := by
  refine along_op trivial fun config n₁ h₁ => ?_
  obtain rfl : config = c.state.world.config := by
    obtain ⟨k, -, -, hstep⟩ := Execution.exists_step h₁
    obtain ⟨rfl, -⟩ := ImplState.whenever_eq_some.mp hstep.exec_eq
    exact hc.config_eq k
  refine Ends.loop (fun left elapsed n' => ∃ l, I l n' ∧ Slept l elapsed.toNat ∧
      elapsed.toNat + left = (calculateBackoff c.state.world.config retry).toNat)
    ⟨[], hI.idle rfl h₁ hn, ⟨nofun, rfl⟩, Nat.zero_add _⟩ ?_
  rintro left elapsed n ⟨l, hn, hslept, hleft⟩
  split
  case isFalse hdone =>
    -- nothing is left
    have hle := Nat.not_lt.mp fun h => hdone (UInt32.lt_iff_toNat_lt.mpr h)
    exact ends_pure ⟨rfl, l, _, hn, hslept, fun _ => by omega⟩
  case isTrue hmore =>
  refine Ends.bind _ (along_stopSignal hc (fun _ _ _ _ h => hI.idle rfl h) hn) ?_ nofun
  rintro stop n₂ ⟨_, ⟨⟩, hn₂, hclear, hstop⟩
  cases stop with
  | true =>
      refine ends_pure ⟨rfl, l, _, hn₂, hslept, fun hnever => ?_⟩
      obtain ⟨k, hk⟩ := hstop rfl
      exact absurd hk (hnever k)
  | false =>
      obtain ⟨hpos, hle, hnext, hbound⟩ := slice_bounds hmore
      refine Ends.bind _ (along_waitForStop hI hc hwaits _ hn₂ (hclear rfl)) ?_ nofun
      rintro _ n₃ ⟨-, hn₃⟩
      set slice := min 100 (calculateBackoff c.state.world.config retry - elapsed)
      have hslept' : Slept (slice :: l) (elapsed + slice).toNat := by
        refine ⟨?_, ?_⟩
        · rintro ms (_ | ⟨_, hms⟩)
          · exact ⟨hpos, hle⟩
          · exact hslept.range ms hms
        · rw [List.map_cons, List.sum_cons, hslept.sum_eq, hnext]
      exact ends_pure ⟨left - slice.toNat, by omega, _, hn₃, hslept', by omega⟩

end Sleep

/-- The footprint of the sleep. -/
theorem uses_delayFunction (retry : UInt32) : Uses Footprint _ (delayFunction retry) := by
  have hK : @Proc.Closed ImplSig Exn (Uses Footprint) := @Proc.closed_uses ImplSig Exn Footprint
  have hquiet : ∀ o : ImplOp, o.Quiet → Uses Footprint _ (perform o) := fun o ho =>
    uses_perform (.inl (.inl ho))
  have hlife : ∀ o : ImplOp, o.LifeWrite → Uses Footprint _ (perform o) := fun o ho =>
    uses_perform (.inl (.inr (.inl ho)))
  have hword : ∀ o : ImplOp, o.WordWrite → Uses Footprint _ (perform o) := fun o ho =>
    uses_perform (.inr ho)
  exact (blocks_of_ops hK hquiet hlife (closed_runCallback hK hquiet hlife hword)
    (closed_probe hK hquiet hlife hword)).toPolling.delayFunction retry

end Impl

/-- The pool in which thread `t` sleeps for the backoff, and the other threads make calls. -/
def ImplPool.sleeping (calls : Tid → Option ImplCall) (s : ImplState) (t : Tid)
    (retry : UInt32) : ImplPool :=
  ⟨fun u => if u = t then Impl.replying (fun _ => .unit) (Impl.delayFunction retry)
    else ImplCall.thread (calls u), Traced.start s⟩

/-- Its threads use the operations of calls. -/
theorem ImplPool.ofCalls_sleeping (calls : Tid → Option ImplCall) (s : ImplState) (t : Tid)
    (retry : UInt32) : (sleeping calls s t retry).OfCalls := by
  have hK := @Proc.closed_uses ImplSig Exn Impl.Footprint
  intro u
  have hpool : (sleeping calls s t retry).pool u =
      if u = t then Impl.replying (fun _ => .unit) (Impl.delayFunction retry)
      else ImplCall.thread (calls u) := rfl
  by_cases hu : u = t
  · rw [hpool, if_pos hu]
    exact hK.bind (Impl.uses_delayFunction retry) fun _ => hK.pure _
  · rw [hpool, if_neg hu]
    exact Impl.uses_thread (calls u)

/-- What the backoff is, and how a thread sleeps for it in an execution. -/
structure SleepsBackoff (config : ClientConfig) {c : ImplPool} (E : ImplExecution c) (t : Tid)
    (retry : UInt32) : Prop where
  /-- The capped exponential over the integers, for every number of retries. -/
  exact : ∀ retry, (Impl.calculateBackoff config retry).toNat =
    min (config.retryBackoffBaseMs.toNat * 2 ^ retry.toNat) config.retryMaxBackoffMs.toNat
  mono : ∀ r r' : UInt32, r ≤ r' → Impl.calculateBackoff config r ≤ Impl.calculateBackoff config r'
  /-- The sleep ends. -/
  returns : ∃ n, (E.config n).Returned t (.ok .unit)
  /-- Every slice that is asked for is in range. -/
  range : ∀ n ms, E.label n = .perform ⟨t, .waitBegin ms, ()⟩ → 1 ≤ ms.toNat ∧ ms.toNat ≤ 100
  /-- Without the stop signal the slices add up to the backoff. -/
  sum : (∀ n, ¬E.StopAt n) → ∃ N, ∀ n, N ≤ n →
    ((E.slices t n).map UInt32.toNat).sum = (Impl.calculateBackoff config retry).toNat
  /-- Once the signal is on, no slice is started after the next look. -/
  heeds : ∀ τ i j ms, E.StopAt τ → τ ≤ i → E.LooksAt t i → i < j →
    E.label j ≠ .perform ⟨t, .waitBegin ms, ()⟩

section Sleep

variable {calls : Tid → Option ImplCall} {s : ImplState} {t : Tid} {retry : UInt32}

/-- `delayFunction` sleeps for the capped exponential, in every execution in which its thread is
scheduled and a wait that goes on for ever is ended by the time again and again. -/
theorem backoff_sleeps (hcheck : s.config.check = none)
    (E : ImplExecution (ImplPool.sleeping calls s t retry))
    (hsched : E.ScheduledIf t Impl.grantable) (hwaits : E.Recurs t isWait isExpiry) :
    SleepsBackoff s.config E t retry := by
  have hvalid := ClientConfig.valid_of_check hcheck
  have hc := ImplPool.ofCalls_sleeping calls s t retry
  have hstart : Impl.Dozes E t [] 0 := ⟨fun _ _ _ _ hj => absurd hj (Nat.not_lt_zero _), rfl⟩
  have hends : (E.along t Impl.grantable).Ends (fun r n => r = .ok .unit ∧
      ∃ l total, Impl.Dozes E t l n ∧ Impl.Slept l total ∧ ((∀ k, ¬E.StopAt k) →
        total = (Impl.calculateBackoff s.config retry).toNat))
      ((ImplPool.sleeping calls s t retry).pool t) 0 := by
    have hprog : (ImplPool.sleeping calls s t retry).pool t =
        Impl.replying (fun _ => .unit) (Impl.delayFunction retry) := if_pos rfl
    rw [hprog]
    refine Setting.Ends.bind _ (Impl.along_delayFunction Impl.accounts_dozes hc hwaits retry
      hstart) ?_ nofun
    rintro _ n ⟨-, h⟩
    exact Setting.ends_pure ⟨rfl, h⟩
  obtain ⟨_, n, hret, m, hstill, rfl, l, total, hdozes, hslept, htotal⟩ := E.returns hsched hends
  -- the thread starts its slices before the moment `m`
  have hbefore : ∀ {j ms}, E.label j = .perform ⟨t, .waitBegin ms, ()⟩ → j < m := by
    intro j ms hl
    by_contra hmj
    by_cases hjn : j < n
    · exact hstill.2 j (Nat.not_lt.mp hmj) hjn _ _ hl
    · obtain ⟨hafter, -⟩ := Execution.still_of_returned hret (Nat.le_succ_of_le (Nat.not_lt.mp hjn))
      exact hafter.2 j (Nat.not_lt.mp hjn) (Nat.lt_succ_self j) _ _ hl
  refine ⟨fun retry => Impl.toNat_calculateBackoff hvalid retry, fun r r' hle => ?_, ⟨n, hret⟩,
    fun j ms hl => ?_, fun hnever => ⟨n, fun k hk => ?_⟩, fun τ i j ms hτ hi hlook hij hl => ?_⟩
  · rw [UInt32.le_iff_toNat_le, Impl.toNat_calculateBackoff hvalid,
      Impl.toNat_calculateBackoff hvalid]
    exact s.config.backoffMs_mono (UInt32.le_iff_toNat_le.mp hle)
  · refine hslept.range ms ?_
    rw [← hdozes.slices_eq]
    have hsuf : E.ops t (j + 1) <:+ E.ops t m := Execution.ops_suffix (hbefore hl)
    rw [Execution.ops_succ hl] at hsuf
    exact List.mem_filterMap.mpr ⟨_, hsuf.subset List.mem_cons_self, rfl⟩
  · have hops : E.ops t k = E.ops t m :=
      (Execution.still_of_returned hret hk).1.ops_eq.trans hstill.ops_eq
    rw [ImplExecution.slices, hops, ← ImplExecution.slices, hdozes.slices_eq, hslept.sum_eq,
      htotal hnever]
  · exact hdozes.heeds i j ms hij (hbefore hl) hlook (hc.stop_of_le hi hτ) hl

end Sleep

/-- The thread alone, and every wait lasts as long as it was asked to. -/
def sleepsLocal : Option ImplPool :=
  (ImplPool.sleeping (fun _ => none) .connectedLocal 0 0).play ImplState.exec
    (Environment.moves {} 0 52)

/-- The sleep before the first retry of the local profile. -/
theorem backoff_sleeps_local :
    ∃ E : ImplExecution (ImplPool.sleeping (fun _ => none) .connectedLocal 0 0),
      SleepsBackoff ImplState.connectedLocal.config E 0 0 := by
  have hplay : sleepsLocal.any (fun d => d.result? 0 == some (.ok .unit)) = true := by
    decide +kernel
  obtain ⟨d, hd, -, hret⟩ := Config.exists_reach_of_play hplay
  obtain ⟨E, hsched, -, hrest⟩ := Execution.exists_of_play hd
    (fun _ hm => Environment.mem_moves hm) (Config.returned_of_result? (beq_iff_eq.mp hret))
  exact ⟨E, backoff_sleeps (by decide) E (hsched.mono fun _ _ _ => trivial)
    (Execution.recurs_of_rest hrest)⟩

end OPCUAPacking
