import OPCUAPacking.Impl.Bounds
import OPCUAPacking.Impl.Executions
import OPCUAPacking.Impl.Schedule

/-!
# The end of the polling loops

`connect` and `disconnect` along an execution in which the other threads make any calls and the SDK
answers as it likes.

* `ImplExecution.marks` — when a thread polled the SDK and what it read on the two clocks: first the
  start of its loop, then one reading for each iteration that did not leave before.
* `Expired` — a reading that finds the time up.
* `InTime` — an iteration that finds the time up is the last one.
* `SteadyAdvances` — the steady clock comes to the bound.
* `polling_ends` — the calls return, and in time.
-/

namespace OPCUAPacking

open Interleaving

/-! ### Readings of the clocks -/

/-- A reading of the two clocks. -/
structure Reading where
  /-- The clock of the SDK. -/
  now : Int
  steady : Int

/-- A trace of the polling loop. -/
inductive Mark where
  /-- The SDK is driven. -/
  | poll
  | reading (r : Reading)

/-- It is a reading. -/
def Mark.isReading : Mark → Bool
  | .poll => false
  | .reading _ => true

/-- What the clock of the SDK said last. -/
def lastNow : History → Int
  | ⟨_, .nowMs, .ok now⟩ :: _ => now
  | _ :: es => lastNow es
  | [] => 0

/-- The mark that an event leaves after the events `es`. The steady clock is read right after the
clock of the SDK. -/
def markOf (es : History) : Event ImplSig → Option Mark
  | ⟨_, .steadyNow, steady⟩ => some (.reading ⟨lastNow es, steady⟩)
  | ⟨_, .sdkCall _ (.runIterate _), _⟩ => some .poll
  | _ => none

/-- The marks of a history, newest first. -/
def marksOf : History → List Mark
  | [] => []
  | e :: es => (markOf es e).toList ++ marksOf es

theorem marksOf_suffix {es es' : History} (h : es <:+ es') : marksOf es <:+ marksOf es' := by
  obtain ⟨new, rfl⟩ := h
  induction new with
  | nil => exact List.suffix_refl _
  | cons e new ih => exact ih.trans (List.suffix_append _ _)

namespace ImplExecution

variable {c : ImplPool} (E : ImplExecution c) (t : Tid)

/-- The marks of thread `t`, newest first. -/
def marks (n : Nat) : List Mark := marksOf (E.ops t n)

/-- How often it has read the steady clock. -/
def readings (n : Nat) : Nat := (E.marks t n).countP Mark.isReading

variable {E t}

theorem marks_suffix {n m : Nat} (h : n ≤ m) : E.marks t n <:+ E.marks t m :=
  marksOf_suffix (Execution.ops_suffix h)

theorem readings_le {n m : Nat} (h : n ≤ m) : E.readings t n ≤ E.readings t m :=
  (marks_suffix h).sublist.countP_le

theorem readings_eq {n n' : Nat} (h : E.marks t n' = E.marks t n) :
    E.readings t n' = E.readings t n := congrArg (List.countP Mark.isReading) h

theorem readings_cons {n n' : Nat} {m : Mark} (h : E.marks t n' = m :: E.marks t n) :
    E.readings t n' = E.readings t n + if m.isReading then 1 else 0 := by
  rw [readings, h, List.countP_cons, readings]

/-- The marks after an operation. -/
theorem marks_of_step {n n' : Nat} {o : ImplOp} {r : o.Resp}
    (h : (E.along t Impl.grantable).step o r n n') :
    E.marks t n' = (markOf (E.ops t n) ⟨t, o, r⟩).toList ++ E.marks t n := by
  rw [marks, Execution.ops_of_step h]
  rfl

end ImplExecution

/-! ### The bound -/

/-- A reading finds the time up that began with the reading `first`. -/
def Expired (config : ClientConfig) (first r : Reading) : Prop :=
  r.now - first.now > config.timeoutMs.toNat ∨ r.steady ≥ first.steady + config.wallMs.toNat

/-- No iteration has found the time up. -/
def Pending (config : ClientConfig) (first : Reading) (l : List Mark) : Prop :=
  ∃ its, l = its ++ [.reading first] ∧ ∀ r, .reading r ∈ its → ¬Expired config first r

/-- After an iteration that finds the time up there is nothing but the last look. -/
def InTime (config : ClientConfig) (look : List Mark) (l : List Mark) : Prop :=
  ∀ after r its first, l = after ++ .reading r :: (its ++ [.reading first]) →
    Expired config first r → after.Sublist look

namespace Pending

variable {config : ClientConfig} {first r : Reading} {l its : List Mark}

theorem start : Pending config first [.reading first] := ⟨[], rfl, nofun⟩

theorem poll (h : Pending config first l) : Pending config first (.poll :: l) := by
  obtain ⟨its, rfl, hits⟩ := h
  refine ⟨.poll :: its, rfl, fun r hr => hits r ?_⟩
  simpa using hr

theorem reading (h : Pending config first l) (hr : ¬Expired config first r) :
    Pending config first (.reading r :: l) := by
  obtain ⟨its, rfl, hits⟩ := h
  refine ⟨.reading r :: its, rfl, fun r' hr' => ?_⟩
  rcases List.mem_cons.mp hr' with heq | hmem
  · cases heq
    exact hr
  · exact hits r' hmem

/-- The readings of the iterations. -/
theorem not_expired (h : Pending config first l) {after : List Mark} {first' : Reading}
    (hl : l = after ++ .reading r :: (its ++ [.reading first'])) : ¬Expired config first' r := by
  obtain ⟨its', rfl, hits⟩ := h
  have hassoc : after ++ .reading r :: (its ++ [.reading first']) =
      (after ++ .reading r :: its) ++ [.reading first'] := by simp
  obtain ⟨rfl, heq⟩ := List.append_inj' (hl.trans hassoc) rfl
  cases heq
  exact hits r (by simp)

/-- While the time is not up nothing is to be shown. -/
theorem inTime (h : Pending config first l) (look : List Mark) : InTime config look l :=
  fun _ _ _ _ hl hr => absurd hr (h.not_expired hl)

/-- The reading that finds the time up is the newest. -/
theorem inTime_reading (h : Pending config first l) (r : Reading) (look : List Mark) :
    InTime config look (.reading r :: l) := by
  rintro (_ | ⟨m, after⟩) r' its first' hl hr
  · exact List.nil_sublist look
  · exact absurd hr (h.not_expired (List.cons_eq_cons.mp hl).2)

end Pending

namespace InTime

variable {config : ClientConfig} {look l l' : List Mark}

theorem nil : InTime config look [] := by
  intro after r its first hl
  simp at hl

theorem mono {look' : List Mark} (h : InTime config look l) (hlook : look.Sublist look') :
    InTime config look' l :=
  fun after r its first hl hr => (h after r its first hl hr).trans hlook

/-- The last look. -/
theorem poll (h : InTime config look l) : InTime config (.poll :: look) (.poll :: l) := by
  rintro (_ | ⟨m, after⟩) r its first hl hr
  · cases hl
  · obtain ⟨hm, hrest⟩ := List.cons_eq_cons.mp hl
    rw [← hm]
    exact (h after r its first hrest hr).cons_cons _

/-- What was in time when a later one is. -/
theorem of_suffix (h : InTime config look l') (hsuf : l <:+ l') : InTime config look l := by
  obtain ⟨new, rfl⟩ := hsuf
  rintro after r its first rfl hr
  have hafter := h (new ++ after) r its first (by simp) hr
  exact (List.sublist_append_right new after).trans hafter

end InTime

/-- A thread that reads the steady clock for ever reads it at or past the bound of its loop. -/
def SteadyAdvances (config : ClientConfig) {c : ImplPool} (E : ImplExecution c) (t : Tid) : Prop :=
  (∀ k, ∃ n, k ≤ E.readings t n) → ∃ n r its first,
    E.marks t n = .reading r :: (its ++ [.reading first]) ∧
      first.steady + config.wallMs.toNat ≤ r.steady

/-- Then only so many iterations find the time not up. -/
theorem SteadyAdvances.bound {config : ClientConfig} {c : ImplPool} {E : ImplExecution c} {t : Tid}
    (h : SteadyAdvances config E t) :
    ∃ b, ∀ n first, Pending config first (E.marks t n) → E.readings t n ≤ b := by
  by_cases hmany : ∀ k, ∃ n, k ≤ E.readings t n
  · obtain ⟨m, r, its, first, hm, hdue⟩ := h hmany
    refine ⟨E.readings t m, fun n first' hn => ?_⟩
    by_contra hlt
    have hmn : m ≤ n := by
      by_contra hnm
      exact hlt (ImplExecution.readings_le (Nat.le_of_not_le hnm))
    -- the reading past the bound is one of the iterations
    obtain ⟨after, hafter⟩ := ImplExecution.marks_suffix (E := E) (t := t) hmn
    rw [hm] at hafter
    exact hn.not_expired hafter.symm (.inr hdue)
  · obtain ⟨b, hb⟩ := not_forall.mp hmany
    refine ⟨b, fun n _ _ => ?_⟩
    by_contra hlt
    exact hb ⟨n, Nat.le_of_not_le hlt⟩

/-! ### Programs between two marks -/

/-- The thread tries a weak compare-exchange. -/
def isCasWeak (e : Event ImplSig) : Bool :=
  match e.op with
  | .casWeak _ _ _ => true
  | _ => false

/-- It succeeds. -/
def isCasWeakDone : Event ImplSig → Bool
  | ⟨_, .casWeak _ _ _, .ok _⟩ => true
  | _ => false

/-- The operation leaves no mark and touches no mutex. -/
def ImplOp.isSilent : ImplOp → Bool
  | .lock _ | .unlock _ | .steadyNow | .sdkCall _ (.runIterate _) => false
  | _ => true

namespace Impl

open Setting

variable {c : ImplPool} {E : ImplExecution c} {t : Tid} {α β : Type}

variable (E t)

/-- A program that ends without a mark, and holds the mutex that it held. -/
abbrev Silent (held : Option Mutex) (p : Impl α) : Prop :=
  @Settles ImplSig Nat α Exn (E.along t grantable) _ (Holds E t held) (E.marks t) p

variable {E t} {held : Option Mutex}

/-- A silent operation. -/
theorem silent_step {o : ImplOp} {r : o.Resp} {n n' : Nat} (ho : o.isSilent = true)
    (h : (E.along t grantable).step o r n n') (hn : Holds E t held n) :
    Holds E t held n' ∧ E.marks t n' = E.marks t n := by
  refine ⟨hn.step h fun m => ?_, ?_⟩
  · cases o <;> first | exact ⟨rfl, rfl⟩ | cases ho
  · have hmark : markOf (E.ops t n) ⟨t, o, r⟩ = none := by
      cases o with
      | steadyNow => cases ho
      | sdkCall client call => cases call <;> first | rfl | cases ho
      | _ => rfl
    rw [ImplExecution.marks_of_step h, hmark]
    rfl

theorem grantable_of_silent {o : ImplOp} (ho : o.isSilent = true) (es : History) :
    grantable o es := by
  cases o with
  | lock m => cases ho
  | _ => trivial

theorem silent_op {o : ImplOp} (ho : o.isSilent = true) :
    Silent E t held (perform o) :=
  settles_perform (fun _ _ => grantable_of_silent ho _) fun _ _ _ h hn => silent_step ho h hn

/-- A block under a mutex, with what it does to the marks. -/
theorem along_marked {m : Mutex} {body : Impl α} (R : List Mark → Prop) {n : Nat}
    (hn : Holds E t none n)
    (hbody : ∀ n', Holds E t (some m) n' → E.marks t n' = E.marks t n →
      Along E t body (fun _ n'' => Holds E t (some m) n'' ∧ R (E.marks t n'')) n') :
    Along E t (withLock m body) (fun _ n' => Holds E t none n' ∧ R (E.marks t n')) n := by
  refine along_withLock (fun n' => E.marks t n' = E.marks t n) (fun _ n' => R (E.marks t n')) hn
    (fun n' h => ImplExecution.marks_of_step h) hbody fun r n' n'' h hR => ?_
  have hmarks : E.marks t n'' = E.marks t n' := ImplExecution.marks_of_step h
  rwa [hmarks]

/-- A block under a mutex that leaves no mark. -/
theorem silent_withLock {m : Mutex} {body : Impl α} (hbody : Silent E t (some m) body) :
    Silent E t none (withLock m body) := by
  intro n hn
  refine along_marked (fun l => l = E.marks t n) hn fun n' hn' hmarks => ?_
  exact (hbody n' hn').mono fun _ n'' h => ⟨h.1, h.2.trans hmarks⟩

theorem silent_orThrow (r : Except Exn α) : Silent E t held (orThrow r) := by
  cases r with
  | ok a => exact settles_pure a
  | error e => exact settles_throw e

/-- A silent operation, then the rest. -/
theorem silent_then {o : ImplOp} {f : o.Resp → Impl β} (ho : o.isSilent = true)
    (hf : ∀ r, Silent E t held (f r)) : Silent E t held (perform o >>= f) :=
  (silent_op ho).bind hf

theorem silent_nowMs : Silent E t held nowMs := silent_then rfl silent_orThrow

theorem silent_isGivenUp : Silent E t held isGivenUp := silent_then rfl fun _ => settles_pure _

theorem silent_stopSignal : Silent E t held getEffectiveStopSignal := by
  refine silent_then rfl fun shutdown => Settles.ite ?_ silent_isGivenUp
  exact silent_then rfl fun running => Settles.ite silent_isGivenUp (settles_pure true)

/-- Looking at the cached state keeps what its two loads keep. -/
theorem settles_isHealthyCached {H : Nat → Prop} {γ : Type} {view : Nat → γ}
    (hload : ∀ o, o = .load .connectionLost ∨ o = .loadFields →
      @Settles ImplSig Nat o.Resp Exn (E.along t grantable) γ H view (perform o)) :
    @Settles ImplSig Nat Bool Exn (E.along t grantable) γ H view isHealthyCached := by
  refine (hload _ (.inl rfl)).bind fun lost => Settles.ite (settles_pure false) ?_
  exact (hload _ (.inr rfl)).bind fun f => settles_pure _

theorem silent_isHealthyCached : Silent E t held isHealthyCached :=
  settles_isHealthyCached fun o ho => by rcases ho with rfl | rfl <;> exact silent_op rfl

theorem silent_updateBadStatusTime : Silent E t none updateBadStatusTime :=
  silent_withLock <| silent_then rfl fun _ => Settles.when <| silent_nowMs.bind fun _ =>
    (silent_op rfl)

theorem silent_resetGiveUpTimer : Silent E t none resetGiveUpTimer :=
  silent_withLock <| silent_then rfl fun _ => Settles.when (silent_op rfl)

/-- A failure of a weak compare-exchange has been asked for, and was no success. -/
theorem count_of_casWeak_failed {a : Atomic} {expected desired observed : a.Val} {n n' : Nat}
    (h : (E.along t grantable).step (.casWeak a expected desired) (.error observed) n n') :
    E.count t isCasWeak n < E.count t isCasWeak n' ∧
      E.count t isCasWeakDone n' = E.count t isCasWeakDone n := by
  rw [Execution.count_of_step h, Execution.count_of_step h]
  exact ⟨Nat.lt_succ_self _, rfl⟩

/-- A silent program at the end of a round leaves the loop. -/
theorem along_leave {ι τ : Type} {p : Impl α} {f : α → τ} {n : Nat} (hp : Silent E t held p)
    (hn : Holds E t held n) :
    Along E t (p >>= fun a => pure (.inr (f a)) : Impl (ι ⊕ τ)) (fun r n' =>
      (Holds E t held n' ∧ E.marks t n' = E.marks t n) ∧ ∀ j, r ≠ .ok (.inl j)) n :=
  hp.continue hn (fun _ _ hn' hv => ends_pure ⟨⟨hn', hv⟩, nofun⟩) fun _ _ hn' hv =>
    ⟨⟨hn', hv⟩, nofun⟩

/-- How a round of a loop around a weak compare-exchange ends: it goes on only after a failure. -/
def Spins (E : ImplExecution c) (t : Tid) (held : Option Mutex) (n : Nat) {ι τ : Type}
    (r : Except Exn (ι ⊕ τ)) (n' : Nat) : Prop :=
  (Holds E t held n' ∧ E.marks t n' = E.marks t n) ∧
    ∀ j, r = .ok (.inl j) → E.count t isCasWeak n < E.count t isCasWeak n' ∧
      E.count t isCasWeakDone n' = E.count t isCasWeakDone n

/-- The compare-exchange at the end of such a round; a success leaves the loop. -/
theorem along_casWeak {ι τ : Type} {a : Atomic} {expected desired : a.Val} {go : a.Val → ι}
    {f : Except a.Val Unit → Impl (ι ⊕ τ)} {n₀ n : Nat} (hn : Holds E t held n)
    (hmarks : E.marks t n = E.marks t n₀) (hasks : E.count t isCasWeak n = E.count t isCasWeak n₀)
    (hsame : E.count t isCasWeakDone n = E.count t isCasWeakDone n₀)
    (hfail : ∀ observed, f (.error observed) = pure (.inl (go observed)))
    (hdone : ∀ n', Holds E t held n' → Along E t (f (.ok ())) (fun r n'' =>
      (Holds E t held n'' ∧ E.marks t n'' = E.marks t n') ∧ ∀ j, r ≠ .ok (.inl j)) n') :
    Along E t (casWeak a expected desired >>= f) (Spins E t held n₀) n := by
  refine along_op trivial fun r n' h => ?_
  obtain ⟨hn', hv⟩ := silent_step rfl h hn
  cases r with
  | error observed =>
      obtain ⟨hlt, heq⟩ := count_of_casWeak_failed h
      rw [hfail]
      exact ends_pure ⟨⟨hn', hv.trans hmarks⟩, fun _ _ => ⟨hasks ▸ hlt, heq.trans hsame⟩⟩
  | ok u =>
      refine (hdone n' hn').mono fun r n'' hr => ⟨⟨hr.1.1, ?_⟩, fun j hj => absurd hj (hr.2 j)⟩
      exact hr.1.2.trans (hv.trans hmarks)

/-- How a probe ends: it has driven the SDK once, or not at all. -/
def Looks (E : ImplExecution c) (t : Tid) (n : Nat) (_ : Except Exn α) (n' : Nat) : Prop :=
  Holds E t none n' ∧ (E.marks t n' = E.marks t n ∨ E.marks t n' = .poll :: E.marks t n)

/-- A silent program after a probe. -/
theorem Looks.silent {p : Impl β} {r : Except Exn α} {n n' : Nat} (hp : Silent E t none p)
    (h : Looks E t n r n') : Along E t p (Looks E t n) n' :=
  (hp n' h.1).mono fun _ _ h' => ⟨h'.1, by rw [h'.2]; exact h.2⟩

section Loops

variable (hcas : E.Recurs t isCasWeak isCasWeakDone)

include hcas

/-- A loop around a weak compare-exchange: only a failure of it goes on. -/
theorem silent_loop {ι τ : Type} {i : ι} {body : ι → Impl (ι ⊕ τ)}
    (hbody : ∀ j n, Holds E t held n → Along E t (body j) (Spins E t held n) n) :
    Silent E t held (Proc.loop i body) := by
  intro n hn
  refine Execution.ends_loop hcas (fun _ n' => Holds E t held n' ∧ E.marks t n' = E.marks t n)
    ⟨hn, rfl⟩ fun j n' hn' => ?_
  refine (hbody j n' hn'.1).mono fun r n'' hr => ?_
  obtain ⟨⟨hheld, hmarks⟩, hgo⟩ := hr
  rcases r with e | j' | a
  · exact ⟨hheld, hmarks.trans hn'.2⟩
  · exact ⟨⟨hheld, hmarks.trans hn'.2⟩, hgo j' rfl⟩
  · exact ⟨hheld, hmarks.trans hn'.2⟩

theorem silent_updatePacked (f : Triple) : Silent E t held (updatePacked f) := by
  refine silent_then rfl fun old => silent_loop hcas fun old n hn => ?_
  exact along_casWeak hn rfl rfl rfl (fun _ => rfl) fun n' hn' =>
    ends_pure ⟨⟨hn', rfl⟩, nofun⟩

theorem silent_turnToRunning : Silent E t none turnToRunning := by
  refine silent_then rfl fun expected => silent_loop hcas fun expected n hn => ?_
  split
  case isFalse => exact ends_pure ⟨⟨hn, rfl⟩, nofun⟩
  case isTrue =>
  refine along_casWeak hn rfl rfl rfl (fun _ => rfl) fun n' hn' => ?_
  refine along_op trivial fun _ n₁ h₁ => ?_
  obtain ⟨hn₁, hv⟩ := silent_step rfl h₁ hn'
  refine (along_leave silent_resetGiveUpTimer hn₁).mono fun r n₂ hr => ?_
  exact ⟨⟨hr.1.1, hr.1.2.trans hv⟩, hr.2⟩

theorem silent_turnToRecovring : Silent E t held turnToRecovring := by
  refine silent_then rfl fun expected => silent_loop hcas fun expected n hn => ?_
  split
  case isFalse => exact ends_pure ⟨⟨hn, rfl⟩, nofun⟩
  case isTrue =>
  -- looking at the cached state is no compare-exchange
  have hlook : (E.along t grantable).Settles (Holds E t held)
      (fun n => (E.marks t n, E.count t isCasWeak n, E.count t isCasWeakDone n))
      isHealthyCached := settles_isHealthyCached fun o ho => by
      have hsilent : o.isSilent = true := by rcases ho with rfl | rfl <;> rfl
      have hno : ∀ r, isCasWeak ⟨t, o, r⟩ = false ∧ isCasWeakDone ⟨t, o, r⟩ = false := by
        rcases ho with rfl | rfl <;> exact fun _ => ⟨rfl, rfl⟩
      refine settles_perform (fun _ _ => grantable_of_silent hsilent _) fun r n n' h hn => ?_
      obtain ⟨hn', hv⟩ := silent_step hsilent h hn
      refine ⟨hn', ?_⟩
      simp only [Execution.count_of_step h, hno r, hv]
      rfl
  refine hlook.continue hn (fun healthy n' hn' hview => ?_) fun e n' hn' hview =>
    ⟨⟨hn', congrArg Prod.fst hview⟩, nofun⟩
  simp only [Prod.mk.injEq] at hview
  obtain ⟨hv, hasks, hsame⟩ := hview
  split
  case isTrue => exact ends_pure ⟨⟨hn', hv⟩, nofun⟩
  case isFalse =>
  refine along_casWeak hn' hv hasks hsame (fun _ => rfl) fun n₁ hn₁ => ?_
  refine silent_isHealthyCached.continue hn₁ (fun healthy n₂ hn₂ hv₂ => ?_) fun e n₂ hn₂ hv₂ =>
    ⟨⟨hn₂, hv₂⟩, nofun⟩
  have hroll : Silent E t held (Proc.when healthy do
      let _ ← casStrong .lifeState .recovering .running
      pure ()) := Settles.when (silent_then rfl fun _ => settles_pure ())
  refine (along_leave hroll hn₂).mono fun r n₃ hr => ?_
  exact ⟨⟨hr.1.1, hr.1.2.trans hv₂⟩, hr.2⟩

/-! ### The SDK -/

theorem silent_runCallback (cb : Callback) : Silent E t held (runCallback cb) := by
  refine silent_then rfl fun _ => ?_
  cases cb with
  | state f => exact silent_updatePacked hcas f
  | inactivity => exact silent_stopSignal.bind fun stop => Settles.when (silent_op rfl)

/-- A call of the SDK from the moment on at which it has started. -/
theorem silent_inCall (client : Handle) (call : SdkCall) (callbacks : List Callback) :
    Silent E t held (do
      Proc.forEach runCallback callbacks
      let r ← perform (.sdkReturn client call)
      orThrow r) :=
  (Settles.forEach (silent_runCallback hcas) callbacks).bind fun _ => silent_then rfl silent_orThrow

theorem silent_sdk (client : Handle) (call : SdkCall)
    (hcall : (ImplOp.sdkCall client call).isSilent = true) :
    Silent E t held (sdk client call) :=
  silent_then hcall (silent_inCall hcas client call)

theorem silent_probe (client : Handle) : Silent E t none (probe client) := by
  refine silent_then rfl fun expected => ?_
  refine (silent_withLock (silent_sdk hcas client _ rfl)).bind fun f => ?_
  refine Settles.bind (silent_then rfl fun r => ?_) fun _ => settles_pure f
  cases r <;> exact settles_pure _

/-- Driving the SDK leaves its mark. -/
theorem along_callRunIterate (client : Handle) (ms : UInt32) {n : Nat} (hn : Holds E t none n) :
    Along E t (callRunIterate client ms) (fun _ n' => Holds E t none n' ∧
      E.marks t n' = .poll :: E.marks t n) n := by
  refine along_marked (fun l => l = .poll :: E.marks t n) hn fun n₁ hn₁ hv₁ => ?_
  refine Ends.bind (fun _ n' => Holds E t (some .sdkMutex) n' ∧ E.marks t n' = .poll :: E.marks t n)
    (along_op trivial fun callbacks n₂ h₂ => ?_) (fun _ _ h => ends_pure h) fun _ _ h => h
  have hn₂ := hn₁.step h₂ fun m => ⟨rfl, rfl⟩
  have hv₂ : E.marks t n₂ = .poll :: E.marks t n₁ := ImplExecution.marks_of_step h₂
  refine (silent_inCall hcas client (.runIterate ms) callbacks n₂ hn₂).mono fun _ n₃ h => ?_
  exact ⟨h.1, by rw [h.2, hv₂, hv₁]⟩

theorem along_isConnected (ms : UInt32) {n : Nat} (hn : Holds E t none n) :
    Along E t (isConnected ms) (Looks E t n) n := by
  refine (silent_withLock silent_stopSignal).continue hn (fun stop n₁ hn₁ hv₁ => ?_)
    fun _ n₁ hn₁ hv₁ => ⟨hn₁, .inl hv₁⟩
  split
  case isTrue => exact ends_pure ⟨hn₁, .inl hv₁⟩
  case isFalse =>
  refine (silent_withLock (silent_op rfl)).continue hn₁ (fun impl n₂ hn₂ hv₂ => ?_)
    fun _ n₂ hn₂ hv₂ => ⟨hn₂, .inl (hv₂.trans hv₁)⟩
  cases impl with
  | none => exact ends_pure ⟨hn₂, .inl (hv₂.trans hv₁)⟩
  | some client =>
      refine Ends.bind (Looks E t n) ((along_callRunIterate hcas client ms hn₂).mono
        fun _ n₃ h => ⟨h.1, .inr (by rw [h.2, hv₂, hv₁])⟩) (fun _ n₃ h => ?_) fun _ _ h => h
      refine h.silent ?_
      refine (silent_probe hcas client).bind fun f => ?_
      refine (Settles.when silent_updateBadStatusTime).bind fun _ => ?_
      exact silent_isHealthyCached.bind fun healthy => settles_pure _

/-! ### The ends of the calls -/

theorem silent_startConnect (client : Handle) : Silent E t none (startConnect client) := by
  refine silent_withLock <| silent_then rfl fun url => ?_
  refine (silent_sdk hcas client _ rfl).bind fun retval => ?_
  refine Settles.ite (settles_pure true) ?_
  exact (silent_turnToRecovring hcas).bind fun _ => settles_pure false

theorem silent_startDisconnect (client : Handle) : Silent E t none (startDisconnect client) := by
  refine silent_withLock <| (silent_sdk hcas client _ rfl).bind fun retval => ?_
  refine Settles.ite (settles_pure true) ?_
  exact (silent_turnToRecovring hcas).bind fun _ => settles_pure false

theorem silent_abandonConnect (client : Handle) : Silent E t none (abandonConnect client) :=
  (silent_withLock (silent_sdk hcas client _ rfl)).bind fun _ =>
    (silent_turnToRecovring hcas).bind fun _ => settles_pure _

theorem silent_disconnectTimedOut (client : Handle) :
    Silent E t none (disconnectTimedOut client) := by
  refine (silent_withLock (silent_sdk hcas client _ rfl)).bind fun f => Settles.ite ?_ ?_
  · exact (silent_turnToRecovring hcas).bind fun _ => settles_pure _
  · exact (silent_withLock (silent_sdk hcas client _ rfl)).bind fun _ =>
      (silent_turnToRecovring hcas).bind fun _ => settles_pure _

/-- The last look of `connect`. -/
theorem along_connectTimedOut (client : Handle) {n : Nat} (hn : Holds E t none n) :
    Along E t (connectTimedOut client) (Looks E t n) n := by
  refine Ends.bind _ (along_isConnected hcas _ hn) (fun last n' h => h.silent ?_) fun _ _ h => h
  have habandon : Silent E t none (abandonConnect client) := silent_abandonConnect hcas client
  rcases last with e | healthy
  · cases e <;> first | exact settles_pure _ | exact habandon
  · refine Settles.bind silent_isHealthyCached fun healthy => Settles.ite ?_ habandon
    exact (silent_turnToRunning hcas).bind fun _ => settles_pure _

end Loops

/-! ### The loops -/

/-- Both clocks are read, one after the other. -/
theorem along_clocks {Q : Except Exn β → Nat → Prop} {f : Int → Int → Impl β} {n : Nat}
    (hn : Holds E t none n)
    (hf : ∀ r n', Holds E t none n' → E.marks t n' = .reading r :: E.marks t n →
      Along E t (f r.now r.steady) Q n')
    (he : ∀ e n', Holds E t none n' → E.marks t n' = E.marks t n → Q (.error e) n') :
    Along E t (nowMs >>= fun now => perform .steadyNow >>= fun steady => f now steady) Q n := by
  refine Ends.bind (fun r n' => (Holds E t none n' ∧ E.marks t n' = E.marks t n) ∧
    ∀ now, r = .ok now → lastNow (E.ops t n') = now) ?_ ?_ fun e n' h => he e n' h.1.1 h.1.2
  · refine along_op trivial fun r n' h => ?_
    have hstep := silent_step rfl h hn
    have hops := Execution.ops_of_step h
    cases r with
    | error e => exact ends_throw ⟨hstep, nofun⟩
    | ok now =>
        refine ends_pure ⟨hstep, ?_⟩
        rintro _ ⟨⟩
        rw [hops]
        rfl
  · rintro now n₁ ⟨⟨hn₁, hv₁⟩, hnow⟩
    refine along_op trivial fun steady n₂ h₂ => ?_
    obtain rfl := hnow now rfl
    have hmarks := ImplExecution.marks_of_step h₂
    rw [hv₁] at hmarks
    exact hf ⟨_, steady⟩ n₂ (hn₁.step h₂ fun m => ⟨rfl, rfl⟩) hmarks

section Rounds

variable {config : ClientConfig} {first : Reading} {look : List Mark} {ι τ : Type}

/-- How a round ends: it goes on only if it has read the clocks and the time is not up. -/
structure Turns (config : ClientConfig) (first : Reading) (look : List Mark) (E : ImplExecution c)
    (t : Tid) (n : Nat) (r : Except Exn (ι ⊕ τ)) (n' : Nat) : Prop where
  holds : Holds E t none n'
  inTime : InTime config look (E.marks t n')
  again : ∀ j, r = .ok (.inl j) → Pending config first (E.marks t n') ∧
    E.readings t n < E.readings t n'

/-- The configuration that a thread reads. -/
theorem along_readConfig (hc : c.OfCalls) {f : ClientConfig → Impl β}
    {Q : Except Exn β → Nat → Prop}
    {n : Nat} (hn : Holds E t held n)
    (hf : ∀ n', Holds E t held n' → E.marks t n' = E.marks t n →
      Along E t (f c.state.world.config) Q n') :
    Along E t (perform .readConfig >>= f) Q n := by
  refine along_op trivial fun config n' h => ?_
  obtain ⟨hn', hv⟩ := silent_step rfl h hn
  obtain ⟨k, -, -, hstep⟩ := Execution.exists_step h
  obtain ⟨rfl, -⟩ := ImplState.whenever_eq_some.mp hstep.exec_eq
  rw [hc.config_eq]
  exact hf n' hn' hv

/-- A probe does not use up time. -/
theorem Looks.pending {r : Except Exn α} {n n' : Nat} (h : Looks E t n r n')
    (hn : Pending config first (E.marks t n)) :
    Pending config first (E.marks t n') ∧ E.readings t n ≤ E.readings t n' := by
  obtain ⟨-, hv | hv⟩ := h
  · exact ⟨hv ▸ hn, Nat.le_of_eq (ImplExecution.readings_eq hv).symm⟩
  · exact ⟨hv ▸ hn.poll, Nat.le_of_eq (ImplExecution.readings_cons hv).symm⟩

/-- While the time is not up, a round may leave at any moment. -/
theorem turns_exit {a : τ} {n₀ n : Nat} (hn : Holds E t none n)
    (hpending : Pending config first (E.marks t n)) :
    Along E t (pure (.inr a) : Impl (ι ⊕ τ)) (Turns config first look E t n₀) n :=
  ends_pure ⟨hn, hpending.inTime look, nofun⟩

/-- A silent program, then the rest of the round. -/
theorem turns_then {p : Impl α} {f : α → Impl (ι ⊕ τ)} {n₀ n : Nat} (hp : Silent E t none p)
    (hn : Holds E t none n) (hpending : Pending config first (E.marks t n))
    (hle : E.readings t n₀ ≤ E.readings t n)
    (hf : ∀ a n', Holds E t none n' → Pending config first (E.marks t n') →
      E.readings t n₀ ≤ E.readings t n' →
      Along E t (f a) (Turns config first look E t n₀) n') :
    Along E t (p >>= f) (Turns config first look E t n₀) n := by
  refine hp.continue hn (fun a n' hn' hv => ?_) fun e n' hn' hv =>
    ⟨hn', hv ▸ hpending.inTime look, nofun⟩
  exact hf a n' hn' (hv ▸ hpending) (ImplExecution.readings_eq hv ▸ hle)

/-- A silent program after the clocks have been read; the round may go on. -/
theorem turns_silent {p : Impl (ι ⊕ τ)} {n₀ n : Nat} (hp : Silent E t none p)
    (hn : Holds E t none n) (hpending : Pending config first (E.marks t n))
    (hlt : E.readings t n₀ < E.readings t n) :
    Along E t p (Turns config first look E t n₀) n := by
  refine (hp n hn).mono fun r n' h => ⟨h.1, h.2 ▸ hpending.inTime look, fun _ _ => ⟨?_, ?_⟩⟩
  · exact h.2 ▸ hpending
  · exact ImplExecution.readings_eq h.2 ▸ hlt

/-- A probe at the beginning of a round, then the rest. -/
theorem turns_isConnected (hcas : E.Recurs t isCasWeak isCasWeakDone)
    {f : Result Bool ConnectErrorState → Impl (ι ⊕ τ)} {n : Nat} (hn : Holds E t none n)
    (hpending : Pending config first (E.marks t n))
    (hf : ∀ r n', Holds E t none n' → Pending config first (E.marks t n') →
      E.readings t n ≤ E.readings t n' →
      Along E t (f r) (Turns config first look E t n) n') :
    Along E t (isConnected >>= f) (Turns config first look E t n) n := by
  refine Ends.bind _ (along_isConnected hcas _ hn) (fun r n' h => ?_) fun e n' h => ?_
  · obtain ⟨hpending', hle⟩ := h.pending hpending
    exact hf r n' h.1 hpending' hle
  · exact ⟨h.1, (h.pending hpending).1.inTime look, nofun⟩

/-- What the test of a round finds. -/
theorem along_timedOut (hc : c.OfCalls) {n : Nat} (hn : Holds E t none n) :
    Along E t (timedOut first.now (first.steady + c.state.world.config.wallMs.toNat)) (fun r n' =>
      Holds E t none n' ∧ ((∃ e, r = .error e) ∧ E.marks t n' = E.marks t n ∨
        ∃ reading up, r = .ok up ∧ E.marks t n' = .reading reading :: E.marks t n ∧
          (up = true ↔ Expired c.state.world.config first reading))) n := by
  refine along_clocks hn (fun reading n₁ hn₁ hv₁ => ?_) fun e n' hn' hv =>
    ⟨hn', .inl ⟨⟨e, rfl⟩, hv⟩⟩
  refine along_readConfig hc hn₁ fun n₂ hn₂ hv₂ => ends_pure ⟨hn₂, .inr ⟨reading, _, rfl, ?_, ?_⟩⟩
  · rw [hv₂, hv₁]
  · exact decide_eq_true_iff

/-- The test of a round, with what follows. -/
theorem turns_timedOut (hc : c.OfCalls) {f : Bool → Impl (ι ⊕ τ)} {n₀ n : Nat}
    (hn : Holds E t none n) (hpending : Pending c.state.world.config first (E.marks t n))
    (hle : E.readings t n₀ ≤ E.readings t n)
    (hup : ∀ n', Holds E t none n' → InTime c.state.world.config [] (E.marks t n') →
      Along E t (f true) (Turns c.state.world.config first look E t n₀) n')
    (hgo : ∀ n', Holds E t none n' → Pending c.state.world.config first (E.marks t n') →
      E.readings t n₀ < E.readings t n' →
      Along E t (f false) (Turns c.state.world.config first look E t n₀) n') :
    Along E t (timedOut first.now (first.steady + c.state.world.config.wallMs.toNat) >>= f)
      (Turns c.state.world.config first look E t n₀) n := by
  refine Ends.bind _ (along_timedOut hc hn) ?_ ?_
  · rintro up n' ⟨hn', ⟨⟨_, ⟨⟩⟩, -⟩ | ⟨reading, _, ⟨⟩, hv, hiff⟩⟩
    cases up with
    | true => exact hup n' hn' (hv ▸ hpending.inTime_reading reading [])
    | false =>
        have hnot : ¬Expired c.state.world.config first reading := fun h => by
          cases hiff.mpr h
        refine hgo n' hn' (hv ▸ hpending.reading hnot) ?_
        rw [ImplExecution.readings_cons hv]
        exact Nat.lt_succ_of_le hle
  · rintro e n' ⟨hn', ⟨-, hv⟩ | ⟨_, _, ⟨⟩, -⟩⟩
    exact ⟨hn', hv ▸ hpending.inTime look, nofun⟩

/-- The loop ends, if its rounds do and the steady clock comes to the bound. -/
theorem along_polling (hsteady : SteadyAdvances config E t) {body : Impl (Unit ⊕ τ)} {n : Nat}
    (hbody : ∀ n, Holds E t none n → Pending config first (E.marks t n) →
      Along E t body (Turns config first look E t n) n)
    (hn : Holds E t none n) (hpending : Pending config first (E.marks t n)) :
    Along E t (Proc.loop () fun _ => body) (fun _ n' => Holds E t none n' ∧
      InTime config look (E.marks t n')) n := by
  obtain ⟨b, hb⟩ := hsteady.bound
  refine Ends.loop (fun left _ n' => (Holds E t none n' ∧ Pending config first (E.marks t n')) ∧
    left = b - E.readings t n') ⟨⟨hn, hpending⟩, rfl⟩ ?_
  rintro _ _ n' ⟨⟨hn', hpending'⟩, rfl⟩
  refine (hbody n' hn' hpending').mono fun r n'' hr => ?_
  rcases r with e | ⟨⟨⟩⟩ | a
  · exact ⟨hr.holds, hr.inTime⟩
  · obtain ⟨hagain, hlt⟩ := hr.again () rfl
    have hle := hb n'' first hagain
    exact ⟨b - E.readings t n'', by omega, ⟨hr.holds, hagain⟩, rfl⟩
  · exact ⟨hr.holds, hr.inTime⟩

variable (hcas : E.Recurs t isCasWeak isCasWeakDone) (hc : c.OfCalls)

include hcas hc

theorem turns_connectRoundEnd (client : Handle) {n₀ n : Nat} (hn : Holds E t none n)
    (hpending : Pending c.state.world.config first (E.marks t n))
    (hle : E.readings t n₀ ≤ E.readings t n) :
    Along E t (connectRoundEnd client first.now (first.steady + c.state.world.config.wallMs.toNat))
      (Turns c.state.world.config first [.poll] E t n₀) n := by
  refine turns_timedOut hc hn hpending hle (fun n' hn' htime => ?_) fun n' hn' hpending' hlt => ?_
  · have hlook : ∀ {r : Except Exn (Result Unit ConnectErrorState)} {n''}, Looks E t n' r n'' →
        InTime c.state.world.config [.poll] (E.marks t n'') := by
      rintro r n'' ⟨-, hv | hv⟩
      · exact hv ▸ htime.mono (List.nil_sublist _)
      · exact hv ▸ htime.poll
    refine Ends.bind _ (along_connectTimedOut hcas client hn') (fun a n'' h => ?_) fun e n'' h =>
      ⟨h.1, hlook h, nofun⟩
    exact ends_pure ⟨h.1, hlook h, nofun⟩
  · refine turns_silent (silent_stopSignal.bind fun stop => ?_) hn' hpending' hlt
    cases stop <;> exact settles_pure _

/-- A round of `connect`. -/
theorem turns_connectRound (client : Handle) {n : Nat} (hn : Holds E t none n)
    (hpending : Pending c.state.world.config first (E.marks t n)) :
    Along E t (connectRound client first.now (first.steady + c.state.world.config.wallMs.toNat))
      (Turns c.state.world.config first [.poll] E t n) n := by
  refine turns_isConnected hcas hn hpending fun r n₁ hn₁ hp₁ hle₁ => ?_
  rcases r with e | healthy
  · have hend := turns_connectRoundEnd hcas hc client hn₁ hp₁ hle₁
    cases e <;> first | exact turns_exit hn₁ hp₁ | exact hend
  · refine turns_then (silent_op rfl) hn₁ hp₁ hle₁ fun f n₂ hn₂ hp₂ hle₂ => ?_
    split
    · exact turns_then (silent_turnToRunning hcas) hn₂ hp₂ hle₂ fun _ n₃ hn₃ hp₃ _ =>
        turns_exit hn₃ hp₃
    · exact turns_connectRoundEnd hcas hc client hn₂ hp₂ hle₂

theorem turns_disconnectRoundEnd (client : Handle) {n₀ n : Nat} (hn : Holds E t none n)
    (hpending : Pending c.state.world.config first (E.marks t n))
    (hle : E.readings t n₀ ≤ E.readings t n) :
    Along E t
      (disconnectRoundEnd client first.now (first.steady + c.state.world.config.wallMs.toNat))
      (Turns c.state.world.config first [] E t n₀) n := by
  refine turns_timedOut hc hn hpending hle (fun n' hn' htime => ?_) fun n' hn' hpending' hlt => ?_
  · exact (along_leave (silent_disconnectTimedOut hcas client) hn').mono fun r n'' h =>
      ⟨h.1.1, h.1.2 ▸ htime, fun j hj => absurd hj (h.2 j)⟩
  · refine turns_silent (silent_stopSignal.bind fun stop => ?_) hn' hpending' hlt
    cases stop with
    | true => exact settles_pure _
    | false => exact silent_then rfl fun _ => settles_pure _

/-- A round of `disconnect`. -/
theorem turns_disconnectRound (client : Handle) {n : Nat} (hn : Holds E t none n)
    (hpending : Pending c.state.world.config first (E.marks t n)) :
    Along E t (disconnectRound client first.now (first.steady + c.state.world.config.wallMs.toNat))
      (Turns c.state.world.config first [] E t n) n := by
  refine turns_isConnected hcas hn hpending fun r n₁ hn₁ hp₁ hle₁ => ?_
  rcases r with e | healthy
  · cases e <;> exact turns_exit hn₁ hp₁
  · refine turns_then (silent_op rfl) hn₁ hp₁ hle₁ fun f n₂ hn₂ hp₂ hle₂ => ?_
    refine turns_then (Settles.when silent_updateBadStatusTime) hn₂ hp₂ hle₂
      fun _ n₃ hn₃ hp₃ hle₃ => ?_
    split
    · exact turns_then (silent_turnToRecovring hcas) hn₃ hp₃ hle₃ fun _ n₄ hn₄ hp₄ _ =>
        turns_exit hn₄ hp₄
    · exact turns_disconnectRoundEnd hcas hc client hn₃ hp₃ hle₃

end Rounds

/-! ### The calls -/

section Calls

variable {config : ClientConfig} {look : List Mark} {τ : Type}

/-- How a call ends. -/
def Done (config : ClientConfig) (look : List Mark) (E : ImplExecution c) (t : Tid) {α : Type}
    (_ : Except Exn α) (n : Nat) : Prop :=
  Holds E t none n ∧ InTime config look (E.marks t n)

/-- A silent program, then the rest. -/
theorem done_then {p : Impl α} {f : α → Impl β} {n : Nat} (hp : Silent E t none p)
    (hn : Holds E t none n) (hempty : E.marks t n = [])
    (hf : ∀ a n', Holds E t none n' → E.marks t n' = [] →
      Along E t (f a) (Done config look E t) n') :
    Along E t (p >>= f) (Done config look E t) n :=
  hp.continue hn (fun a n' hn' hv => hf a n' hn' (hv.trans hempty)) fun _ n' hn' hv =>
    ⟨hn', by rw [hv, hempty]; exact .nil⟩

theorem done_pure {a : α} {n : Nat} (hn : Holds E t none n) (hempty : E.marks t n = []) :
    Along E t (pure a) (Done config look E t) n :=
  ends_pure ⟨hn, by rw [hempty]; exact .nil⟩

/-- A guard. -/
theorem done_ensuring {release : Impl Unit} {body : Impl α} {n : Nat}
    (hrelease : ∀ n, Holds E t none n → Along E t release (fun r n' => r = .ok () ∧
      Holds E t none n' ∧ E.marks t n' = E.marks t n) n)
    (hbody : Along E t body (Done config look E t) n) :
    Along E t (Proc.ensuring release body) (Done config look E t) n := by
  refine Ends.ensuring (Q := Done config look E t) _ hbody fun r n' h => ?_
  refine (hrelease n' h.1).mono fun u n'' hu => ⟨hu.1, hu.2.1, ?_⟩
  rw [hu.2.2]
  exact h.2

theorem done_inFlight {body : Impl α} {n : Nat} (hn : Holds E t none n) (hempty : E.marks t n = [])
    (hbody : ∀ n', Holds E t none n' → E.marks t n' = [] →
      Along E t body (Done config look E t) n') :
    Along E t (inFlight body) (Done config look E t) n := by
  refine done_then (silent_op rfl) hn hempty fun _ n' hn' hempty' => ?_
  refine done_ensuring (fun m hm => ?_) (hbody n' hn' hempty')
  exact .op trivial fun u m' h => .ret ⟨rfl, silent_step rfl h hm⟩

theorem done_singleFlight {busy : ConnState → α} {body : Impl α} {n : Nat} (hn : Holds E t none n)
    (hempty : E.marks t n = [])
    (hbody : ∀ n', Holds E t none n' → E.marks t n' = [] →
      Along E t body (Done config look E t) n') :
    Along E t (singleFlight busy body) (Done config look E t) n := by
  refine done_then (silent_op rfl) hn hempty fun r n' hn' hempty' => ?_
  cases r with
  | error observed => exact done_pure hn' hempty'
  | ok u =>
      refine done_ensuring (fun m hm => ?_) (hbody n' hn' hempty')
      exact .op trivial fun u m' h => .ret ⟨rfl, silent_step rfl h hm⟩

/-- From the two clocks on. -/
theorem done_loop (hc : c.OfCalls) (hsteady : SteadyAdvances c.state.world.config E t)
    {round : Int → Int → Impl (Unit ⊕ τ)} {n : Nat}
    (hround : ∀ first n, Holds E t none n →
      Pending c.state.world.config first (E.marks t n) →
      Along E t (round first.now (first.steady + c.state.world.config.wallMs.toNat))
        (Turns c.state.world.config first look E t n) n)
    (hn : Holds E t none n) (hempty : E.marks t n = []) :
    Along E t (do
      let start ← nowMs
      let deadline ← wallDeadline
      Proc.loop () fun _ => round start deadline) (Done c.state.world.config look E t) n := by
  refine along_clocks (f := fun start now => do
      let config ← perform .readConfig
      Proc.loop () fun _ => round start (now + config.wallMs.toNat)) hn
    (fun first n₁ hn₁ hv₁ => ?_) fun e n₁ hn₁ hv₁ => ⟨hn₁, by rw [hv₁, hempty]; exact .nil⟩
  refine along_readConfig hc hn₁ fun n₂ hn₂ hv₂ => ?_
  refine along_polling hsteady (hround first) hn₂ ?_
  rw [hv₂, hv₁, hempty]
  exact .start

variable (hcas : E.Recurs t isCasWeak isCasWeakDone) (hc : c.OfCalls)
  (hsteady : SteadyAdvances c.state.world.config E t)

include hcas hc hsteady

theorem done_connectHeld (client : Handle) {n : Nat} (hn : Holds E t none n)
    (hempty : E.marks t n = []) :
    Along E t (connectHeld client) (Done c.state.world.config [.poll] E t) n := by
  refine done_then (silent_startConnect hcas client) hn hempty fun accepted n₁ hn₁ hempty₁ => ?_
  split
  · exact done_loop hc hsteady (fun first n hn => turns_connectRound hcas hc client hn) hn₁ hempty₁
  · exact done_pure hn₁ hempty₁

theorem done_disconnectHeld (client : Handle) {n : Nat} (hn : Holds E t none n)
    (hempty : E.marks t n = []) :
    Along E t (disconnectHeld client) (Done c.state.world.config [] E t) n := by
  refine done_then (silent_startDisconnect hcas client) hn hempty fun accepted n₁ hn₁ hempty₁ => ?_
  split
  · exact done_loop hc hsteady (fun first n hn => turns_disconnectRound hcas hc client hn) hn₁
      hempty₁
  · exact done_pure hn₁ hempty₁

theorem done_connect {n : Nat} (hn : Holds E t none n) (hempty : E.marks t n = []) :
    Along E t connect (Done c.state.world.config [.poll] E t) n := by
  refine done_inFlight hn hempty fun n₁ hn₁ hempty₁ => ?_
  refine done_then silent_stopSignal hn₁ hempty₁ fun stop n₂ hn₂ hempty₂ => ?_
  split
  case isTrue => exact done_pure hn₂ hempty₂
  case isFalse =>
  have hclient : Silent E t none connectClient := by
    refine silent_withLock <| silent_stopSignal.bind fun stop => ?_
    refine Settles.ite (settles_pure _) <| silent_then rfl fun impl => ?_
    cases impl <;> exact settles_pure _
  refine done_then hclient hn₂ hempty₂ fun client n₃ hn₃ hempty₃ => ?_
  cases client with
  | error e => exact done_pure hn₃ hempty₃
  | ok client =>
      exact done_singleFlight hn₃ hempty₃ fun n₄ hn₄ hempty₄ =>
        done_connectHeld hcas hc hsteady client hn₄ hempty₄

theorem done_disconnect {n : Nat} (hn : Holds E t none n) (hempty : E.marks t n = []) :
    Along E t disconnect (Done c.state.world.config [] E t) n := by
  refine done_inFlight hn hempty fun n₁ hn₁ hempty₁ => ?_
  have hclient : Silent E t none disconnectClient := by
    refine silent_withLock <| silent_then rfl fun impl => ?_
    cases impl with
    | none => exact settles_pure _
    | some client =>
        exact silent_stopSignal.bind fun stop => Settles.ite (settles_pure _) (settles_pure _)
  refine done_then hclient hn₁ hempty₁ fun client n₂ hn₂ hempty₂ => ?_
  cases client with
  | error e => exact done_pure hn₂ hempty₂
  | ok client =>
      exact done_singleFlight hn₂ hempty₂ fun n₃ hn₃ hempty₃ =>
        done_disconnectHeld hcas hc hsteady client hn₃ hempty₃

end Calls

end Impl

/-! ### The end of the calls -/

/-- What a polling call still does after an iteration that finds the time up: `connect` polls the
SDK once more. -/
def ImplCall.lastLook : ImplCall → List Mark
  | .connect => [.poll]
  | _ => []

/-- The call returns, and in time. -/
structure EndsInTime (config : ClientConfig) (call : ImplCall) {c : ImplPool} (E : ImplExecution c)
    (t : Tid) : Prop where
  returns : ∃ n a, (E.config n).Returned t a
  in_time : ∀ n, InTime config call.lastLook (E.marks t n)

section Ends

variable {calls : Tid → Option ImplCall} {s : ImplState} {t : Tid} {call : ImplCall}

/-- `connect` and `disconnect` return whatever the SDK does and whenever the stop signal comes: in
the first iteration that finds the time up, if not before. -/
theorem polling_ends (hcall : calls t = some call) (hpolls : call = .connect ∨ call = .disconnect)
    (E : ImplExecution (ImplPool.start calls s)) (hsched : E.ScheduledIf t Impl.grantable)
    (hcas : E.Recurs t isCasWeak isCasWeakDone) (hsteady : SteadyAdvances s.config E t) :
    EndsInTime s.config call E t := by
  have hc : (ImplPool.start calls s).OfCalls := Impl.uses_start calls s
  have hheld : Impl.Holds E t none 0 := fun m => rfl
  have hends : Impl.Along E t call.run (Impl.Done s.config call.lastLook E t) 0 := by
    rcases hpolls with rfl | rfl
    · exact Setting.Ends.bind _ (Impl.done_connect hcas hc hsteady hheld rfl)
        (fun _ _ h => Setting.ends_pure h) fun _ _ h => h
    · exact Setting.Ends.bind _ (Impl.done_disconnect hcas hc hsteady hheld rfl)
        (fun _ _ h => Setting.ends_pure h) fun _ _ h => h
  have hthread : (ImplPool.start calls s).pool t = call.run := by
    change ImplCall.thread (calls t) = _
    rw [hcall]
    rfl
  rw [← hthread] at hends
  obtain ⟨a, n, hret, m, hstill, -, htime⟩ := E.returns hsched hends
  refine ⟨⟨n, a, hret⟩, fun k => htime.of_suffix ?_⟩
  have hmarks : E.marks t n = E.marks t m := congrArg marksOf hstill.ops_eq
  rw [← hmarks]
  exact marksOf_suffix (Execution.ops_suffix_of_returned hret k)

end Ends

/-- An execution that comes to rest reads no clock for ever. -/
theorem steadyAdvances_of_rest {config : ClientConfig} {c : ImplPool} {E : ImplExecution c}
    {t : Tid}
    {N : Nat} (h : ∀ n, N ≤ n → E.label n = .rest) : SteadyAdvances config E t := by
  intro hmany
  obtain ⟨n, hn⟩ := hmany (E.readings t N + 1)
  have hle : E.readings t n ≤ E.readings t N := by
    rcases Nat.le_total n N with hle | hle
    · exact ImplExecution.readings_le hle
    · exact Nat.le_of_eq (congrArg (fun es => (marksOf es).countP Mark.isReading)
        (Execution.still_of_rest h hle).ops_eq)
  omega

/-- The channel does not open, and the clock of the SDK stands still. -/
def frozen (steady : Int) : Oracle ImplSig ImplState
  | .steadyNow, _ => steady
  | o, s => Environment.answer { state := ⟨UA_StatusCode.good, .closed, .closed⟩ } 0 o s

/-- `connect` against the frozen clock, until the steady clock is at its bound. -/
def connectsFrozen : Option ImplPool :=
  (ImplPool.start (callsOf [.connect]) .connectedLocal).play ImplState.exec
    (List.replicate 50 (0, frozen 0) ++ List.replicate 51 (0, frozen 10500))

/-- It ends in time. -/
theorem polling_ends_frozen :
    ∃ E : ImplExecution (ImplPool.start (callsOf [.connect]) .connectedLocal),
      EndsInTime ImplState.connectedLocal.config .connect E 0 := by
  have hplay : connectsFrozen.any (fun d =>
      d.result? 0 == some (.ok (.connect (.error .timeoutNotconnect)))) = true := by
    decide +kernel
  obtain ⟨d, hd, -, hret⟩ := Config.exists_reach_of_play hplay
  have hsched : ∀ m ∈ List.replicate 50 (0, frozen 0) ++ List.replicate 51 (0, frozen 10500),
      m.1 = 0 := by
    intro m hm
    rcases List.mem_append.mp hm with hm | hm <;> rw [(List.mem_replicate.mp hm).2]
  obtain ⟨E, hE, -, hrest⟩ := Execution.exists_of_play hd hsched
    (Config.returned_of_result? (beq_iff_eq.mp hret))
  exact ⟨E, polling_ends rfl (.inl rfl) E (hE.mono fun _ _ _ => trivial)
    (Execution.recurs_of_rest hrest) (steadyAdvances_of_rest hrest)⟩

end OPCUAPacking
