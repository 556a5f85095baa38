import OPCUAPacking.Impl.Reading
import Mathlib.Algebra.BigOperators.Group.Finset.Basic

/-!
# The budget of a read

The time budget that `ClientConfig.check` asks for, and the time that the retries of a read take.

* `ClientConfig.retryMs` — the time before an attempt, when every service takes as long as it may.
* `BudgetCovers` — all attempts are made, whatever the services take up to that.
* `budgetCovers_iff` — this is so exactly when the budget covers the retries with their backoffs.
  The check leaves the backoffs out, which matters from three retries on.
-/

namespace OPCUAPacking

open Interleaving

namespace ClientConfig

/-- The time before the attempt `n`, when every service takes twice the timeout. -/
def retryMs (c : ClientConfig) (n : Nat) : Nat :=
  2 * c.timeoutMs.toNat * n + ∑ i ∈ Finset.range n, c.backoffMs i

variable {c : ClientConfig}

@[simp]
theorem retryMs_zero : c.retryMs 0 = 0 := rfl

/-- One more attempt. -/
theorem retryMs_succ (n : Nat) :
    c.retryMs (n + 1) = c.retryMs n + 2 * c.timeoutMs.toNat + c.backoffMs n := by
  rw [retryMs, retryMs, Finset.sum_range_succ, Nat.mul_succ]
  omega

theorem retryMs_mono {m n : Nat} (h : m ≤ n) : c.retryMs m ≤ c.retryMs n := by
  induction n, h using Nat.le_induction with
  | base => exact Nat.le_refl _
  | succ n _ ih =>
      rw [retryMs_succ]
      omega

/-- A backoff is shorter than the timeout. -/
theorem Valid.backoffMs_lt (hc : c.Valid) (n : Nat) : c.backoffMs n < c.timeoutMs.toNat :=
  Nat.lt_of_le_of_lt (Nat.min_le_right _ _) hc.cap_lt_timeout

/-- What the check asks for covers two retries. -/
theorem Valid.retryMs_le_of_retries_le (hc : c.Valid) (hretries : c.maxRetries.toNat ≤ 2) :
    c.retryMs c.maxRetries.toNat ≤ c.maxTotalWaitMs.toNat := by
  have hbudget := hc.budget_le_total
  have h₀ := hc.backoffMs_lt 0
  have h₁ := hc.backoffMs_lt 1
  refine Nat.le_trans ?_ hbudget
  have hcases : c.maxRetries.toNat = 0 ∨ c.maxRetries.toNat = 1 ∨ c.maxRetries.toNat = 2 := by omega
  rcases hcases with h | h | h <;> rw [h]
  · exact Nat.zero_le _
  · rw [retryMs_succ, retryMs_zero]
    omega
  · rw [retryMs_succ, retryMs_succ, retryMs_zero]
    omega

end ClientConfig

/-- Every response is to be retried, a service takes at most twice the timeout, a sleep takes its
backoff, and nothing else takes any time. -/
structure ReadScript.Retries (config : ClientConfig) (S : ReadScript) : Prop where
  retryable : ∀ i, Impl.isRetryable (S.responses i).serviceResult = true
  prompt : S.clock 1 = S.clock 0
  takes : ∀ retry : UInt32, retry < config.maxRetries →
    ∃ took : Nat, took ≤ 2 * config.timeoutMs.toNat ∧
      S.clock (retry.toNat + 2) =
        S.clock (retry.toNat + 1) + took + (Impl.calculateBackoff config retry).toNat

/-- A read that is always to be retried makes all its attempts, and ends with the last of them. -/
def BudgetCovers (config : ClientConfig) : Prop :=
  ∀ (calls : Tid → Option ImplCall) (s : ImplState) (t : Tid) (client : Handle)
    (nodes : List ReadValue) (S : ReadScript), s.config = config → s.Serves client → nodes ≠ [] →
    nodes.any (·.node.rejected) = false → calls t = some (.batchRead nodes) → S.Retries config →
    ∀ E : ImplExecution (ImplPool.start calls s), E.ScheduledIf t Impl.grantable →
    E.Undisturbed t client → E.Answers t S → E.Recurs t isWait isExpiry →
    ∃ n r, (E.config n).Returned t (.ok (.read r)) ∧
      r.mapError RichError.code = .error .serviceRetryExhausted ∧
      (E.requests t n).length = config.maxRetries.toNat + 1

namespace ReadScript

variable {S : ReadScript} {config : ClientConfig}

/-- The time before an attempt is at most that of the slowest services. -/
theorem Retries.elapsed_le (hS : S.Retries config) (hvalid : config.Valid) {n : Nat}
    (hn : n ≤ config.maxRetries.toNat) : S.elapsed n ≤ config.retryMs n := by
  induction n with
  | zero => simp [elapsed, hS.prompt]
  | succ n ih =>
      have hretry : (UInt32.ofNat n).toNat = n :=
        UInt32.toNat_ofNat_of_lt' (Nat.lt_trans hn config.maxRetries.toNat_lt)
      have hlt : UInt32.ofNat n < config.maxRetries := by
        rw [UInt32.lt_iff_toNat_lt, hretry]
        omega
      obtain ⟨took, htook, hclock⟩ := hS.takes _ hlt
      rw [Impl.toNat_calculateBackoff hvalid, hretry] at hclock
      have hle := ih (Nat.le_of_succ_le hn)
      rw [config.retryMs_succ]
      unfold elapsed at hle ⊢
      rw [hclock]
      push_cast
      omega

/-- Within the budget all attempts are made. -/
theorem Retries.stop_eq (hS : S.Retries config) (hvalid : config.Valid)
    (hbudget : config.retryMs config.maxRetries.toNat ≤ config.maxTotalWaitMs.toNat) :
    S.stop config = config.maxRetries.toNat ∧ ¬S.OverBudget config config.maxRetries.toNat := by
  have hover : ∀ i ≤ config.maxRetries.toNat, ¬S.OverBudget config i := by
    intro i hi
    have helapsed := hS.elapsed_le hvalid hi
    have hmono := config.retryMs_mono hi
    unfold OverBudget
    omega
  refine ⟨ReadScript.stop_eq (.inr (.inr rfl)) fun i hi => ?_, hover _ (Nat.le_refl _)⟩
  rintro (h | h | h)
  · exact hover i (Nat.le_of_lt hi) h
  · rw [hS.retryable] at h
    cases h
  · omega

end ReadScript

/-! ### The slowest services -/

/-- Every service takes twice the timeout, and the connection is closed each time. -/
def slowest (config : ClientConfig) : ReadScript where
  responses _ := ⟨UA_StatusCode.badConnectionClosed, .null 0⟩
  clock
    | 0 => 0
    | n + 1 => config.retryMs n

theorem retries_slowest {config : ClientConfig} (hvalid : config.Valid) :
    (slowest config).Retries config where
  retryable _ := show Impl.isRetryable UA_StatusCode.badConnectionClosed = true by decide
  prompt := rfl
  takes retry _ := by
    refine ⟨2 * config.timeoutMs.toNat, Nat.le_refl _, ?_⟩
    change ((config.retryMs (retry.toNat + 1) : Nat) : Int) = config.retryMs retry.toNat + _ + _
    rw [config.retryMs_succ, Impl.toNat_calculateBackoff hvalid]
    push_cast
    ring

/-- Beyond the budget the last attempt is not made. -/
theorem outcome_slowest {config : ClientConfig}
    (hbudget : config.maxTotalWaitMs.toNat < config.retryMs config.maxRetries.toNat)
    (nodes : List ReadValue) : (slowest config).outcome config nodes = .error .budgetExceeded := by
  have hover : (slowest config).OverBudget config config.maxRetries.toNat := by
    change ((config.retryMs _ : Nat) : Int) - 0 > _
    omega
  rcases Nat.find_spec ((slowest config).exists_stops config) with h | h | h
  · exact if_pos h
  · cases h
  · refine if_pos ?_
    rw [ReadScript.stop, h]
    exact hover

/-- A client that has found its connection healthy, with a configuration. -/
def ImplState.connectedWith (config : ClientConfig) : ImplState := { connected with config }

theorem ImplState.serves_connectedWith (config : ClientConfig) : (connectedWith config).Serves 1 :=
  ⟨rfl, rfl, rfl, rfl, rfl,
    show (unpackState connected.statePacked).triple.isReady = true by decide⟩

/-- Beyond the budget the slowest services are not covered. -/
theorem not_budgetCovers {config : ClientConfig} (hvalid : config.Valid)
    (hbudget : config.maxTotalWaitMs.toNat < config.retryMs config.maxRetries.toNat) :
    ¬BudgetCovers config := by
  intro h
  have hserves := ImplState.serves_connectedWith config
  have hsched : ((slowest config).execution 0 (ImplPool.start (callsOf [.batchRead [readNode]])
      (.connectedWith config))).ScheduledIf 0 Impl.grantable :=
    (slowest config).scheduledIf_execution 0 rfl fun m => by cases m <;> rfl
  have hscripted : Scripted ((slowest config).execution 0 (ImplPool.start
      (callsOf [.batchRead [readNode]]) (.connectedWith config))) 0 1 (slowest config) :=
    ⟨Impl.uses_start _ _, (slowest config).undisturbed_execution 0 1,
      (slowest config).answers_execution 0, (slowest config).waits_execution 0⟩
  obtain ⟨n, r, hret, hcode, -⟩ := h _ _ 0 1 [readNode] _ rfl hserves (by decide) (by decide) rfl
    (retries_slowest hvalid) _ hsched hscripted.undisturbed hscripted.answers hscripted.waits
  obtain ⟨n', r', hret', hreference⟩ :=
    returns_reference hvalid (by decide) rfl hserves hsched hscripted
  -- a thread returns only one thing
  cases Execution.returned_unique hret hret'
  have hexceeded : r.mapError RichError.code = .error .budgetExceeded :=
    (congrArg Prod.fst hreference).trans (outcome_slowest hbudget [readNode])
  cases hcode.symm.trans hexceeded

/-- The budget covers all retries exactly when it is enough for their services and backoffs. -/
theorem budgetCovers_iff {config : ClientConfig} (hcheck : config.check = none) :
    BudgetCovers config ↔ config.retryMs config.maxRetries.toNat ≤ config.maxTotalWaitMs.toNat := by
  have hvalid := ClientConfig.valid_of_check hcheck
  constructor
  · intro h
    by_contra hnot
    exact not_budgetCovers hvalid (Nat.not_le.mp hnot) h
  · rintro hbudget calls s t client nodes S rfl hserves hnodes haccepted hcall hS E hsched hdist
      hanswers hwaits
    obtain ⟨n, r, hret, hreference⟩ := returns_reference hvalid hnodes hcall hserves hsched
      ⟨Impl.uses_start calls s, hdist, hanswers, hwaits⟩
    obtain ⟨hstop, hover⟩ := hS.stop_eq hvalid hbudget
    rw [ReadScript.reference, haccepted, ReadScript.outcome, ReadScript.attempts, hstop,
      if_neg hover, if_neg hover, if_pos (hS.retryable _)] at hreference
    refine ⟨n, r, hret, congrArg Prod.fst hreference, ?_⟩
    have hrequests := congrArg (List.length ∘ Prod.snd) hreference
    exact hrequests.trans (List.length_replicate ..)

/-- The local profile is covered. -/
theorem budgetCovers_iff_local : BudgetCovers (({} : ClientConfig).applyProfile .local) :=
  (budgetCovers_iff (by decide)).mpr (by decide)

/-- Three retries, with a backoff just below the timeout. -/
def longBackoff : ClientConfig :=
  { ({} : ClientConfig).applyProfile .local with
    timeoutMs := 1000
    retryBackoffBaseMs := 999
    retryMaxBackoffMs := 999
    maxRetries := 3
    maxTotalWaitMs := 8000 }

/-- It is accepted, but 8997 ms may pass before its last attempt. -/
theorem not_budgetCovers_longBackoff :
    longBackoff.check = none ∧ ¬BudgetCovers longBackoff := by
  have hcheck : longBackoff.check = none := by decide
  exact ⟨hcheck, not_budgetCovers (ClientConfig.valid_of_check hcheck) (by decide)⟩

end OPCUAPacking
