import OPCUAPacking.Config
import Mathlib.Algebra.Order.Ring.Nat
import Mathlib.Tactic.Ring

/-!
# What the check decides

`ClientConfig.check` computes with machine words: a sum modulo `2 ^ 32`, a product modulo `2 ^ 64`
and its narrowing to 32 bits.

* `ClientConfig.Valid` — the constraints over the integers.
* `ClientConfig.check_eq_none_iff_valid` — the check decides them. Each comparison excludes the
  wrapping of the next one: the number of retries bounds the product, the product bounds the
  timeout, and the timeout bounds the sum.
* `ClientConfig.Repairs` — what a repair should do. It does so exactly when the log level is in
  range (`ClientConfig.repairs_iff`), which the preset leaves alone.
-/

namespace OPCUAPacking

namespace ClientConfig

/-- The constraints on a configuration, over the integers. -/
structure Valid (c : ClientConfig) : Prop where
  timeout_pos : 0 < c.timeoutMs.toNat
  session_pos : 0 < c.sessionTimeoutMs.toNat
  session_le_channel : c.sessionTimeoutMs.toNat ≤ c.secureChannelLifeTimeMs.toNat
  retries_le : c.maxRetries.toNat ≤ 10
  le_watchdog : 1000 ≤ c.watchdogIntervalMs.toNat
  watchdog_le : c.watchdogIntervalMs.toNat ≤ 30000
  watchdog_lt_session : c.watchdogIntervalMs.toNat < c.sessionTimeoutMs.toNat
  base_pos : 0 < c.retryBackoffBaseMs.toNat
  base_le_cap : c.retryBackoffBaseMs.toNat ≤ c.retryMaxBackoffMs.toNat
  le_connectivity : 1000 ≤ c.connectivityCheckIntervalMs.toNat
  connectivity_lt_session : c.connectivityCheckIntervalMs.toNat < c.sessionTimeoutMs.toNat
  base_lt_session : c.retryBackoffBaseMs.toNat < c.sessionTimeoutMs.toNat
  timeout_lt_session : c.timeoutMs.toNat < c.sessionTimeoutMs.toNat
  cap_lt_timeout : c.retryMaxBackoffMs.toNat < c.timeoutMs.toNat
  le_logLevel : 100 ≤ c.logLevel.toNat
  logLevel_le : c.logLevel.toNat ≤ 600
  giveUp_pos : 0 < c.giveUpThresholdMs
  watchdog_le_giveUp : 2 * (c.watchdogIntervalMs.toNat : Int) ≤ c.giveUpThresholdMs
  giveUp_lt_session : c.giveUpThresholdMs < c.sessionTimeoutMs.toNat
  timeout_lt_total : c.timeoutMs.toNat < c.maxTotalWaitMs.toNat
  total_lt_session : c.maxTotalWaitMs.toNat < c.sessionTimeoutMs.toNat
  backoff_le_total : 0 < c.maxRetries.toNat →
    c.timeoutMs.toNat + c.retryMaxBackoffMs.toNat ≤ c.maxTotalWaitMs.toNat
  budget_le_total : 2 * c.timeoutMs.toNat * (c.maxRetries.toNat + 1) ≤ c.maxTotalWaitMs.toNat

/-! ### Comparisons of machine words -/

section Words

variable {a b : UInt32} {msg : String}

theorem addError_lt : addError (a < b) msg = [] ↔ b.toNat ≤ a.toNat := by
  rw [addError_eq_nil, decide_eq_false_iff_not, UInt32.lt_iff_toNat_lt, Nat.not_lt]

theorem addError_le : addError (a ≤ b) msg = [] ↔ b.toNat < a.toNat := by
  rw [addError_eq_nil, decide_eq_false_iff_not, UInt32.le_iff_toNat_le, Nat.not_le]

theorem addError_eq_zero : addError (a = 0) msg = [] ↔ 0 < a.toNat := by
  rw [addError_eq_nil, decide_eq_false_iff_not, ← UInt32.toNat_inj, Nat.pos_iff_ne_zero]
  rfl

/-- A range. -/
theorem addError_outside {lo hi : UInt32} :
    addError (a < lo || hi < a) msg = [] ↔ lo.toNat ≤ a.toNat ∧ a.toNat ≤ hi.toNat := by
  rw [addError_eq_nil, Bool.or_eq_false_iff, decide_eq_false_iff_not, decide_eq_false_iff_not,
    UInt32.lt_iff_toNat_lt, UInt32.lt_iff_toNat_lt, Nat.not_lt, Nat.not_lt]

/-- A comparison that is only made when the bound is set. -/
theorem addError_guarded (hpos : 0 < b.toNat) :
    addError (a ≥ b && 0 < b) msg = [] ↔ a.toNat < b.toNat := by
  have hb : (0 : UInt32) < b := UInt32.lt_iff_toNat_lt.mpr hpos
  rw [addError_eq_nil, Bool.and_eq_false_iff, decide_eq_false_iff_not, decide_eq_false_iff_not,
    ge_iff_le, UInt32.le_iff_toNat_le, Nat.not_le]
  exact or_iff_left (not_not_intro hb)

end Words

/-! ### The budget -/

/-- With at most ten retries the product does not wrap. -/
theorem toNat_requiredBudget {c : ClientConfig} (h : c.maxRetries.toNat ≤ 10) :
    c.requiredBudget.toNat = 2 * c.timeoutMs.toNat * (c.maxRetries.toNat + 1) := by
  have ht : c.timeoutMs.toNat < 2 ^ 32 := c.timeoutMs.toNat_lt
  have htwice : (2 * c.timeoutMs.toUInt64).toNat = 2 * c.timeoutMs.toNat := by
    rw [UInt64.toNat_mul, UInt32.toNat_toUInt64]
    exact Nat.mod_eq_of_lt (by simp; omega)
  have hnext : (c.maxRetries.toUInt64 + 1).toNat = c.maxRetries.toNat + 1 := by
    rw [UInt64.toNat_add, UInt32.toNat_toUInt64]
    exact Nat.mod_eq_of_lt (by simp; omega)
  have hle : 2 * c.timeoutMs.toNat * (c.maxRetries.toNat + 1) ≤ 2 * c.timeoutMs.toNat * 11 :=
    Nat.mul_le_mul_left _ (by omega)
  rw [requiredBudget, UInt64.toNat_mul, htwice, hnext]
  exact Nat.mod_eq_of_lt (by omega)

/-- A comparison with the budget after its narrowing is one with the budget. -/
theorem narrowed_budget_le {c : ClientConfig} {msg msg' : String}
    (h : c.maxRetries.toNat ≤ 10) :
    (if 0xFFFFFFFF < c.requiredBudget then [msg]
      else addError (c.maxTotalWaitMs < c.requiredBudget.toUInt32) msg') = [] ↔
      2 * c.timeoutMs.toNat * (c.maxRetries.toNat + 1) ≤ c.maxTotalWaitMs.toNat := by
  have htotal : c.maxTotalWaitMs.toNat < 2 ^ 32 := c.maxTotalWaitMs.toNat_lt
  rw [← toNat_requiredBudget h]
  split
  · next hover =>
    -- beyond 32 bits no total is enough
    have hbig : 0xFFFFFFFF < c.requiredBudget.toNat := UInt64.lt_iff_toNat_lt.mp hover
    exact ⟨nofun, fun hle => by omega⟩
  · next hfits =>
    have hsmall : c.requiredBudget.toNat ≤ 0xFFFFFFFF :=
      Nat.not_lt.mp fun hlt => hfits (UInt64.lt_iff_toNat_lt.mpr hlt)
    have hnarrow : c.requiredBudget.toUInt32.toNat = c.requiredBudget.toNat := by
      rw [UInt64.toNat_toUInt32]
      exact Nat.mod_eq_of_lt (by omega)
    rw [addError_lt, hnarrow]

/-- With at least one retry the budget keeps the sum in range. -/
theorem toNat_timeout_add_backoff {c : ClientConfig}
    (hcap : c.retryMaxBackoffMs.toNat < c.timeoutMs.toNat) (hretries : 0 < c.maxRetries.toNat)
    (hbudget : 2 * c.timeoutMs.toNat * (c.maxRetries.toNat + 1) ≤ c.maxTotalWaitMs.toNat) :
    (c.timeoutMs + c.retryMaxBackoffMs).toNat = c.timeoutMs.toNat + c.retryMaxBackoffMs.toNat := by
  have htotal : c.maxTotalWaitMs.toNat < 2 ^ 32 := c.maxTotalWaitMs.toNat_lt
  have htwo : 2 * c.timeoutMs.toNat * 2 ≤ 2 * c.timeoutMs.toNat * (c.maxRetries.toNat + 1) :=
    Nat.mul_le_mul_left _ (by omega)
  rw [UInt32.toNat_add]
  exact Nat.mod_eq_of_lt (by omega)

/-- The rules about `maxTotalWaitMs`, given those that are checked before them. -/
theorem maxTotalWaitErrors_eq_nil {c : ClientConfig} (hsession : 0 < c.sessionTimeoutMs.toNat)
    (hretries : c.maxRetries.toNat ≤ 10)
    (hcap : c.retryMaxBackoffMs.toNat < c.timeoutMs.toNat) :
    c.maxTotalWaitErrors = [] ↔
      c.timeoutMs.toNat < c.maxTotalWaitMs.toNat ∧
      c.maxTotalWaitMs.toNat < c.sessionTimeoutMs.toNat ∧
      (0 < c.maxRetries.toNat →
        c.timeoutMs.toNat + c.retryMaxBackoffMs.toNat ≤ c.maxTotalWaitMs.toNat) ∧
      2 * c.timeoutMs.toNat * (c.maxRetries.toNat + 1) ≤ c.maxTotalWaitMs.toNat := by
  unfold maxTotalWaitErrors
  split
  case isFalse hzero =>
    have hno : ¬0 < c.maxTotalWaitMs.toNat := fun h => hzero (UInt32.lt_iff_toNat_lt.mpr h)
    exact ⟨nofun, fun h => absurd (Nat.zero_lt_of_lt h.1) hno⟩
  case isTrue =>
  rw [List.append_eq_nil_iff, List.append_eq_nil_iff, List.append_eq_nil_iff, addError_le,
    addError_guarded hsession, narrowed_budget_le hretries, and_assoc, and_assoc]
  refine and_congr_right fun _ => and_congr_right fun _ => and_congr_left fun hbudget => ?_
  rw [addError_eq_nil, Bool.and_eq_false_imp, decide_eq_true_eq, decide_eq_false_iff_not,
    UInt32.lt_iff_toNat_lt, UInt32.lt_iff_toNat_lt, Nat.not_lt]
  refine imp_congr_right fun hpos => ?_
  rw [toNat_timeout_add_backoff hcap hpos hbudget]

/-! ### The check -/

/-- The rules about `giveUpThresholdMs`. -/
theorem giveUpThresholdErrors_eq_nil {c : ClientConfig} (hsession : 0 < c.sessionTimeoutMs.toNat) :
    c.giveUpThresholdErrors = [] ↔
      2 * (c.watchdogIntervalMs.toNat : Int) ≤ c.giveUpThresholdMs ∧ 0 < c.giveUpThresholdMs ∧
      c.giveUpThresholdMs < c.sessionTimeoutMs.toNat := by
  have hset : (0 : UInt32) < c.sessionTimeoutMs := UInt32.lt_iff_toNat_lt.mpr hsession
  rw [giveUpThresholdErrors, List.append_eq_nil_iff, List.append_eq_nil_iff, addError_eq_nil,
    addError_eq_nil, addError_eq_nil, Bool.and_eq_false_iff, decide_eq_false_iff_not,
    decide_eq_false_iff_not, decide_eq_false_iff_not, decide_eq_false_iff_not,
    or_iff_right (not_not_intro hset), and_assoc]
  omega

/-- What the check accepts meets the constraints. -/
theorem valid_of_check {c : ClientConfig} (h : c.check = none) : c.Valid := by
  rw [check_eq_none, errors] at h
  simp only [List.append_eq_nil_iff, addError_eq_zero, addError_lt, addError_outside,
    logLevelErrors] at h
  obtain ⟨⟨⟨⟨⟨⟨⟨⟨⟨⟨⟨⟨⟨⟨⟨htimeout, hsession⟩, hchannel⟩, hretries⟩, hwatchdog⟩, hws⟩, hbase⟩, hcap⟩,
    hconn⟩, hcs⟩, hbs⟩, hts⟩, hct⟩, hlog⟩, hgiveUp⟩, htotal⟩ := h
  -- the bounds that the other comparisons are guarded by are positive
  rw [addError_guarded hsession] at hws hcs hbs hts
  rw [addError_guarded htimeout] at hct
  rw [giveUpThresholdErrors_eq_nil hsession] at hgiveUp
  rw [maxTotalWaitErrors_eq_nil hsession hretries hct] at htotal
  exact ⟨htimeout, hsession, hchannel, hretries, hwatchdog.1, hwatchdog.2, hws, hbase, hcap,
    hconn, hcs, hbs, hts, hct, hlog.1, hlog.2, hgiveUp.2.1, hgiveUp.1, hgiveUp.2.2, htotal.1,
    htotal.2.1, htotal.2.2.1, htotal.2.2.2⟩

/-- What meets the constraints is accepted. -/
theorem check_of_valid {c : ClientConfig} (h : c.Valid) : c.check = none := by
  rw [check_eq_none, errors]
  simp only [List.append_eq_nil_iff, addError_eq_zero, addError_lt, addError_outside,
    logLevelErrors]
  rw [addError_guarded h.session_pos, addError_guarded h.session_pos,
    addError_guarded h.session_pos, addError_guarded h.session_pos,
    addError_guarded h.timeout_pos, giveUpThresholdErrors_eq_nil h.session_pos,
    maxTotalWaitErrors_eq_nil h.session_pos h.retries_le h.cap_lt_timeout]
  exact ⟨⟨⟨⟨⟨⟨⟨⟨⟨⟨⟨⟨⟨⟨⟨h.timeout_pos, h.session_pos⟩, h.session_le_channel⟩, h.retries_le⟩,
    h.le_watchdog, h.watchdog_le⟩, h.watchdog_lt_session⟩, h.base_pos⟩, h.base_le_cap⟩,
    h.le_connectivity⟩, h.connectivity_lt_session⟩, h.base_lt_session⟩, h.timeout_lt_session⟩,
    h.cap_lt_timeout⟩, h.le_logLevel, h.logLevel_le⟩,
    h.watchdog_le_giveUp, h.giveUp_pos, h.giveUp_lt_session⟩,
    h.timeout_lt_total, h.total_lt_session, h.backoff_le_total, h.budget_le_total⟩

/-- The check accepts exactly the configurations that meet the constraints over the integers. -/
theorem check_eq_none_iff_valid (c : ClientConfig) : c.check = none ↔ c.Valid :=
  ⟨valid_of_check, check_of_valid⟩

namespace Valid

variable {c : ClientConfig} (h : c.Valid)

include h

/-- The budget of one attempt fits 32 bits. -/
theorem two_mul_timeout_lt : 2 * c.timeoutMs.toNat < 2 ^ 32 := by
  have htotal : c.maxTotalWaitMs.toNat < 2 ^ 32 := c.maxTotalWaitMs.toNat_lt
  have hone : 2 * c.timeoutMs.toNat * 1 ≤ 2 * c.timeoutMs.toNat * (c.maxRetries.toNat + 1) :=
    Nat.mul_le_mul_left _ (by omega)
  have hbudget := h.budget_le_total
  omega

/-- With a retry it fits 31. -/
theorem two_mul_timeout_lt_of_retries (hretries : 0 < c.maxRetries.toNat) :
    2 * c.timeoutMs.toNat < 2 ^ 31 := by
  have htotal : c.maxTotalWaitMs.toNat < 2 ^ 32 := c.maxTotalWaitMs.toNat_lt
  have htwo : 2 * c.timeoutMs.toNat * 2 ≤ 2 * c.timeoutMs.toNat * (c.maxRetries.toNat + 1) :=
    Nat.mul_le_mul_left _ (by omega)
  have hbudget := h.budget_le_total
  omega

end Valid

/-! ### The repair -/

/-- What `applyDefaultIfInvalid` should do with a configuration. -/
structure Repairs (c : ClientConfig) : Prop where
  /-- The call succeeds. -/
  succeeds : ∃ applied, c.applyDefaultIfInvalid.2 = .ok applied
  /-- What it leaves is accepted. -/
  accepted : c.applyDefaultIfInvalid.1.check = none
  /-- It returns false for the accepted configurations only. -/
  false_iff : c.applyDefaultIfInvalid.2 = .ok false ↔ c.check = none
  /-- These it leaves unchanged. -/
  unchanged : c.check = none → c.applyDefaultIfInvalid.1 = c
  /-- A second call returns false and changes nothing. -/
  again : c.applyDefaultIfInvalid.1.applyDefaultIfInvalid = (c.applyDefaultIfInvalid.1, .ok false)
  /-- After an error the object is as before the call. -/
  restored : ∀ e, c.applyDefaultIfInvalid.2 = .error e → c.applyDefaultIfInvalid.1 = c

/-- A rejected configuration with a log level in range gets the preset. -/
theorem applyDefaultIfInvalid_of_logLevel {c : ClientConfig} (hcheck : c.check ≠ none)
    (hlog : 100 ≤ c.logLevel ∧ c.logLevel ≤ 600) :
    c.applyDefaultIfInvalid = (c.applyProfile .local, .ok true) := by
  have hpreset := (check_applyProfile c .local).mpr hlog
  simp [applyDefaultIfInvalid, hpreset, Option.isNone_iff_eq_none, hcheck]

/-- No log level out of range is repaired: the call fails, and the preset stays in the object. -/
theorem applyDefaultIfInvalid_of_not_logLevel {c : ClientConfig}
    (hlog : ¬(100 ≤ c.logLevel ∧ c.logLevel ≤ 600)) :
    c.applyDefaultIfInvalid = (c.applyProfile .local, .error ⟨.invalidConfig,
      "ClientConfig: default config still invalid after applyProfile"⟩) := by
  have hpreset : (c.applyProfile .local).check ≠ none := fun h =>
    hlog ((check_applyProfile c .local).mp h)
  have hcheck : c.check ≠ none := fun h => by
    have hvalid := valid_of_check h
    exact hlog ⟨UInt32.le_iff_toNat_le.mpr hvalid.le_logLevel,
      UInt32.le_iff_toNat_le.mpr hvalid.logLevel_le⟩
  simp [applyDefaultIfInvalid, Option.isNone_iff_eq_none, hcheck, hpreset]

/-- A configuration is repaired exactly when its log level is in range. -/
theorem repairs_iff (c : ClientConfig) :
    c.Repairs ↔ 100 ≤ c.logLevel ∧ c.logLevel ≤ 600 := by
  constructor
  · intro h
    by_contra hlog
    obtain ⟨applied, happlied⟩ := h.succeeds
    rw [applyDefaultIfInvalid_of_not_logLevel hlog] at happlied
    cases happlied
  · intro hlog
    have hpreset := (check_applyProfile c .local).mpr hlog
    by_cases hcheck : c.check = none
    · have hsame := applyDefaultIfInvalid_of_check hcheck
      constructor <;> simp [hsame, hcheck]
    · have happlied := applyDefaultIfInvalid_of_logLevel hcheck hlog
      have hagain := applyDefaultIfInvalid_of_check hpreset
      constructor <;> simp [happlied, hcheck, hpreset, hagain]

/-- The log level 0 is not repaired, and the object is changed although the call fails. -/
theorem not_repairs_logLevel_zero :
    ¬({ logLevel := 0 } : ClientConfig).Repairs ∧
      ({ logLevel := 0 } : ClientConfig).applyDefaultIfInvalid.1 ≠ { logLevel := 0 } := by
  have hfails := applyDefaultIfInvalid_of_not_logLevel (c := { logLevel := 0 }) (by decide)
  refine ⟨fun h => ?_, ?_⟩
  · obtain ⟨applied, happlied⟩ := h.succeeds
    rw [hfails] at happlied
    cases happlied
  · rw [hfails]
    decide

end ClientConfig

end OPCUAPacking
