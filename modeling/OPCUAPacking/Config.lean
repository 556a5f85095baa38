import OPCUAPacking.Errors
import Mathlib.Logic.Basic
import Mathlib.Data.List.Basic

/-!
# Client configuration

* `ClientConfig` — the fields that the implementation reads, with the source's defaults.
* `ClientConfig.check` — the read-only check, with its messages.
* `ClientConfig.applyProfile`, `ClientConfig.applyDefaultIfInvalid` — the presets.

The presets leave `logLevel` alone, so a preset passes the check exactly when the log level does
(`check_applyProfile`), and repairing an invalid configuration may fail.
-/

namespace OPCUAPacking

/-- `ClientConfig`. -/
structure ClientConfig where
  timeoutMs : UInt32 := 10000
  sessionTimeoutMs : UInt32 := 600000
  secureChannelLifeTimeMs : UInt32 := 600000
  maxTotalWaitMs : UInt32 := 0
  giveUpThresholdMs : Int := 60000
  maxRetries : UInt32 := 3
  retryBackoffBaseMs : UInt32 := 1000
  retryMaxBackoffMs : UInt32 := 8000
  logLevel : UInt32 := 400
  connectivityCheckIntervalMs : UInt32 := 10000
  watchdogIntervalMs : UInt32 := 5000
  deriving DecidableEq, Repr

/-- `NetworkProfile`. -/
inductive NetworkProfile where
  | local
  | remote
  | mobile
  | unstable
  deriving DecidableEq, Repr

/-- `std::to_string`. -/
def showNat (n : UInt32) : String := toString n.toNat

/-- The message is an error when the condition holds. -/
def addError (cond : Bool) (msg : String) : List String := if cond then [msg] else []

theorem addError_eq_nil {cond : Bool} {msg : String} : addError cond msg = [] ↔ cond = false := by
  simp [addError]

namespace ClientConfig

/-- `applyProfile`. -/
def applyProfile (c : ClientConfig) : NetworkProfile → ClientConfig
  | .local =>
      { c with
        timeoutMs := 5000, sessionTimeoutMs := 600000, secureChannelLifeTimeMs := 600000
        maxRetries := 2, retryBackoffBaseMs := 500, retryMaxBackoffMs := 4000
        maxTotalWaitMs := 30000
        connectivityCheckIntervalMs := 30000, watchdogIntervalMs := 10000
        giveUpThresholdMs := 60000 }
  | .remote =>
      { c with
        timeoutMs := 15000, sessionTimeoutMs := 600000, secureChannelLifeTimeMs := 600000
        maxRetries := 3, retryBackoffBaseMs := 1000, retryMaxBackoffMs := 10000
        maxTotalWaitMs := 120000
        connectivityCheckIntervalMs := 15000, watchdogIntervalMs := 8000
        giveUpThresholdMs := 180000 }
  | .mobile =>
      { c with
        timeoutMs := 30000, sessionTimeoutMs := 600000, secureChannelLifeTimeMs := 600000
        maxRetries := 4, retryBackoffBaseMs := 2000, retryMaxBackoffMs := 20000
        maxTotalWaitMs := 300000
        connectivityCheckIntervalMs := 10000, watchdogIntervalMs := 5000
        giveUpThresholdMs := 360000 }
  | .unstable =>
      { c with
        timeoutMs := 20000, sessionTimeoutMs := 300000, secureChannelLifeTimeMs := 300000
        maxRetries := 5, retryBackoffBaseMs := 1000, retryMaxBackoffMs := 15000
        maxTotalWaitMs := 240000
        connectivityCheckIntervalMs := 5000, watchdogIntervalMs := 3000
        giveUpThresholdMs := 270000 }

/-- The budget that `maxTotalWaitMs` has to cover, in 64 bits. -/
def requiredBudget (c : ClientConfig) : UInt64 :=
  2 * c.timeoutMs.toUInt64 * (c.maxRetries.toUInt64 + 1)

/-- The part of `check` that concerns `maxTotalWaitMs`. The sums are those of `uint32_t`; the
required budget is computed in 64 bits and narrowed for the comparison. -/
def maxTotalWaitErrors (c : ClientConfig) : List String :=
  if 0 < c.maxTotalWaitMs then
    addError (c.maxTotalWaitMs ≤ c.timeoutMs)
        ("maxTotalWaitMs (" ++ showNat c.maxTotalWaitMs ++ ") must be > timeoutMs (" ++
          showNat c.timeoutMs ++ ")") ++
      addError (c.maxTotalWaitMs ≥ c.sessionTimeoutMs && 0 < c.sessionTimeoutMs)
        ("maxTotalWaitMs (" ++ showNat c.maxTotalWaitMs ++ ") must be < sessionTimeoutMs (" ++
          showNat c.sessionTimeoutMs ++ ")") ++
      addError (0 < c.maxRetries && c.maxTotalWaitMs < c.timeoutMs + c.retryMaxBackoffMs)
        ("maxTotalWaitMs (" ++ showNat c.maxTotalWaitMs ++
          ") must be >= timeoutMs + retryMaxBackoffMs (" ++
          showNat (c.timeoutMs + c.retryMaxBackoffMs) ++ ") when maxRetries > 0") ++
      if 0xFFFFFFFF < c.requiredBudget then
        ["maxTotalWaitMs cannot satisfy required budget (overflow)"]
      else
        addError (c.maxTotalWaitMs < c.requiredBudget.toUInt32)
          ("maxTotalWaitMs (" ++ showNat c.maxTotalWaitMs ++
            ") must be >= 2*timeoutMs*(maxRetries+1) = " ++ toString c.requiredBudget.toNat ++
            " (timeoutMs=" ++ showNat c.timeoutMs ++ ", maxRetries=" ++ showNat c.maxRetries ++
            ")")
  else
    ["maxTotalWaitMs must be > 0; call applyProfile() or applyDefaultIfInvalid()"]

/-- The part of `check` that concerns `giveUpThresholdMs`. -/
def giveUpThresholdErrors (c : ClientConfig) : List String :=
  addError (c.giveUpThresholdMs < c.watchdogIntervalMs.toNat * 2)
      ("giveUpThresholdMs (" ++ toString c.giveUpThresholdMs ++
        ") must be >= 2 * watchdogIntervalMs (" ++
        toString (c.watchdogIntervalMs.toNat * 2) ++ ")") ++
    addError (c.giveUpThresholdMs ≤ 0) "giveUpThresholdMs must be > 0" ++
    addError (0 < c.sessionTimeoutMs && c.giveUpThresholdMs ≥ c.sessionTimeoutMs.toNat)
      ("giveUpThresholdMs (" ++ toString c.giveUpThresholdMs ++ ") must be < sessionTimeoutMs (" ++
        showNat c.sessionTimeoutMs ++ ")")

/-- The part of `check` that concerns `logLevel`. -/
def logLevelErrors (c : ClientConfig) : List String :=
  addError (c.logLevel < 100 || 600 < c.logLevel)
    ("logLevel (" ++ showNat c.logLevel ++ ") must be in [100, 600] (open62541 UA_LogLevel)")

/-- The messages of `check`, in order. -/
def errors (c : ClientConfig) : List String :=
  addError (c.timeoutMs = 0) "timeoutMs must be > 0" ++
    addError (c.sessionTimeoutMs = 0) "sessionTimeoutMs must be > 0" ++
    addError (c.secureChannelLifeTimeMs < c.sessionTimeoutMs)
      ("secureChannelLifeTimeMs (" ++ showNat c.secureChannelLifeTimeMs ++
        ") must be >= sessionTimeoutMs (" ++ showNat c.sessionTimeoutMs ++ ")") ++
    addError (10 < c.maxRetries) ("maxRetries (" ++ showNat c.maxRetries ++ ") must be <= 10") ++
    addError (c.watchdogIntervalMs < 1000 || 30000 < c.watchdogIntervalMs)
      ("watchdogIntervalMs (" ++ showNat c.watchdogIntervalMs ++ ") must be in [1000, 30000]") ++
    addError (c.watchdogIntervalMs ≥ c.sessionTimeoutMs && 0 < c.sessionTimeoutMs)
      ("watchdogIntervalMs (" ++ showNat c.watchdogIntervalMs ++
        ") must be < sessionTimeoutMs (" ++ showNat c.sessionTimeoutMs ++ ")") ++
    addError (c.retryBackoffBaseMs = 0) "retryBackoffBaseMs must be > 0" ++
    addError (c.retryMaxBackoffMs < c.retryBackoffBaseMs)
      ("retryMaxBackoffMs (" ++ showNat c.retryMaxBackoffMs ++
        ") must be >= retryBackoffBaseMs (" ++ showNat c.retryBackoffBaseMs ++ ")") ++
    addError (c.connectivityCheckIntervalMs < 1000)
      ("connectivityCheckIntervalMs (" ++ showNat c.connectivityCheckIntervalMs ++
        ") must be >= 1000") ++
    addError (c.connectivityCheckIntervalMs ≥ c.sessionTimeoutMs && 0 < c.sessionTimeoutMs)
      ("connectivityCheckIntervalMs (" ++ showNat c.connectivityCheckIntervalMs ++
        ") must be < sessionTimeoutMs (" ++ showNat c.sessionTimeoutMs ++ ")") ++
    addError (c.retryBackoffBaseMs ≥ c.sessionTimeoutMs && 0 < c.sessionTimeoutMs)
      ("retryBackoffBaseMs (" ++ showNat c.retryBackoffBaseMs ++
        ") must be < sessionTimeoutMs (" ++ showNat c.sessionTimeoutMs ++ ")") ++
    addError (c.timeoutMs ≥ c.sessionTimeoutMs && 0 < c.sessionTimeoutMs)
      ("timeoutMs (" ++ showNat c.timeoutMs ++ ") must be < sessionTimeoutMs (" ++
        showNat c.sessionTimeoutMs ++ ")") ++
    addError (c.retryMaxBackoffMs ≥ c.timeoutMs && 0 < c.timeoutMs)
      ("retryMaxBackoffMs (" ++ showNat c.retryMaxBackoffMs ++ ") must be < timeoutMs (" ++
        showNat c.timeoutMs ++ ")") ++
    c.logLevelErrors ++ c.giveUpThresholdErrors ++ c.maxTotalWaitErrors

/-- `check`: the messages joined, or nothing if there are none. -/
def check (c : ClientConfig) : Option String :=
  if c.errors.isEmpty then none else some ("; ".intercalate c.errors)

/-- `applyDefaultIfInvalid`: the configuration it leaves, and whether the default was applied. -/
def applyDefaultIfInvalid (c : ClientConfig) : ClientConfig × Result Bool RichError :=
  if c.check.isNone then (c, .ok false)
  else if (c.applyProfile .local).check.isNone then (c.applyProfile .local, .ok true)
  else
    (c.applyProfile .local, .error ⟨.invalidConfig,
      "ClientConfig: default config still invalid after applyProfile"⟩)

theorem check_eq_none {c : ClientConfig} : c.check = none ↔ c.errors = [] := by
  simp [check]

/-- No preset breaks a rule about `giveUpThresholdMs`. -/
theorem giveUpThresholdErrors_applyProfile (c : ClientConfig) (p : NetworkProfile) :
    (c.applyProfile p).giveUpThresholdErrors = [] := by
  cases p <;>
  · simp only [giveUpThresholdErrors, applyProfile, List.append_eq_nil_iff, addError_eq_nil,
      Bool.and_eq_false_iff]
    simp

/-- No preset breaks a rule about `maxTotalWaitMs`. -/
theorem maxTotalWaitErrors_applyProfile (c : ClientConfig) (p : NetworkProfile) :
    (c.applyProfile p).maxTotalWaitErrors = [] := by
  cases p <;>
  · simp only [maxTotalWaitErrors, requiredBudget, applyProfile]
    simp [addError_eq_nil]

/-- The only error a preset can have is the log level it was given. -/
theorem errors_applyProfile (c : ClientConfig) (p : NetworkProfile) :
    (c.applyProfile p).errors = c.logLevelErrors := by
  have hlog : (c.applyProfile p).logLevelErrors = c.logLevelErrors := by cases p <;> rfl
  rw [errors, giveUpThresholdErrors_applyProfile, maxTotalWaitErrors_applyProfile, hlog]
  cases p <;> simp [applyProfile, addError]

/-- A preset passes the check exactly when the log level does. -/
theorem check_applyProfile (c : ClientConfig) (p : NetworkProfile) :
    (c.applyProfile p).check = none ↔ 100 ≤ c.logLevel ∧ c.logLevel ≤ 600 := by
  rw [check_eq_none, errors_applyProfile, logLevelErrors, addError_eq_nil]
  simp

/-- A configuration that passes the check is left as it is. -/
theorem applyDefaultIfInvalid_of_check {c : ClientConfig} (h : c.check = none) :
    c.applyDefaultIfInvalid = (c, .ok false) := by
  simp [applyDefaultIfInvalid, h]

/-- When the repair succeeds, what it leaves passes the check. -/
theorem check_of_applyDefaultIfInvalid {c c' : ClientConfig} {b : Bool}
    (h : c.applyDefaultIfInvalid = (c', .ok b)) : c'.check = none := by
  unfold applyDefaultIfInvalid at h
  split at h
  · next hc =>
    obtain ⟨rfl, -⟩ := Prod.mk.inj h
    exact Option.isNone_iff_eq_none.mp hc
  · split at h
    · next hc =>
      obtain ⟨rfl, -⟩ := Prod.mk.inj h
      exact Option.isNone_iff_eq_none.mp hc
    · cases (Prod.mk.inj h).2

end ClientConfig

end OPCUAPacking
