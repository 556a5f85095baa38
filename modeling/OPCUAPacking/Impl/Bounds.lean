import OPCUAPacking.Impl.Batch
import OPCUAPacking.Impl.Connection
import OPCUAPacking.Impl.Lifecycle
import OPCUAPacking.Validation

/-!
# Arithmetic on an accepted configuration

The fixed-width expressions that the functions of an `Impl` compute from a configuration, and what
they are over the integers when `ClientConfig.check` accepts it.

* `wallMs`, `attempts`, `drainMs`, `delayMs` — the expressions, with the functions that compute
  them.
* `Impl.toNat_calculateBackoff` — the backoff is the capped exponential. Its cut-off agrees with its
  shift because the base is positive.
* `exact_iff_timeout_le` — the wall-clock bound is the only expression that can wrap, without
  retries and with a timeout near the end of its range; it then expires before the timeout.
-/

namespace OPCUAPacking

open Interleaving

namespace ClientConfig

/-- The time from the start of a polling loop to its wall-clock bound. -/
def wallMs (c : ClientConfig) : UInt32 := 2 * c.timeoutMs + 500

/-- The attempts of a read. -/
def attempts (c : ClientConfig) : UInt32 := c.maxRetries + 1

/-- How long a shutdown waits for the calls in flight. -/
def drainMs (c : ClientConfig) : UInt32 := max c.timeoutMs (c.watchdogIntervalMs * 2)

/-- The backoff before it is capped. -/
def delayMs (c : ClientConfig) (retry : UInt32) : UInt64 :=
  c.retryBackoffBaseMs.toUInt64 <<< retry.toUInt64

end ClientConfig

namespace Impl

theorem wallDeadline_eq :
    wallDeadline = (do
      let now ← perform .steadyNow
      let config ← perform .readConfig
      pure (now + config.wallMs.toNat)) := rfl

theorem drain_eq :
    drain = (do
      let config ← perform .readConfig
      perform (.taskWait config.drainMs.toNat)) := rfl

theorem calculateBackoff_eq (c : ClientConfig) (retry : UInt32) :
    calculateBackoff c retry =
      if 32 ≤ retry then c.retryMaxBackoffMs.toUInt64.toUInt32
      else if c.retryMaxBackoffMs.toUInt64 < c.delayMs retry then
        c.retryMaxBackoffMs.toUInt64.toUInt32
      else (c.delayMs retry).toUInt32 := rfl

end Impl

/-! ### The backoff -/

/-- Below 32 bits of shift nothing is lost. -/
theorem ClientConfig.toNat_delayMs (c : ClientConfig) {retry : UInt32} (h : retry.toNat < 32) :
    (c.delayMs retry).toNat = c.retryBackoffBaseMs.toNat * 2 ^ retry.toNat := by
  have hbase : c.retryBackoffBaseMs.toNat < 2 ^ 32 := c.retryBackoffBaseMs.toNat_lt
  have hpow : 2 ^ retry.toNat ≤ 2 ^ 31 := Nat.pow_le_pow_right (by decide) (by omega)
  have hle : c.retryBackoffBaseMs.toNat * 2 ^ retry.toNat ≤ c.retryBackoffBaseMs.toNat * 2 ^ 31 :=
    Nat.mul_le_mul_left _ hpow
  rw [delayMs, UInt64.toNat_shiftLeft, UInt32.toNat_toUInt64, UInt32.toNat_toUInt64,
    Nat.shiftLeft_eq, Nat.mod_eq_of_lt (show retry.toNat < 64 by omega)]
  exact Nat.mod_eq_of_lt (by omega)

/-- The backoff over the integers. -/
def ClientConfig.backoffMs (c : ClientConfig) (retry : Nat) : Nat :=
  min (c.retryBackoffBaseMs.toNat * 2 ^ retry) c.retryMaxBackoffMs.toNat

/-- It grows with the number of retries. -/
theorem ClientConfig.backoffMs_mono (c : ClientConfig) {m n : Nat} (h : m ≤ n) :
    c.backoffMs m ≤ c.backoffMs n := by
  have hpow : 2 ^ m ≤ 2 ^ n := Nat.pow_le_pow_right (by decide) h
  have hle : c.retryBackoffBaseMs.toNat * 2 ^ m ≤ c.retryBackoffBaseMs.toNat * 2 ^ n :=
    Nat.mul_le_mul_left _ hpow
  unfold backoffMs
  omega

/-- `calculateBackoff` is the capped exponential. -/
theorem Impl.toNat_calculateBackoff {c : ClientConfig} (hc : c.Valid) (retry : UInt32) :
    (calculateBackoff c retry).toNat = c.backoffMs retry.toNat := by
  have hbase := hc.base_pos
  have hbc := hc.base_le_cap
  have hcap : c.retryMaxBackoffMs.toNat < 2 ^ 32 := c.retryMaxBackoffMs.toNat_lt
  have hnarrow : c.retryMaxBackoffMs.toUInt64.toUInt32 = c.retryMaxBackoffMs := by simp
  rw [calculateBackoff_eq, ClientConfig.backoffMs]
  split
  · next hlate =>
    -- past the cut-off the exponential is beyond every cap, as the base is positive
    have hretry : 32 ≤ retry.toNat := UInt32.le_iff_toNat_le.mp hlate
    have hpow : 2 ^ 32 ≤ 2 ^ retry.toNat := Nat.pow_le_pow_right (by decide) hretry
    have hbig : 1 * 2 ^ 32 ≤ c.retryBackoffBaseMs.toNat * 2 ^ retry.toNat :=
      Nat.mul_le_mul hbase hpow
    rw [hnarrow, Nat.min_eq_right (by omega)]
  · next hearly =>
    have hretry : retry.toNat < 32 := Nat.not_le.mp fun h => hearly (UInt32.le_iff_toNat_le.mpr h)
    have hshift := c.toNat_delayMs hretry
    split
    · next hover =>
      rw [UInt64.lt_iff_toNat_lt, hshift, UInt32.toNat_toUInt64] at hover
      rw [hnarrow, Nat.min_eq_right (Nat.le_of_lt hover)]
    · next hfits =>
      rw [UInt64.lt_iff_toNat_lt, hshift, UInt32.toNat_toUInt64] at hfits
      rw [UInt64.toNat_toUInt32, hshift, Nat.mod_eq_of_lt (by omega), Nat.min_eq_left (by omega)]

/-! ### The other expressions -/

namespace ClientConfig

/-- The fixed-width expressions are exact, and the wall clock leaves the timeout its time. -/
structure Exact (c : ClientConfig) : Prop where
  wall : c.wallMs.toNat = 2 * c.timeoutMs.toNat + 500
  attempts : c.attempts.toNat = c.maxRetries.toNat + 1
  drain : c.drainMs.toNat = max c.timeoutMs.toNat (2 * c.watchdogIntervalMs.toNat)
  delay : ∀ retry : UInt32, retry.toNat < 32 →
    (c.delayMs retry).toNat = c.retryBackoffBaseMs.toNat * 2 ^ retry.toNat
  timeout_le_wall : c.timeoutMs.toNat ≤ c.wallMs.toNat

/-- The wall-clock bound is exact as long as it fits 32 bits. -/
theorem toNat_wallMs (c : ClientConfig) :
    c.wallMs.toNat = (2 * c.timeoutMs.toNat + 500) % 2 ^ 32 := by
  simp [wallMs, UInt32.toNat_add, UInt32.toNat_mul]

variable {c : ClientConfig}

/-- Ten retries leave room for one more attempt. -/
theorem Valid.toNat_attempts (h : c.Valid) : c.attempts.toNat = c.maxRetries.toNat + 1 := by
  have hretries := h.retries_le
  rw [ClientConfig.attempts, UInt32.toNat_add]
  exact Nat.mod_eq_of_lt (by simp; omega)

/-- The watchdog interval is far from the end of its range. -/
theorem Valid.toNat_drainMs (h : c.Valid) :
    c.drainMs.toNat = max c.timeoutMs.toNat (2 * c.watchdogIntervalMs.toNat) := by
  have hwatchdog := h.watchdog_le
  have htwice : (c.watchdogIntervalMs * 2).toNat = 2 * c.watchdogIntervalMs.toNat := by
    rw [UInt32.toNat_mul, Nat.mul_comm]
    exact Nat.mod_eq_of_lt (by simp; omega)
  rw [← htwice]
  change (if c.timeoutMs ≤ c.watchdogIntervalMs * 2 then c.watchdogIntervalMs * 2
    else c.timeoutMs).toNat = _
  split
  · next hle => rw [Nat.max_eq_right (UInt32.le_iff_toNat_le.mp hle)]
  · next hgt =>
    have hlt := Nat.not_le.mp fun h => hgt (UInt32.le_iff_toNat_le.mpr h)
    rw [Nat.max_eq_left (Nat.le_of_lt hlt)]

/-- An accepted configuration is exact as soon as its wall-clock bound fits. -/
theorem Valid.exact (h : c.Valid) (hfits : 2 * c.timeoutMs.toNat + 500 < 2 ^ 32) : c.Exact where
  wall := by rw [toNat_wallMs, Nat.mod_eq_of_lt hfits]
  attempts := h.toNat_attempts
  drain := h.toNat_drainMs
  delay retry hretry := c.toNat_delayMs hretry
  timeout_le_wall := by
    rw [toNat_wallMs, Nat.mod_eq_of_lt hfits]
    omega

/-- With a retry it always is. -/
theorem Valid.exact_of_retries (h : c.Valid) (hretries : 0 < c.maxRetries.toNat) : c.Exact := by
  have hbudget := h.two_mul_timeout_lt_of_retries hretries
  exact h.exact (by omega)

/-- Nothing computed from an accepted configuration wraps exactly when the timeout leaves room for
the 500 ms of the wall-clock bound. -/
theorem exact_iff_timeout_le (hcheck : c.check = none) :
    c.Exact ↔ c.timeoutMs.toNat ≤ 2147483397 := by
  have hvalid := valid_of_check hcheck
  have hbudget := hvalid.two_mul_timeout_lt
  constructor
  · intro h
    have hwall := h.wall
    rw [toNat_wallMs] at hwall
    omega
  · intro hle
    exact hvalid.exact (by omega)

/-- A timeout near the end of its range, without retries. -/
def longTimeout : ClientConfig where
  timeoutMs := 2147483547
  sessionTimeoutMs := 4294967295
  secureChannelLifeTimeMs := 4294967295
  maxTotalWaitMs := 4294967094
  maxRetries := 0

/-- It is accepted. -/
theorem check_longTimeout : longTimeout.check = none := by decide

/-- The default profile meets the condition. -/
theorem exact_iff_timeout_le_local :
    ((({} : ClientConfig).applyProfile .local).Exact ↔ 5000 ≤ 2147483397) ∧
      (longTimeout.Exact ↔ 2147483547 ≤ 2147483397) :=
  ⟨exact_iff_timeout_le (by decide), exact_iff_timeout_le check_longTimeout⟩

/-- The wall-clock bound of the long timeout wraps, and expires after 298 ms. -/
theorem not_exact_longTimeout :
    ¬(∀ c : ClientConfig, c.check = none → c.Exact) ∧ longTimeout.wallMs = 298 := by
  refine ⟨fun h => ?_, by decide⟩
  have hle := (h longTimeout check_longTimeout).timeout_le_wall
  revert hle
  decide

end ClientConfig

end OPCUAPacking
