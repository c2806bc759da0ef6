import SolstoneWindows.ObserverModel

/-!
# Backoff with a circuit breaker

`crates/observer-lifecycle/src/lib.rs`. A `Duration` is its number of nanoseconds.
-/

set_option autoImplicit false

namespace SolstoneWindows.ObserverLifecycle

open ObserverModel

/-- `Duration::from_secs`. -/
def fromSecs (secs : Nat) : Nat := secs * 1000000000

/-- `Duration::as_secs`. -/
def asSecs (duration : Nat) : Nat := duration / 1000000000

/-- `Duration::MAX`. -/
def DURATION_MAX : Nat := (2 ^ 64 - 1) * 1000000000 + 999999999

/-- Tuning for the backoff and the breaker. -/
structure BackoffConfig where
  initial : Nat := fromSecs 1
  max : Nat := fromSecs 60
  multiplier : Nat := 2
  /-- Consecutive failures that open the breaker. -/
  breakerThreshold : Nat := 5
  deriving DecidableEq

/-- The breaker's position. -/
inductive BreakerState where
  /-- Retries permitted; backoff applies. -/
  | closed
  /-- Too many consecutive failures. -/
  | opened
  deriving DecidableEq

/-- What the engine should do after the latest fault. -/
inductive RetryDecision where
  | retryAfter (delay : Nat)
  | giveUp
  deriving DecidableEq

/-- Backoff and breaker of one restartable source. -/
structure Lifecycle where
  config : BackoffConfig
  consecutiveFailures : Nat := 0
  breaker : BreakerState := .closed
  deriving DecidableEq

/-- `u32::saturating_pow`. -/
def saturatingPow (base exp : Nat) : Nat := min (base ^ exp) (2 ^ 32 - 1)

/-- The delay for the current number of failures, capped. -/
def Lifecycle.currentBackoff (lifecycle : Lifecycle) : Nat :=
  let exp := lifecycle.consecutiveFailures - 1
  let factor := saturatingPow lifecycle.config.multiplier exp
  let scaled := min (lifecycle.config.initial * max factor 1) DURATION_MAX
  if scaled > lifecycle.config.max then lifecycle.config.max else scaled

/-- A (re)start went through. -/
def Lifecycle.onSuccess (lifecycle : Lifecycle) : Lifecycle :=
  { lifecycle with consecutiveFailures := 0, breaker := .closed }

/-- A fault: count it, and decide on a retry. -/
def Lifecycle.onFailure (lifecycle : Lifecycle) : RetryDecision × Lifecycle :=
  let failed := { lifecycle with
    consecutiveFailures := min (lifecycle.consecutiveFailures + 1) (2 ^ 32 - 1) }
  if failed.consecutiveFailures ≥ failed.config.breakerThreshold then
    (.giveUp, { failed with breaker := .opened })
  else (.retryAfter failed.currentBackoff, failed)

end SolstoneWindows.ObserverLifecycle
