import Mathlib.Algebra.Group.Nat.Defs
import Mathlib.Data.Nat.Notation
import Mathlib.Tactic.Common

namespace S2c

structure S2cRetryOptions where
  maxDelaySeconds : UInt64
  baseDelayMs : UInt64
  maxAttempts : Option UInt32
  deriving DecidableEq

def S2cRetryOptions.toUnlimited (o : S2cRetryOptions) : S2cRetryOptions where
  maxDelaySeconds := o.maxDelaySeconds
  baseDelayMs := o.baseDelayMs
  maxAttempts := none

def S2cRetryOptions.default : S2cRetryOptions where
  maxDelaySeconds := 5
  baseDelayMs := 300
  maxAttempts := some 3

structure S2cOptions where
  flushIntervalMs : UInt64
  batchMinCount : UInt32
  maxMissedHeartbeats : UInt32
  maxBatchesPendingForApply : UInt32
  retry : S2cRetryOptions
  deriving DecidableEq

def S2cOptions.default : S2cOptions where
  flushIntervalMs := 2000
  batchMinCount := 100
  maxMissedHeartbeats := 10
  maxBatchesPendingForApply := 1000
  retry := S2cRetryOptions.default

end S2c
