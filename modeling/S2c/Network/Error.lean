import Mathlib.Data.Nat.Notation

namespace S2c

inductive NetworkError where
  | io (kind msg : String)
  | messageTooLarge (max size : UInt32)
  | invalidProtobuf (err : String)
  deriving DecidableEq

inductive ClientError where
  | closed
  | io (err : NetworkError)
  | connectTimeout
  | notConnected
  | timeout
  deriving DecidableEq

end S2c
