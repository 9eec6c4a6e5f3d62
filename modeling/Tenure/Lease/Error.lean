import Tenure.Store.Error

/-!
# Failures of lease calls

That another replica holds the lease is an answer and not a failure. What
is listed here means that the stored record could not be read or written
with certainty.
-/

namespace Tenure.Lease

/-- Why a lease call failed. -/
inductive Error where
  /-- The store refused. -/
  | storage (key : String) (cause : Store.Error)
  /-- The record could not be written as text. -/
  | serialization (reason : String)
  /-- The stored text is no lease record. -/
  | corruptedRecord (key reason : String)
  /-- The call took longer than it was given. -/
  | timeout (key : String) (limitMs : UInt64)
  /-- The record has a layout of another version. -/
  | unsupportedSchema (key : String) (found expected : UInt32)
  deriving DecidableEq, Repr

/-- The wording of each failure. -/
def Error.message : Error → String
  | storage key cause => "storage error on lease '" ++ key ++ "': " ++ cause.message
  | serialization reason => "failed to encode lease record: " ++ reason
  | corruptedRecord key reason => "corrupted lease record in key '" ++ key ++ "': " ++ reason
  | timeout key limitMs =>
    "lease '" ++ key ++ "' call timed out after " ++ toString limitMs.toNat ++ "ms"
  | unsupportedSchema key found expected =>
    "lease '" ++ key ++ "' has schema version " ++ toString found.toNat
      ++ ", this replica understands " ++ toString expected.toNat

end Tenure.Lease
