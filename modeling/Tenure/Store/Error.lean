/-!
# What the store is asked, and how it refuses

The store keeps one text per key together with a version, and answers
reads and writes. A write may be conditional on the version. This module
has the requests, the answers and the refusals, each refusal with the
cause as data and its wording in one place (`Error.message`).
-/

namespace Tenure.Store

/-- A stored text with the version it has under its key. -/
structure Versioned where
  key : String
  value : String
  /-- Starts at 1 and grows by 1 with each write of the key. -/
  version : UInt64
  deriving DecidableEq, Repr, Inhabited

/-- A request to read one key. -/
structure ReadRequest where
  key : String
  deriving DecidableEq, Repr

/-- The answer to a read: the entry, if the store reports one. -/
structure ReadResult where
  found : Option Versioned
  deriving DecidableEq, Repr

/-- A change to one key. -/
inductive Command where
  /-- Write whatever is there. -/
  | set (key value : String)
  /-- Write only if the key has the expected version; `none` expects the
  key to be absent. -/
  | compareAndSwap (key : String) (expected : Option UInt64) (value : String)
  /-- Remove the key. -/
  | delete (key : String)
  deriving DecidableEq, Repr

namespace Command

/-- The key that a command changes. -/
def key : Command → String
  | set key _ => key
  | compareAndSwap key _ _ => key
  | delete key => key

/-- The text that a command would store. -/
def value? : Command → Option String
  | set _ value => some value
  | compareAndSwap _ _ value => some value
  | delete _ => none

end Command

/-- A request to change the store. -/
structure WriteRequest where
  command : Command
  deriving DecidableEq, Repr

/-- The answer to a write: the version that the key has now, `none` once
it is removed. -/
structure WriteResult where
  version : Option UInt64
  deriving DecidableEq, Repr

/-- Why the store refuses. -/
inductive Error where
  | notFound (key : String)
  /-- The swap expected another version; `actual` is the entry found. -/
  | swapFailed (key : String) (expected : Option UInt64) (actual : Option Versioned)
  | unavailable (reason : String)
  | timeout (durationMs : UInt64)
  | emptyKey
  | keyTooLarge (size max : UInt32)
  | valueTooLarge (size max : UInt32)
  deriving DecidableEq, Repr

/-- A version as the refusal of a swap shows it. -/
def showVersion : Option UInt64 → String
  | none => "None"
  | some version => "Some(" ++ toString version.toNat ++ ")"

/-- The wording of each refusal. -/
def Error.message : Error → String
  | notFound key => "key '" ++ key ++ "' not found"
  | swapFailed key expected actual =>
    "compare-and-swap failed for key '" ++ key ++ "': expected version " ++ showVersion expected
      ++ ", found " ++ showVersion (actual.map (·.version))
  | unavailable reason => "store unavailable: " ++ reason
  | timeout durationMs => "operation timed out after " ++ toString durationMs.toNat ++ "ms"
  | emptyKey => "key cannot be empty"
  | keyTooLarge size max =>
    "key size " ++ toString size.toNat ++ " exceeds maximum of " ++ toString max.toNat ++ " bytes"
  | valueTooLarge size max =>
    "value size " ++ toString size.toNat ++ " exceeds maximum of " ++ toString max.toNat
      ++ " bytes"

/-- What a reader of the store is told. -/
abbrev ReadAnswer := Except Error ReadResult

/-- What a writer of the store is told. -/
abbrev WriteAnswer := Except Error WriteResult

end Tenure.Store
