import Tenure.Config.Basic
import Tenure.Decimal.Reading
import Tenure.Json.Reader
import Tenure.Toml.Parser

/-!
# Where settings come from

Settings are read from variables of the environment, from a TOML file and
from JSON. A variable that is not set or does not parse leaves the default;
a file is taken as a whole or refused. All formats use the same names for
the settings.
-/

namespace Tenure.Config

/-! ## Variables -/

/-- What the names of all variables begin with. -/
def variablePrefix : String := "ASPEN_SINGLETON_"

/-- The names of all variables. -/
def variableNames : List String :=
  ["IDENTITY", "LEASE_NAME", "LEASE_NAMESPACE", "LEASE_DURATION_MS", "RENEW_INTERVAL_MS",
    "RETRY_PERIOD_MS", "JITTER_FACTOR", "MAX_BACKOFF_MS", "WORKER_COUNT",
    "CACHE_SYNC_TIMEOUT_MS", "REQUEUE_DELAY_MS"].map (variablePrefix ++ ·)

/-- A whole number below a bound, blanks around it allowed. -/
def readWhole (bound : Nat) (s : String) : Option Nat :=
  (Decimal.readNat bound (Text.trim s)).toOption

/-- **The configuration that variables give.** -/
def fromLookup (lookup : String → Option String) : Config :=
  let get (name : String) : Option String := lookup (variablePrefix ++ name)
  let word (name : String) (standard : UInt64) : UInt64 :=
    (((get name).bind (readWhole UInt64.size)).map UInt64.ofNat).getD standard
  { identity := (get "IDENTITY").getD default.identity
    leaseName := (get "LEASE_NAME").getD default.leaseName
    leaseNamespace := (get "LEASE_NAMESPACE").getD default.leaseNamespace
    leaseDuration := word "LEASE_DURATION_MS" default.leaseDuration
    renewInterval := word "RENEW_INTERVAL_MS" default.renewInterval
    retryPeriod := word "RETRY_PERIOD_MS" default.retryPeriod
    jitterFactor :=
      ((get "JITTER_FACTOR").bind fun s => Decimal.readFloat (Text.trim s)).getD
        default.jitterFactor
    maxBackoff := word "MAX_BACKOFF_MS" default.maxBackoff
    workerCount :=
      (((get "WORKER_COUNT").bind (readWhole UInt32.size)).map UInt32.ofNat).getD
        default.workerCount
    cacheSyncTimeout := word "CACHE_SYNC_TIMEOUT_MS" default.cacheSyncTimeout
    requeueDelay := word "REQUEUE_DELAY_MS" default.requeueDelay }

/-! ## TOML -/

/-- What an item is called where another one was expected. -/
def found : Toml.Item → Found
  | .text s => .text s
  | .integer n => .integer n
  | .fraction x => .fraction (Decimal.pointed x)
  | .boolean b => .boolean b
  | .moment => .table
  | .array _ => .sequence
  | .table _ _ => .table
  | .tables _ => .sequence

def textOf : Toml.Item → Except Mismatch String
  | .text s => .ok s
  | item => .error (.wrongType (found item) "a string")

def wholeOf (bound : Nat) (expected : String) : Toml.Item → Except Mismatch Nat
  | .integer n =>
    if 0 ≤ n ∧ n < bound then .ok n.toNat else .error (.outOfRange (.integer n) expected)
  | item => .error (.wrongType (found item) expected)

def word64Of (item : Toml.Item) : Except Mismatch UInt64 :=
  (wholeOf UInt64.size "u64" item).map UInt64.ofNat

def word32Of (item : Toml.Item) : Except Mismatch UInt32 :=
  (wholeOf UInt32.size "u32" item).map UInt32.ofNat

/-- The double nearest to a whole number. -/
def floatOfInt (n : Int) : Float :=
  if n < 0 then -(n.natAbs.toUInt64.toFloat) else n.natAbs.toUInt64.toFloat

def floatOf : Toml.Item → Except Mismatch Float
  | .fraction x => .ok x
  | .integer n => .ok (floatOfInt n)
  | item => .error (.wrongType (found item) "f64")

/-- One item of a file over the settings so far; other names are ignored. -/
def setting (c : Config) (name : String) (item : Toml.Item) : Except Mismatch Config :=
  match name with
  | "identity" => return { c with identity := ← textOf item }
  | "lease_name" => return { c with leaseName := ← textOf item }
  | "lease_namespace" => return { c with leaseNamespace := ← textOf item }
  | "lease_duration_ms" => return { c with leaseDuration := ← word64Of item }
  | "renew_interval_ms" => return { c with renewInterval := ← word64Of item }
  | "retry_period_ms" => return { c with retryPeriod := ← word64Of item }
  | "jitter_factor" => return { c with jitterFactor := ← floatOf item }
  | "max_backoff_ms" => return { c with maxBackoff := ← word64Of item }
  | "worker_count" => return { c with workerCount := ← word32Of item }
  | "cache_sync_timeout_ms" => return { c with cacheSyncTimeout := ← word64Of item }
  | "requeue_delay_ms" => return { c with requeueDelay := ← word64Of item }
  | _ => return c

/-- What a file holds as far as it can be known: it may be missing. -/
inductive Source where
  | text (content : String)
  | bytes (content : ByteArray)
  | missing
  | directory
  /-- Something else keeps it from being read. -/
  | refused (reason : String)

/-- Why a file could not be read. -/
def Source.content : Source → Except String String
  | text content => .ok content
  | bytes content =>
    match String.fromUTF8? content with
    | some decoded => .ok decoded
    | none => .error "stream did not contain valid UTF-8"
  | missing => .error "No such file or directory (os error 2)"
  | directory => .error "Is a directory (os error 21)"
  | refused reason => .error reason

/-- **The configuration of a TOML text.** -/
def ofToml (text : String) : Except Json.Error Config :=
  match Toml.parse text with
  | none => .error .malformed
  | some members =>
    match members.foldlM (fun c (name, item) => setting c name item) default with
    | .ok c => .ok c
    | .error m => .error (.mismatch m)

/-- **The configuration of a file.** -/
def fromFile (path : String) (source : Source) : Except Error Config :=
  match source.content with
  | .error reason => .error (.unreadable path reason)
  | .ok text =>
    match ofToml text with
    | .error e => .error (.malformedToml path e.message)
    | .ok c => .ok c

/-! ## JSON -/

open Json (Members Reader)

/-- A member that has its default where it is absent. -/
def member {α : Type} (name : String) (read : Reader α) (standard : α) : Members α :=
  .one name read (some standard) (some standard)

def readJson : Reader Config :=
  .record "struct SingletonConfig" <|
    (member "identity" Reader.text default.identity).and
      ((member "lease_name" Reader.text default.leaseName).and
        ((member "lease_namespace" Reader.text default.leaseNamespace).and
          ((member "lease_duration_ms" Reader.word64 default.leaseDuration).and
            ((member "renew_interval_ms" Reader.word64 default.renewInterval).and
              ((member "retry_period_ms" Reader.word64 default.retryPeriod).and
                ((member "jitter_factor" Reader.float default.jitterFactor).and
                  ((member "max_backoff_ms" Reader.word64 default.maxBackoff).and
                    ((member "worker_count" Reader.word32 default.workerCount).and
                      ((member "cache_sync_timeout_ms" Reader.word64
                          default.cacheSyncTimeout).and
                        (member "requeue_delay_ms" Reader.word64 default.requeueDelay))))))))))
      |>.map fun (identity, leaseName, leaseNamespace, leaseDuration, renewInterval, retryPeriod,
          jitterFactor, maxBackoff, workerCount, cacheSyncTimeout, requeueDelay) =>
        ⟨identity, leaseName, leaseNamespace, leaseDuration, renewInterval, retryPeriod,
          jitterFactor, maxBackoff, workerCount, cacheSyncTimeout, requeueDelay⟩

end Tenure.Config
