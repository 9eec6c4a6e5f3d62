import Tenure.Decimal.Reading
import Tenure.Text.Terminal

/-!
# The arguments of the program

Options, each followed by a value in the same argument, behind an equals
sign, or in the next one. Arguments are read from the left and the first
thing that is wrong is reported.

An option whose value stands in the next argument stays **open** until
another option is met or the arguments end, and only then is its value
judged. So an argument that belongs to no option is reported before a wrong
value that stands right before it.
-/

namespace Tenure.CommandLine

open Decimal (NatError)

/-- What the arguments ask for. Settings that are not given are left to
other sources. -/
structure Arguments where
  config : Option String := none
  identity : Option String := none
  leaseName : Option String := none
  leaseNamespace : Option String := none
  leaseDuration : Option UInt64 := none
  renewInterval : Option UInt64 := none
  retryPeriod : Option UInt64 := none
  workerCount : Option UInt32 := none
  cacheSyncTimeout : Option UInt64 := none
  /-- How many replicas contend for the lease. -/
  replicas : UInt32 := 1
  /-- The caches that are given; none stands for one with the usual
  name. -/
  caches : List String := []
  /-- How long the caches take to fill. -/
  cacheSyncDelay : UInt64 := 200
  /-- From one new key to the next. -/
  workInterval : UInt64 := 1000
  deriving Repr

/-- Why a value does not fit its option. -/
inductive ValueError where
  | unreadable (e : NatError)
  /-- A negative number out of all range. -/
  | tooSmall
  | outOfRange (n : Int) (limit : Nat)
  /-- There has to be something. -/
  | empty

/-- The wording of each failure. -/
def ValueError.message : ValueError → String
  | unreadable e => e.message
  | tooSmall => "number too small to fit in target type"
  | outOfRange n limit => toString n ++ " is not in 0..=" ++ toString limit
  | empty => ""

/-- Why arguments are refused. Options are named as they are shown. -/
inductive ArgumentError where
  | unexpected (argument : String)
  | valueMissing (option : String)
  | invalidValue (value option : String) (cause : ValueError)
  | repeated (option : String)
  /-- A value for an option that takes none. -/
  | valueUnneeded (value option : String)

/-- The wording of each refusal. Of what was given only that is shown which
a terminal shows. -/
def ArgumentError.message : ArgumentError → String
  | unexpected argument => "unexpected argument '" ++ Text.bare argument ++ "' found"
  | valueMissing option =>
    "a value is required for '" ++ option ++ "' but none was supplied"
  | invalidValue value option cause =>
    "invalid value '" ++ Text.bare value ++ "' for '" ++ option ++ "': " ++ cause.message
  | repeated option =>
    "the argument '" ++ option ++ "' cannot be used multiple times"
  | valueUnneeded value option =>
    "unexpected value '" ++ Text.bare value ++ "' for '" ++ option
      ++ "' found; no more were expected"

/-- An option that takes a value. -/
structure ValueOption where
  name : String
  /-- What its value is called. -/
  valueName : String
  repeatable : Bool := false
  /-- Takes a value. -/
  set : Arguments → String → Except ValueError Arguments

namespace ValueOption

/-- The option as it is shown. -/
def shown (o : ValueOption) : String := "--" ++ o.name ++ " <" ++ o.valueName ++ ">"

/-- Reads a 64-bit number. -/
def word64 (s : String) : Except ValueError UInt64 :=
  match Decimal.readNat UInt64.size s with
  | .ok n => .ok (UInt64.ofNat n)
  | .error e => .error (.unreadable e)

/-- The largest 32-bit number. -/
def limit32 : Nat := UInt32.size - 1

/-- The number after the largest that a 64-bit number with a sign can
have. -/
def signedTop : Nat := 9223372036854775808

/-- Reads a 32-bit number. A number with a sign is read first and judged
afterwards. -/
def word32 (s : String) : Except ValueError UInt32 :=
  match s.toList with
  | '-' :: ds =>
    if ds.isEmpty || ds.head? = some '+' then .error (.unreadable .invalidDigit)
    else match Decimal.readNat (signedTop + 1) (String.ofList ds) with
      | .ok 0 => .ok 0
      | .ok n => .error (.outOfRange (-n) limit32)
      | .error .tooLarge => .error .tooSmall
      | .error e => .error (.unreadable e)
  | _ =>
    match Decimal.readNat signedTop s with
    | .ok n => if n ≤ limit32 then .ok (UInt32.ofNat n) else .error (.outOfRange n limit32)
    | .error e => .error (.unreadable e)

/-- All options that take a value. -/
def all : List ValueOption := [
  { name := "config", valueName := "CONFIG"
    set := fun a v => if v.isEmpty then .error .empty else .ok { a with config := some v } },
  { name := "identity", valueName := "IDENTITY"
    set := fun a v => .ok { a with identity := some v } },
  { name := "lease-name", valueName := "LEASE_NAME"
    set := fun a v => .ok { a with leaseName := some v } },
  { name := "lease-namespace", valueName := "LEASE_NAMESPACE"
    set := fun a v => .ok { a with leaseNamespace := some v } },
  { name := "lease-duration-ms", valueName := "LEASE_DURATION_MS"
    set := fun a v => return { a with leaseDuration := some (← word64 v) } },
  { name := "renew-interval-ms", valueName := "RENEW_INTERVAL_MS"
    set := fun a v => return { a with renewInterval := some (← word64 v) } },
  { name := "retry-period-ms", valueName := "RETRY_PERIOD_MS"
    set := fun a v => return { a with retryPeriod := some (← word64 v) } },
  { name := "worker-count", valueName := "WORKER_COUNT"
    set := fun a v => return { a with workerCount := some (← word32 v) } },
  { name := "cache-sync-timeout-ms", valueName := "CACHE_SYNC_TIMEOUT_MS"
    set := fun a v => return { a with cacheSyncTimeout := some (← word64 v) } },
  { name := "replicas", valueName := "REPLICAS"
    set := fun a v => return { a with replicas := ← word32 v } },
  { name := "cache", valueName := "CACHES", repeatable := true
    set := fun a v => .ok { a with caches := a.caches ++ [v] } },
  { name := "cache-sync-delay-ms", valueName := "CACHE_SYNC_DELAY_MS"
    set := fun a v => return { a with cacheSyncDelay := ← word64 v } },
  { name := "work-interval-ms", valueName := "WORK_INTERVAL_MS"
    set := fun a v => return { a with workInterval := ← word64 v } }]

end ValueOption

/-- The form of an argument. -/
inductive ArgumentForm where
  /-- Everything behind it is no option. -/
  | endOfOptions
  /-- An option by its name, with the value behind the equals sign. -/
  | long (name : String) (value : Option String)
  /-- An option by its letter. -/
  | short (letter : Char)
  | plain

/-- The form of an argument. A dash alone is a plain argument. -/
def ArgumentForm.of (argument : String) : ArgumentForm :=
  match argument.toList with
  | ['-', '-'] => .endOfOptions
  | '-' :: '-' :: cs =>
    let name := String.ofList (cs.takeWhile (· ≠ '='))
    match cs.dropWhile (· ≠ '=') with
    | [] => .long name none
    | _ :: value => .long name (some (String.ofList value))
  | '-' :: c :: _ => .short c
  | _ => .plain

/-- What the program is asked to do. -/
inductive Request where
  | run (a : Arguments)
  | version
  | help

/-- How far arguments have been read. -/
structure Progress where
  arguments : Arguments := {}
  /-- The names of the options that have their value. -/
  given : List String := []
  /-- The option that is open, with its value if that has come. -/
  pending : Option (ValueOption × Option String) := none

namespace Progress

/-- Gives an option its value. -/
def take (p : Progress) (o : ValueOption) (value : Option String) :
    Except ArgumentError Progress :=
  match value with
  | none => .error (.valueMissing o.shown)
  | some v =>
    if !o.repeatable && p.given.contains o.name then .error (.repeated o.shown)
    else match o.set p.arguments v with
      | .ok arguments => .ok { p with arguments, given := o.name :: p.given }
      | .error .empty => .error (.valueMissing o.shown)
      | .error cause => .error (.invalidValue v o.shown cause)

/-- Closes the option that is open. -/
def settle (p : Progress) : Except ArgumentError Progress :=
  match p.pending with
  | none => .ok p
  | some (o, value) => { p with pending := none }.take o value

/-- Reads on. -/
def read (p : Progress) : List String → Except ArgumentError Request
  | [] => return .run (← p.settle).arguments
  | argument :: rest =>
    match ArgumentForm.of argument with
    | .endOfOptions =>
      match rest with
      | [] => return .run (← p.settle).arguments
      | stray :: _ => .error (.unexpected stray)
    | .long name value =>
      match ValueOption.all.find? (·.name = name), value with
      | some o, some v => do read (← (← p.settle).take o (some v)) rest
      | some o, none => do read { ← p.settle with pending := some (o, none) } rest
      | none, value =>
        let answer : Option Request := match name with
          | "version" => some .version
          | "help" => some .help
          | _ => none
        match answer, value with
        | none, _ => .error (.unexpected ("--" ++ name))
        | some _, some v => .error (.valueUnneeded v ("--" ++ name))
        | some request, none => do
          let _ ← p.settle
          return request
    | .short letter =>
      let answer : Option Request := match letter with
        | 'V' => some .version
        | 'h' => some .help
        | _ => none
      match answer with
      | none => .error (.unexpected (String.ofList ['-', letter]))
      | some request => do
        let _ ← p.settle
        return request
    | .plain =>
      match p.pending with
      | some (o, none) => read { p with pending := some (o, some argument) } rest
      | _ => .error (.unexpected argument)

end Progress

/-- **What arguments ask for.** -/
def Request.ofArguments (arguments : List String) : Except ArgumentError Request :=
  Progress.read {} arguments

/-- The caches of each replica. -/
def Arguments.cacheNames (a : Arguments) : List String :=
  if a.caches.isEmpty then ["primary"] else a.caches

end Tenure.CommandLine
