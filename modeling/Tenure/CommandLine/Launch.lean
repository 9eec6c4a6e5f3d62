import Tenure.CommandLine.Arguments
import Tenure.Config.Layers
import Tenure.Coordinator

/-!
# From arguments to a run

The program's configuration is laid over the defaults in three layers, the
environment, a file and the arguments, each over the one before. It gets an
identity if it has none, and is then judged. What is wrong with it is
reported with what caused it.
-/

namespace Tenure.CommandLine

/-- The name of the program. -/
def programName : String := "aspen-singleton"

/-- What the program finds around it. -/
structure Environment where
  /-- The variables. -/
  lookup : String → Option String
  file : String → Config.Source
  host : String
  /-- A mark that nobody else has. -/
  mark : String

/-- A mark made from sixteen random bytes, written in five groups of
hexadecimal digits. Six of its bits say how it was made. -/
def markOf (bytes : List UInt8) : String :=
  let marked := bytes.zipIdx.map fun (b, i) =>
    if i = 6 then b % 16 + 0x40 else if i = 8 then b % 64 + 0x80 else b
  let digits := marked.flatMap fun b => [b.toNat / 16, b.toNat % 16].map Nat.digitChar
  let group (start length : Nat) : String := String.ofList ((digits.drop start).take length)
  "-".intercalate [group 0 8, group 8 4, group 12 4, group 16 4, group 20 12]

/-- A failure with its causes, the nearest first. -/
structure Failure where
  summary : String
  causes : List String := []

/-- The report of a failure. -/
def Failure.lines (f : Failure) : List String :=
  ("Error: " ++ f.summary) :: match f.causes with
    | [] => []
    | [cause] => ["", "Caused by:", "    " ++ cause]
    | causes =>
      "" :: "Caused by:" :: causes.zipIdx.map fun (cause, i) =>
        "    " ++ toString i ++ ": " ++ cause

/-- The causes of a configuration's failure. -/
def causesOf : Config.Error → List String
  | .unreadable path reason => [(Config.Error.unreadable path reason).message, reason]
  | .malformedToml path reason =>
    let problem := "TOML parse error: " ++ reason
    [(Config.Error.malformedToml path problem).message, problem]
  | e => [e.message]

/-- The settings that the arguments give, as a layer. -/
def Arguments.layer (a : Arguments) : Config :=
  let d := Config.default
  { d with
    identity := a.identity.getD d.identity
    leaseName := a.leaseName.getD d.leaseName
    leaseNamespace := a.leaseNamespace.getD d.leaseNamespace
    leaseDuration := a.leaseDuration.getD d.leaseDuration
    renewInterval := a.renewInterval.getD d.renewInterval
    retryPeriod := a.retryPeriod.getD d.retryPeriod
    workerCount := a.workerCount.getD d.workerCount
    cacheSyncTimeout := a.cacheSyncTimeout.getD d.cacheSyncTimeout }

/-- **The settings of a run**: environment, file and arguments, each layer
over the one before. -/
def layered (e : Environment) (a : Arguments) : Except Failure Config :=
  let lower := Config.fromLookup e.lookup
  match a.config with
  | none => .ok (lower.merge a.layer)
  | some path =>
    match Config.fromFile path (e.file path) with
    | .ok file => .ok ((lower.merge file).merge a.layer)
    | .error cause => .error ⟨"failed to load config from " ++ path, causesOf cause⟩

/-- **The configuration of a run**: its settings, with an identity, if
nothing is wrong with them. -/
def configure (e : Environment) (a : Arguments) : Except Failure Config := do
  let config := (← layered e a).withIdentity e.host e.mark
  match config.validate with
  | .ok () => return config
  | .error cause => throw ⟨"invalid configuration", causesOf cause⟩

/-- What the program does with its arguments. -/
inductive Launch where
  /-- It is done: what it says, on which channel, and its exit code. -/
  | done (output errors : List String) (code : UInt32)
  | run (a : Arguments) (c : Config)

/-- The options, one a line. -/
def helpLines : List String :=
  ("Usage: " ++ programName ++ " [OPTIONS]") :: "" :: "Options:" ::
    (ValueOption.all.map fun o => "      " ++ o.shown) ++ ["  -h, --help", "  -V, --version"]

/-- **What the program does with its arguments.** -/
def launch (e : Environment) (arguments : List String) : Launch :=
  match Request.ofArguments arguments with
  | .error refusal => .done [] ["error: " ++ refusal.message] 2
  | .ok .version => .done [programName ++ " " ++ Coordinator.version] [] 0
  | .ok .help => .done helpLines [] 0
  | .ok (.run a) =>
    match configure e a with
    | .error failure => .done [] failure.lines 1
    | .ok c => .run a c

end Tenure.CommandLine
