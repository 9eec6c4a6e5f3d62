import Std.Time.DateTime.Timestamp
import Tenure.CommandLine.Demo

/-!
# The program

Runs the demonstration in real time: waits for each next moment, lets the
demonstration go on to it, and prints what it has said. What is done with
the arguments, and what happens when, is decided by `CommandLine.launch`
and `CommandLine.Demo`; only waiting, reading and printing is done here.
-/

namespace Tenure.CommandLine

/-- Milliseconds since the first of January 1970. -/
def wallClock : IO Nat := do
  let t ← Std.Time.Timestamp.now
  return t.toMillisecondsSinceUnixEpoch.val.toNat

/-- A number from zero to one. -/
def drawChance : IO Float := do
  return (← IO.rand 0 999999).toFloat / 1000000.0

/-- Reads a file as far as it can be read. -/
def fetch (path : String) : IO Config.Source := do
  try
    return .bytes (← IO.FS.readBinFile path)
  catch
    | .noFileOrDirectory _ _ _ => return .missing
    | .inappropriateType _ _ _ => return .directory
    | e => return .refused (toString e)

/-- The path that the arguments name for the configuration. -/
def configPath? (arguments : List String) : Option String :=
  match Request.ofArguments arguments with
  | .ok (.run a) => a.config
  | _ => none

/-- What the program finds around it. -/
def surroundings (arguments : List String) : IO Environment := do
  let values ← Config.variableNames.mapM fun name => return (name, ← IO.getEnv name)
  let source ← match configPath? arguments with
    | some path => fetch path
    | none => pure .missing
  let bytes ← IO.getRandomBytes 16
  return {
    lookup := fun name => (values.lookup name).join
    file := fun _ => source
    host := (← IO.getEnv "HOSTNAME").getD ""
    mark := markOf bytes.toList }

/-- Prints what has been said since the last time. -/
def printNew (f : LogFilter) (began printed : Nat) (d : Demo) : IO Unit := do
  let out ← IO.getStdout
  for (moment, n) in d.trial.log.toList.drop printed do
    if f.shows n then
      let margin := if n.level.name.length < 5 then "  " else " "
      out.putStrLn (timestamp (began + moment) ++ margin ++ n.line)
  out.flush

/-- Lets the demonstration go on in real time until it is over. -/
partial def live (f : LogFilter) (began start printed : Nat) (d : Demo) : IO Demo := do
  printNew f began printed d
  let printed := d.trial.log.size
  match d.nextMoment with
  | none => return d
  | some moment =>
    let elapsed := (← IO.monoMsNow) - start
    if elapsed < moment then IO.sleep (UInt32.ofNat (min (moment - elapsed) 1000))
    if (← IO.monoMsNow) - start < moment then live f began start printed d
    else
      let trial := { d.trial with chance := ← drawChance }
      live f began start printed ({ d with trial }.advance moment)

end Tenure.CommandLine

open Tenure.CommandLine in
/-- The program. -/
def main (arguments : List String) : IO UInt32 := do
  let filter := LogFilter.ofText (← IO.getEnv "RUST_LOG")
  match launch (← surroundings arguments) arguments with
  | .done output errors code =>
    output.forM IO.println
    errors.forM IO.eprintln
    return code
  | .run a c =>
    let began ← wallClock
    let d ← live filter began (← IO.monoMsNow) 0 (Demo.start a c (UInt64.ofNat began))
    let (code, errors) := d.outcome
    errors.forM IO.eprintln
    return code
