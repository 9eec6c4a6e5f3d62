import Tenure.Json.Reader
import Tenure.Json.Writer
import Tenure.Store.Error

/-!
# Requests and answers as JSON

Each request and answer of the store has one JSON text, members in the
order of its fields, and a reader that also takes them in any other order.
A command is an object with one member named for the command.
-/

namespace Tenure.Store

open Json (Members Reader)

/-! ## Writing -/

def Versioned.json (v : Versioned) : List Char :=
  Json.object [("key", Json.string v.key), ("value", Json.string v.value),
    ("version", Json.natural v.version.toNat)]

def ReadRequest.json (r : ReadRequest) : List Char := Json.object [("key", Json.string r.key)]

def ReadResult.json (r : ReadResult) : List Char :=
  Json.object [("kv", Json.option Versioned.json r.found)]

/-- A version, or null. -/
def versionJson : Option UInt64 → List Char := Json.option fun v => Json.natural v.toNat

def Command.json : Command → List Char
  | set key value =>
    Json.object [("Set", Json.object [("key", Json.string key), ("value", Json.string value)])]
  | compareAndSwap key expected value =>
    Json.object [("CompareAndSwap", Json.object [("key", Json.string key),
      ("expected_version", versionJson expected), ("new_value", Json.string value)])]
  | delete key => Json.object [("Delete", Json.object [("key", Json.string key)])]

def WriteRequest.json (r : WriteRequest) : List Char := Json.object [("command", r.command.json)]

def WriteResult.json (r : WriteResult) : List Char :=
  Json.object [("version", versionJson r.version)]

/-! ## Reading -/

/-- A text member. -/
def textMember (name : String) : Members String := .one name Reader.text

/-- A member that is a 64-bit number. -/
def word64Member (name : String) : Members UInt64 := .one name Reader.word64

/-- A member that may be null, and is null where an object lacks it. -/
def optionMember {α : Type} (name : String) (read : Reader α) : Members (Option α) :=
  .one name read.option (some none)

def Versioned.read : Reader Versioned :=
  .record "struct KeyValueWithRevision" <|
    (textMember "key").and ((textMember "value").and (word64Member "version"))
      |>.map fun (key, value, version) => ⟨key, value, version⟩

def ReadRequest.read : Reader ReadRequest :=
  .record "struct ReadRequest" <| (textMember "key").map fun key => ⟨key⟩

def ReadResult.read : Reader ReadResult :=
  .record "struct ReadResult" <| (optionMember "kv" Versioned.read).map fun found => ⟨found⟩

def Command.read : Reader Command :=
  .choice [
    ("Set", .record "struct variant WriteCommand::Set" <|
      (textMember "key").and (textMember "value") |>.map fun (key, value) => .set key value),
    ("CompareAndSwap", .record "struct variant WriteCommand::CompareAndSwap" <|
      (textMember "key").and
          ((optionMember "expected_version" Reader.word64).and (textMember "new_value"))
        |>.map fun (key, expected, value) => .compareAndSwap key expected value),
    ("Delete", .record "struct variant WriteCommand::Delete" <|
      (textMember "key").map fun key => .delete key)]

def WriteRequest.read : Reader WriteRequest :=
  .record "struct WriteRequest" <|
    (Members.one "command" Command.read).map fun command => ⟨command⟩

def WriteResult.read : Reader WriteResult :=
  .record "struct WriteResult" <|
    (optionMember "version" Reader.word64).map fun version => ⟨version⟩

end Tenure.Store
