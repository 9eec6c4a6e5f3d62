import Tenure.Proofs.Json.RoundTrip
import Tenure.Store.Wire

/-!
# Requests and answers of the store are read back

Every request and answer is written for its reader, member by member in the
order of its fields. What has to be checked of each is only that no member
has the name of an earlier one.
-/

namespace Tenure.Store

open Json (Members Reader Written)

theorem Versioned.written (v : Versioned) : Written read v.json v := by
  refine Json.written_record _ (.map _ (x := (v.key, v.value, v.version)) ?_)
  refine .one_and "key" (Json.written_string _) ?_ (by simp [textMember, word64Member,
    Members.one, Members.and])
  exact .one_and "value" (Json.written_string _) (.one "version" (Json.written_word64 _))
    (by simp [word64Member, Members.one])

theorem ReadRequest.written (r : ReadRequest) : Written read r.json r :=
  Json.written_record _ (.map _ (.one "key" (Json.written_string r.key)))

theorem ReadResult.written (r : ReadResult) : Written read r.json r :=
  Json.written_record _ (.map _ (.one "kv"
    (Json.written_option (Json.refusesNull_record _ _) Versioned.written r.found)))

/-- A version is a number, and its absence is written as null. -/
theorem written_version (version : Option UInt64) :
    Written Reader.word64.option (versionJson version) version :=
  Json.written_option Json.refusesNull_word64 Json.written_word64 version

theorem Command.written (c : Command) : Written read c.json c := by
  cases c with
  | set key value =>
    refine Json.written_choice "Set" rfl (Json.written_record _ ?_)
    refine .map _ (x := (key, value)) ?_
    exact .one_and "key" (Json.written_string _) (.one "value" (Json.written_string _))
      (by simp [textMember, Members.one])
  | compareAndSwap key expected value =>
    refine Json.written_choice "CompareAndSwap" rfl (Json.written_record _ ?_)
    refine .map _ (x := (key, expected, value)) ?_
    refine .one_and "key" (Json.written_string _) ?_ (by simp [textMember, optionMember,
      Members.one, Members.and])
    exact .one_and "expected_version" (written_version _)
      (.one "new_value" (Json.written_string _)) (by simp [textMember, Members.one])
  | delete key =>
    refine Json.written_choice "Delete" rfl (Json.written_record _ ?_)
    exact .map _ (.one "key" (Json.written_string key))

theorem WriteRequest.written (r : WriteRequest) : Written read r.json r :=
  Json.written_record _ (.map _ (.one "command" (Command.written r.command)))

theorem WriteResult.written (r : WriteResult) : Written read r.json r :=
  Json.written_record _ (.map _ (.one "version" (written_version r.version)))

end Tenure.Store
