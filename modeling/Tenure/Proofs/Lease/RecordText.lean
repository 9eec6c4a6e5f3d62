import Tenure.Lease.Lock
import Tenure.Proofs.Json.RoundTrip

/-!
# A stored record is read back

The text of a record is written for both passes over it: for the one that
looks for the version of the layout, which skips all other members, and for
the one that reads the record. So a lock decodes what a lock has stored
(`Lock.decode_text`), and everything that is said of stored records can be
said of records rather than of texts.
-/

namespace Tenure

open Json (Written)

theorem Term.written (t : Term) : Written read t.json t :=
  (Json.written_word64 t.value).map Term.mk

namespace Lease

open Json (Members)

namespace Record

theorem written (r : Record) : Written read r.json r := by
  refine Json.written_record _ (.map _ (x := (r.schema, r.holder, r.term, r.acquiredAt,
    r.renewedAt, r.duration, r.deadline)) ?_)
  refine .one_and "schema_version" (Json.written_word32 _) ?_
    (by simp [Store.textMember, Store.word64Member, Members.one, Members.and])
  refine .one_and "holder_identity" (Json.written_string _) ?_
    (by simp [Store.word64Member, Members.one, Members.and])
  refine .one_and "term" (Json.written_word64 _) ?_
    (by simp [Store.word64Member, Members.one, Members.and])
  refine .one_and "acquired_at_ms" (Json.written_word64 _) ?_
    (by simp [Store.word64Member, Members.one, Members.and])
  refine .one_and "renewed_at_ms" (Json.written_word64 _) ?_
    (by simp [Store.word64Member, Members.one, Members.and])
  exact .one_and "lease_duration_ms" (Json.written_word64 _)
    (.one "deadline_ms" (Json.written_word64 _))
    (by simp [Store.word64Member, Members.one])

/-- The version of the layout is read from the text of a record, whatever
its other members are. -/
theorem written_schema (r : Record) : Written readSchema r.json r.schema := by
  refine Json.written_record _ (.one_among _ (Json.written_word32 r.schema) ?_ ?_)
  · simp
  · simp [Json.written_skip_string, Json.written_skip_natural]

end Record

/-- **What a lock makes of the text of a record**: the record, if its layout
is the known one. -/
theorem Lock.decode_text_eq (l : Lock) (r : Record) :
    l.decode r.text = if r.schema = schemaVersion then .ok r
      else .error (.unsupportedSchema l.key r.schema schemaVersion) := by
  have hschema : Record.readSchema.parse r.text = .ok r.schema := r.written_schema.parse
  have hrecord : Record.read.parse r.text = .ok r := r.written.parse
  rw [Lock.decode, hschema, hrecord]
  by_cases h : r.schema = schemaVersion <;> simp [h]

/-- **A lock reads what a lock has stored.** -/
theorem Lock.decode_text (l : Lock) {r : Record} (h : r.schema = schemaVersion) :
    l.decode r.text = .ok r := by
  rw [Lock.decode_text_eq, if_pos h]

/-- So it is what the lock finds when the store answers with that text. -/
theorem Lock.current_text (l : Lock) {r : Record} (h : r.schema = schemaVersion) (key : String)
    (version : UInt64) :
    l.current (.ok ⟨some ⟨key, r.text, version⟩⟩) = .ok (some (r, version)) := by
  rw [Lock.current, l.decode_text h]
  rfl

end Lease

end Tenure
