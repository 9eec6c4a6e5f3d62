import Tenure.Lease.Record
import Tenure.Store.Wire

/-!
# Lease records as JSON

The text that is stored for a lease. All replicas read what one of them
writes, also replicas of an earlier or later make, so the version of the
layout is read first and on its own (`Record.readSchema`): a record of
another version need not have the members of this one.
-/

namespace Tenure

open Json (Reader Members)

def Term.json (t : Term) : List Char := Json.natural t.value.toNat

def Term.read : Reader Term := return ⟨← Reader.word64⟩

namespace Lease.Record

/-- The members of a record in their order. -/
def json (r : Record) : List Char :=
  Json.object [
    ("schema_version", Json.natural r.schema.toNat),
    ("holder_identity", Json.string r.holder),
    ("term", Json.natural r.term.toNat),
    ("acquired_at_ms", Json.natural r.acquiredAt.toNat),
    ("renewed_at_ms", Json.natural r.renewedAt.toNat),
    ("lease_duration_ms", Json.natural r.duration.toNat),
    ("deadline_ms", Json.natural r.deadline.toNat)]

/-- **The text that is stored.** -/
def text (r : Record) : String := String.ofList r.json

def read : Reader Record :=
  .record "struct LeaseRecord" <|
    (Members.one "schema_version" Reader.word32).and
      ((Store.textMember "holder_identity").and
        ((Store.word64Member "term").and
          ((Store.word64Member "acquired_at_ms").and
            ((Store.word64Member "renewed_at_ms").and
              ((Store.word64Member "lease_duration_ms").and
                (Store.word64Member "deadline_ms"))))))
      |>.map fun (schema, holder, term, acquiredAt, renewedAt, duration, deadline) =>
        ⟨schema, holder, term, acquiredAt, renewedAt, duration, deadline⟩

/-- Reads nothing but the version of the layout. -/
def readSchema : Reader UInt32 :=
  .record "struct SchemaHeader" <| Members.one "schema_version" Reader.word32

end Lease.Record

end Tenure
