import Tenure.Proofs.Lease.RecordText
import Tenure.Proofs.Store.Wire
import Tenure.Proofs.Store.Writing

/-!
# What one replica writes, every replica reads

All that passes between replicas passes through the store as text: records
under the key of the lease, and requests and answers on the way there and
back. Each of these texts stands for one value only, the one it was written
for (`Lock.reads_back`).

For records there is more to it than that the text is read back, since a
lock reads a text in two passes and takes only the layout it knows. It gives
the record that was stored if the record has that layout, and refuses the
text of every other one, whichever lock it was that stored it.
-/

namespace Tenure.Lease

open Store (Versioned ReadRequest ReadResult Command WriteRequest WriteResult nextVersion)

/-- What was swapped into the store is the current record of every lock on
the key. -/
theorem Lock.current_write_swap (l l' : Lock) {s : Store} {expected : Option UInt64} {r : Record}
    {a : WriteResult} (hkey : l'.key = l.key) (hschema : r.schema = schemaVersion)
    (h : (s.write (l.swapCommand expected r)).1 = .ok a) :
    l'.current ((s.write (l.swapCommand expected r)).2.read l'.key)
      = .ok (some (r, nextVersion expected)) := by
  have hread := Store.read_write_swap_of_ok h
  rw [hkey]
  show l'.current (Store.read _ l.key) = _
  rw [swapCommand, hread, l'.current_text hschema]

/-- **What one replica writes, every replica reads back unchanged**: the text
of every value is read as the value; the text that a lock stores for a record
of the known layout is decoded as the record, by every lock, and the text of
a record of another layout is refused as that; and a record that was swapped
in is the current one of every lock on the key. -/
theorem Lock.reads_back :
    (∀ r : Record, Record.read.parse (String.ofList r.json) = .ok r) ∧
    (∀ t : Term, Term.read.parse (String.ofList t.json) = .ok t) ∧
    (∀ v : Versioned, Versioned.read.parse (String.ofList v.json) = .ok v) ∧
    (∀ r : ReadRequest, ReadRequest.read.parse (String.ofList r.json) = .ok r) ∧
    (∀ r : ReadResult, ReadResult.read.parse (String.ofList r.json) = .ok r) ∧
    (∀ c : Command, Command.read.parse (String.ofList c.json) = .ok c) ∧
    (∀ r : WriteRequest, WriteRequest.read.parse (String.ofList r.json) = .ok r) ∧
    (∀ r : WriteResult, WriteResult.read.parse (String.ofList r.json) = .ok r) ∧
    (∀ (l l' : Lock) (expected : Option UInt64) (r : Record),
      (l.swapCommand expected r).value?.map l'.decode
        = some (if r.schema = schemaVersion then .ok r
            else .error (.unsupportedSchema l'.key r.schema schemaVersion))) ∧
    (∀ (l l' : Lock) (s : Store) (expected : Option UInt64) (r : Record) (a : WriteResult),
      l'.key = l.key → r.schema = schemaVersion →
      (s.write (l.swapCommand expected r)).1 = .ok a →
      l'.current ((s.write (l.swapCommand expected r)).2.read l'.key)
        = .ok (some (r, nextVersion expected))) := by
  refine ⟨fun r => r.written.parse, fun t => t.written.parse, fun v => v.written.parse,
    fun r => r.written.parse, fun r => r.written.parse, fun c => c.written.parse,
    fun r => r.written.parse, fun r => r.written.parse, ?_, ?_⟩
  · intro l l' expected r
    show some (l'.decode r.text) = _
    rw [l'.decode_text_eq]
  · intro l l' s expected r a hkey hschema h
    exact l.current_write_swap l' hkey hschema h

/-- The record that is swapped into an empty store is there for another
lock on the key. -/
theorem Lock.reads_back_swapped :
    ∃ (l : Lock) (r : Record) (a : WriteResult), r.schema = schemaVersion ∧
      (Store.empty.write (l.swapCommand none r)).1 = .ok a ∧
      l.current ((Store.empty.write (l.swapCommand none r)).2.read l.key) = .ok (some (r, 1)) := by
  obtain ⟨-, -, -, -, -, -, -, -, -, hswapped⟩ := Lock.reads_back
  have hwrite : (Store.empty.write ((Lock.of "ns" "lease" 15000).swapCommand none
      (.acquired "a\"\\\x01ü" 1 15000 0))).1 = .ok ⟨some 1⟩ := by
    decide +kernel
  exact ⟨_, _, _, rfl, hwrite, hswapped _ _ _ _ _ _ rfl rfl hwrite⟩

end Tenure.Lease
