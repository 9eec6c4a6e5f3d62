import Tenure.Proofs.Lease.Decision

/-!
# A record of another layout is left alone

Replicas of different makes share one lease, so a replica may find a record
whose layout it does not know. All makes agree on one thing only: the record
is an object with one member `schema_version`, a whole number, whatever else
there is in it (`HasLayout`). That is what the first pass of a lock over the
text looks for, and it finds the number in exactly these texts
(`parse_readSchema_iff`), apart from the array of one such number, which is
the other way to write a record of one member.

A lock does nothing to an entry that it cannot read. It tells a record of
another layout from a text that is no record at all, and refuses both before
it has decided on a write (`Lock.gates_layout`).
-/

namespace Tenure.Lease

open Json (Token Member Members Reader Lexes IsValue objectTokens arrayTokens wholeNumeral)

/-- Whether a value is this whole number: written without sign, fraction and
exponent. -/
def IsWord32 (value : List Token) (n : UInt32) : Prop :=
  ∃ digits, value = [.number (wholeNumeral digits)] ∧ Decimal.ofDigits digits 0 = n.toNat

/-- **Whether a text is a record of the layout `n`**, as far as all makes
agree on it: an object in which exactly one member has the name
`schema_version`, and its value is `n`. Nothing is asked of the other
members but that their names are names and their values are values. -/
inductive HasLayout (text : String) (n : UInt32) : Prop
  | object {before after : List Member} {v : Member}
    (htext : Lexes text.toList (objectTokens (before ++ v :: after)))
    (hname : v.IsNamed "schema_version") (hversion : IsWord32 v.2 n)
    (hothers : ∀ u ∈ before ++ after,
      (∃ other, u.IsNamed other ∧ other ≠ "schema_version") ∧ IsValue u.2)
  | array {value : List Token} (htext : Lexes text.toList (arrayTokens [value]))
    (hversion : IsWord32 value n)

theorem IsWord32.reads {value : List Token} {n : UInt32} (h : IsWord32 value n) :
    Json.Reads Reader.word32 value n := by
  obtain ⟨digits, rfl, hdigits⟩ := h
  exact Json.reads_word32 hdigits

/-- Only whole numbers are read as one. -/
theorem isWord32_of_reads {value : List Token} {n : UInt32}
    (h : Json.Reads Reader.word32 value n) : IsWord32 value n := by
  have hrun := h []
  rw [List.append_nil] at hrun
  obtain ⟨digits, rfl, hdigits⟩ := Json.of_run_word32 hrun
  exact ⟨digits, rfl, hdigits⟩

/-- A whole text is one value if its tokens are one. -/
theorem lexes_of_tokens {text : String} {v : List Token} (h : Json.tokens text = v)
    (hv : IsValue v) : Lexes text.toList v :=
  Json.lexes_iff.2 ⟨h, hv.bad_notMem⟩

namespace Record

/-- **Which layout the first pass finds**: that of the text, if it has
one. -/
theorem parse_readSchema_iff {text : String} {n : UInt32} :
    readSchema.parse text = .ok n ↔ HasLayout text n := by
  rw [Json.parse_eq_ok_iff]
  constructor
  · intro h
    obtain ⟨ts, htokens | htokens⟩ := Json.exists_cons_of_run_record h
    · rw [htokens] at h
      obtain ⟨values, hts, hvalues, hfilled⟩ :=
        Json.of_run_record (Members.sound_one Json.sound_word32) h
      rw [List.append_nil] at hts
      obtain ⟨before, v, after, rfl, hname, hreads, hothers⟩ := Members.filled_one_iff.1 hfilled
      exact .object (lexes_of_tokens (htokens.trans hts) (.object hvalues)) hname
        (isWord32_of_reads hreads) hothers
    · rw [htokens] at h
      obtain ⟨v, hts, hv, hreads⟩ := Json.of_run_record_one_array Json.sound_word32 h
      rw [List.append_nil] at hts
      have hvalue : IsValue (arrayTokens [v]) := .array (by simpa using hv)
      exact .array (lexes_of_tokens (htokens.trans hts) hvalue) (isWord32_of_reads hreads)
  · intro h
    cases h with
    | object htext hname hversion hothers =>
      have hfilled : (Members.one "schema_version" Reader.word32).Filled _ n :=
        Members.filled_one_iff.2 ⟨_, _, _, rfl, hname, hversion.reads, hothers⟩
      have hrun := Json.reads_record "struct SchemaHeader" hfilled []
      rw [List.append_nil] at hrun
      rw [(Json.lexes_iff.1 htext).1]
      exact hrun
    | @array value htext hversion =>
      have hvalue : IsValue value := by
        obtain ⟨digits, rfl, -⟩ := hversion
        exact .number _
      have hrun := Json.reads_record_one_array "struct SchemaHeader" "schema_version" hvalue
        hversion.reads []
      rw [List.append_nil] at hrun
      rw [(Json.lexes_iff.1 htext).1]
      exact hrun

/-- What is read for a record is always a value. -/
theorem sound_members : (Members.one "schema_version" Reader.word32).and
      ((Store.textMember "holder_identity").and
        ((Store.word64Member "term").and
          ((Store.word64Member "acquired_at_ms").and
            ((Store.word64Member "renewed_at_ms").and
              ((Store.word64Member "lease_duration_ms").and
                (Store.word64Member "deadline_ms")))))) |>.Sound := by
  have hword : ∀ name, (Store.word64Member name).Sound := fun name =>
    Members.sound_one Json.sound_word64
  have htext : (Store.textMember "holder_identity").Sound := Members.sound_one Json.sound_text
  exact Members.sound_and (Members.sound_one Json.sound_word32) (Members.sound_and htext
    (Members.sound_and (hword _) (Members.sound_and (hword _) (Members.sound_and (hword _)
      (Members.sound_and (hword _) (hword _))))))

/-- An array of one number is no record: it ends before the holder. -/
theorem read_array_one {value : List Token} {n : UInt32} (h : IsWord32 value n) {r : Record} :
    read.run (arrayTokens [value]) ≠ .ok (r, []) := by
  obtain ⟨digits, rfl, hdigits⟩ := h
  intro hrun
  obtain ⟨_, _, hpeek, hrun⟩ := Reader.of_bind hrun
  cases hpeek
  obtain ⟨_, _, hskip, hrun⟩ := Reader.of_bind hrun
  cases hskip
  obtain ⟨draft, after, horder, hend⟩ := Reader.of_bind hrun
  obtain ⟨first, after', hfirst, hothers⟩ := Reader.of_bind horder
  obtain ⟨_, _, hnext, hread⟩ := Reader.of_bind hfirst
  cases hnext
  obtain ⟨_, _, hword, hpure⟩ := Reader.of_bind hread
  cases hpure
  cases (Json.reads_word32 hdigits [.closeBracket]).symm.trans hword
  cases hothers
  cases hend

/-- **Both passes find the same layout**: a text that is read as a record at
all has the layout of the record. -/
theorem schema_of_parse {text : String} {r : Record} {n : UInt32}
    (h : read.parse text = .ok r) (hschema : readSchema.parse text = .ok n) : r.schema = n := by
  have hlayout := parse_readSchema_iff.1 hschema
  rw [Json.parse_eq_ok_iff] at h hschema
  cases hlayout with
  | array htext hversion =>
    rw [(Json.lexes_iff.1 htext).1] at h
    exact absurd h (read_array_one hversion)
  | object htext =>
    rw [(Json.lexes_iff.1 htext).1] at h hschema
    obtain ⟨values, hts, hvalues, hfilled⟩ :=
      Json.of_run_record (Members.sound_map _ sound_members) h
    obtain ⟨⟨schema, rest⟩, rfl, hboth⟩ := (Members.filled_map_iff _).1 hfilled
    have hrun := Json.reads_record "struct SchemaHeader" (hboth.left hvalues) []
    rw [← hts] at hrun
    have hsame := hschema.symm.trans hrun
    cases hsame
    rfl

end Record

/-- **Whether a lock refuses an entry with this error**: when it reads it,
and in each of its operations, which then decide on no write. -/
structure Lock.Refuses (l : Lock) (entry : Store.Versioned) (e : Error) : Prop where
  current : l.current (.ok ⟨some entry⟩) = .error e
  onRead : ∀ (identity : String) (request : Request) (now : UInt64),
    ((l.serve identity request).onRead now (.ok ⟨some entry⟩)).1 = .done (.error e)

theorem Lock.refuses_of_decode {l : Lock} {entry : Store.Versioned} {e : Error}
    (h : l.decode entry.value = .error e) : l.Refuses entry e := by
  have hcurrent : l.current (.ok ⟨some entry⟩) = .error e := by
    rw [Lock.current, h]
    rfl
  refine ⟨hcurrent, fun identity request now => ?_⟩
  cases request with
  | acquire => simp [Lock.serve, Operation.map, Lock.acquire, hcurrent, Except.map]
  | renew term => simp [Lock.serve, Operation.map, Lock.renew, hcurrent, Except.map]
  | release term => simp [Lock.serve, Operation.map, Lock.release, hcurrent, Except.map]

/-- What is refused is left in the store as it is. -/
theorem Lock.Refuses.perform {l : Lock} {entry : Store.Versioned} {e : Error}
    (h : l.Refuses entry e) {s : Store} (hread : s.read l.key = .ok ⟨some entry⟩)
    (identity : String) (request : Request) (now : UInt64) :
    (l.serve identity request).perform l now s = (.error e, s) := by
  rw [Operation.perform, hread, h.onRead identity request now]

/-- **The schema gate.** An entry of another layout is refused as that,
whatever else is in it, and an entry that has no layout and is no record of
the known one is refused as corrupted: by the read and by every operation,
for every identity, term and time, and nothing is written. -/
theorem Lock.gates_layout (l : Lock) (entry : Store.Versioned) :
    (∀ n, HasLayout entry.value n → n ≠ schemaVersion →
      l.Refuses entry (.unsupportedSchema l.key n schemaVersion)) ∧
    ((∀ n, HasLayout entry.value n → n = schemaVersion) →
      (∀ r, l.decode entry.value = .ok r → r.schema ≠ schemaVersion) →
      ∃ reason, l.Refuses entry (.corruptedRecord l.key reason)) := by
  constructor
  · intro n hlayout hn
    refine refuses_of_decode ?_
    rw [decode, Record.parse_readSchema_iff.2 hlayout]
    simp [hn]
  · intro hknown hother
    cases hschema : Record.readSchema.parse entry.value with
    | error e =>
      refine ⟨e.message, refuses_of_decode ?_⟩
      rw [decode, hschema]
    | ok n =>
      obtain rfl := hknown n (Record.parse_readSchema_iff.1 hschema)
      cases hrecord : Record.read.parse entry.value with
      | error e =>
        refine ⟨e.message, refuses_of_decode ?_⟩
        rw [decode, hschema, hrecord]
        simp
      | ok r =>
        have hdecode : l.decode entry.value = .ok r := by
          rw [decode, hschema, hrecord]
          simp
        exact absurd (Record.schema_of_parse hrecord hschema) (hother r hdecode)

/-- A record of layout 2 that spells the name with an escape and has an old
record in it, and a list that is no record of any layout. -/
theorem Lock.gates_layout_newer :
    (Lock.of "ns" "lease" 15000).Refuses
      ⟨"__lease:ns/lease",
        "\x7b\"old\":[\x7b\"schema_version\":1\x7d],\"schema\\u005fversion\":2\x7d", 7⟩
      (.unsupportedSchema "__lease:ns/lease" 2 1) ∧
    ∃ reason, (Lock.of "ns" "lease" 15000).Refuses ⟨"__lease:ns/lease", "[1,\"a\"]", 7⟩
      (.corruptedRecord "__lease:ns/lease" reason) := by
  have hnewer : Record.readSchema.parse
      "\x7b\"old\":[\x7b\"schema_version\":1\x7d],\"schema\\u005fversion\":2\x7d" = .ok 2 := by
    decide +kernel
  have hlist : Record.readSchema.parse "[1,\"a\"]" = .error .malformed := by
    decide +kernel
  constructor
  · exact (gates_layout _ _).1 2 (Record.parse_readSchema_iff.1 hnewer) (by decide)
  · refine (gates_layout _ _).2 (fun n hlayout => ?_) fun r hdecode => ?_
    · cases hlist.symm.trans (Record.parse_readSchema_iff.2 hlayout)
    · have hnone : (Lock.of "ns" "lease" 15000).decode "[1,\"a\"]" = .ok r := hdecode
      rw [decode, hlist] at hnone
      cases hnone

end Tenure.Lease
