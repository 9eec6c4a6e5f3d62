import Tenure.Proofs.Json.Reading

/-!
# Round trips

A text is `Written` for a value and its reader if the reader takes the
tokens of the text for the value and no others, wherever the text stands.
That is more than that the whole text is read (`Written.parse`), and it is
what is needed to put the text into a larger one: round trips are composed
as the writers and readers are, by `one`, `one_and` and `map` for the members
of a record, by `written_record` for their object, by `written_choice` for a
choice, and by `written_none` and `written_some` where a value may be null.

The last is the one place where a round trip can go wrong. Null stands for
no value, so the values themselves must not be written as null; it is
enough that their reader refuses it (`Reader.RefusesNull`).
-/

namespace Tenure.Json

/-- **Whether a text is written for a value**, to be read by this reader. -/
def Written {α : Type} (read : Reader α) (text : List Char) (a : α) : Prop :=
  ∃ ts, Spelled text ts ∧ Reads read ts a

/-- Whether the members of an object are written for a record. -/
def Members.Written {α : Type} (m : Members α) (members : List (String × List Char)) (a : α) :
    Prop :=
  ∃ values, SpelledMembers members values ∧ m.Filled values a

/-- Whether a reader does not take null for a value. -/
def Reader.RefusesNull {α : Type} (read : Reader α) : Prop :=
  ∀ ts, ∃ e, read.run (.null :: ts) = .error e

variable {α β : Type}

/-- **What is written for a value is read as it.** -/
theorem Written.parse {read : Reader α} {text : List Char} {a : α} (h : Written read text a) :
    Reader.parse read (String.ofList text) = .ok a := by
  obtain ⟨ts, hspelled, hreads⟩ := h
  exact parse_ofList hspelled hreads

/-! ## Values of one token -/

theorem written_string (s : String) : Written Reader.text (string s) s :=
  ⟨_, spelled_string s, reads_text s⟩

theorem written_word64 (n : UInt64) : Written Reader.word64 (natural n.toNat) n :=
  ⟨_, spelled_natural n.toNat, reads_word64 (ofDigits_toDigits _)⟩

theorem written_word32 (n : UInt32) : Written Reader.word32 (natural n.toNat) n :=
  ⟨_, spelled_natural n.toNat, reads_word32 (ofDigits_toDigits _)⟩

/-- What is skipped is no less written, for the reader that skips it. -/
theorem written_skip_string (s : String) : Written Reader.skipValue (string s) () :=
  ⟨_, spelled_string s, reads_skipValue_iff.2 (.string _)⟩

theorem written_skip_natural (n : Nat) : Written Reader.skipValue (natural n) () :=
  ⟨_, spelled_natural n, reads_skipValue_iff.2 (.number _)⟩

/-- A reader that goes on to make something of the value. -/
theorem Written.map {read : Reader α} {text : List Char} {a : α} (f : α → β)
    (h : Written read text a) : Written (do return f (← read)) text (f a) := by
  obtain ⟨ts, hspelled, hreads⟩ := h
  refine ⟨ts, hspelled, fun rest => ?_⟩
  rw [StateT.run_bind, hreads rest]
  rfl

/-! ## Values that may be null -/

theorem refusesNull_word64 : Reader.word64.RefusesNull := by
  intro ts
  exact ⟨.mismatch (.wrongType .null "u64"), rfl⟩

theorem refusesNull_record (name : String) (m : Members α) :
    (Reader.record name m).RefusesNull := by
  intro ts
  exact ⟨.mismatch (.wrongType .null name), rfl⟩

theorem spelled_null : Spelled nullText [.null] := by
  intro rest ts _ h
  exact .token (.null rest) h

theorem written_none (read : Reader α) : Written read.option nullText none :=
  ⟨[.null], spelled_null, fun _ => rfl⟩

/-- A value that may be null is read as itself, unless null is read as one
of the values. -/
theorem written_some {read : Reader α} {text : List Char} {a : α} (hnull : read.RefusesNull)
    (h : Written read text a) : Written read.option text (some a) := by
  obtain ⟨ts, hspelled, hreads⟩ := h
  refine ⟨ts, hspelled, fun rest => ?_⟩
  have hrun := hreads rest
  cases hts : ts ++ rest with
  | nil =>
    rw [hts] at hrun
    simp [Reader.option, Reader.peek, hrun]
  | cons t later =>
    rw [hts] at hrun
    cases t with
    | null =>
      obtain ⟨e, he⟩ := hnull later
      rw [he] at hrun
      cases hrun
    | _ => simp [Reader.option, Reader.peek, hrun]

theorem written_option {read : Reader α} {write : α → List Char} (hnull : read.RefusesNull)
    (h : ∀ a, Written read (write a) a) (o : Option α) :
    Written read.option (option write o) o := by
  cases o with
  | none => exact written_none read
  | some a => exact written_some hnull (h a)

/-! ## Records and choices -/

/-- What holds of the names of members holds of the names of their tokens. -/
theorem SpelledMembers.names {members : List (String × List Char)} {values : List Member}
    (h : SpelledMembers members values) (P : String → Prop) (hP : ∀ m ∈ members, P m.1) :
    ∀ v ∈ values, ∃ name, v.IsNamed name ∧ P name := by
  induction h with
  | nil => exact fun _ hv => absurd hv List.not_mem_nil
  | @cons m v _ _ hm _ ih =>
    obtain ⟨hfirst, hothers⟩ := List.forall_mem_cons.1 hP
    refine List.forall_mem_cons.2 ⟨⟨m.1, ?_, hfirst⟩, ih hothers⟩
    rw [Member.IsNamed, hm.1]
    exact join_written m.1.toList

namespace Members.Written

variable {read : Reader α} {text : List Char} {absent unlisted : Option α}
  {members : List (String × List Char)} {b : Members β} {x : α} {y : β}

/-- One member, and others that the record does not have. -/
theorem one_among (name : String) (h : Json.Written read text x)
    (hnames : ∀ m ∈ members, m.1 ≠ name)
    (hskip : ∀ m ∈ members, Json.Written Reader.skipValue m.2 ()) :
    (Members.one name read absent unlisted).Written ((name, text) :: members) x := by
  obtain ⟨ts, hspelled, hreads⟩ := h
  have hothers : ∃ others, SpelledMembers members others ∧ ∀ v ∈ others, IsValue v.2 := by
    clear hnames
    induction members with
    | nil => exact ⟨[], .nil, fun _ hv => absurd hv List.not_mem_nil⟩
    | cons m members ih =>
      obtain ⟨⟨value, hvalue, hread⟩, hlater⟩ := List.forall_mem_cons.1 hskip
      obtain ⟨others, hspelled, hvalues⟩ := ih hlater
      exact ⟨(writtenName m.1, value) :: others, .cons ⟨rfl, hvalue⟩ hspelled,
        List.forall_mem_cons.2 ⟨reads_skipValue_iff.1 hread, hvalues⟩⟩
  obtain ⟨others, hmembers, hvalues⟩ := hothers
  refine ⟨(writtenName name, ts) :: others, .cons ⟨rfl, hspelled⟩ hmembers, ?_⟩
  show (Members.one name read absent unlisted).Filled ([] ++ (writtenName name, ts) :: others) x
  exact filled_one (isNamed_writtenName name ts) hreads (hmembers.names (· ≠ name) hnames) hvalues

theorem one (name : String) (h : Json.Written read text x) :
    (Members.one name read absent unlisted).Written [(name, text)] x :=
  one_among name h (by simp) (by simp)

/-- A first member and the others, of which none has its name. -/
theorem one_and (name : String) (h : Json.Written read text x) (hb : b.Written members y)
    (hnames : ∀ m ∈ members, m.1 ≠ name ∧ (b.member m.1).isSome) :
    ((Members.one name read absent unlisted).and b).Written ((name, text) :: members) (x, y) := by
  obtain ⟨ts, hspelled, hreads⟩ := h
  obtain ⟨values, hmembers, hfilled⟩ := hb
  refine ⟨(writtenName name, ts) :: values, .cons ⟨rfl, hspelled⟩ hmembers, ?_⟩
  refine filled_one_and (isNamed_writtenName name ts) hreads hfilled fun u hu other hother => ?_
  obtain ⟨known, hknown, hne⟩ :=
    hmembers.names (fun n => n ≠ name ∧ (b.member n).isSome) hnames u hu
  rwa [hother.eq hknown]

theorem map (f : α → β) {a : Members α} (h : a.Written members x) :
    (a.map f).Written members (f x) := by
  obtain ⟨values, hmembers, hfilled⟩ := h
  exact ⟨values, hmembers, (filled_map_iff f).2 ⟨x, rfl, hfilled⟩⟩

end Members.Written

/-- **The object of a record is read as the record.** -/
theorem written_record (name : String) {m : Members α} {members : List (String × List Char)}
    {a : α} (h : m.Written members a) : Written (Reader.record name m) (object members) a := by
  obtain ⟨values, hmembers, hfilled⟩ := h
  exact ⟨_, spelled_object hmembers, reads_record name hfilled⟩

/-- **The object of a choice is read as it**, by the reader listed under the
name of the choice. -/
theorem written_choice {choices : List (String × Reader α)} (name : String) {content : Reader α}
    {text : List Char} {a : α} (hlookup : choices.lookup name = some content)
    (h : Written content text a) :
    Written (Reader.choice choices) (object [(name, text)]) a := by
  obtain ⟨ts, hspelled, hreads⟩ := h
  have hobject : Spelled (object [(name, text)]) (objectTokens [(writtenName name, ts)]) :=
    spelled_object (.cons ⟨rfl, hspelled⟩ .nil)
  refine ⟨_, hobject, fun rest => ?_⟩
  have hname := reads_text name (.colon :: (ts ++ .closeBrace :: rest))
  have hcontent := hreads (.closeBrace :: rest)
  simp only [List.cons_append, List.nil_append] at hname
  simp [Reader.choice, Reader.peek, Reader.skip, Reader.expect, objectTokens, separated,
    Member.tokens, hname, hlookup,
    hcontent]

end Tenure.Json
