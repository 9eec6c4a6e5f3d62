import Tenure.Json.Reader
import Tenure.Proofs.Json.Scanning
import Tenure.Proofs.Json.Skipping

/-!
# What a reader takes for a value

A reader `Reads` a value from its tokens if it takes exactly these tokens,
whatever stands behind them. It is `Sound` if that is all it does: if what it
takes is always a value of the grammar, and is read alike wherever it stands.

A record is read from an object if its members fill it (`Members.Filled`),
and from no other object: the members are taken one after the other, and
each of them changes the draft of the record or is skipped
(`Members.Takes`). Nothing is said here about arrays.

A record is built of members by `one`, `and` and `map`, and what is read of
it follows the same build. The one thing that has to be checked is that no
name is used twice. A record of fewer members than the object has skips the
others.
-/

namespace Tenure.Json

/-- Whether a reader takes these tokens for this value. -/
def Reads {α : Type} (read : Reader α) (ts : List Token) (a : α) : Prop :=
  ∀ rest, read.run (ts ++ rest) = .ok (a, rest)

/-- Whether all that a reader takes is of this form, and is read alike
wherever it stands. -/
def Reader.TakesOnly {α : Type} (P : List Token → Prop) (read : Reader α) : Prop :=
  ∀ ts a rest, read.run ts = .ok (a, rest) → ∃ v, ts = v ++ rest ∧ P v ∧ Reads read v a

/-- **Whether a reader takes nothing but values**, and never more than one. -/
def Reader.Sound {α : Type} (read : Reader α) : Prop := read.TakesOnly IsValue

@[simp] theorem except_ok_bind {ε α β : Type} (a : α) (f : α → Except ε β) :
    (Except.ok a >>= f) = f a := rfl

@[simp] theorem except_pure {ε α : Type} (a : α) : (pure a : Except ε α) = .ok a := rfl

@[simp] theorem except_map_ok {ε α β : Type} (f : α → β) (a : α) :
    (f <$> (Except.ok a : Except ε α)) = .ok (f a) := rfl

/-- What a reader that goes on has read so far. -/
theorem Reader.of_bind {α β : Type} {read : Reader α} {f : α → Reader β} {ts rest : List Token}
    {b : β} (h : (read >>= f).run ts = .ok (b, rest)) :
    ∃ a after, read.run ts = .ok (a, after) ∧ (f a).run after = .ok (b, rest) := by
  rw [StateT.run_bind] at h
  cases hread : read.run ts with
  | error e =>
    rw [hread] at h
    cases h
  | ok found =>
    obtain ⟨a, after⟩ := found
    rw [hread] at h
    exact ⟨a, after, rfl, h⟩

section Map

variable {α β : Type} {read : Reader α} {ts : List Token}

/-- A reader that goes on to make something of what it has read. -/
theorem Reads.map (f : α → β) {a : α} (h : Reads read ts a) :
    Reads (do return f (← read)) ts (f a) := by
  intro rest
  rw [StateT.run_bind, h rest]
  rfl

theorem Reads.of_map {f : α → β} (hf : Function.Injective f) {b : β}
    (h : Reads (do return f (← read)) ts b) : ∃ a, f a = b ∧ Reads read ts a := by
  obtain ⟨a, after, -, hpure⟩ := Reader.of_bind (h [])
  cases hpure
  refine ⟨a, rfl, fun rest => ?_⟩
  obtain ⟨a', after, hread, hpure⟩ := Reader.of_bind (h rest)
  simp only [StateT.run_pure, except_pure, Except.ok.injEq, Prod.mk.injEq] at hpure
  rw [hread, hf hpure.1, hpure.2]

theorem Reader.TakesOnly.map {P : List Token → Prop} (f : α → β) (h : read.TakesOnly P) :
    (do return f (← read) : Reader β).TakesOnly P := by
  intro ts b rest hrun
  obtain ⟨a, after, hread, hpure⟩ := Reader.of_bind hrun
  cases hpure
  obtain ⟨v, rfl, hv, hreads⟩ := h ts a rest hread
  exact ⟨v, rfl, hv, hreads.map f⟩

end Map

/-- A whole text is read if nothing is left of its tokens. -/
theorem parse_eq_ok_iff {α : Type} {read : Reader α} {text : String} {a : α} :
    Reader.parse read text = .ok a ↔ read.run (tokens text) = .ok (a, []) := by
  rw [Reader.parse]
  split
  · rename_i b heq
    simp [heq]
  · rename_i b t ts heq
    simp [heq]
  · rename_i e heq
    simp [heq]

/-- What a reader takes for a value, it takes as a whole text for it. -/
theorem parse_ofList {α : Type} {read : Reader α} {cs : List Char} {ts : List Token} {a : α}
    (hcs : Spelled cs ts) (h : Reads read ts a) : Reader.parse read (String.ofList cs) = .ok a := by
  have hrun := h []
  rw [List.append_nil] at hrun
  rw [parse_eq_ok_iff, tokens_ofList hcs, hrun]

/-! ## Values of one token -/

theorem reads_of_join {pieces : List Piece} {cs : List Char} (h : Piece.join pieces = some cs) :
    Reads Reader.text [.string pieces] (String.ofList cs) := by
  intro rest
  simp [Reader.text, Reader.peek, Reader.skip, h]

theorem reads_text (s : String) : Reads Reader.text [.string (writtenName s)] s := by
  have h := reads_of_join (join_written s.toList)
  rwa [String.ofList_toList] at h

theorem run_wrongType_ne {α : Type} (expected : String) {ts : List Token}
    {found : α × List Token} : (Reader.wrongType expected).run ts ≠ .ok found := by
  simp only [Reader.wrongType, Reader.peek, StateT.run_bind, StateT.run_get, StateT.run_pure,
    except_pure, except_ok_bind]
  intro h
  split at h <;> cases h

/-- A text is read from a string whose pieces spell it. -/
theorem of_run_text {ts rest : List Token} {s : String}
    (h : Reader.text.run ts = .ok (s, rest)) :
    ∃ pieces, ts = .string pieces :: rest ∧ Piece.join pieces = some s.toList := by
  cases ts with
  | nil => cases h
  | cons t ts =>
    simp only [Reader.text, Reader.peek, StateT.run_bind, StateT.run_get, StateT.run_pure,
      except_pure, except_ok_bind, List.head?_cons] at h
    cases t with
    | string pieces =>
      refine ⟨pieces, ?_⟩
      cases hjoin : Piece.join pieces with
      | none =>
        simp only [hjoin] at h
        cases h
      | some cs =>
        simp only [hjoin] at h
        cases h
        exact ⟨rfl, congrArg some String.toList_ofList.symm⟩
    | _ => exact absurd h (run_wrongType_ne _)

theorem sound_text : Reader.text.Sound := by
  intro ts s rest h
  obtain ⟨pieces, rfl, hjoin⟩ := of_run_text h
  have hreads := reads_of_join hjoin
  rw [String.ofList_toList] at hreads
  exact ⟨[.string pieces], rfl, .string pieces, hreads⟩

/-- A whole number without sign, as it is spelled. -/
def wholeNumeral (digits : List Char) : Numeral := ⟨false, digits, [], none⟩

/-- Which numerals are whole numbers of 64 bits. -/
theorem value?_eq_natural {n : Numeral} {m : UInt64} (h : n.value? = some (.natural m)) :
    n = wholeNumeral n.whole ∧ Decimal.ofDigits n.whole 0 = m.toNat := by
  obtain ⟨negative, whole, fraction, exponent⟩ := n
  have hfraction : ∀ x : Option Float, x.map Number.fraction ≠ some (.natural m) := by
    intro x hx
    obtain ⟨_, -, hx⟩ := Option.map_eq_some_iff.1 hx
    cases hx
  simp only [Numeral.value?] at h
  split at h
  · rename_i hwhole
    simp only [Bool.and_eq_true, List.isEmpty_iff, Option.isNone_iff_eq_none] at hwhole
    obtain ⟨rfl, rfl⟩ := hwhole
    split at h
    · rename_i hsize
      simp only [Bool.and_eq_true, Bool.not_eq_true', decide_eq_true_eq] at hsize
      obtain ⟨rfl, htop⟩ := hsize
      cases h
      refine ⟨rfl, (UInt64.toNat_ofNat_of_lt' ?_).symm⟩
      exact Nat.lt_of_le_of_lt htop (by decide)
    split at h
    · cases h
    · exact absurd h (hfraction _)
  · exact absurd h (hfraction _)

theorem value?_wholeNumeral {digits : List Char} (h : Decimal.ofDigits digits 0 ≤ wholeTop) :
    (wholeNumeral digits).value?
      = some (.natural (UInt64.ofNat (Decimal.ofDigits digits 0))) := by
  simp [Numeral.value?, wholeNumeral, h]

theorem reads_natural {bound : Nat} {digits : List Char} (expected : String)
    (hbound : bound ≤ UInt64.size) (h : Decimal.ofDigits digits 0 < bound) :
    Reads (Reader.natural bound expected) [.number (wholeNumeral digits)]
      (Decimal.ofDigits digits 0) := by
  have hn : Decimal.ofDigits digits 0 < UInt64.size := Nat.lt_of_lt_of_le h hbound
  have hvalue := value?_wholeNumeral (Nat.le_sub_one_of_lt hn)
  have htoNat := UInt64.toNat_ofNat_of_lt' hn
  intro rest
  simp [Reader.natural, Reader.peek, Reader.skip, hvalue, htoNat, h]

/-- A whole number is read from the digits that spell it. -/
theorem of_run_natural {bound n : Nat} {expected : String} {ts rest : List Token}
    (h : (Reader.natural bound expected).run ts = .ok (n, rest)) :
    ∃ digits, ts = .number (wholeNumeral digits) :: rest ∧ Decimal.ofDigits digits 0 = n ∧
      n < bound := by
  cases ts with
  | nil => cases h
  | cons t ts =>
    simp only [Reader.natural, Reader.peek, StateT.run_bind, StateT.run_get, StateT.run_pure,
      except_pure, except_ok_bind, List.head?_cons] at h
    cases t with
    | number numeral =>
      cases hvalue : numeral.value? with
      | none =>
        simp only [hvalue] at h
        exact absurd h (run_wrongType_ne _)
      | some number =>
        cases number with
        | natural m =>
          simp only [hvalue] at h
          split at h
          · rename_i hsize
            cases h
            obtain ⟨hnumeral, hdigits⟩ := value?_eq_natural hvalue
            exact ⟨numeral.whole, by rw [← hnumeral]; rfl, hdigits, hsize⟩
          · cases h
        | negative m =>
          simp only [hvalue] at h
          cases h
        | fraction x =>
          simp only [hvalue] at h
          exact absurd h (run_wrongType_ne _)
    | _ => exact absurd h (run_wrongType_ne _)

theorem reads_word64 {digits : List Char} {n : UInt64} (h : Decimal.ofDigits digits 0 = n.toNat) :
    Reads Reader.word64 [.number (wholeNumeral digits)] n := by
  intro rest
  have hrun := reads_natural "u64" (Nat.le_refl _) (h ▸ n.toNat_lt) rest
  simp only [Reader.word64, StateT.run_bind, hrun]
  simp [h]

theorem reads_word32 {digits : List Char} {n : UInt32} (h : Decimal.ofDigits digits 0 = n.toNat) :
    Reads Reader.word32 [.number (wholeNumeral digits)] n := by
  intro rest
  have hrun := reads_natural "u32" (by decide) (h ▸ n.toNat_lt) rest
  simp only [Reader.word32, StateT.run_bind, hrun]
  simp [h]

theorem of_run_word64 {n : UInt64} {ts rest : List Token}
    (h : Reader.word64.run ts = .ok (n, rest)) :
    ∃ digits, ts = .number (wholeNumeral digits) :: rest ∧
      Decimal.ofDigits digits 0 = n.toNat := by
  obtain ⟨m, after, hread, hpure⟩ := Reader.of_bind h
  obtain ⟨digits, rfl, hdigits, hbound⟩ := of_run_natural hread
  cases hpure
  exact ⟨digits, rfl, hdigits.trans (UInt64.toNat_ofNat_of_lt' hbound).symm⟩

theorem of_run_word32 {n : UInt32} {ts rest : List Token}
    (h : Reader.word32.run ts = .ok (n, rest)) :
    ∃ digits, ts = .number (wholeNumeral digits) :: rest ∧
      Decimal.ofDigits digits 0 = n.toNat := by
  obtain ⟨m, after, hread, hpure⟩ := Reader.of_bind h
  obtain ⟨digits, rfl, hdigits, hbound⟩ := of_run_natural hread
  cases hpure
  exact ⟨digits, rfl, hdigits.trans (UInt32.toNat_ofNat_of_lt' hbound).symm⟩

theorem sound_word64 : Reader.word64.Sound := by
  intro ts n rest h
  obtain ⟨digits, rfl, hdigits⟩ := of_run_word64 h
  exact ⟨[_], rfl, .number _, reads_word64 hdigits⟩

theorem sound_word32 : Reader.word32.Sound := by
  intro ts n rest h
  obtain ⟨digits, rfl, hdigits⟩ := of_run_word32 h
  exact ⟨[_], rfl, .number _, reads_word32 hdigits⟩

/-- Values are skipped, and nothing else is. -/
theorem reads_skipValue_iff {v : List Token} : Reads Reader.skipValue v () ↔ IsValue v := by
  constructor
  · intro h
    have hrun := h []
    rw [List.append_nil] at hrun
    obtain ⟨v', rfl, hv'⟩ := run_skipValue_iff.1 hrun
    rwa [List.append_nil]
  · exact fun h rest => run_skipValue_iff.2 ⟨v, rfl, h⟩

theorem sound_skipValue : Reader.skipValue.Sound := by
  intro ts a rest h
  obtain ⟨v, rfl, hv⟩ := run_skipValue_iff.1 h
  exact ⟨v, rfl, hv, reads_skipValue_iff.2 hv⟩

/-! ## Records -/

/-- Whether a member has this name. The pieces of a name need not spell any
characters, and then it has none. -/
def Member.IsNamed (v : Member) (name : String) : Prop := Piece.join v.1 = some name.toList

theorem isNamed_writtenName (name : String) (value : List Token) :
    Member.IsNamed (writtenName name, value) name :=
  join_written name.toList

theorem Member.IsNamed.eq {v : Member} {name other : String} (h : v.IsNamed name)
    (h' : v.IsNamed other) : name = other :=
  String.toList_injective (Option.some.inj (h.symm.trans h'))

/-- What is read behind the name of a member: the member, or a value that
is skipped. -/
def Members.readMember {α : Type} (m : Members α) (name : String) (d : m.Draft) :
    Reader m.Draft :=
  match m.member name with
  | some read => read d
  | none => do
    Reader.expect .colon
    Reader.skipValue
    return d

/-- **Whether the members of an object**, in this order, turn one draft of a
record into another. -/
inductive Members.Takes {α : Type} (m : Members α) : m.Draft → List Member → m.Draft → Prop
  | nil (d : m.Draft) : Takes m d [] d
  | cons {d d₁ d₂ : m.Draft} {v : Member} {values : List Member} {name : String}
      (hname : v.IsNamed name) (hread : Reads (m.readMember name d) (.colon :: v.2) d₁)
      (hrest : Takes m d₁ values d₂) : Takes m d (v :: values) d₂

/-- **Whether an object with these members is read as this record.** -/
def Members.Filled {α : Type} (m : Members α) (values : List Member) (a : α) : Prop :=
  ∃ d, m.Takes m.start values d ∧ m.finish d = .ok a

/-- What stands behind the name of a member. -/
def IsMemberValue (ts : List Token) : Prop := ∃ v, ts = .colon :: v ∧ IsValue v

/-- Whether what is read behind the name of a member is always a colon and
a value. -/
def Members.Sound {α : Type} (m : Members α) : Prop :=
  ∀ name d, (m.readMember name d).TakesOnly IsMemberValue

theorem run_expect_iff {t : Token} {ts rest : List Token} :
    (Reader.expect t).run ts = .ok ((), rest) ↔ ts = t :: rest := by
  simp only [Reader.expect, Reader.peek, Reader.skip, StateT.run_bind, StateT.run_get,
    StateT.run_pure, except_pure, except_ok_bind]
  constructor
  · intro h
    split at h
    · rename_i ht
      cases h
      cases ts with
      | nil => cases ht
      | cons t' ts => exact congrArg (· :: ts) (Option.some.inj ht)
    · cases h
  · rintro rfl
    rw [List.head?_cons, if_pos rfl]
    rfl

section Colon

variable {α : Type} {read : Reader α}

/-- A colon, and then what a reader takes. -/
theorem reads_colon {v : List Token} {a : α} :
    Reads (Reader.expect .colon >>= fun _ => read) (.colon :: v) a ↔ Reads read v a := by
  have hrun : ∀ rest, (Reader.expect .colon >>= fun _ => read).run (.colon :: v ++ rest)
      = read.run (v ++ rest) := by
    intro rest
    rw [StateT.run_bind, run_expect_iff.2 List.cons_append]
    rfl
  simp only [Reads, hrun]

theorem takesOnly_colon (h : read.Sound) :
    (Reader.expect .colon >>= fun _ => read).TakesOnly IsMemberValue := by
  intro ts a rest hrun
  obtain ⟨_, after, hexpect, hread⟩ := Reader.of_bind hrun
  obtain rfl := run_expect_iff.1 hexpect
  obtain ⟨v, rfl, hv, hreads⟩ := h _ _ _ hread
  exact ⟨.colon :: v, rfl, ⟨v, rfl, hv⟩, reads_colon.2 hreads⟩

end Colon

namespace Members

variable {α β : Type}

/-! ### Members that are skipped -/

section Unknown

variable {m : Members α} {name : String}

theorem readMember_of_unknown (h : m.member name = none) (d : m.Draft) :
    m.readMember name d
      = Reader.expect .colon >>= fun _ => (do return (fun _ => d) (← Reader.skipValue)) := by
  rw [readMember, h]

/-- A member of an unknown name leaves the draft as it is. -/
theorem reads_readMember_of_unknown (h : m.member name = none) {d d' : m.Draft}
    {v : List Token} : Reads (m.readMember name d) (.colon :: v) d' ↔ d' = d ∧ IsValue v := by
  rw [readMember_of_unknown h, reads_colon]
  constructor
  · intro hreads
    obtain ⟨_, after, hskip, hpure⟩ := Reader.of_bind (hreads [])
    cases hpure
    rw [List.append_nil] at hskip
    obtain ⟨v', rfl, hv'⟩ := run_skipValue_iff.1 hskip
    rw [List.append_nil]
    exact ⟨rfl, hv'⟩
  · rintro ⟨rfl, hv⟩
    exact (reads_skipValue_iff.2 hv).map fun _ => d'

theorem takesOnly_of_unknown (h : m.member name = none) (d : m.Draft) :
    (m.readMember name d).TakesOnly IsMemberValue := by
  rw [readMember_of_unknown h]
  exact takesOnly_colon (sound_skipValue.map fun _ => d)

/-- Members of other names leave the draft as it is. -/
theorem takes_of_unknown (d : m.Draft) {values : List Member}
    (hnames : ∀ v ∈ values, ∃ name, v.IsNamed name ∧ m.member name = none)
    (hvalues : ∀ v ∈ values, IsValue v.2) : m.Takes d values d := by
  induction values with
  | nil => exact .nil d
  | cons v values ih =>
    obtain ⟨⟨name, hname, hunknown⟩, hnames⟩ := List.forall_mem_cons.1 hnames
    obtain ⟨hvalue, hvalues⟩ := List.forall_mem_cons.1 hvalues
    exact .cons hname ((reads_readMember_of_unknown hunknown).2 ⟨rfl, hvalue⟩)
      (ih hnames hvalues)

theorem Takes.append {d d₁ d₂ : m.Draft} {values others : List Member}
    (h : m.Takes d values d₁) (h' : m.Takes d₁ others d₂) : m.Takes d (values ++ others) d₂ := by
  induction h with
  | nil d => exact h'
  | cons hname hread _ ih => exact .cons hname hread (ih h')

end Unknown

/-! ### One member -/

section One

variable {absent unlisted : Option α} {name other : String} {read : Reader α}

theorem member_one_of_ne (h : other ≠ name) :
    (one name read absent unlisted).member other = none :=
  if_neg h

/-- The member of a record of one is read once. -/
theorem readMember_one_none : (one name read absent unlisted).readMember name none
    = Reader.expect .colon >>= fun _ => (do return some (← read)) := by
  simp only [readMember, one, if_true]
  rfl

/-- A second member of the name is refused. -/
theorem readMember_one_some (a : α) (ts : List Token) :
    ((one name read absent unlisted).readMember name (some a)).run ts
      = .error (.mismatch (.duplicate name)) := by
  simp only [readMember, one, if_true]
  rfl

theorem reads_readMember_one {d d' : Option α} {v : List Token} :
    Reads ((one name read absent unlisted).readMember name d) (.colon :: v) d'
      ↔ d = none ∧ ∃ a, d' = some a ∧ Reads read v a := by
  cases d with
  | some a =>
    refine iff_of_false (fun h => ?_) (fun h => nomatch h.1)
    have hrun := h []
    rw [readMember_one_some] at hrun
    cases hrun
  | none =>
    have hcolon : Reads ((one name read absent unlisted).readMember name none) (.colon :: v) d'
        ↔ Reads (do return some (← read) : Reader (Option α)) v d' := by
      rw [readMember_one_none]
      exact reads_colon
    rw [hcolon]
    constructor
    · intro h
      obtain ⟨a, rfl, hreads⟩ := Reads.of_map (fun _ _ => Option.some.inj) h
      exact ⟨rfl, a, rfl, hreads⟩
    · rintro ⟨-, a, rfl, hreads⟩
      exact hreads.map some

theorem sound_one (h : read.Sound) : (one name read absent unlisted).Sound := by
  intro other d
  by_cases hother : other = name
  · subst hother
    cases d with
    | none =>
      rw [readMember_one_none]
      exact takesOnly_colon (h.map some)
    | some a =>
      intro ts d' rest hrun
      rw [readMember_one_some] at hrun
      cases hrun
  · exact takesOnly_of_unknown (member_one_of_ne hother) d

/-- **One member fills the record of it**, whatever other members there
are. -/
theorem filled_one {v : Member} {a : α} {before after : List Member} (hname : v.IsNamed name)
    (h : Reads read v.2 a)
    (hnames : ∀ u ∈ before ++ after, ∃ other, u.IsNamed other ∧ other ≠ name)
    (hvalues : ∀ u ∈ before ++ after, IsValue u.2) :
    (one name read absent unlisted).Filled (before ++ v :: after) a := by
  have htakes : ∀ (d : Option α) (others : List Member), (∀ u ∈ others, u ∈ before ++ after) →
      (one name read absent unlisted).Takes d others d := by
    intro d others hothers
    refine takes_of_unknown (m := one name read absent unlisted) d (fun u hu => ?_)
      fun u hu => hvalues u (hothers u hu)
    obtain ⟨other, hu, hne⟩ := hnames u (hothers u hu)
    exact ⟨other, hu, member_one_of_ne hne⟩
  refine ⟨some a, (htakes none before fun u => List.mem_append_left after).append ?_, rfl⟩
  exact .cons hname (reads_readMember_one.2 ⟨rfl, a, rfl, h⟩)
    (htakes (some a) after fun u => List.mem_append_right before)

/-- Once the member is there, no other one has its name. -/
theorem eq_of_takes_one {a : α} {d d' : (one name read absent unlisted).Draft}
    {values : List Member} (h : (one name read absent unlisted).Takes d values d')
    (hd : d = some a) :
    d' = some a ∧ ∀ v ∈ values, (∃ other, v.IsNamed other ∧ other ≠ name) ∧ IsValue v.2 := by
  induction h with
  | nil d => exact ⟨hd, fun _ hv => absurd hv List.not_mem_nil⟩
  | @cons d d₁ d₂ v values other hname hread _ ih =>
    by_cases hother : other = name
    · subst hother
      obtain ⟨hnone, -⟩ := reads_readMember_one.1 hread
      cases hd.symm.trans hnone
    · obtain ⟨rfl, hvalue⟩ :=
        (reads_readMember_of_unknown (member_one_of_ne hother)).1 hread
      obtain ⟨rfl, hvalues⟩ := ih hd
      exact ⟨rfl, List.forall_mem_cons.2 ⟨⟨⟨other, hname, hother⟩, hvalue⟩, hvalues⟩⟩

/-- The member that a draft was filled with. -/
theorem exists_of_takes_one {a : α} {d d' : (one name read absent unlisted).Draft}
    {values : List Member} (h : (one name read absent unlisted).Takes d values d')
    (hd : d = none) (hd' : d' = some a) :
    ∃ before v after, values = before ++ v :: after ∧ v.IsNamed name ∧ Reads read v.2 a ∧
      ∀ u ∈ before ++ after, (∃ other, u.IsNamed other ∧ other ≠ name) ∧ IsValue u.2 := by
  induction h with
  | nil d => cases hd.symm.trans hd'
  | @cons d d₁ d₂ v values other hname hread hrest ih =>
    by_cases hother : other = name
    · subst hother
      obtain ⟨-, b, hb, hreads⟩ := reads_readMember_one.1 hread
      obtain ⟨heq, hvalues⟩ := eq_of_takes_one hrest hb
      obtain rfl : a = b := Option.some.inj (hd'.symm.trans heq)
      exact ⟨[], v, values, rfl, hname, hreads, hvalues⟩
    · obtain ⟨rfl, hvalue⟩ :=
        (reads_readMember_of_unknown (member_one_of_ne hother)).1 hread
      obtain ⟨before, u, after, rfl, hu, hreads, hvalues⟩ := ih hd hd'
      exact ⟨v :: before, u, after, rfl, hu, hreads,
        List.forall_mem_cons.2 ⟨⟨⟨other, hname, hother⟩, hvalue⟩, hvalues⟩⟩

/-- **Which objects fill a record of one member**: those in which exactly
one member has its name. -/
theorem filled_one_iff {values : List Member} {a : α} :
    (one name read none unlisted).Filled values a ↔
      ∃ before v after, values = before ++ v :: after ∧ v.IsNamed name ∧ Reads read v.2 a ∧
        ∀ u ∈ before ++ after, (∃ other, u.IsNamed other ∧ other ≠ name) ∧ IsValue u.2 := by
  constructor
  · rintro ⟨d, htakes, hfinish⟩
    cases d with
    | none => cases hfinish
    | some b =>
      cases hfinish
      exact exists_of_takes_one htakes rfl rfl
  · rintro ⟨before, v, after, rfl, hname, hreads, hothers⟩
    exact filled_one hname hreads (fun u hu => (hothers u hu).1) fun u hu => (hothers u hu).2

end One

/-! ### More members -/

section And

variable {a : Members α} {b : Members β} {name : String}

/-- A member belongs to the first record of two that knows it; one that
neither knows is skipped by either. -/
theorem readMember_and_left (h : (a.member name).isSome ∨ b.member name = none)
    (d : (a.and b).Draft) :
    (a.and b).readMember name d = do return (·, d.2) (← a.readMember name d.1) := by
  cases ha : a.member name with
  | some read => simp only [readMember, and, ha]
  | none =>
    have hb : b.member name = none := h.resolve_left (by simp [ha])
    have hab : (a.and b).member name = none := by simp only [and, ha, hb]
    rw [readMember_of_unknown hab, readMember_of_unknown ha]
    simp only [bind_assoc, pure_bind]
    rfl

theorem readMember_and_right (ha : a.member name = none) (hb : (b.member name).isSome)
    (d : (a.and b).Draft) :
    (a.and b).readMember name d = do return (d.1, ·) (← b.readMember name d.2) := by
  obtain ⟨read, hread⟩ := Option.isSome_iff_exists.1 hb
  simp only [readMember, and, ha, hread]

theorem reads_and_left (h : (a.member name).isSome ∨ b.member name = none)
    (d : (a.and b).Draft) {ts : List Token} {x : a.Draft}
    (hread : Reads (a.readMember name d.1) ts x) :
    Reads ((a.and b).readMember name d) ts (x, d.2) := by
  rw [readMember_and_left h]
  exact hread.map (·, d.2)

theorem reads_and_right (ha : a.member name = none) (hb : (b.member name).isSome)
    (d : (a.and b).Draft) {ts : List Token} {e : b.Draft}
    (h : Reads (b.readMember name d.2) ts e) : Reads ((a.and b).readMember name d) ts (d.1, e) := by
  rw [readMember_and_right ha hb]
  exact h.map (d.1, ·)

theorem sound_and (ha : a.Sound) (hb : b.Sound) : (a.and b).Sound := by
  intro name d
  by_cases h : (a.member name).isSome ∨ b.member name = none
  · rw [readMember_and_left h]
    exact (ha name d.1).map (·, d.2)
  · rw [not_or, Option.not_isSome_iff_eq_none] at h
    rw [readMember_and_right h.1 (Option.isSome_iff_ne_none.2 h.2)]
    exact (hb name d.2).map (d.1, ·)

/-- What two records take, the first of them takes alone, and it skips what
the other one reads. -/
theorem Takes.left {d d' : (a.and b).Draft} {values : List Member}
    (h : (a.and b).Takes d values d') (hvalues : ∀ v ∈ values, IsValue v.2) :
    a.Takes d.1 values d'.1 := by
  induction h with
  | nil d => exact .nil d.1
  | @cons d d₁ d₂ v values name hname hread _ ih =>
    obtain ⟨hvalue, hvalues⟩ := List.forall_mem_cons.1 hvalues
    refine .cons hname ?_ (ih hvalues)
    by_cases hleft : (a.member name).isSome ∨ b.member name = none
    · rw [readMember_and_left hleft] at hread
      obtain ⟨x, rfl, hreads⟩ := Reads.of_map (fun _ _ h => (Prod.mk.inj h).1) hread
      exact hreads
    · rw [not_or, Option.not_isSome_iff_eq_none] at hleft
      rw [readMember_and_right hleft.1 (Option.isSome_iff_ne_none.2 hleft.2)] at hread
      obtain ⟨y, rfl, -⟩ := Reads.of_map (fun _ _ h => (Prod.mk.inj h).2) hread
      exact (reads_readMember_of_unknown hleft.1).2 ⟨rfl, hvalue⟩

/-- What fills two records fills the first of them. -/
theorem Filled.left {values : List Member} {x : α} {y : β} (h : (a.and b).Filled values (x, y))
    (hvalues : ∀ v ∈ values, IsValue v.2) : a.Filled values x := by
  obtain ⟨d, htakes, hfinish⟩ := h
  refine ⟨d.1, htakes.left hvalues, ?_⟩
  have hand : (a.and b).finish d = do return (← a.finish d.1, ← b.finish d.2) := rfl
  rw [hand] at hfinish
  cases ha : a.finish d.1 with
  | error e =>
    rw [ha] at hfinish
    cases hfinish
  | ok x' =>
    cases hb : b.finish d.2 with
    | error e =>
      rw [ha, hb] at hfinish
      cases hfinish
    | ok y' =>
      rw [ha, hb] at hfinish
      cases hfinish
      rfl

/-- Members that only the second record knows go to it. -/
theorem Takes.right (x : a.Draft) {e e' : b.Draft} {values : List Member}
    (h : b.Takes e values e')
    (hnames : ∀ v ∈ values, ∀ name, v.IsNamed name →
      a.member name = none ∧ (b.member name).isSome) :
    (a.and b).Takes (x, e) values (x, e') := by
  induction h with
  | nil e => exact .nil (m := a.and b) (x, e)
  | @cons e e₁ e₂ v values name hname hread _ ih =>
    obtain ⟨hv, hnames⟩ := List.forall_mem_cons.1 hnames
    obtain ⟨ha, hb⟩ := hv name hname
    exact .cons (m := a.and b) hname (reads_and_right ha hb (x, e) hread) (ih hnames)

end And

/-- **A record is filled member by member.** -/
theorem filled_one_and {absent unlisted : Option α} {name : String} {read : Reader α}
    {b : Members β} {v : Member} {values : List Member} {x : α} {y : β} (hname : v.IsNamed name)
    (hread : Reads read v.2 x) (h : b.Filled values y)
    (hnames : ∀ u ∈ values, ∀ other, u.IsNamed other → other ≠ name ∧ (b.member other).isSome) :
    ((one name read absent unlisted).and b).Filled (v :: values) (x, y) := by
  obtain ⟨e, htakes, hfinish⟩ := h
  have hleft : ((one name read absent unlisted).member name).isSome ∨ b.member name = none :=
    .inl (by simp [one])
  have hfirst : Reads (((one name read absent unlisted).and b).readMember name (none, b.start))
      (.colon :: v.2) (some x, b.start) :=
    reads_and_left hleft (none, b.start) (reads_readMember_one.2 ⟨rfl, x, rfl, hread⟩)
  refine ⟨(some x, e), .cons hname hfirst
    (.right (a := one name read absent unlisted) (some x) htakes ?_), ?_⟩
  · intro u hu other hother
    obtain ⟨hne, hknown⟩ := hnames u hu other hother
    exact ⟨member_one_of_ne hne, hknown⟩
  · show (do return (← (one name read absent unlisted).finish (some x), ← b.finish e) :
      Except String (α × β)) = _
    rw [hfinish]
    rfl

section Map

variable {m : Members α} (f : α → β)

/-- Members are read alike, whatever is made of them. -/
theorem readMember_map (name : String) (d : m.Draft) :
    (m.map f).readMember name d = m.readMember name d := by
  have hmember : (m.map f).member name = m.member name := rfl
  unfold readMember
  rw [hmember]
  cases m.member name with
  | none => rfl
  | some take => rfl

theorem sound_map (h : m.Sound) : (m.map f).Sound := by
  intro name d
  have hmember := readMember_map f name d
  rw [hmember]
  exact h name d

theorem takes_map {d d' : m.Draft} {values : List Member} (h : m.Takes d values d') :
    (m.map f).Takes d values d' := by
  induction h with
  | nil d => exact .nil (m := m.map f) d
  | @cons d _ _ _ _ name hname hread _ ih =>
    rw [← readMember_map f] at hread
    exact .cons (m := m.map f) hname hread ih

theorem of_takes_map {d d' : (m.map f).Draft} {values : List Member}
    (h : (m.map f).Takes d values d') : m.Takes d values d' := by
  induction h with
  | nil d => exact .nil (m := m) d
  | @cons d _ _ _ _ name hname hread _ ih =>
    have hmember := readMember_map f name d
    rw [hmember] at hread
    exact .cons (m := m) hname hread ih

theorem filled_map_iff {values : List Member} {y : β} :
    (m.map f).Filled values y ↔ ∃ x, f x = y ∧ m.Filled values x := by
  constructor
  · rintro ⟨d, htakes, hfinish⟩
    cases hx : m.finish d with
    | error e =>
      have hmap : (m.map f).finish d = (m.finish d).map f := rfl
      rw [hmap, hx] at hfinish
      cases hfinish
    | ok x =>
      have hmap : (m.map f).finish d = (m.finish d).map f := rfl
      rw [hmap, hx] at hfinish
      cases hfinish
      exact ⟨x, rfl, d, of_takes_map f htakes, hx⟩
  · rintro ⟨x, rfl, d, htakes, hx⟩
    refine ⟨d, takes_map f htakes, ?_⟩
    show (m.finish d).map f = _
    rw [hx]
    rfl

end Map

/-! ### Objects -/

section Object

variable {m : Members α}

theorem run_memberName {v : Member} {name : String} (h : v.IsNamed name) (rest : List Token) :
    Reader.memberName.run (v.tokens ++ rest) = .ok (name, .colon :: (v.2 ++ rest)) := by
  have htext := reads_of_join h (.colon :: (v.2 ++ rest))
  rw [String.ofList_toList] at htext
  exact htext

theorem of_run_memberName {ts rest : List Token} {name : String}
    (h : Reader.memberName.run ts = .ok (name, rest)) :
    ∃ pieces, ts = .string pieces :: rest ∧ Piece.join pieces = some name.toList := by
  cases ts with
  | nil => cases h
  | cons t ts =>
    cases t with
    | string pieces => exact of_run_text h
    | _ => cases h

theorem run_oneMember {d d' : m.Draft} {v : Member} {name : String} (hname : v.IsNamed name)
    (hread : Reads (m.readMember name d) (.colon :: v.2) d') (rest : List Token) :
    (Reader.oneMember m d).run (v.tokens ++ rest) = .ok (d', rest) := by
  have hone : Reader.oneMember m d = Reader.memberName >>= fun name => m.readMember name d := rfl
  rw [hone, StateT.run_bind, run_memberName hname]
  exact hread rest

theorem of_run_oneMember (hm : m.Sound) {d d' : m.Draft} {ts rest : List Token}
    (h : (Reader.oneMember m d).run ts = .ok (d', rest)) :
    ∃ (v : Member) (name : String), ts = v.tokens ++ rest ∧ v.IsNamed name ∧ IsValue v.2 ∧
      Reads (m.readMember name d) (.colon :: v.2) d' := by
  have hone : Reader.oneMember m d = Reader.memberName >>= fun name => m.readMember name d := rfl
  rw [hone] at h
  obtain ⟨name, after, hname, hread⟩ := Reader.of_bind h
  obtain ⟨pieces, rfl, hjoin⟩ := of_run_memberName hname
  obtain ⟨u, rfl, ⟨v, rfl, hv⟩, hreads⟩ := hm name d _ _ _ hread
  exact ⟨(pieces, v), name, rfl, hjoin, hv, hreads⟩

/-- Later members are read up to the closing brace, given enough fuel. -/
theorem run_members_later {d d' : m.Draft} {values : List Member} (h : m.Takes d values d')
    {fuel : Nat} (hfuel : values.length < fuel) (rest : List Token) :
    (Reader.members m fuel false d).run
        (later (values.map Member.tokens) ++ .closeBrace :: rest)
      = .ok (d', .closeBrace :: rest) := by
  induction h generalizing fuel with
  | nil d =>
    cases fuel with
    | zero => exact absurd hfuel (Nat.not_lt_zero _)
    | succ fuel => simp [Reader.members, Reader.peek]
  | @cons d d₁ d₂ v values name hname hread _ ih =>
    cases fuel with
    | zero => exact absurd hfuel (Nat.not_lt_zero _)
    | succ fuel =>
      have hone := run_oneMember hname hread
        (later (values.map Member.tokens) ++ .closeBrace :: rest)
      have hrest := ih (Nat.lt_of_succ_lt_succ hfuel)
      rw [List.map_cons, later_cons, List.cons_append, List.append_assoc]
      simp [Reader.members, Reader.peek, Reader.skip, hone, hrest]

theorem of_run_members_later (hm : m.Sound) {fuel : Nat} {d d' : m.Draft} {ts rest : List Token}
    (h : (Reader.members m fuel false d).run ts = .ok (d', rest)) :
    ∃ values : List Member, ts = later (values.map Member.tokens) ++ rest ∧
      rest.head? = some .closeBrace ∧ (∀ v ∈ values, IsValue v.2) ∧ m.Takes d values d' := by
  induction fuel generalizing d ts with
  | zero => cases h
  | succ fuel ih =>
    cases ts with
    | nil => cases h
    | cons t ts =>
      cases t with
      | closeBrace =>
        cases h
        exact ⟨[], rfl, rfl, fun _ hv => absurd hv List.not_mem_nil, .nil _⟩
      | comma =>
        have hstep : (Reader.oneMember m d >>= fun d => Reader.members m fuel false d).run ts
            = .ok (d', rest) := h
        obtain ⟨d₁, after, hone, hlater⟩ := Reader.of_bind hstep
        obtain ⟨v, name, rfl, hname, hv, hreads⟩ := of_run_oneMember hm hone
        obtain ⟨values, rfl, hclose, hvalues, htakes⟩ := ih hlater
        refine ⟨v :: values, ?_, hclose, List.forall_mem_cons.2 ⟨hv, hvalues⟩,
          .cons hname hreads htakes⟩
        rw [List.map_cons, later_cons, List.cons_append, List.append_assoc]
      | _ => cases h

/-- The members of an object are read up to the closing brace. -/
theorem run_members {d d' : m.Draft} {values : List Member} (h : m.Takes d values d')
    {fuel : Nat} (hfuel : values.length < fuel) (rest : List Token) :
    (Reader.members m fuel true d).run
        (separated (values.map Member.tokens) ++ .closeBrace :: rest)
      = .ok (d', .closeBrace :: rest) := by
  cases fuel with
  | zero => exact absurd hfuel (Nat.not_lt_zero _)
  | succ fuel =>
    cases h with
    | nil => simp [Reader.members, Reader.peek, separated]
    | @cons _ d₁ _ v values name hname hread hrest =>
      have hone := run_oneMember hname hread
        (later (values.map Member.tokens) ++ .closeBrace :: rest)
      have hlater := run_members_later hrest (Nat.lt_of_succ_lt_succ hfuel) rest
      rw [List.map_cons, separated, List.append_assoc]
      simp only [Member.tokens, List.cons_append] at hone ⊢
      simp [Reader.members, Reader.peek, hone, hlater]

theorem of_run_members (hm : m.Sound) {fuel : Nat} {d d' : m.Draft} {ts rest : List Token}
    (h : (Reader.members m fuel true d).run ts = .ok (d', rest)) :
    ∃ values : List Member, ts = separated (values.map Member.tokens) ++ rest ∧
      rest.head? = some .closeBrace ∧ (∀ v ∈ values, IsValue v.2) ∧ m.Takes d values d' := by
  cases fuel with
  | zero => cases h
  | succ fuel =>
    cases ts with
    | nil => cases h
    | cons t ts =>
      have hstep : t ≠ .closeBrace → t ≠ .comma →
          (Reader.oneMember m d >>= fun d => Reader.members m fuel false d).run (t :: ts)
            = .ok (d', rest) := by
        intro hclose hcomma
        cases t <;> first | exact absurd rfl hclose | exact absurd rfl hcomma | exact h
      by_cases hclose : t = .closeBrace
      · subst hclose
        cases h
        exact ⟨[], rfl, rfl, fun _ hv => absurd hv List.not_mem_nil, .nil d⟩
      by_cases hcomma : t = .comma
      · subst hcomma
        cases h
      obtain ⟨d₁, after, hone, hlater⟩ := Reader.of_bind (hstep hclose hcomma)
      obtain ⟨v, name, hts, hname, hv, hreads⟩ := of_run_oneMember hm hone
      obtain ⟨values, rfl, hhead, hvalues, htakes⟩ := of_run_members_later hm hlater
      refine ⟨v :: values, ?_, hhead, List.forall_mem_cons.2 ⟨hv, hvalues⟩,
        .cons hname hreads htakes⟩
      rw [hts, List.map_cons, separated, List.append_assoc]

end Object

end Members

/-- A member takes at least one token, so there is always fuel enough. -/
theorem length_le_length_separated (values : List Member) :
    values.length ≤ (separated (values.map Member.tokens)).length := by
  have hlater : ∀ values : List Member,
      values.length ≤ (later (values.map Member.tokens)).length := by
    intro values
    induction values with
    | nil => exact Nat.zero_le _
    | cons v values ih =>
      rw [List.map_cons, later_cons, List.length_cons, List.length_cons, List.length_append]
      omega
  cases values with
  | nil => exact Nat.zero_le _
  | cons v values =>
    have := hlater values
    simp only [List.map_cons, separated, Member.tokens, List.length_cons, List.length_append]
    omega

section Record

variable {α : Type} {name : String} {m : Members α} {a : α}

/-- **A record is read from an object that fills it.** -/
theorem reads_record (name : String) {values : List Member} (h : m.Filled values a) :
    Reads (Reader.record name m) (objectTokens values) a := by
  obtain ⟨d, htakes, hfinish⟩ := h
  intro rest
  have hcount := length_le_length_separated values
  have hfuel : values.length
      < (separated (values.map Member.tokens) ++ .closeBrace :: rest).length + 1 := by
    rw [List.length_append]
    omega
  have hmembers := Members.run_members htakes hfuel rest
  have htokens : objectTokens values ++ rest
      = .openBrace :: (separated (values.map Member.tokens) ++ .closeBrace :: rest) := by
    simp [objectTokens]
  rw [htokens]
  simp only [List.length_append, List.length_cons] at hmembers
  simp [Reader.record, Reader.peek, Reader.skip, Reader.expect, hmembers, hfinish]

/-- A record is an object or an array. -/
theorem exists_cons_of_run_record {ts rest : List Token}
    (h : (Reader.record name m).run ts = .ok (a, rest)) :
    ∃ ts', ts = .openBrace :: ts' ∨ ts = .openBracket :: ts' := by
  obtain ⟨_, _, hpeek, h⟩ := Reader.of_bind h
  cases hpeek
  cases ts with
  | nil => exact absurd h (run_wrongType_ne name)
  | cons t ts =>
    cases t with
    | openBrace => exact ⟨ts, .inl rfl⟩
    | openBracket => exact ⟨ts, .inr rfl⟩
    | _ => exact absurd h (run_wrongType_ne name)

/-- And from no other object. -/
theorem of_run_record (hm : m.Sound) {ts rest : List Token}
    (h : (Reader.record name m).run (.openBrace :: ts) = .ok (a, rest)) :
    ∃ values : List Member, .openBrace :: ts = objectTokens values ++ rest ∧
      (∀ v ∈ values, IsValue v.2) ∧ m.Filled values a := by
  obtain ⟨_, _, hpeek, h⟩ := Reader.of_bind h
  cases hpeek
  obtain ⟨_, _, hskip, h⟩ := Reader.of_bind h
  cases hskip
  obtain ⟨_, _, hget, h⟩ := Reader.of_bind h
  cases hget
  obtain ⟨d, after, hmembers, hend⟩ := Reader.of_bind h
  obtain ⟨values, rfl, -, hvalues, htakes⟩ := Members.of_run_members hm hmembers
  cases hfinish : m.finish d with
  | error absent =>
    rw [hfinish] at hend
    cases hend
  | ok b =>
    rw [hfinish] at hend
    obtain ⟨_, after', hexpect, hpure⟩ := Reader.of_bind hend
    cases hpure
    obtain rfl := run_expect_iff.1 hexpect
    refine ⟨values, ?_, hvalues, d, htakes, hfinish⟩
    simp [objectTokens]

/-- A record of one member is read from the array of it. -/
theorem reads_record_one_array (name member : String) {read : Reader α} {v : List Token}
    (hv : IsValue v) (h : Reads read v a) :
    Reads (Reader.record name (.one member read)) (arrayTokens [v]) a := by
  obtain ⟨t, ts, rfl, hclose, -, hcomma, -⟩ := hv.exists_cons
  intro rest
  have hread := h (.closeBracket :: rest)
  have hnext : (Reader.nextElement 0).run (t :: ts ++ .closeBracket :: rest)
      = .ok (true, t :: ts ++ .closeBracket :: rest) := by
    cases t <;> first | exact absurd rfl hclose | exact absurd rfl hcomma | rfl
  have htokens : arrayTokens [t :: ts] ++ rest
      = .openBracket :: (t :: ts ++ .closeBracket :: rest) := by
    simp [arrayTokens, separated]
  rw [htokens]
  simp only [List.cons_append] at hread hnext ⊢
  simp [Reader.record, Reader.peek, Reader.skip, Reader.expect, Members.one, hnext, hread]

/-- And from no other array. -/
theorem of_run_record_one_array {member : String} {read : Reader α} (hread : read.Sound)
    {ts rest : List Token}
    (h : (Reader.record name (.one member read)).run (.openBracket :: ts) = .ok (a, rest)) :
    ∃ v, .openBracket :: ts = arrayTokens [v] ++ rest ∧ IsValue v ∧ Reads read v a := by
  obtain ⟨_, _, hpeek, h⟩ := Reader.of_bind h
  cases hpeek
  obtain ⟨_, _, hskip, h⟩ := Reader.of_bind h
  cases hskip
  obtain ⟨draft, after, horder, hend⟩ := Reader.of_bind h
  cases draft with
  | none => cases hend
  | some b =>
    obtain ⟨_, after', hexpect, hpure⟩ := Reader.of_bind hend
    cases hpure
    obtain rfl := run_expect_iff.1 hexpect
    obtain ⟨more, after', hnext, hrun⟩ := Reader.of_bind horder
    cases more with
    | false => cases hrun
    | true =>
      -- to see that there is an element takes nothing
      obtain rfl : after' = ts := by
        cases ts with
        | nil => cases hnext
        | cons t ts => cases t <;> cases hnext <;> rfl
      obtain ⟨b', after'', hb, hpure⟩ := Reader.of_bind hrun
      cases hpure
      obtain ⟨v, rfl, hv, hreads⟩ := hread _ _ _ hb
      refine ⟨v, ?_, hv, hreads⟩
      simp [arrayTokens, separated]

end Record

end Tenure.Json
