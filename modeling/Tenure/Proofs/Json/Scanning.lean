import Mathlib.Data.List.Forall2
import Tenure.Json.Writer
import Tenure.Proofs.Json.Grammar

/-!
# The tokens of a written text

What the writer writes is JSON without blanks, and here it is taken apart
again: a written string is one token whose pieces spell it, a written
number is one token with its digits, and a written object is its brackets,
names and values in order.

A number has no mark at its end, so the token of a number depends on what
follows. `Spelled` therefore asks of the text behind a value that it does
not go on with the number, and an object is spelled whatever follows
because each of its values is followed by a comma or a brace.
-/

namespace Tenure.Json

open Tenure.Decimal (isDigit)

/-! ## Strings -/

/-- The piece that one written character is read as. -/
def writtenPiece (c : Char) : Piece :=
  if c.toNat < 32 ∧ c ≠ '\n' ∧ c ≠ '\r' ∧ c ≠ '\t' ∧ c ≠ '\x08' ∧ c ≠ '\x0c' then .unit c.toNat
  else .char c

/-- A digit to base sixteen is read as its value. -/
theorem hexValue_hexDigit {n : Nat} (h : n < 16) : hexValue (hexDigit n) = some n := by
  revert n
  decide

/-- A control character is written as the unit of its number. -/
theorem hexUnit_hexDigit {n : Nat} (h : n < 32) :
    hexUnit '0' '0' (hexDigit (n / 16)) (hexDigit (n % 16)) = some n := by
  have hzero : hexValue '0' = some 0 := by decide
  simp only [hexUnit, hzero, hexValue_hexDigit (show n / 16 < 16 by omega),
    hexValue_hexDigit (show n % 16 < 16 by omega), Option.bind_eq_bind, Option.bind_some,
    Option.pure_def, Option.some.injEq]
  omega

/-- One written character is one piece of its string. -/
theorem chars_escapeChar (c : Char) {cs rest : List Char} {pieces : List Piece}
    (h : Chars cs pieces rest) :
    Chars (escapeChar c ++ cs) (writtenPiece c :: pieces) rest := by
  by_cases hq : c = '"'
  · subst hq; exact .escape (by decide) h
  by_cases hb : c = '\\'
  · subst hb; exact .escape (by decide) h
  by_cases hn : c = '\n'
  · subst hn; exact .escape (by decide) h
  by_cases hr : c = '\r'
  · subst hr; exact .escape (by decide) h
  by_cases ht : c = '\t'
  · subst ht; exact .escape (by decide) h
  by_cases h8 : c = '\x08'
  · subst h8; exact .escape (by decide) h
  by_cases hf : c = '\x0c'
  · subst hf; exact .escape (by decide) h
  by_cases hc : c.toNat < 32
  · have hpiece : writtenPiece c = .unit c.toNat := if_pos ⟨hc, hn, hr, ht, h8, hf⟩
    simp only [escapeChar, hq, hb, hn, hr, ht, h8, hf, hc, if_true, if_false, hpiece]
    exact .unit (hexUnit_hexDigit hc) h
  · have hpiece : writtenPiece c = .char c := if_neg fun h => hc h.1
    simp only [escapeChar, hq, hb, hn, hr, ht, h8, hf, hc, if_false, hpiece]
    exact .plain hq hb hc h

/-- **A written string goes on up to its closing mark**, with one piece for
each of its characters. -/
theorem chars_written (s rest : List Char) :
    Chars (s.flatMap escapeChar ++ '"' :: rest) (s.map writtenPiece) rest := by
  induction s with
  | nil => exact .close rest
  | cons c s ih =>
    rw [List.flatMap_cons, List.append_assoc]
    exact chars_escapeChar c ih

/-- The pieces of a written string spell it. -/
theorem join_written (s : List Char) : Piece.join (s.map writtenPiece) = some s := by
  induction s with
  | nil => rfl
  | cons c s ih =>
    rw [List.map_cons, writtenPiece]
    split
    · rename_i h
      -- a control character is no half of a pair, whatever follows it
      have hhigh : ¬ (0xD800 ≤ c.toNat) := by omega
      have hlow : ¬ (0xDC00 ≤ c.toNat) := by omega
      rw [Piece.join.eq_def]
      split
      · contradiction
      · rename_i heq
        cases (List.cons.inj heq).1
      · rename_i heq
        obtain ⟨h1, h2⟩ := List.cons.inj heq
        cases h1
        rw [← h2, ih]
        simp [hhigh, hlow]
      · rename_i heq
        obtain ⟨h1, h2⟩ := List.cons.inj heq
        cases h1
        rw [← h2, ih]
        simp [hhigh]
    · rw [Piece.join, ih]
      rfl

/-! ## Numbers -/

/-- The numeral that a written number is read as. -/
def writtenNumeral (n : Nat) : Numeral := ⟨false, Nat.toDigits 10 n, [], none⟩

theorem isDigit_of_mem_toDigits {c : Char} {n : Nat} (h : c ∈ Nat.toDigits 10 n) :
    isDigit c = true := by
  have := Nat.isDigit_of_mem_toDigits (by decide) (by decide) h
  simpa [isDigit, Char.isDigit, Char.le_def] using this

/-- The digits of a number begin with a zero only if there is no other. -/
theorem eq_nil_of_toDigits_eq_zero_cons {n : Nat} {cs : List Char}
    (h : Nat.toDigits 10 n = '0' :: cs) : cs = [] := by
  induction n using Nat.strongRecOn generalizing cs with
  | ind n ih =>
    rw [Nat.toDigits_eq_if (by decide)] at h
    split at h
    · exact (List.cons.inj h).2.symm
    · rename_i hn
      cases hd : Nat.toDigits 10 (n / 10) with
      | nil => exact absurd hd Nat.toDigits_ne_nil
      | cons d ds =>
        rw [hd, List.cons_append] at h
        obtain ⟨rfl, -⟩ := List.cons.inj h
        have hds := ih (n / 10) (by omega) hd
        have hzero := Nat.ofDigitChars_ten_toDigits (n := n / 10)
        rw [hd, hds] at hzero
        simp [Nat.ofDigitChars_cons] at hzero
        omega

theorem isWhole_toDigits (n : Nat) : IsWhole (Nat.toDigits 10 n) := by
  refine ⟨⟨Nat.toDigits_ne_nil, fun c => isDigit_of_mem_toDigits⟩, fun hzero => ?_⟩
  obtain ⟨cs, hcs⟩ := List.head?_eq_some_iff.1 hzero
  rw [hcs, eq_nil_of_toDigits_eq_zero_cons hcs]

/-- **A written number is a number of the grammar**, without fraction and
exponent. -/
theorem spellsNumeral_natural (n : Nat) :
    SpellsNumeral false (natural n) (writtenNumeral n) := by
  have h : SpellsNumeral false _ _ := .mk (isWhole_toDigits n) .absent .absent
  rwa [List.append_nil, List.append_nil] at h

theorem ofDigits_toDigits (n : Nat) : Decimal.ofDigits (Nat.toDigits 10 n) 0 = n := by
  have h := Nat.ofDigitChars_ten_toDigits (n := n)
  rw [Nat.ofDigitChars_eq_foldl] at h
  rw [Decimal.ofDigits]
  refine Eq.trans (congrArg (fun f => List.foldl f 0 (Nat.toDigits 10 n)) ?_) h
  funext m c
  rw [Decimal.digitValue, Nat.mul_comm]
  rfl

/-! ## Texts -/

/-- **Whether a text spells tokens**, wherever it stands: in front of any
text that does not go on with a number. -/
def Spelled (text : List Char) (ts : List Token) : Prop :=
  ∀ rest ts', EndsNumber rest → Lexes rest ts' → Lexes (text ++ rest) (ts ++ ts')

theorem tokens_ofList {cs : List Char} {ts : List Token} (h : Spelled cs ts) :
    tokens (String.ofList cs) = ts := by
  have hall := h [] [] endsNumber_nil .nil
  rw [List.append_nil, List.append_nil, ← @String.toList_ofList cs] at hall
  exact (lexes_iff.1 hall).1

/-- A written string is one token. -/
theorem spelled_string (s : String) :
    Spelled (string s) [.string (s.toList.map writtenPiece)] := by
  intro rest ts _ h
  have hcons : string s ++ rest = '"' :: (s.toList.flatMap escapeChar ++ '"' :: rest) := by
    simp [string]
  rw [hcons]
  exact .token (.string (chars_written s.toList rest)) h

/-- A written number is one token. -/
theorem spelled_natural (n : Nat) : Spelled (natural n) [.number (writtenNumeral n)] := by
  intro rest ts hends h
  exact .token (.positive (spellsNumeral_natural n) hends) h

/-! ## Objects -/

/-- The pieces that a written name is read as. -/
def writtenName (name : String) : List Piece := name.toList.map writtenPiece

/-- **Whether members are written with these tokens**, each under its name. -/
def SpelledMembers (members : List (String × List Char)) (values : List Member) : Prop :=
  List.Forall₂ (fun m v => v.1 = writtenName m.1 ∧ Spelled m.2 v.2) members values

/-- One member is its name, a colon and its value. -/
theorem lexes_member (name : String) {text rest : List Char} {value ts : List Token}
    (hvalue : Spelled text value) (hends : EndsNumber rest) (h : Lexes rest ts) :
    Lexes (string name ++ ':' :: (text ++ rest))
      (Member.tokens (writtenName name, value) ++ ts) :=
  spelled_string name _ _ (endsNumber_cons (by decide))
    (.token (.colon _) (hvalue rest ts hends h))

/-- **A written object is its members between braces**, in their order. -/
theorem spelled_object {members : List (String × List Char)} {values : List Member}
    (h : SpelledMembers members values) : Spelled (object members) (objectTokens values) := by
  intro rest ts _ hrest
  have hclose : Lexes ('\x7d' :: rest) (.closeBrace :: ts) := .token (.closeBrace _) hrest
  have hmembers : Lexes (membersText members ++ '\x7d' :: rest)
      (separated (values.map Member.tokens) ++ .closeBrace :: ts) := by
    induction h with
    | nil => exact hclose
    | @cons m v ms vs hm hms ih =>
      obtain ⟨name, text⟩ := m
      obtain ⟨pieces, value⟩ := v
      obtain ⟨rfl, hvalue⟩ := hm
      cases hms with
      | nil =>
        have := lexes_member name hvalue (endsNumber_cons (by decide)) hclose
        simpa [membersText, separated] using this
      | cons hm' hms' =>
        have hcomma := Lexes.token (.comma _) ih
        have := lexes_member name hvalue (endsNumber_cons (by decide)) hcomma
        simpa [membersText, separated] using this
  have hall := Lexes.token (.openBrace _) hmembers
  simpa [object, objectTokens] using hall

end Tenure.Json
