import Mathlib.Data.List.TakeWhile
import Tenure.Json.Token

/-!
# The grammar of JSON texts

Which text is which sequence of tokens, as a grammar and without the
scanner: a token is a punctuation mark, one of three words, a string or a
number (`Lexeme`), and a text is lexemes with blanks between them (`Lexes`).

Two lexemes need more than their own characters. A string that is not closed
goes on to the end of the text, so the characters of a string are given with
what follows the closing mark (`Chars`). A number has no closing mark at all
and goes on as long as it can, so the grammar asks that what follows does not
go on with it (`EndsNumber`).

The scanner finds the lexemes of a text and no others (`lexes_iff`): its
tokens are those of the grammar, and it ends with the token `bad` exactly on
a text that has none.

Which tokens are a value is said of tokens alone (`IsValue`). Nothing is
asked of the names of an object here, neither that they differ nor that
their pieces spell characters: that is for whoever looks at the members.
-/

namespace Tenure.Json

open Tenure.Decimal (isDigit)

/-! ## Strings -/

/-- The rest of a string behind its opening quotation mark: the pieces up to
the closing mark, and the text behind it. -/
inductive Chars : List Char → List Piece → List Char → Prop
  | close (rest : List Char) : Chars ('"' :: rest) [] rest
  | plain {c : Char} {cs rest : List Char} {pieces : List Piece} (hquote : c ≠ '"')
    (hescape : c ≠ '\\') (hcontrol : ¬ c.toNat < 32) (h : Chars cs pieces rest) :
    Chars (c :: cs) (.char c :: pieces) rest
  | escape {c e : Char} {cs rest : List Char} {pieces : List Piece} (he : escaped c = some e)
    (h : Chars cs pieces rest) : Chars ('\\' :: c :: cs) (.char e :: pieces) rest
  | unit {a b c d : Char} {n : Nat} {cs rest : List Char} {pieces : List Piece}
    (hn : hexUnit a b c d = some n) (h : Chars cs pieces rest) :
    Chars ('\\' :: 'u' :: a :: b :: c :: d :: cs) (.unit n :: pieces) rest

/-- A character that is not escaped is scanned as itself. -/
theorem scanString_plain {c : Char} (hq : c ≠ '"') (hb : c ≠ '\\') (hc : ¬ c.toNat < 32)
    (cs : List Char) :
    scanString (c :: cs) = (scanString cs).map fun s => (.char c :: s.1, s.2) := by
  have hc' : (decide (c = '\\') || decide (c.toNat < 32)) = false := by simp [hb, hc]
  rw [scanString.eq_def]
  split
  · contradiction
  · rename_i h
    exact absurd (List.cons.inj h).1 hq
  · rename_i h
    exact absurd (List.cons.inj h).1 hb
  · rename_i h
    exact absurd (List.cons.inj h).1 hb
  · rename_i h
    obtain ⟨rfl, rfl⟩ := List.cons.inj h
    rw [hc']
    cases scanString cs <;> rfl

theorem Chars.scanString {cs rest : List Char} {pieces : List Piece} (h : Chars cs pieces rest) :
    scanString cs = some (pieces, rest) := by
  induction h with
  | close rest => rfl
  | plain hquote hescape hcontrol _ ih =>
    rw [scanString_plain hquote hescape hcontrol, ih]
    rfl
  | @escape c e cs rest pieces he _ ih =>
    -- the letter that begins a unit is no escape of one letter
    have hu : c ≠ 'u' := by
      rintro rfl
      have hnone : escaped 'u' = none := by decide
      rw [hnone] at he
      cases he
    rw [scanString.eq_def]
    simp [hu, he, ih]
  | unit hn _ ih => simp [Json.scanString, hn, ih]

theorem chars_of_scanString {cs rest : List Char} {pieces : List Piece}
    (h : scanString cs = some (pieces, rest)) : Chars cs pieces rest := by
  fun_induction scanString cs generalizing pieces rest with
  | case2 rest' =>
    cases h
    exact .close _
  | case3 a b c d cs n pieces' rest' hscan hn ih =>
    cases h
    exact .unit hn (ih hscan)
  | case5 c cs _ e pieces' rest' hscan he ih =>
    cases h
    exact .escape he (ih hscan)
  | case8 c cs hquote _ _ hplain pieces' rest' hscan ih =>
    cases h
    simp only [Bool.or_eq_true, decide_eq_true_eq, not_or] at hplain
    exact .plain hquote hplain.1 hplain.2 (ih hscan)
  | case1 | case4 | case6 | case7 | case9 => cases h

/-! ## Numbers -/

/-- Whether all characters are digits, and there is at least one. -/
def AreDigits (cs : List Char) : Prop := cs ≠ [] ∧ ∀ c ∈ cs, isDigit c = true

/-- **The digits of a whole number**: a zero, or digits that do not begin
with one. -/
def IsWhole (cs : List Char) : Prop := AreDigits cs ∧ (cs.head? = some '0' → cs = ['0'])

/-- A point and digits, or nothing. -/
inductive SpellsFraction : List Char → List Char → Prop
  | absent : SpellsFraction [] []
  | digits {cs : List Char} (h : AreDigits cs) : SpellsFraction ('.' :: cs) cs

/-- A sign, which a plus need not have. -/
inductive SpellsSign : List Char → Bool → Prop
  | absent : SpellsSign [] false
  | plus : SpellsSign ['+'] false
  | minus : SpellsSign ['-'] true

/-- The letter of an exponent, a sign and digits, or nothing. -/
inductive SpellsExponent : List Char → Option (Bool × List Char) → Prop
  | absent : SpellsExponent [] none
  | digits {e : Char} {sign cs : List Char} {negative : Bool} (he : e = 'e' ∨ e = 'E')
    (hsign : SpellsSign sign negative) (h : AreDigits cs) :
    SpellsExponent (e :: (sign ++ cs)) (some (negative, cs))

/-- **The text of a number** without its sign. -/
inductive SpellsNumeral (negative : Bool) : List Char → Numeral → Prop
  | mk {whole fractionText fraction exponentText : List Char}
    {exponent : Option (Bool × List Char)} (hwhole : IsWhole whole)
    (hfraction : SpellsFraction fractionText fraction)
    (hexponent : SpellsExponent exponentText exponent) :
    SpellsNumeral negative (whole ++ (fractionText ++ exponentText))
      ⟨negative, whole, fraction, exponent⟩

/-- Whether a text does not go on with digits. -/
def EndsDigits (rest : List Char) : Prop := ∀ c, rest.head? = some c → isDigit c = false

/-- **Whether a text does not go on with a number** that ends before it. -/
def EndsNumber (rest : List Char) : Prop :=
  ∀ c, rest.head? = some c → isDigit c = false ∧ c ≠ '.' ∧ c ≠ 'e' ∧ c ≠ 'E'

theorem endsNumber_nil : EndsNumber [] := fun _ h => nomatch h

theorem endsNumber_cons {c : Char} {rest : List Char}
    (h : isDigit c = false ∧ c ≠ '.' ∧ c ≠ 'e' ∧ c ≠ 'E') : EndsNumber (c :: rest) := by
  rintro d ⟨⟩
  exact h

theorem EndsNumber.endsDigits {rest : List Char} (h : EndsNumber rest) : EndsDigits rest :=
  fun c hc => (h c hc).1

/-- The digits of a run are all there are before something else. -/
theorem scanDigits_append {ds rest : List Char} (hds : ∀ c ∈ ds, isDigit c = true)
    (hrest : EndsDigits rest) : scanDigits (ds ++ rest) = (ds, rest) := by
  have hstop : rest.takeWhile isDigit = [] ∧ rest.dropWhile isDigit = rest := by
    cases rest with
    | nil => exact ⟨rfl, rfl⟩
    | cons c rest =>
      have hc := hrest c rfl
      exact ⟨List.takeWhile_cons_of_neg (by simp [hc]), List.dropWhile_cons_of_neg (by simp [hc])⟩
  rw [scanDigits, List.takeWhile_append_of_pos hds, List.dropWhile_append_of_pos hds, hstop.1,
    hstop.2, List.append_nil]

/-- A run of digits is digits, and it ends where they end. -/
theorem of_scanDigits {cs ds rest : List Char} (h : scanDigits cs = (ds, rest)) :
    cs = ds ++ rest ∧ (∀ c ∈ ds, isDigit c = true) ∧ EndsDigits rest := by
  obtain ⟨rfl, rfl⟩ := Prod.mk.inj h
  refine ⟨List.takeWhile_append_dropWhile.symm, fun c hc => List.mem_takeWhile_imp hc, ?_⟩
  intro c hc
  have hnot := List.head?_dropWhile_not isDigit cs
  rw [hc] at hnot
  simpa using hnot

/-- What a run of digits is as a whole number. -/
theorem scanWhole_eq {cs digits after : List Char} (h : scanDigits cs = (digits, after)) :
    scanWhole cs = if digits = [] then none
      else if digits.head? = some '0' ∧ digits ≠ ['0'] then none
      else some (digits, after) := by
  rw [scanWhole, h]
  split
  · rename_i heq
    rw [(Prod.mk.inj heq).1]
    rfl
  · rename_i heq
    obtain ⟨rfl, rfl⟩ := Prod.mk.inj heq
    rfl
  · rename_i cs' _ hzero heq
    obtain ⟨rfl, rfl⟩ := Prod.mk.inj heq
    have hmore : cs' ≠ [] := fun hnil => hzero hnil
    simp [hmore]
  · rename_i hnil hone hzero heq
    obtain ⟨rfl, rfl⟩ := Prod.mk.inj heq
    cases digits with
    | nil => exact absurd rfl hnil
    | cons c digits =>
      have hc : c ≠ '0' := by
        rintro rfl
        exact hzero digits rfl
      simp [hc]

theorem scanWhole_append {ds rest : List Char} (hds : IsWhole ds) (hrest : EndsDigits rest) :
    scanWhole (ds ++ rest) = some (ds, rest) := by
  rw [scanWhole_eq (scanDigits_append hds.1.2 hrest), if_neg hds.1.1, if_neg]
  exact fun h => h.2 (hds.2 h.1)

theorem of_scanWhole {cs ds rest : List Char} (h : scanWhole cs = some (ds, rest)) :
    cs = ds ++ rest ∧ IsWhole ds ∧ EndsDigits rest := by
  rw [scanWhole_eq rfl] at h
  split at h
  · cases h
  split at h
  · cases h
  · rename_i hne hzero
    cases h
    obtain ⟨hcs, hdigits, hends⟩ := of_scanDigits (show scanDigits cs = _ from rfl)
    refine ⟨hcs, ⟨⟨hne, hdigits⟩, fun hhead => ?_⟩, hends⟩
    by_contra hother
    exact hzero ⟨hhead, hother⟩

theorem scanFraction_append {text ds rest : List Char} (h : SpellsFraction text ds)
    (hrest : EndsDigits rest) (hpoint : rest.head? ≠ some '.') :
    scanFraction (text ++ rest) = some (ds, rest) := by
  cases h with
  | absent =>
    rw [List.nil_append, scanFraction.eq_def]
    split
    · exact absurd rfl hpoint
    · rfl
  | digits h =>
    rw [List.cons_append, scanFraction, scanDigits_append h.2 hrest]
    cases ds with
    | nil => exact absurd rfl h.1
    | cons c ds => rfl

theorem of_scanFraction {cs ds rest : List Char} (hcs : EndsDigits cs)
    (h : scanFraction cs = some (ds, rest)) :
    ∃ text, cs = text ++ rest ∧ SpellsFraction text ds ∧ EndsDigits rest := by
  rw [scanFraction.eq_def] at h
  split at h
  · split at h
    · cases h
    · rename_i hnil hscan
      cases h
      obtain ⟨rfl, hdigits, hends⟩ := of_scanDigits hscan
      exact ⟨_, rfl, .digits ⟨fun hds => hnil hds, hdigits⟩, hends⟩
  · cases h
    exact ⟨[], rfl, .absent, hcs⟩

theorem takeSign_append {sign cs rest : List Char} {negative : Bool}
    (h : SpellsSign sign negative) (hcs : AreDigits cs) :
    Decimal.takeSign (sign ++ (cs ++ rest)) = (negative, cs ++ rest) := by
  cases h with
  | plus => rfl
  | minus => rfl
  | absent =>
    cases cs with
    | nil => exact absurd rfl hcs.1
    | cons c cs =>
      have hc := hcs.2 c List.mem_cons_self
      rw [List.nil_append, List.cons_append, Decimal.takeSign.eq_def]
      split
      · rename_i heq
        rw [(List.cons.inj heq).1] at hc
        exact absurd hc (by decide)
      · rename_i heq
        rw [(List.cons.inj heq).1] at hc
        exact absurd hc (by decide)
      · rfl

theorem of_takeSign (cs : List Char) :
    ∃ sign, cs = sign ++ (Decimal.takeSign cs).2 ∧ SpellsSign sign (Decimal.takeSign cs).1 := by
  rw [Decimal.takeSign.eq_def]
  split
  · exact ⟨['-'], rfl, .minus⟩
  · exact ⟨['+'], rfl, .plus⟩
  · exact ⟨[], rfl, .absent⟩

theorem scanExponent_append {text rest : List Char} {exponent : Option (Bool × List Char)}
    (h : SpellsExponent text exponent) (hrest : EndsNumber rest) :
    scanExponent (text ++ rest) = some (exponent, rest) := by
  cases h with
  | absent =>
    cases rest with
    | nil => rfl
    | cons c rest =>
      obtain ⟨-, -, he, hE⟩ := hrest c rfl
      simp [scanExponent, he, hE]
  | @digits e sign ds negative he hsign hds =>
    have hletter : (decide (e = 'e') || decide (e = 'E')) = true := by simpa using he
    rw [List.cons_append, scanExponent, if_pos hletter, List.append_assoc,
      takeSign_append hsign hds]
    simp only [scanDigits_append hds.2 hrest.endsDigits]
    cases ds with
    | nil => exact absurd rfl hds.1
    | cons c ds => rfl

theorem of_scanExponent {cs rest : List Char} {exponent : Option (Bool × List Char)}
    (hcs : EndsDigits cs) (h : scanExponent cs = some (exponent, rest)) :
    ∃ text, cs = text ++ rest ∧ SpellsExponent text exponent ∧ EndsDigits rest := by
  rw [scanExponent.eq_def] at h
  split at h
  · cases h
    exact ⟨[], rfl, .absent, hcs⟩
  · rename_i c cs'
    split at h
    · rename_i hletter
      obtain ⟨sign, hcs', hsign⟩ := of_takeSign cs'
      simp only at h
      split at h
      · cases h
      · rename_i hnil hscan
        cases h
        obtain ⟨hafter, hdigits, hends⟩ := of_scanDigits hscan
        refine ⟨c :: (sign ++ _), ?_, .digits (by simpa using hletter) hsign
          ⟨fun hds => hnil hds, hdigits⟩, hends⟩
        rw [List.cons_append, List.append_assoc, ← hafter, ← hcs']
    · cases h
      exact ⟨[], rfl, .absent, hcs⟩

/-- What follows the digits before an exponent goes on with none of them. -/
theorem SpellsExponent.ends {text rest : List Char} {exponent : Option (Bool × List Char)}
    (h : SpellsExponent text exponent) (hrest : EndsNumber rest) :
    EndsDigits (text ++ rest) ∧ (text ++ rest).head? ≠ some '.' := by
  cases h with
  | absent => exact ⟨hrest.endsDigits, fun h => (hrest _ h).2.1 rfl⟩
  | digits he =>
    obtain rfl | rfl := he
    all_goals
      refine ⟨fun c hc => ?_, by simp⟩
      cases hc
      decide

theorem SpellsFraction.ends {text digits rest : List Char} (h : SpellsFraction text digits)
    (hrest : EndsDigits rest) : EndsDigits (text ++ rest) := by
  cases h with
  | absent => exact hrest
  | digits h =>
    intro c hc
    cases hc
    decide

/-- **A number is scanned up to its end.** -/
theorem SpellsNumeral.scanNumeral {negative : Bool} {text rest : List Char} {n : Numeral}
    (h : SpellsNumeral negative text n) (hrest : EndsNumber rest) :
    scanNumeral negative (text ++ rest) = some (n, rest) := by
  obtain ⟨hwhole, hfraction, hexponent⟩ := h
  obtain ⟨hends, hpoint⟩ := hexponent.ends hrest
  rw [Json.scanNumeral, List.append_assoc, List.append_assoc,
    scanWhole_append hwhole (hfraction.ends hends)]
  simp only [Option.bind_eq_bind, Option.bind_some, scanFraction_append hfraction hends hpoint,
    scanExponent_append hexponent hrest]
  rfl

theorem of_scanNumeral {negative : Bool} {cs rest : List Char} {n : Numeral}
    (h : scanNumeral negative cs = some (n, rest)) :
    ∃ text, cs = text ++ rest ∧ SpellsNumeral negative text n ∧ EndsDigits rest := by
  simp only [scanNumeral, Option.bind_eq_bind, Option.bind_eq_some_iff, Option.pure_def,
    Option.some.injEq, Prod.mk.injEq] at h
  obtain ⟨⟨whole, afterWhole⟩, hwhole, ⟨fraction, afterFraction⟩, hfraction,
    ⟨exponent, afterExponent⟩, hexponent, rfl, rfl⟩ := h
  obtain ⟨rfl, hw, hends⟩ := of_scanWhole hwhole
  obtain ⟨fractionText, hafter, hf, hends⟩ := of_scanFraction hends hfraction
  obtain ⟨exponentText, hafter', he, hends⟩ := of_scanExponent hends hexponent
  refine ⟨whole ++ (fractionText ++ exponentText), ?_, .mk hw hf he, hends⟩
  rw [hafter, hafter', List.append_assoc, List.append_assoc]

/-! ## Tokens -/

/-- **One token at the front of a text**, and the text behind it. -/
inductive Lexeme : List Char → Token → List Char → Prop
  | openBrace (rest : List Char) : Lexeme ('{' :: rest) .openBrace rest
  | closeBrace (rest : List Char) : Lexeme ('}' :: rest) .closeBrace rest
  | openBracket (rest : List Char) : Lexeme ('[' :: rest) .openBracket rest
  | closeBracket (rest : List Char) : Lexeme (']' :: rest) .closeBracket rest
  | colon (rest : List Char) : Lexeme (':' :: rest) .colon rest
  | comma (rest : List Char) : Lexeme (',' :: rest) .comma rest
  | null (rest : List Char) : Lexeme ('n' :: 'u' :: 'l' :: 'l' :: rest) .null rest
  | yes (rest : List Char) : Lexeme ('t' :: 'r' :: 'u' :: 'e' :: rest) (.boolean true) rest
  | no (rest : List Char) :
    Lexeme ('f' :: 'a' :: 'l' :: 's' :: 'e' :: rest) (.boolean false) rest
  | string {cs rest : List Char} {pieces : List Piece} (h : Chars cs pieces rest) :
    Lexeme ('"' :: cs) (.string pieces) rest
  | positive {text rest : List Char} {n : Numeral} (h : SpellsNumeral false text n)
    (hrest : EndsNumber rest) : Lexeme (text ++ rest) (.number n) rest
  | negative {text rest : List Char} {n : Numeral} (h : SpellsNumeral true text n)
    (hrest : EndsNumber rest) : Lexeme ('-' :: (text ++ rest)) (.number n) rest

/-- **The tokens of a text**: lexemes with blanks between them. -/
inductive Lexes : List Char → List Token → Prop
  | nil : Lexes [] []
  | blank {c : Char} {cs : List Char} {ts : List Token} (hc : isBlank c = true)
    (h : Lexes cs ts) : Lexes (c :: cs) ts
  | token {cs rest : List Char} {t : Token} {ts : List Token} (ht : Lexeme cs t rest)
    (h : Lexes rest ts) : Lexes cs (t :: ts)

theorem isBlank_of_isDigit {c : Char} (h : isDigit c = true) : isBlank c = false := by
  simp only [isBlank, Bool.or_eq_false_iff, decide_eq_false_iff_not]
  refine ⟨⟨⟨?_, ?_⟩, ?_⟩, ?_⟩ <;> rintro rfl <;> exact absurd h (by decide)

/-- What begins with a digit is a number. -/
theorem scanToken_of_isDigit {c : Char} (h : isDigit c = true) (cs : List Char) :
    scanToken (c :: cs) = (scanNumeral false (c :: cs)).map fun s => (.number s.1, s.2) := by
  rw [scanToken.eq_def]
  split
  case h_12 => rfl
  all_goals
    rename_i heq
    rw [(List.cons.inj heq).1] at h
    exact absurd h (by decide)

/-- A number begins with a digit. -/
theorem SpellsNumeral.exists_cons {negative : Bool} {text : List Char} {n : Numeral}
    (h : SpellsNumeral negative text n) : ∃ c cs, text = c :: cs ∧ isDigit c = true := by
  obtain ⟨hwhole, -, -⟩ := h
  rename_i whole _ _ _ _
  cases whole with
  | nil => exact absurd rfl hwhole.1.1
  | cons c cs => exact ⟨c, _, rfl, hwhole.1.2 c List.mem_cons_self⟩

theorem Lexeme.scanToken {cs rest : List Char} {t : Token} (h : Lexeme cs t rest) :
    scanToken cs = some (t, rest) := by
  cases h with
  | string h => rw [Json.scanToken, h.scanString]; rfl
  | positive h hrest =>
    have hscan := h.scanNumeral hrest
    obtain ⟨c, cs, rfl, hc⟩ := h.exists_cons
    rw [List.cons_append] at hscan ⊢
    rw [scanToken_of_isDigit hc, hscan]
    rfl
  | negative h hrest => rw [Json.scanToken, h.scanNumeral hrest]; rfl
  | _ => rfl

/-- A token begins with no blank and takes at least one character. -/
theorem Lexeme.exists_cons {cs rest : List Char} {t : Token} (h : Lexeme cs t rest) :
    ∃ c cs', cs = c :: cs' ∧ isBlank c = false := by
  cases h with
  | positive h hrest =>
    obtain ⟨c, cs, rfl, hc⟩ := h.exists_cons
    exact ⟨c, cs ++ rest, rfl, isBlank_of_isDigit hc⟩
  | _ => exact ⟨_, _, rfl, by decide⟩

theorem Chars.length_lt {cs rest : List Char} {pieces : List Piece} (h : Chars cs pieces rest) :
    rest.length < cs.length := by
  induction h with
  | close rest => exact Nat.lt_succ_self _
  | _ =>
    simp only [List.length_cons]
    omega

/-- What the scanner takes is a token of the grammar, if what follows goes
on as a text can go on behind a token. -/
theorem of_scanToken {cs rest : List Char} {t : Token} (h : scanToken cs = some (t, rest)) :
    rest.length < cs.length ∧
      ((∀ c, rest.head? = some c → c ≠ '.' ∧ c ≠ 'e' ∧ c ≠ 'E') → Lexeme cs t rest) := by
  have hnumber : ∀ {negative : Bool} {cs : List Char} {n : Numeral},
      scanNumeral negative cs = some (n, rest) → ∃ text, cs = text ++ rest ∧
        SpellsNumeral negative text n ∧
        ((∀ c, rest.head? = some c → c ≠ '.' ∧ c ≠ 'e' ∧ c ≠ 'E') → EndsNumber rest) := by
    intro negative cs n hscan
    obtain ⟨text, hcs, hspells, hends⟩ := of_scanNumeral hscan
    exact ⟨text, hcs, hspells, fun hhead c hc => ⟨hends c hc, hhead c hc⟩⟩
  rw [scanToken.eq_def] at h
  split at h
  case h_7 cs' =>
    obtain ⟨⟨pieces, rest'⟩, hscan, hsome⟩ := Option.map_eq_some_iff.1 h
    cases hsome
    have hchars := chars_of_scanString hscan
    have hlength := hchars.length_lt
    refine ⟨?_, fun _ => .string hchars⟩
    simp only [List.length_cons]
    omega
  case h_11 cs' =>
    obtain ⟨⟨n, rest'⟩, hscan, hsome⟩ := Option.map_eq_some_iff.1 h
    cases hsome
    obtain ⟨text, rfl, hspells, hends⟩ := hnumber hscan
    refine ⟨?_, fun hhead => .negative hspells (hends hhead)⟩
    simp only [List.length_cons, List.length_append]
    omega
  case h_12 =>
    obtain ⟨⟨n, rest'⟩, hscan, hsome⟩ := Option.map_eq_some_iff.1 h
    cases hsome
    obtain ⟨text, rfl, hspells, hends⟩ := hnumber hscan
    refine ⟨?_, fun hhead => .positive hspells (hends hhead)⟩
    obtain ⟨c, cs, rfl, -⟩ := hspells.exists_cons
    simp only [List.length_cons, List.length_append]
    omega
  all_goals
    cases h
    refine ⟨?_, fun _ => by constructor⟩
    simp only [List.length_cons]
    omega

/-- No text of tokens begins like the middle of a number. -/
theorem Lexes.head {cs : List Char} {ts : List Token} (h : Lexes cs ts) :
    ∀ c, cs.head? = some c → c ≠ '.' ∧ c ≠ 'e' ∧ c ≠ 'E' := by
  intro c hc
  cases cs with
  | nil => cases hc
  | cons d cs =>
    cases hc
    cases h with
    | blank hblank =>
      refine ⟨?_, ?_, ?_⟩ <;> rintro rfl <;> exact absurd hblank (by decide)
    | token ht =>
      have hscan := ht.scanToken
      refine ⟨?_, ?_, ?_⟩ <;> rintro rfl <;> cases hscan

/-! ## The scanner -/

theorem Lexes.scan {cs : List Char} {ts : List Token} (h : Lexes cs ts) :
    ∀ fuel, cs.length < fuel → scan fuel cs = ts := by
  induction h with
  | nil =>
    intro fuel hfuel
    cases fuel with
    | zero => exact absurd hfuel (Nat.not_lt_zero _)
    | succ fuel => rfl
  | @blank c cs ts hc _ ih =>
    intro fuel hfuel
    cases fuel with
    | zero => exact absurd hfuel (Nat.not_lt_zero _)
    | succ fuel =>
      rw [Json.scan, if_pos hc]
      exact ih fuel (Nat.lt_of_succ_lt_succ hfuel)
  | @token cs rest t ts ht _ ih =>
    intro fuel hfuel
    obtain ⟨c, cs', rfl, hblank⟩ := ht.exists_cons
    have hscan := ht.scanToken
    have hlength := (of_scanToken hscan).1
    cases fuel with
    | zero => exact absurd hfuel (Nat.not_lt_zero _)
    | succ fuel =>
      rw [Json.scan, hblank, hscan]
      have hrest := ih fuel (by omega)
      simp [hrest]

theorem lexes_of_scan {fuel : Nat} {cs : List Char} (hfuel : cs.length < fuel)
    (hbad : .bad ∉ scan fuel cs) : Lexes cs (scan fuel cs) := by
  induction fuel generalizing cs with
  | zero => exact absurd hfuel (Nat.not_lt_zero _)
  | succ fuel ih =>
    cases cs with
    | nil => exact .nil
    | cons c cs =>
      rw [scan] at hbad ⊢
      split at hbad
      · rename_i hblank
        rw [if_pos hblank]
        exact .blank hblank (ih (Nat.lt_of_succ_lt_succ hfuel) hbad)
      · rename_i hblank
        rw [if_neg hblank]
        cases hscan : scanToken (c :: cs) with
        | none =>
          rw [hscan] at hbad
          exact absurd List.mem_cons_self hbad
        | some found =>
          obtain ⟨t, rest⟩ := found
          rw [hscan] at hbad
          obtain ⟨hlength, hlexeme⟩ := of_scanToken hscan
          have hrest := ih (by omega) fun h => hbad (List.mem_cons_of_mem t h)
          exact .token (hlexeme hrest.head) hrest

theorem Lexes.bad_notMem {cs : List Char} {ts : List Token} (h : Lexes cs ts) : .bad ∉ ts := by
  induction h with
  | nil => exact List.not_mem_nil
  | blank _ _ ih => exact ih
  | token ht _ ih =>
    intro hmem
    obtain rfl | hmem := List.mem_cons.1 hmem
    · cases ht
    · exact ih hmem

/-- **The scanner finds the tokens of the grammar**, and the token `bad` in
a text that has none. -/
theorem lexes_iff {text : String} {ts : List Token} :
    Lexes text.toList ts ↔ tokens text = ts ∧ .bad ∉ ts := by
  constructor
  · exact fun h => ⟨h.scan _ (Nat.lt_succ_self _), h.bad_notMem⟩
  · rintro ⟨rfl, hbad⟩
    exact lexes_of_scan (Nat.lt_succ_self _) hbad

/-! ## Values -/

/-- Elements that stand behind another one. -/
def later (items : List (List Token)) : List Token := items.flatMap (.comma :: ·)

/-- Elements with commas between them. -/
def separated : List (List Token) → List Token
  | [] => []
  | item :: items => item ++ later items

/-- An array of these elements. -/
def arrayTokens (elements : List (List Token)) : List Token :=
  .openBracket :: (separated elements ++ [.closeBracket])

/-- A member of an object: the pieces of its name, and its value. -/
abbrev Member : Type := List Piece × List Token

/-- A member is its name, a colon and its value. -/
def Member.tokens (m : Member) : List Token := .string m.1 :: .colon :: m.2

/-- An object of these members. -/
def objectTokens (members : List Member) : List Token :=
  .openBrace :: (separated (members.map Member.tokens) ++ [.closeBrace])

/-- **Whether tokens are one value.** -/
inductive IsValue : List Token → Prop
  | null : IsValue [.null]
  | boolean (b : Bool) : IsValue [.boolean b]
  | number (n : Numeral) : IsValue [.number n]
  | string (pieces : List Piece) : IsValue [.string pieces]
  | array {elements : List (List Token)} (h : ∀ v ∈ elements, IsValue v) :
    IsValue (arrayTokens elements)
  | object {members : List Member} (h : ∀ m ∈ members, IsValue m.2) :
    IsValue (objectTokens members)

@[simp] theorem later_nil : later [] = [] := rfl

@[simp] theorem later_cons (item : List Token) (items : List (List Token)) :
    later (item :: items) = .comma :: (item ++ later items) := rfl

theorem mem_later {t : Token} {items : List (List Token)} :
    t ∈ later items ↔ ∃ item ∈ items, t = .comma ∨ t ∈ item := by
  simp only [later, List.mem_flatMap, List.mem_cons]

theorem mem_separated {t : Token} {items : List (List Token)} (h : t ∈ separated items) :
    ∃ item ∈ items, t = .comma ∨ t ∈ item := by
  cases items with
  | nil => cases h
  | cons item items =>
    obtain hitem | hlater := List.mem_append.1 h
    · exact ⟨item, List.mem_cons_self, .inr hitem⟩
    · obtain ⟨i, hi, ht⟩ := mem_later.1 hlater
      exact ⟨i, List.mem_cons_of_mem item hi, ht⟩

/-- Nothing in a value is no token. -/
theorem IsValue.bad_notMem {v : List Token} (h : IsValue v) : .bad ∉ v := by
  induction h with
  | array _ ih =>
    intro hmem
    simp only [arrayTokens, List.mem_cons, List.mem_append, List.not_mem_nil, reduceCtorEq,
      false_or, or_false] at hmem
    obtain ⟨item, hitem, heq | hbad⟩ := mem_separated hmem
    · cases heq
    · exact ih item hitem hbad
  | object _ ih =>
    intro hmem
    simp only [objectTokens, List.mem_cons, List.mem_append, List.not_mem_nil, reduceCtorEq,
      false_or, or_false] at hmem
    obtain ⟨item, hitem, heq | hbad⟩ := mem_separated hmem
    · cases heq
    · obtain ⟨m, hm, rfl⟩ := List.mem_map.1 hitem
      simp only [Member.tokens, List.mem_cons, reduceCtorEq, false_or] at hbad
      exact ih m hm hbad
  | _ => simp

/-- A value begins with a token that ends nothing and separates nothing. -/
theorem IsValue.exists_cons {v : List Token} (h : IsValue v) :
    ∃ t ts, v = t :: ts ∧ t ≠ .closeBracket ∧ t ≠ .closeBrace ∧ t ≠ .comma ∧ t ≠ .bad := by
  cases h <;> exact ⟨_, _, rfl, by simp⟩

end Tenure.Json
