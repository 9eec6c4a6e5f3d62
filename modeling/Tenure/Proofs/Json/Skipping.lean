import Tenure.Json.Reader
import Tenure.Proofs.Json.Grammar

/-!
# What is skipped is a value

A value of any form is passed over without looking into it, by counting the
brackets that are open (`skipTokens`). What is passed over is exactly one
value of the grammar, and every value is passed over (`run_skipValue_iff`).

Half way through a value the skipper is inside the brackets that it has
still to close, so the statement that an induction proves has to say what
these brackets ask for: each of them some more elements of its kind and then
itself (`Closes`).
-/

namespace Tenure.Json

/-- What may stand between two commas inside a bracket that ends with this
token. -/
inductive IsItem : Token → List Token → Prop
  | element {v : List Token} (h : IsValue v) : IsItem .closeBracket v
  | member (pieces : List Piece) {v : List Token} (h : IsValue v) :
    IsItem .closeBrace (Member.tokens (pieces, v))

/-- **What ends the brackets that are open**, the innermost first: more
items, and the bracket itself. -/
def Closes : List Token → List Token → Prop
  | [], ts => ts = []
  | closer :: closers, ts => ∃ items rest, ts = later items ++ closer :: rest ∧
    (∀ i ∈ items, IsItem closer i) ∧ Closes closers rest

/-- Whether these are brackets that end something. -/
def AreClosers (closers : List Token) : Prop :=
  ∀ c ∈ closers, c = .closeBracket ∨ c = .closeBrace

theorem AreClosers.cons {c : Token} {closers : List Token} (h : AreClosers closers)
    (hc : c = .closeBracket ∨ c = .closeBrace) : AreClosers (c :: closers) :=
  List.forall_mem_cons.2 ⟨hc, h⟩

theorem IsItem.isValue {v : List Token} (h : IsItem .closeBracket v) : IsValue v := by
  cases h with
  | element h => exact h

/-- Items of an object are members. -/
theorem exists_members {items : List (List Token)} (h : ∀ i ∈ items, IsItem .closeBrace i) :
    ∃ members : List Member, items = members.map Member.tokens ∧ ∀ m ∈ members, IsValue m.2 := by
  induction items with
  | nil => exact ⟨[], rfl, fun _ hm => absurd hm List.not_mem_nil⟩
  | cons i items ih =>
    obtain ⟨hi, hitems⟩ := List.forall_mem_cons.1 h
    obtain ⟨members, rfl, hmembers⟩ := ih hitems
    cases hi with
    | @member pieces v hv =>
      exact ⟨(pieces, v) :: members, rfl, List.forall_mem_cons.2 ⟨hv, hmembers⟩⟩

/-! ## Only values are skipped -/

/-- What is passed over behind a value is what ends the open brackets. -/
def CloseSound (fuel : Nat) (closers ts : List Token) : Prop :=
  ∀ rest, AreClosers closers → skipTokens.close fuel closers ts = .ok rest →
    ∃ used, ts = used ++ rest ∧ Closes closers used

/-- What is passed over is a value and what ends the open brackets. -/
def SkipSound (fuel : Nat) (closers ts : List Token) : Prop :=
  ∀ rest, AreClosers closers → skipTokens fuel closers ts = .ok rest →
    ∃ v used, ts = v ++ (used ++ rest) ∧ IsValue v ∧ Closes closers used

/-- An opened bracket ends with its first item and what closes it. -/
theorem Closes.first {closer : Token} {closers item used : List Token} (hitem : IsItem closer item)
    (h : Closes (closer :: closers) used) :
    ∃ items rest, item ++ used = separated (item :: items) ++ closer :: rest ∧
      (∀ i ∈ item :: items, IsItem closer i) ∧ Closes closers rest := by
  obtain ⟨items, rest, rfl, hitems, hrest⟩ := h
  exact ⟨items, rest, (List.append_assoc _ _ _).symm, List.forall_mem_cons.2 ⟨hitem, hitems⟩, hrest⟩

/-- A further item belongs to what ends the bracket. -/
theorem Closes.more {closer : Token} {closers item used : List Token} (hitem : IsItem closer item)
    (h : Closes (closer :: closers) used) :
    Closes (closer :: closers) (.comma :: (item ++ used)) := by
  obtain ⟨items, rest, rfl, hitems, hrest⟩ := h
  refine ⟨item :: items, rest, ?_, List.forall_mem_cons.2 ⟨hitem, hitems⟩, hrest⟩
  rw [later_cons, List.cons_append, List.append_assoc]

/-- A value of one token. -/
theorem SkipSound.single {fuel : Nat} {closers ts : List Token} {t : Token} (ht : IsValue [t])
    (hskip : skipTokens (fuel + 1) closers (t :: ts) = skipTokens.close fuel closers ts)
    (h : CloseSound fuel closers ts) : SkipSound (fuel + 1) closers (t :: ts) := by
  intro rest hclosers hok
  rw [hskip] at hok
  obtain ⟨used, rfl, hused⟩ := h rest hclosers hok
  exact ⟨[t], used, rfl, ht, hused⟩

theorem SkipSound.array {fuel : Nat} {closers ts : List Token}
    (hfirst : ∀ rest, ts ≠ .closeBracket :: rest)
    (h : SkipSound fuel (.closeBracket :: closers) ts) :
    SkipSound (fuel + 1) closers (.openBracket :: ts) := by
  intro rest hclosers hok
  rw [skipTokens] at hok
  · obtain ⟨v, used, rfl, hv, hused⟩ := h rest (hclosers.cons (.inl rfl)) hok
    obtain ⟨items, after, heq, hitems, hafter⟩ := hused.first (.element hv)
    refine ⟨arrayTokens (v :: items), after, ?_, .array fun i hi => (hitems i hi).isValue, hafter⟩
    rw [← List.append_assoc, heq, arrayTokens]
    simp
  · exact hfirst

theorem SkipSound.object {fuel : Nat} {closers ts : List Token} {pieces : List Piece}
    (h : SkipSound fuel (.closeBrace :: closers) ts) :
    SkipSound (fuel + 1) closers (.openBrace :: .string pieces :: .colon :: ts) := by
  intro rest hclosers hok
  rw [skipTokens] at hok
  obtain ⟨v, used, rfl, hv, hused⟩ := h rest (hclosers.cons (.inr rfl)) hok
  obtain ⟨items, after, heq, hitems, hafter⟩ := hused.first (.member pieces hv)
  obtain ⟨members, hmembers, hvalues⟩ := exists_members hitems
  refine ⟨objectTokens members, after, ?_, .object hvalues, hafter⟩
  show .openBrace :: (Member.tokens (pieces, v) ++ (used ++ rest)) = _
  rw [← List.append_assoc, heq, objectTokens, ← hmembers]
  simp

theorem skipSound : ∀ (fuel : Nat) (closers ts : List Token), SkipSound fuel closers ts := by
  refine skipTokens.induct CloseSound SkipSound ?done ?member ?noMember ?element ?close ?noClose
    ?endOfText ?noFuel ?emptyArray ?array ?emptyObject ?object ?null ?boolean ?number ?string ?other
  case done =>
    intro fuel ts rest _ hok
    rw [skipTokens.close] at hok
    cases hok
    exact ⟨[], rfl, rfl⟩
  case member =>
    intro fuel closers pieces ts ih rest hclosers hok
    rw [skipTokens.close, if_pos rfl] at hok
    obtain ⟨v, used, rfl, hv, hused⟩ := ih rest hclosers hok
    refine ⟨.comma :: (Member.tokens (pieces, v) ++ used), ?_, hused.more (.member pieces hv)⟩
    simp [Member.tokens]
  case noMember =>
    intro fuel closers ts hno rest _ hok
    rw [skipTokens.close, if_pos rfl] at hok
    · cases hok
    · exact hno
  case element =>
    intro fuel closer closers ts hbrace ih rest hclosers hok
    rw [skipTokens.close.eq_def] at hok
    simp only [if_neg hbrace] at hok
    obtain rfl := (hclosers closer List.mem_cons_self).resolve_right hbrace
    obtain ⟨v, used, rfl, hv, hused⟩ := ih rest hclosers hok
    refine ⟨.comma :: (v ++ used), ?_, hused.more (.element hv)⟩
    simp
  case close =>
    intro fuel closers t ts hcomma ih rest hclosers hok
    rw [skipTokens.close, if_pos rfl] at hok
    · obtain ⟨used, rfl, hused⟩ := ih rest (List.forall_mem_cons.1 hclosers).2 hok
      exact ⟨t :: used, rfl, [], used, rfl, fun _ hi => absurd hi List.not_mem_nil, hused⟩
    · exact hcomma
  case noClose =>
    intro fuel closer closers t ts hcomma hne rest _ hok
    rw [skipTokens.close, if_neg hne] at hok
    · cases hok
    · exact hcomma
  case endOfText =>
    intro fuel closer closers rest _ hok
    rw [skipTokens.close] at hok
    cases hok
  case noFuel =>
    intro ts closers rest _ hok
    rw [skipTokens] at hok
    cases hok
  case emptyArray =>
    intro fuel closers ts ih rest hclosers hok
    rw [skipTokens] at hok
    obtain ⟨used, rfl, hused⟩ := ih rest hclosers hok
    exact ⟨arrayTokens [], used, rfl, .array fun _ h => absurd h List.not_mem_nil, hused⟩
  case array => exact fun fuel closers ts hfirst ih => SkipSound.array hfirst ih
  case emptyObject =>
    intro fuel closers ts ih rest hclosers hok
    rw [skipTokens] at hok
    obtain ⟨used, rfl, hused⟩ := ih rest hclosers hok
    exact ⟨objectTokens [], used, rfl, .object fun _ h => absurd h List.not_mem_nil, hused⟩
  case object => exact fun fuel closers pieces ts ih => SkipSound.object ih
  case null => exact fun fuel closers ts ih => SkipSound.single .null rfl ih
  case boolean => exact fun fuel closers b ts ih => SkipSound.single (.boolean b) rfl ih
  case number => exact fun fuel closers n ts ih => SkipSound.single (.number n) rfl ih
  case string => exact fun fuel closers pieces ts ih => SkipSound.single (.string pieces) rfl ih
  case other =>
    intro fuel closers ts h1 h2 h3 h4 h5 h6 h7 h8 rest _ hok
    rw [skipTokens] at hok
    · cases hok
    all_goals assumption

/-! ## Every value is skipped -/

/-- Whether tokens are passed over, whatever brackets are open, given fuel
for them and for what follows. -/
def Skips (v : List Token) : Prop :=
  ∀ (closers ts rest : List Token) (k : Nat),
    (∀ fuel, k ≤ fuel → skipTokens.close fuel closers ts = .ok rest) →
    ∀ fuel, k + v.length ≤ fuel → skipTokens fuel closers (v ++ ts) = .ok rest

/-- Whether an item is passed over behind the one before it. -/
def SkipsLater (closer : Token) (item : List Token) : Prop :=
  ∀ (closers ts rest : List Token) (k : Nat),
    (∀ fuel, k ≤ fuel → skipTokens.close fuel (closer :: closers) ts = .ok rest) →
    ∀ fuel, k + item.length ≤ fuel →
      skipTokens.close fuel (closer :: closers) (.comma :: (item ++ ts)) = .ok rest

theorem SkipsLater.element {v : List Token} (h : Skips v) : SkipsLater .closeBracket v := by
  intro closers ts rest k hts fuel hfuel
  rw [skipTokens.close.eq_def]
  exact h _ ts rest k hts fuel hfuel

theorem SkipsLater.member {m : Member} (h : Skips m.2) : SkipsLater .closeBrace m.tokens := by
  intro closers ts rest k hts fuel hfuel
  simp only [Member.tokens, List.length_cons] at hfuel
  rw [skipTokens.close.eq_def]
  exact h _ ts rest k hts fuel (by omega)

/-- The later items of a bracket, and the bracket. -/
theorem close_later {closer : Token} {closers items ts rest : List _} {k : Nat}
    (hcomma : closer ≠ .comma) (hitems : ∀ i ∈ items, SkipsLater closer i)
    (h : ∀ fuel, k ≤ fuel → skipTokens.close fuel closers ts = .ok rest) :
    ∀ fuel, k + (later items).length ≤ fuel →
      skipTokens.close fuel (closer :: closers) (later items ++ closer :: ts) = .ok rest := by
  induction items with
  | nil =>
    intro fuel hfuel
    rw [later_nil, List.nil_append, skipTokens.close, if_pos rfl]
    · exact h fuel hfuel
    · exact hcomma
  | cons i items ih =>
    obtain ⟨hi, hlater⟩ := List.forall_mem_cons.1 hitems
    intro fuel hfuel
    rw [later_cons, List.cons_append, List.append_assoc]
    rw [later_cons, List.length_cons, List.length_append] at hfuel
    exact hi _ _ rest _ (ih hlater) fuel (by omega)

/-- A value of one token is passed over. -/
theorem skips_single {t : Token} (ht : ∀ fuel closers ts,
    skipTokens (fuel + 1) closers (t :: ts) = skipTokens.close fuel closers ts) : Skips [t] := by
  intro closers ts rest k hts fuel hfuel
  cases fuel with
  | zero => exact absurd hfuel (Nat.not_succ_le_zero _)
  | succ fuel =>
    rw [List.singleton_append, ht]
    exact hts fuel (Nat.le_of_succ_le_succ hfuel)

theorem skips_array {elements : List (List Token)} (hvalues : ∀ v ∈ elements, IsValue v)
    (h : ∀ v ∈ elements, Skips v) : Skips (arrayTokens elements) := by
  intro closers ts rest k hts fuel hfuel
  cases fuel with
  | zero => exact absurd hfuel (Nat.not_succ_le_zero _)
  | succ fuel =>
    cases elements with
    | nil => exact hts fuel (by simp only [arrayTokens, List.length_cons] at hfuel; omega)
    | cons v vs =>
      obtain ⟨hv, hvs⟩ := List.forall_mem_cons.1 h
      have htokens : arrayTokens (v :: vs) ++ ts
          = .openBracket :: (v ++ (later vs ++ .closeBracket :: ts)) := by
        simp [arrayTokens, separated]
      have hnonempty : ∀ rest, v ++ (later vs ++ .closeBracket :: ts) ≠ .closeBracket :: rest := by
        obtain ⟨t, v', rfl, ht, -⟩ := (hvalues v List.mem_cons_self).exists_cons
        exact fun rest heq => ht (List.cons.inj heq).1
      rw [htokens, skipTokens]
      · refine hv _ _ rest _ (close_later (by simp) (fun i hi => .element (hvs i hi)) hts) fuel ?_
        simp only [arrayTokens, separated, List.length_cons, List.length_append] at hfuel
        omega
      · exact hnonempty

theorem skips_object {members : List Member} (h : ∀ m ∈ members, Skips m.2) :
    Skips (objectTokens members) := by
  intro closers ts rest k hts fuel hfuel
  cases fuel with
  | zero => exact absurd hfuel (Nat.not_succ_le_zero _)
  | succ fuel =>
    cases members with
    | nil => exact hts fuel (by simp only [objectTokens, List.length_cons] at hfuel; omega)
    | cons m ms =>
      obtain ⟨hm, hms⟩ := List.forall_mem_cons.1 h
      have htokens : objectTokens (m :: ms) ++ ts = .openBrace :: .string m.1 :: .colon ::
          (m.2 ++ (later (ms.map Member.tokens) ++ .closeBrace :: ts)) := by
        simp [objectTokens, separated, Member.tokens]
      have hlater : ∀ i ∈ ms.map Member.tokens, SkipsLater .closeBrace i := by
        intro i hi
        obtain ⟨m', hm', rfl⟩ := List.mem_map.1 hi
        exact .member (hms m' hm')
      rw [htokens, skipTokens]
      refine hm _ _ rest _ (close_later (by simp) hlater hts) fuel ?_
      simp only [objectTokens, separated, Member.tokens, List.map_cons, List.length_cons,
        List.length_append] at hfuel
      omega

theorem IsValue.skips {v : List Token} (h : IsValue v) : Skips v := by
  induction h with
  | null => exact skips_single fun _ _ _ => rfl
  | boolean b => exact skips_single fun _ _ _ => rfl
  | number n => exact skips_single fun _ _ _ => rfl
  | string pieces => exact skips_single fun _ _ _ => rfl
  | array hvalues ih => exact skips_array hvalues ih
  | object hvalues ih => exact skips_object ih

/-- **What is skipped is exactly one value.** -/
theorem run_skipValue_iff {ts rest : List Token} :
    Reader.skipValue.run ts = .ok ((), rest) ↔ ∃ v, ts = v ++ rest ∧ IsValue v := by
  have hrun : Reader.skipValue.run ts
      = (skipTokens (ts.length + 1) [] ts).map fun r => ((), r) := by
    simp only [Reader.skipValue]
    cases h : skipTokens (ts.length + 1) [] ts with
    | ok rest => simp [h, Except.map]; rfl
    | error e => simp [h, Except.map]; rfl
  rw [hrun]
  constructor
  · intro h
    cases hskip : skipTokens (ts.length + 1) [] ts with
    | error e =>
      rw [hskip] at h
      cases h
    | ok rest' =>
      rw [hskip] at h
      cases h
      obtain ⟨v, used, hts, hv, hused⟩ := skipSound _ _ _ rest (by simp [AreClosers]) hskip
      obtain rfl : used = [] := hused
      exact ⟨v, hts, hv⟩
  · rintro ⟨v, rfl, hv⟩
    rw [hv.skips [] rest rest 0 (fun fuel _ => by rw [skipTokens.close]) _
      (by rw [List.length_append]; omega)]
    rfl

end Tenure.Json
