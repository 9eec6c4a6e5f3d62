import Tenure.Proofs.Lease.Layout
import Tenure.Proofs.Lease.Overwriting

/-!
# The rule of a call

The three operations of a lock are made alike. Each looks at what the lock
finds under its key (`Lock.Finds`), and a `Rule` says which record it writes
in the place of that, if any. What is written is answered in one way, and
what there is nothing to write over in another.

Whoever goes by a rule (`Operation.Follows`) can be told apart by what the
store accepts (`Store.Accepts`) and by nothing else. As long as nobody else
writes, a swap is never beaten, so a write that is not accepted fails with
the refusal of the store, and there are three ways for a call to end
(`Operation.Follows.perform_cases`).
-/

namespace Tenure

/-- **Whether a store accepts a text under a key**: no fault is armed, and
both are within the limits. -/
def Store.Accepts (s : Store) (key text : String) : Prop :=
  s.Faultless ∧ key ≠ "" ∧ key.utf8ByteSize ≤ maxKeySize.toNat ∧
    text.utf8ByteSize ≤ maxValueSize.toNat

instance (s : Store) (key text : String) : Decidable (s.Accepts key text) :=
  inferInstanceAs (Decidable (_ ∧ _))

namespace Store

variable {s : Store} {key text : String}

theorem accepts_iff (expected : Option UInt64) :
    s.Accepts key text ↔
      s.Faultless ∧ validate (.compareAndSwap key expected text) = .ok () := by
  rw [validate_eq_ok_iff]
  simp [Accepts, Command.key, Command.value?]

/-- A text that is accepted replaces the entry of the version that is
there. -/
theorem Accepts.write (h : s.Accepts key text) :
    s.write (.compareAndSwap key (s.version? key) text)
      = (.ok ⟨some (nextVersion (s.version? key))⟩,
          s.put key ⟨text, nextVersion (s.version? key)⟩) := by
  obtain ⟨hfaultless, hvalid⟩ := (accepts_iff (s.version? key)).1 h
  rw [hfaultless.write_swap hvalid, if_pos rfl]

/-- A text that would be accepted, but for a version that is not there,
replaces nothing. -/
theorem Accepts.write_of_ne (h : s.Accepts key text) {expected : Option UInt64}
    (hversion : s.version? key ≠ expected) :
    s.write (.compareAndSwap key expected text)
      = (.error (.swapFailed key expected (s.get? key)), s) := by
  obtain ⟨hfaultless, hvalid⟩ := (accepts_iff expected).1 h
  rw [hfaultless.write_swap hvalid, if_neg hversion]

/-- What is stored makes no difference to what is accepted. -/
theorem Accepts.put (h : s.Accepts key text) (other : String) (entry : Entry) :
    (s.put other entry).Accepts key text := h

/-- A text that is not accepted is refused, and not for its version. -/
theorem write_of_not_accepts (h : ¬ s.Accepts key text) :
    ∃ e, (s.write (.compareAndSwap key (s.version? key) text)).1 = .error e ∧
      ∀ other version actual, e ≠ .swapFailed other version actual := by
  have hversion : s.version? key = s.version? key := rfl
  obtain ⟨a, ha⟩ | hrefused := s.write_swap_of_version text hversion
  · obtain ⟨hfaultless, hvalid, -⟩ := write_of_ok ha
    exact absurd ((accepts_iff _).2 ⟨hfaultless, hvalid⟩) h
  · exact hrefused

end Store

namespace Lease

open Store (nextVersion)

variable {l : Lock} {s : Store} {identity : String} {now : UInt64}

/-- **What a lock finds under its key**: nothing, or a record that it can
read. -/
inductive Lock.Finds (l : Lock) (s : Store) : Option Record → Prop
  | nothing (h : s.find? l.key = none) : Finds l s none
  | record {entry : Store.Entry} {r : Record} (h : s.find? l.key = some entry)
      (hdecode : l.decode entry.value = .ok r) : Finds l s (some r)

/-- A record that a lock can read has the known layout. -/
theorem Lock.schema_of_decode {text : String} {r : Record} (h : l.decode text = .ok r) :
    r.schema = schemaVersion := by
  unfold decode at h
  split at h
  · contradiction
  rename_i schema hschema
  split at h
  · contradiction
  rename_i hknown
  split at h
  · contradiction
  · rename_i record hrecord
    obtain rfl := Except.ok.inj h
    rw [Record.schema_of_parse hrecord hschema]
    exact not_not.1 hknown

theorem Lock.Finds.schema {r : Record} (h : l.Finds s (some r)) : r.schema = schemaVersion := by
  cases h with
  | record hentry hdecode => exact schema_of_decode hdecode

/-- A lock finds one thing only. -/
theorem Lock.Finds.unique {found found' : Option Record} (h : l.Finds s found)
    (h' : l.Finds s found') : found = found' := by
  cases h with
  | nothing hentry =>
    cases h' with
    | nothing hentry' => rfl
    | record hentry' hdecode' => rw [hentry] at hentry'; contradiction
  | record hentry hdecode =>
    cases h' with
    | nothing hentry' => rw [hentry] at hentry'; contradiction
    | record hentry' hdecode' =>
      rw [hentry] at hentry'
      obtain rfl := Option.some.inj hentry'
      rw [hdecode] at hdecode'
      rw [Except.ok.inj hdecode']

/-- Faults hide nothing from this view. -/
theorem Lock.Finds.of_find?_eq {s' : Store} {found : Option Record} (h : l.Finds s found)
    (hsame : s'.find? l.key = s.find? l.key) : l.Finds s' found := by
  cases h with
  | nothing hentry => exact .nothing (hsame.trans hentry)
  | record hentry hdecode => exact .record (hsame.trans hentry) hdecode

/-- **What is found is what a read reports**, as long as the store
answers. -/
theorem Lock.Finds.current {found : Option Record} (h : l.Finds s found)
    (havailable : s.unavailable = false) :
    ∃ current, l.current (s.read l.key) = .ok current ∧ current.map Prod.fst = found := by
  cases h with
  | nothing hentry =>
    refine ⟨none, ?_, rfl⟩
    rw [Store.read, havailable, Store.get?, hentry]
    rfl
  | @record entry r hentry hdecode =>
    refine ⟨some (r, entry.version), ?_, rfl⟩
    rw [Store.read, havailable, Store.get?, hentry]
    show (l.decode entry.value).map _ = _
    rw [hdecode]
    rfl

/-- And nothing else is reported. -/
theorem Lock.finds_of_current {current : Option (Record × UInt64)}
    (h : l.current (s.read l.key) = .ok current) :
    s.unavailable = false ∧ l.Finds s (current.map Prod.fst) := by
  cases havailable : s.unavailable with
  | true =>
    rw [Store.read, havailable] at h
    contradiction
  | false =>
    refine ⟨rfl, ?_⟩
    rw [Store.read, havailable, Store.get?] at h
    cases hentry : s.find? l.key with
    | none =>
      rw [hentry] at h
      obtain rfl := Except.ok.inj h
      exact .nothing hentry
    | some entry =>
      rw [hentry] at h
      change (l.decode entry.value).map _ = _ at h
      cases hdecode : l.decode entry.value with
      | error e => rw [hdecode] at h; contradiction
      | ok r =>
        rw [hdecode] at h
        obtain rfl := Except.ok.inj h
        exact .record hentry hdecode

/-- A record that was swapped in is found. -/
theorem Lock.finds_put (l : Lock) (s : Store) {r : Record} (h : r.schema = schemaVersion)
    (version : UInt64) : l.Finds (s.put l.key ⟨r.text, version⟩) (some r) :=
  .record (Store.find?_put_self _ _ _) (l.decode_text h)

/-! ## Rules -/

/-- **The rule of a call**: which record it writes in the place of what it
finds, if any, and what it answers when that is done, and when there is
nothing to write. -/
structure Rule (α : Type) where
  write : Option Record → Option Record
  written : Record → α
  declined : Option Record → α

/-- Whether an operation goes by a rule. -/
structure Operation.Follows {α : Type} (op : Operation α) (l : Lock) (now : UInt64)
    (rule : Rule α) : Prop where
  fails : ∀ {answer e}, l.current answer = .error e → (op.onRead now answer).1 = .done (.error e)
  decides : ∀ {answer current}, l.current answer = .ok current →
    (op.onRead now answer).1 = match rule.write (current.map Prod.fst) with
      | some record => .swap (current.map Prod.snd) record
      | none => .done (.ok (rule.declined (current.map Prod.fst)))
  written : ∀ record a, (op.onSwap record (.ok a)).1 = .ok (rule.written record)
  refused : ∀ record {e}, l.swapped (.error e) = .error (.storage l.key e) →
    (op.onSwap record (.error e)).1 = .error (.storage l.key e)

section Following

variable {α : Type} {op : Operation α} {rule : Rule α} {found : Option Record} {record : Record}

/-- What the rule wants to write is written if the store accepts it. -/
theorem Operation.Follows.perform_of_accepts (h : op.Follows l now rule) (hfinds : l.Finds s found)
    (hwrite : rule.write found = some record) (haccepts : s.Accepts l.key record.text) :
    op.perform l now s = (.ok (rule.written record),
      s.put l.key ⟨record.text, nextVersion (s.version? l.key)⟩) := by
  obtain ⟨current, hcurrent, rfl⟩ := hfinds.current haccepts.1.1
  rw [Operation.perform, h.decides hcurrent, hwrite, version?_of_current hcurrent]
  simp only [Lock.swapCommand, haccepts.write, h.written]

/-- Where there is nothing to write, the store stays as it is. -/
theorem Operation.Follows.perform_of_declined (h : op.Follows l now rule)
    (havailable : s.unavailable = false) (hfinds : l.Finds s found)
    (hwrite : rule.write found = none) :
    op.perform l now s = (.ok (rule.declined found), s) := by
  obtain ⟨current, hcurrent, rfl⟩ := hfinds.current havailable
  rw [Operation.perform, h.decides hcurrent, hwrite]

/-- During an outage a call fails at the read. -/
theorem Operation.Follows.perform_of_unavailable (h : op.Follows l now rule)
    (hout : s.unavailable = true) :
    op.perform l now s = (.error (.storage l.key (.unavailable "injected outage")), s) := by
  have hread : l.current (s.read l.key)
      = .error (.storage l.key (.unavailable "injected outage")) := by
    rw [Store.read, if_pos hout]
    rfl
  rw [Operation.perform, h.fails hread]

/-- **There is no third way to succeed**: otherwise the call fails, and leaves
the entries as they are. -/
theorem Operation.Follows.perform_cases (h : op.Follows l now rule) (s : Store) :
    (∃ found record, l.Finds s found ∧ rule.write found = some record ∧
      s.Accepts l.key record.text ∧ op.perform l now s = (.ok (rule.written record),
        s.put l.key ⟨record.text, nextVersion (s.version? l.key)⟩)) ∨
    (s.unavailable = false ∧ ∃ found, l.Finds s found ∧ rule.write found = none ∧
      op.perform l now s = (.ok (rule.declined found), s)) ∨
    ∃ e, (op.perform l now s).1 = .error e ∧ (op.perform l now s).2.entries = s.entries := by
  cases hcurrent : l.current (s.read l.key) with
  | error e =>
    refine .inr (.inr ⟨e, ?_⟩)
    rw [Operation.perform, h.fails hcurrent]
    exact ⟨rfl, rfl⟩
  | ok current =>
    obtain ⟨havailable, hfinds⟩ := Lock.finds_of_current hcurrent
    cases hwrite : rule.write (current.map Prod.fst) with
    | none =>
      exact .inr (.inl ⟨havailable, _, hfinds, hwrite,
        h.perform_of_declined havailable hfinds hwrite⟩)
    | some record =>
      by_cases haccepts : s.Accepts l.key record.text
      · exact .inl ⟨_, record, hfinds, hwrite, haccepts,
          h.perform_of_accepts hfinds hwrite haccepts⟩
      · obtain ⟨e, he, hne⟩ := Store.write_of_not_accepts haccepts
        refine .inr (.inr ⟨.storage l.key e, ?_⟩)
        rw [Operation.perform, h.decides hcurrent, hwrite, version?_of_current hcurrent]
        refine ⟨?_, Store.entries_write_of_error he⟩
        simp only [Lock.swapCommand, he, h.refused record (swapped_of_ne hne)]

/-- **What is answered as written was written**: the record that the rule
wants in the place of what was found. -/
theorem Operation.Follows.perform_of_written (h : op.Follows l now rule) {a : α}
    (ha : ∀ found, rule.declined found ≠ a) (hok : (op.perform l now s).1 = .ok a) :
    ∃ found record, l.Finds s found ∧ rule.write found = some record ∧
      s.Accepts l.key record.text ∧ rule.written record = a ∧
      (op.perform l now s).2 = s.put l.key ⟨record.text, nextVersion (s.version? l.key)⟩ := by
  obtain ⟨found, record, hfinds, hwrite, haccepts, hperform⟩ | ⟨-, found, -, -, hperform⟩ |
    ⟨e, hfails, -⟩ := h.perform_cases s
  · rw [hperform] at hok
    exact ⟨found, record, hfinds, hwrite, haccepts, Except.ok.inj hok, congrArg Prod.snd hperform⟩
  · rw [hperform] at hok
    exact absurd (Except.ok.inj hok) (ha found)
  · rw [hfails] at hok
    contradiction

/-- It is answered just if the store accepts the record. -/
theorem Operation.Follows.perform_eq_written_iff (h : op.Follows l now rule) {a : α}
    (ha : ∀ found, rule.declined found ≠ a) :
    (op.perform l now s).1 = .ok a ↔
      ∃ found record, l.Finds s found ∧ rule.write found = some record ∧
        s.Accepts l.key record.text ∧ rule.written record = a := by
  constructor
  · intro hok
    obtain ⟨found, record, hfinds, hwrite, haccepts, hwritten, -⟩ := h.perform_of_written ha hok
    exact ⟨found, record, hfinds, hwrite, haccepts, hwritten⟩
  · rintro ⟨found, record, hfinds, hwrite, haccepts, rfl⟩
    rw [h.perform_of_accepts hfinds hwrite haccepts]

/-- **The caller is declined** just if the store tells of something that
there is nothing to write over. -/
theorem Operation.Follows.perform_eq_declined_iff (h : op.Follows l now rule) {a : α}
    (ha : ∀ record, rule.written record ≠ a) :
    (op.perform l now s).1 = .ok a ↔ s.unavailable = false ∧
      ∃ found, l.Finds s found ∧ rule.write found = none ∧ rule.declined found = a := by
  constructor
  · intro hok
    obtain ⟨found, record, -, -, -, hperform⟩ | ⟨havailable, found, hfinds, hwrite, hperform⟩ |
      ⟨e, hfails, -⟩ := h.perform_cases s
    · rw [hperform] at hok
      exact absurd (Except.ok.inj hok) (ha record)
    · rw [hperform] at hok
      exact ⟨havailable, found, hfinds, hwrite, Except.ok.inj hok⟩
    · rw [hfails] at hok
      contradiction
  · rintro ⟨havailable, found, hfinds, hwrite, rfl⟩
    rw [h.perform_of_declined havailable hfinds hwrite]

/-- **A call writes only with the outcome that says so.** -/
theorem Operation.Follows.entries_perform (h : op.Follows l now rule)
    (hother : ∀ record, (op.perform l now s).1 ≠ .ok (rule.written record)) :
    (op.perform l now s).2.entries = s.entries := by
  obtain ⟨found, record, -, -, -, hperform⟩ | ⟨-, found, -, -, hperform⟩ | ⟨e, -, hentries⟩ :=
    h.perform_cases s
  · exact absurd (congrArg Prod.fst hperform) (hother record)
  · rw [hperform]
  · exact hentries

end Following

/-! ## The rules of the three operations -/

/-- The record of an acquisition after what was found. -/
def Lock.nextRecord (l : Lock) (identity : String) (now : UInt64) (found : Option Record) :
    Record :=
  .acquired identity (nextTerm (found.map (·.term))) l.duration now

/-- Whoever wants the lease takes it over unless it is another's. -/
def Lock.acquireRule (l : Lock) (identity : String) (now : UInt64) : Rule AcquireOutcome where
  write
    | none => some (l.nextRecord identity now none)
    | some r => if r.isFreeFor identity now then some (l.nextRecord identity now (some r)) else none
  written record := .acquired ⟨record.term⟩ record.deadline
  declined
    | none => .heldByOther "" 0
    | some r => .heldByOther r.holder r.deadline

/-- The holder of a term renews it until it expires. -/
def Lock.renewRule (identity : String) (term : Term) (now : UInt64) : Rule RenewOutcome where
  write
    | none => none
    | some r =>
      if r.isHeldBy identity term && !r.isExpiredAt now then some (r.renewed now) else none
  written record := .renewed record.deadline
  declined found := .lost (found.bind Lock.holder?)

/-- The holder of a term gives it back, expired or not. -/
def Lock.releaseRule (identity : String) (term : Term) : Rule ReleaseOutcome where
  write
    | none => none
    | some r => if r.isHeldBy identity term then some r.released else none
  written _ := .released
  declined _ := .alreadyReleased

/-- A record that is held names its holder. -/
theorem Lock.holder?_of_isHeldBy {r : Record} {identity : String} {term : Term}
    (h : r.isHeldBy identity term = true) : holder? r = some r.holder := by
  rw [holder?, if_neg fun hempty => (Record.isHeldBy_iff.1 h).1 (String.isEmpty_iff.1 hempty)]

theorem Lock.acquire_follows (l : Lock) (identity : String) (now : UInt64) :
    (l.acquire identity).Follows l now (l.acquireRule identity now) where
  fails h := by simp only [acquire, h]
  decides {answer current} h := by
    simp only [acquire, h]
    cases current with
    | none => rfl
    | some found =>
      obtain ⟨r, version⟩ := found
      simp only [Option.map_some, acquireRule, r.taken_eq]
      by_cases hfree : r.isFreeFor identity now
      · simp only [hfree]
        rfl
      · simp only [hfree]
        rfl
  written record a := rfl
  refused record {e} h := by simp only [acquire, h]

theorem Lock.renew_follows (l : Lock) (identity : String) (term : Term) (now : UInt64) :
    (l.renew identity term).Follows l now (renewRule identity term now) where
  fails h := by simp only [renew, h]
  decides {answer current} h := by
    simp only [renew, h]
    cases current with
    | none => rfl
    | some found =>
      obtain ⟨r, version⟩ := found
      simp only [Option.map_some, renewRule]
      cases hheld : r.isHeldBy identity term with
      | false => rfl
      | true =>
        cases hexpired : r.isExpiredAt now with
        | false => rfl
        | true =>
          show _ = Decision.done (.ok (RenewOutcome.lost (holder? r)))
          rw [holder?_of_isHeldBy hheld]
          rfl
  written record a := rfl
  refused record {e} h := by simp only [renew, h]

theorem Lock.release_follows (l : Lock) (identity : String) (term : Term) (now : UInt64) :
    (l.release identity term).Follows l now (releaseRule identity term) where
  fails h := by simp only [release, h]
  decides {answer current} h := by
    simp only [release, h]
    cases current with
    | none => rfl
    | some found =>
      obtain ⟨r, version⟩ := found
      simp only [Option.map_some, releaseRule]
      cases r.isHeldBy identity term with
      | false => rfl
      | true => rfl
  written record a := rfl
  refused record {e} h := by simp only [release, h]

/-! ## What the rules say -/

theorem Lock.acquireRule_write_eq_some_iff {found : Option Record} {record : Record} :
    (l.acquireRule identity now).write found = some record ↔
      (∀ r, found = some r → r.isFreeFor identity now) ∧
        l.nextRecord identity now found = record := by
  cases found with
  | none => simp [acquireRule]
  | some r =>
    show (if r.isFreeFor identity now then some (l.nextRecord identity now (some r)) else none)
      = some record ↔ _
    by_cases hfree : r.isFreeFor identity now <;> simp [hfree]

theorem Lock.acquireRule_write_eq_none_iff {found : Option Record} :
    (l.acquireRule identity now).write found = none ↔
      ∃ r, found = some r ∧ ¬ r.isFreeFor identity now := by
  cases found with
  | none => simp [acquireRule]
  | some r =>
    show (if r.isFreeFor identity now then some (l.nextRecord identity now (some r)) else none)
      = none ↔ _
    by_cases hfree : r.isFreeFor identity now <;> simp [hfree]

theorem Lock.renewRule_write_eq_some_iff {term : Term} {found : Option Record} {record : Record} :
    (renewRule identity term now).write found = some record ↔
      ∃ r, found = some r ∧ r.isHeldBy identity term = true ∧ r.isExpiredAt now = false ∧
        r.renewed now = record := by
  cases found with
  | none => simp [renewRule]
  | some r =>
    show (if _ then some (r.renewed now) else none) = some record ↔ _
    simp [Bool.and_eq_true, and_assoc]

theorem Lock.releaseRule_write_eq_some_iff {term : Term} {found : Option Record}
    {record : Record} :
    (releaseRule identity term).write found = some record ↔
      ∃ r, found = some r ∧ r.isHeldBy identity term = true ∧ r.released = record := by
  cases found with
  | none => simp [releaseRule]
  | some r =>
    show (if _ then some r.released else none) = some record ↔ _
    simp

/-- The rule with another form of answers. -/
def Rule.map {α β : Type} (f : α → β) (rule : Rule α) : Rule β where
  write := rule.write
  written record := f (rule.written record)
  declined found := f (rule.declined found)

theorem Operation.Follows.map {α β : Type} {op : Operation α} {rule : Rule α}
    (h : op.Follows l now rule) (f : α → β) : (op.map f).Follows l now (rule.map f) where
  fails hcurrent := onRead_map_eq_done (h.fails hcurrent)
  decides {answer current} hcurrent := by
    have hdecides := h.decides hcurrent
    show ((op.map f).onRead now answer).1 = match rule.write (current.map Prod.fst) with
      | some record => .swap (current.map Prod.snd) record
      | none => .done (.ok (f (rule.declined (current.map Prod.fst))))
    cases hwrite : rule.write (current.map Prod.fst) with
    | some record =>
      rw [hwrite] at hdecides
      exact onRead_map_of_swap hdecides
    | none =>
      rw [hwrite] at hdecides
      exact onRead_map_eq_done hdecides
  written record a := congrArg (Except.map f) (h.written record a)
  refused record {e} hswapped := congrArg (Except.map f) (h.refused record hswapped)

/-- The rule of a request. -/
def Lock.rule (l : Lock) (identity : String) (now : UInt64) : Request → Rule Outcome
  | .acquire => (l.acquireRule identity now).map .acquired
  | .renew term => (renewRule identity term now).map .renewed
  | .release term => (releaseRule identity term).map .released

theorem Lock.serve_follows (l : Lock) (identity : String) (request : Request) (now : UInt64) :
    (l.serve identity request).Follows l now (l.rule identity now request) := by
  cases request with
  | acquire => exact (l.acquire_follows identity now).map _
  | renew term => exact (l.renew_follows identity term now).map _
  | release term => exact (l.release_follows identity term now).map _

end Lease

end Tenure
