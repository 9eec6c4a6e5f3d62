import Tenure.Lease.Lock
import Tenure.Proofs.Lease.RecordText
import Tenure.Proofs.Store.Writing

/-!
# What a lock may write

The three operations of a lock differ in what they ask for and in what they
answer, but all of them read, decide and swap. A `Request` names one of
them, and `Replaces` says once and for all which record a request may put
in the place of which other. Whatever is proved about locks is proved from
this relation: a new term follows the stored one, a renewal and a release
keep it, and nobody's valid record gives way to another identity.

A request `grants` a term up to a deadline if it is answered by an
acquisition or a renewal. Then the store has accepted the record, and the
deadline is that of the record.
-/

namespace Tenure.Lease

/-- What a caller asks of its lock. -/
inductive Request where
  | acquire
  | renew (term : Term)
  | release (term : Term)
  deriving DecidableEq, Repr

/-- What it is told. -/
inductive Outcome where
  | acquired (outcome : AcquireOutcome)
  | renewed (outcome : RenewOutcome)
  | released (outcome : ReleaseOutcome)
  deriving DecidableEq, Repr

/-- The operation with another form of answers. -/
def Operation.map {α β : Type} (f : α → β) (op : Operation α) : Operation β where
  onRead now answer :=
    match op.onRead now answer with
    | (.done result, said) => (.done (result.map f), said)
    | (.swap expected record, said) => (.swap expected record, said)
  onSwap record answer := ((op.onSwap record answer).1.map f, (op.onSwap record answer).2)

/-- The operation that a request asks for. -/
def Lock.serve (l : Lock) (identity : String) : Request → Operation Outcome
  | .acquire => (l.acquire identity).map .acquired
  | .renew term => (l.renew identity term).map .renewed
  | .release term => (l.release identity term).map .released

/-- The term and the deadline up to which an answer lets the caller hold
the lease. -/
def Outcome.grant? : Request → Outcome → Option (Term × UInt64)
  | .acquire, .acquired (.acquired term deadline) => some (term, deadline)
  | .renew term, .renewed (.renewed deadline) => some (term, deadline)
  | _, _ => none

/-- Whether a record leaves the lease to an identity that wants it at
`now`. -/
def Record.isFreeFor (r : Record) (identity : String) (now : UInt64) : Prop :=
  r.isReleased = true ∨ r.isExpiredAt now = true ∨ r.holder = identity

instance (r : Record) (identity : String) (now : UInt64) :
    Decidable (r.isFreeFor identity now) :=
  inferInstanceAs (Decidable (_ ∨ _ ∨ _))

/-- A record is another's if it is neither given back nor expired nor the
caller's own. -/
theorem Record.taken_eq (r : Record) (identity : String) (now : UInt64) :
    (!r.isReleased && !r.isExpiredAt now && decide (r.holder ≠ identity))
      = !decide (r.isFreeFor identity now) := by
  cases hreleased : r.isReleased <;> cases hexpired : r.isExpiredAt now <;>
    simp [isFreeFor, hreleased, hexpired]

theorem Record.isHeldBy_iff {r : Record} {identity : String} {term : Term} :
    r.isHeldBy identity term = true ↔
      r.holder ≠ "" ∧ r.deadline ≠ 0 ∧ r.holder = identity ∧ r.term = term.value := by
  simp [isHeldBy, isReleased, and_assoc]

/-- **Which record a request may write** in the place of a record, or where
there was none. -/
inductive Replaces (identity : String) (duration : UInt64) :
    Request → Option Record → Record → Prop
  | first (now : UInt64) :
    Replaces identity duration .acquire none (.acquired identity 1 duration now)
  | next {old : Record} (now : UInt64) (free : old.isFreeFor identity now) :
    Replaces identity duration .acquire (some old)
      (.acquired identity (nextTerm (some old.term)) duration now)
  | renewed {old : Record} {term : Term} (now : UInt64)
      (held : old.isHeldBy identity term = true) (alive : old.isExpiredAt now = false) :
    Replaces identity duration (.renew term) (some old) (old.renewed now)
  | released {old : Record} {term : Term} (held : old.isHeldBy identity term = true) :
    Replaces identity duration (.release term) (some old) old.released

/-- Whether the clock reading that a record was written at is this one. A
release leaves the moment of the last renewal in place. -/
def Request.stamps (request : Request) (record : Record) (now : UInt64) : Prop :=
  match request with
  | .release _ => True
  | _ => record.renewedAt = now

theorem Operation.onRead_map_eq_swap {α β : Type} {f : α → β} {op : Operation α} {now : UInt64}
    {answer : Store.ReadAnswer} {expected : Option UInt64} {record : Record}
    (h : ((op.map f).onRead now answer).1 = .swap expected record) :
    (op.onRead now answer).1 = .swap expected record := by
  simp only [Operation.map] at h
  split at h
  · contradiction
  · rename_i heq
    rw [heq]
    simpa using h

theorem Operation.onRead_map_eq_done {α β : Type} {f : α → β} {op : Operation α} {now : UInt64}
    {answer : Store.ReadAnswer} {result : Except Error α}
    (h : (op.onRead now answer).1 = .done result) :
    ((op.map f).onRead now answer).1 = .done (result.map f) := by
  simp only [Operation.map]
  split
  · rename_i heq
    rw [heq] at h
    rw [Decision.done.inj h]
  · rename_i heq
    rw [heq] at h
    contradiction

theorem Operation.onRead_map_of_swap {α β : Type} {f : α → β} {op : Operation α} {now : UInt64}
    {answer : Store.ReadAnswer} {expected : Option UInt64} {record : Record}
    (h : (op.onRead now answer).1 = .swap expected record) :
    ((op.map f).onRead now answer).1 = .swap expected record := by
  simp only [Operation.map]
  split
  · rename_i heq
    rw [heq] at h
    contradiction
  · rename_i heq
    rw [heq] at h
    obtain ⟨rfl, rfl⟩ := Decision.swap.inj h
    rfl

variable {l : Lock} {identity : String} {request : Request}

section Reading

variable {now : UInt64} {answer : Store.ReadAnswer} {expected : Option UInt64} {record : Record}

/-- **Whoever finds the lease free goes for the next term of it.** -/
theorem Lock.onRead_acquire_of_free {found : Option (Record × UInt64)}
    (hcurrent : l.current answer = .ok found)
    (hfree : ∀ old version, found = some (old, version) → old.isFreeFor identity now) :
    ((l.acquire identity).onRead now answer).1 = .swap (found.map Prod.snd)
      (.acquired identity (nextTerm (found.map fun p => p.1.term)) l.duration now) := by
  simp only [acquire, hcurrent]
  cases found with
  | none => rfl
  | some p =>
    obtain ⟨old, version⟩ := p
    simp only [old.taken_eq, hfree old version rfl]
    rfl

/-- Whoever finds it another's is told so. -/
theorem Lock.onRead_acquire_of_taken {old : Record} {version : UInt64}
    (hcurrent : l.current answer = .ok (some (old, version)))
    (hother : ¬ old.isFreeFor identity now) :
    ((l.acquire identity).onRead now answer).1
      = .done (.ok (.heldByOther old.holder old.deadline)) := by
  simp only [acquire, hcurrent, old.taken_eq, hother]
  rfl

/-- **Whoever still holds the lease goes for the time that starts now.** -/
theorem Lock.onRead_renew_of_held {old : Record} {version : UInt64} {term : Term}
    (hcurrent : l.current answer = .ok (some (old, version)))
    (hheld : old.isHeldBy identity term = true) (halive : old.isExpiredAt now = false) :
    (l.renew identity term).onRead now answer = (.swap (some version) (old.renewed now), []) := by
  simp only [renew, hcurrent, hheld, halive]
  rfl

theorem replaces_of_acquire
    (h : ((l.acquire identity).onRead now answer).1 = .swap expected record) :
    ∃ found : Option (Record × UInt64), l.current answer = .ok found ∧
      expected = found.map Prod.snd ∧ record.renewedAt = now ∧
      Replaces identity l.duration .acquire (found.map Prod.fst) record := by
  simp only [Lock.acquire] at h
  cases hc : l.current answer with
  | error e => simp [hc] at h
  | ok found =>
    refine ⟨found, rfl, ?_⟩
    cases found with
    | none =>
      simp only [hc, Decision.swap.injEq] at h
      obtain ⟨rfl, rfl⟩ := h
      exact ⟨rfl, rfl, .first now⟩
    | some found =>
      obtain ⟨old, version⟩ := found
      simp only [hc] at h
      split at h
      · contradiction
      · rename_i hkept
        simp only [Decision.swap.injEq] at h
        obtain ⟨rfl, rfl⟩ := h
        refine ⟨rfl, rfl, .next now ?_⟩
        unfold Record.isFreeFor
        grind

theorem replaces_of_renew {term : Term}
    (h : ((l.renew identity term).onRead now answer).1 = .swap expected record) :
    ∃ found : Option (Record × UInt64), l.current answer = .ok found ∧
      expected = found.map Prod.snd ∧ record.renewedAt = now ∧
      Replaces identity l.duration (.renew term) (found.map Prod.fst) record := by
  simp only [Lock.renew] at h
  cases hc : l.current answer with
  | error e => simp [hc] at h
  | ok found =>
    refine ⟨found, rfl, ?_⟩
    cases found with
    | none => simp [hc] at h
    | some found =>
      obtain ⟨old, version⟩ := found
      simp only [hc] at h
      split at h
      · contradiction
      split at h
      · contradiction
      · rename_i hheld halive
        simp only [Decision.swap.injEq] at h
        obtain ⟨rfl, rfl⟩ := h
        exact ⟨rfl, rfl, .renewed now (by simpa using hheld) (by simpa using halive)⟩

theorem replaces_of_release {term : Term}
    (h : ((l.release identity term).onRead now answer).1 = .swap expected record) :
    ∃ found : Option (Record × UInt64), l.current answer = .ok found ∧
      expected = found.map Prod.snd ∧
      Replaces identity l.duration (.release term) (found.map Prod.fst) record := by
  simp only [Lock.release] at h
  cases hc : l.current answer with
  | error e => simp [hc] at h
  | ok found =>
    refine ⟨found, rfl, ?_⟩
    cases found with
    | none => simp [hc] at h
    | some found =>
      obtain ⟨old, version⟩ := found
      simp only [hc] at h
      split at h
      · rename_i hheld
        simp only [Decision.swap.injEq] at h
        obtain ⟨rfl, rfl⟩ := h
        exact ⟨rfl, .released hheld⟩
      · contradiction

/-- **What a request wants to write rests on what it has read**: on no
entry if it expects none, and otherwise on the record of the version that
it expects. -/
theorem replaces_of_onRead
    (h : ((l.serve identity request).onRead now answer).1 = .swap expected record) :
    ∃ found : Option (Record × UInt64), l.current answer = .ok found ∧
      expected = found.map Prod.snd ∧ request.stamps record now ∧
      Replaces identity l.duration request (found.map Prod.fst) record := by
  cases request with
  | acquire => exact replaces_of_acquire (Operation.onRead_map_eq_swap h)
  | renew term => exact replaces_of_renew (Operation.onRead_map_eq_swap h)
  | release term =>
    obtain ⟨found, hcurrent, hexpected, hreplaces⟩ :=
      replaces_of_release (Operation.onRead_map_eq_swap h)
    exact ⟨found, hcurrent, hexpected, trivial, hreplaces⟩

/-- An acquisition is for one term from now on. -/
theorem deadline_of_acquire
    (h : ((l.acquire identity).onRead now answer).1 = .swap expected record) :
    record.deadline = Saturating.add now l.duration := by
  obtain ⟨found, -, -, hnow, hreplaces⟩ := replaces_of_acquire h
  generalize found.map Prod.fst = old at hreplaces
  cases hreplaces with
  | first moment =>
    obtain rfl : moment = now := hnow
    rfl
  | next moment hfree =>
    obtain rfl : moment = now := hnow
    rfl

/-- A renewal keeps the term, -/
theorem term_of_renew {term : Term}
    (h : ((l.renew identity term).onRead now answer).1 = .swap expected record) :
    record.term = term.value := by
  obtain ⟨found, -, -, -, hreplaces⟩ := replaces_of_renew h
  generalize found.map Prod.fst = old at hreplaces
  cases hreplaces with
  | renewed moment hheld halive =>
    rw [Record.isHeldBy, Bool.and_eq_true, decide_eq_true_eq] at hheld
    exact hheld.2

/-- and a release gives it up. -/
theorem isReleased_of_release {term : Term}
    (h : ((l.release identity term).onRead now answer).1 = .swap expected record) :
    record.isReleased = true := by
  obtain ⟨found, -, -, hreplaces⟩ := replaces_of_release h
  generalize found.map Prod.fst = old at hreplaces
  cases hreplaces with
  | released hheld => exact Record.isReleased_released _

end Reading

/-- Nothing is granted before the store has accepted a record. -/
theorem grant?_eq_none_of_onRead {now : UInt64} {answer : Store.ReadAnswer} {outcome : Outcome}
    (h : ((l.serve identity request).onRead now answer).1 = .done (.ok outcome)) :
    outcome.grant? request = none := by
  cases request <;>
    simp only [Lock.serve, Operation.map, Lock.acquire, Lock.renew, Lock.release] at h <;>
    grind [Outcome.grant?, Except.map]

theorem swapped_eq_ok {answer : Store.WriteAnswer} (h : l.swapped answer = .ok (.ok ())) :
    ∃ a, answer = .ok a := by
  cases answer with
  | ok a => exact ⟨a, rfl⟩
  | error e => cases e <;> simp [Lock.swapped] at h

/-- **A grant speaks of the record that was stored for it.** -/
theorem grant?_of_onSwap {record : Record} {answer : Store.WriteAnswer} {outcome : Outcome}
    {term : Term} {deadline : UInt64}
    (h : ((l.serve identity request).onSwap record answer).1 = .ok outcome)
    (hgrant : outcome.grant? request = some (term, deadline)) :
    (∃ a, answer = .ok a) ∧ deadline = record.deadline ∧
      (request = .acquire ∧ term = ⟨record.term⟩ ∨ request = .renew term) := by
  cases request with
  | acquire =>
    simp only [Lock.serve, Operation.map, Lock.acquire] at h
    split at h
    · simp [Except.map] at h
    · rename_i hs
      simp only [Except.map, Except.ok.injEq] at h
      subst h
      simp only [Outcome.grant?, Option.some.injEq, Prod.mk.injEq] at hgrant
      exact ⟨swapped_eq_ok hs, hgrant.2.symm, .inl ⟨rfl, hgrant.1.symm⟩⟩
    · grind [Outcome.grant?, Except.map]
  | renew t =>
    simp only [Lock.serve, Operation.map, Lock.renew] at h
    split at h
    · simp [Except.map] at h
    · rename_i hs
      simp only [Except.map, Except.ok.injEq] at h
      subst h
      simp only [Outcome.grant?, Option.some.injEq, Prod.mk.injEq] at hgrant
      exact ⟨swapped_eq_ok hs, hgrant.2.symm, .inr (congrArg Request.renew hgrant.1)⟩
    · grind [Outcome.grant?, Except.map]
  | release t => cases outcome <;> simp [Outcome.grant?] at hgrant

/-! ## What is not granted -/

/-- A read acquires nothing. -/
theorem not_acquired_of_onRead {now : UInt64} {answer : Store.ReadAnswer}
    {result : Except Error AcquireOutcome}
    (h : ((l.acquire identity).onRead now answer).1 = .done result) (term : Term)
    (deadline : UInt64) : result ≠ .ok (.acquired term deadline) := by
  rintro rfl
  have hserve : ((l.serve identity .acquire).onRead now answer).1
      = .done (.ok (.acquired (.acquired term deadline))) := Operation.onRead_map_eq_done h
  cases grant?_eq_none_of_onRead hserve

/-- Nor does a swap that is not carried out. -/
theorem not_acquired_of_onSwap {record : Record} {answer : Store.WriteAnswer}
    (h : ∀ a, answer ≠ .ok a) (term : Term) (deadline : UInt64) :
    ((l.acquire identity).onSwap record answer).1 ≠ .ok (.acquired term deadline) := by
  intro hacquired
  have hserve : ((l.serve identity .acquire).onSwap record answer).1
      = .ok (.acquired (.acquired term deadline)) := by
    show ((l.acquire identity).onSwap record answer).1.map _ = _
    rw [hacquired]
    rfl
  obtain ⟨⟨a, ha⟩, -⟩ := grant?_of_onSwap hserve rfl
  exact h a ha

/-- Whether an answer says that the lease is not the caller's. -/
def Outcome.isRefusal : Outcome → Prop
  | .acquired (.heldByOther _ _) => True
  | .renewed (.lost _) => True
  | .released .alreadyReleased => True
  | _ => False

/-- A request that ends with the read has met a record that it cannot read
or is not to write over. -/
theorem done_of_onRead {now : UInt64} {answer : Store.ReadAnswer} {result : Except Error Outcome}
    (h : ((l.serve identity request).onRead now answer).1 = .done result) :
    (∃ e, l.current answer = .error e ∧ result = .error e) ∨
      ∃ outcome, result = .ok outcome ∧ outcome.isRefusal := by
  cases hc : l.current answer with
  | error e =>
    refine .inl ⟨e, rfl, ?_⟩
    cases request <;>
      simp only [Lock.serve, Operation.map, Lock.acquire, Lock.renew, Lock.release, hc,
        Decision.done.injEq] at h <;>
      exact h.symm
  | ok found =>
    right
    cases request <;>
      simp only [Lock.serve, Operation.map, Lock.acquire, Lock.renew, Lock.release, hc] at h <;>
      grind [Outcome.isRefusal, Except.map]

/-- A swap that was carried out is not answered by a refusal. -/
theorem onSwap_ok (l : Lock) (identity : String) (request : Request) (record : Record)
    (a : Store.WriteResult) :
    ∃ outcome, ((l.serve identity request).onSwap record (.ok a)).1 = .ok outcome ∧
      ¬ outcome.isRefusal := by
  cases request with
  | acquire => exact ⟨_, rfl, id⟩
  | renew term => exact ⟨_, rfl, id⟩
  | release term => exact ⟨_, rfl, id⟩

/-- A swap that another writer beat is answered by a refusal, unless what
that writer left cannot be read. -/
theorem onSwap_swapFailed (l : Lock) (identity : String) (request : Request) (record : Record)
    (key : String) (expected : Option UInt64) (actual : Option Store.Versioned) :
    (∃ entry e, actual = some entry ∧ l.decode entry.value = .error e ∧
      ((l.serve identity request).onSwap record (.error (.swapFailed key expected actual))).1
        = .error e) ∨
    ∃ outcome, ((l.serve identity request).onSwap record
      (.error (.swapFailed key expected actual))).1 = .ok outcome ∧ outcome.isRefusal := by
  cases actual with
  | none =>
    right
    cases request with
    | acquire => exact ⟨_, rfl, trivial⟩
    | renew term => exact ⟨_, rfl, trivial⟩
    | release term => exact ⟨_, rfl, trivial⟩
  | some entry =>
    cases request with
    | release term => exact .inr ⟨_, rfl, trivial⟩
    | acquire =>
      cases hdecode : l.decode entry.value with
      | error e =>
        refine .inl ⟨entry, e, rfl, hdecode, ?_⟩
        simp [Lock.serve, Operation.map, Lock.acquire, Lock.swapped, Lock.decodeActual, hdecode,
          Except.map]
      | ok winner =>
        refine .inr ⟨.acquired (.heldByOther winner.holder winner.deadline), ?_, trivial⟩
        simp [Lock.serve, Operation.map, Lock.acquire, Lock.swapped, Lock.decodeActual, hdecode,
          Except.map]
    | renew term =>
      cases hdecode : l.decode entry.value with
      | error e =>
        refine .inl ⟨entry, e, rfl, hdecode, ?_⟩
        simp [Lock.serve, Operation.map, Lock.renew, Lock.swapped, Lock.decodeActual, hdecode,
          Except.map]
      | ok winner =>
        refine .inr ⟨.renewed (.lost (Lock.holder? winner)), ?_, trivial⟩
        simp [Lock.serve, Operation.map, Lock.renew, Lock.swapped, Lock.decodeActual, hdecode,
          Except.map]

/-- Any other failure of a swap is passed on. -/
theorem onSwap_error {e : Store.Error} (h : l.swapped (.error e) = .error (.storage l.key e))
    (identity : String) (request : Request) (record : Record) :
    ((l.serve identity request).onSwap record (.error e)).1 = .error (.storage l.key e) := by
  cases request <;>
    simp [Lock.serve, Operation.map, Lock.acquire, Lock.renew, Lock.release, h, Except.map]

/-! ## Terms -/

/-- A new term is one above the stored one, as long as that is not the last
there is. -/
theorem toNat_nextTerm {term : UInt64} (h : (nextTerm (some term)).toNat < Saturating.top) :
    (nextTerm (some term)).toNat = term.toNat + 1 := by
  simp only [nextTerm, Saturating.toNat_add] at h ⊢
  have hone : (1 : UInt64).toNat = 1 := rfl
  omega

end Tenure.Lease
