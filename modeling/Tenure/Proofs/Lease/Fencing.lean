import Tenure.Proofs.Lease.Contention

/-!
# Terms fence

A term is a fencing token: whoever has seen a term can refuse what is done
for a smaller one. That is sound only if no term is ever given out twice
and a later one is always larger, whatever the calls on the lease do to one
another and however they fail.

Terms are computed from a record that was read earlier, so this is not a
matter of the arithmetic alone. A record is stored only in the place of the
one it was computed from (`Contention.Step.stores`), so the stored
records form a `Succession`, and everything else is read off that. Nothing
is asked of the clock or of the callers: the clock may go back, and callers
may share an identity.
-/

namespace Tenure.Lease

/-- **What a stored record takes over** from the one before it: an
acquisition counts its term up, starting from 1, and everything else leaves
the term as it was acquired. -/
def Succeeds : Option Record → Request → Record → Prop
  | none, .acquire, after => after.term.toNat = 1
  | some before, .acquire, after => after.term.toNat = before.term.toNat + 1
  | none, _, _ => False
  | some before, _, after =>
    after.term = before.term ∧ after.acquiredAt = before.acquiredAt ∧
      after.duration = before.duration

/-- Each record succeeds the one before it. -/
def Succession : Option Record → List (Request × Record) → Prop
  | _, [] => True
  | before, (request, after) :: later =>
    Succeeds before request after ∧ Succession (some after) later

/-- The later of two stored records has no smaller term, and a larger one
if it was stored by an acquisition. -/
def Fences (before : Record) (after : Request × Record) : Prop :=
  before.term ≤ after.2.term ∧ (after.1 = .acquire → before.term < after.2.term)

/-- The term that a call is told to have acquired. -/
def Label.acquired? {ι : Type} : Label ι → Option Term
  | .ends _ _ .acquire (some (.ok (.acquired (.acquired term _)))) _ => some term
  | _ => none

theorem Replaces.succeeds {identity : String} {duration : UInt64} {request : Request}
    {old? : Option Record} {record : Record} (h : Replaces identity duration request old? record)
    (hterm : record.term.toNat < Saturating.top) : Succeeds old? request record := by
  cases h with
  | first now => exact (rfl : (1 : UInt64).toNat = 1)
  | next now free => exact toNat_nextTerm hterm
  | renewed now held alive => exact ⟨rfl, rfl, rfl⟩
  | released held => exact ⟨rfl, rfl, rfl⟩

theorem Succeeds.fences {before : Record} {request : Request} {after : Record}
    (h : Succeeds (some before) request after) : Fences before (request, after) := by
  cases request with
  | acquire =>
    have hlt : before.term < after.term := UInt64.lt_iff_toNat_lt.2 (by
      simp only [Succeeds] at h
      omega)
    exact ⟨UInt64.le_of_lt hlt, fun _ => hlt⟩
  | renew term => exact ⟨h.1 ▸ UInt64.le_refl _, fun hr => by simp at hr⟩
  | release term => exact ⟨h.1 ▸ UInt64.le_refl _, fun hr => by simp at hr⟩

theorem Fences.trans {a : Record} {b c : Request × Record} (hab : Fences a b)
    (hbc : Fences b.2 c) : Fences a c :=
  ⟨UInt64.le_trans hab.1 hbc.1, fun hc => UInt64.lt_of_le_of_lt hab.1 (hbc.2 hc)⟩

/-- **In a succession every record fences those after it.** -/
theorem Succession.fences {before : Option Record} {later : List (Request × Record)}
    (h : Succession before later) :
    (∀ r, before = some r → ∀ p ∈ later, Fences r p) ∧
      later.Pairwise fun a b => Fences a.2 b := by
  induction later generalizing before with
  | nil => exact ⟨fun _ _ _ hp => by simp at hp, .nil⟩
  | cons p later ih =>
    obtain ⟨request, after⟩ := p
    obtain ⟨hfirst, hlater⟩ := ih h.2
    refine ⟨?_, List.pairwise_cons.2 ⟨hfirst after rfl, hlater⟩⟩
    rintro r rfl p hp
    have hr := h.1.fences
    obtain rfl | hp := List.mem_cons.1 hp
    · exact hr
    · exact hr.trans (hfirst after rfl p hp)

namespace Contention

variable {ι : Type} [DecidableEq ι] {key : String} {rules : Rules ι} {w w' : Contention ι}
  {l : Label ι} {ls : List (Label ι)}

/-- **A call that is told a term has stored a record of it.** -/
theorem Step.stored?_of_acquired? (h : Step key rules w l w') {term : Term}
    (hl : l.acquired? = some term) :
    ∃ record, l.stored? = some (.acquire, record) ∧ record.term = term.value := by
  unfold Label.acquired? at hl
  split at hl
  · rename_i i identity t deadline stored
    obtain rfl := Option.some.inj hl
    obtain ⟨record, rfl, -, hterm⟩ := h.granted rfl
    obtain ⟨-, hterm⟩ | hrenew := hterm
    · exact ⟨record, rfl, (congrArg Term.value hterm).symm⟩
    · contradiction
  · contradiction

/-- The records that a run stores succeed one another. -/
theorem Run.succession (h : Run key rules w ls w') (hw : Sound key w)
    (hversions : versionAt key w.store + (stored ls).length < UInt64.size)
    (hterms : ∀ p ∈ stored ls, p.2.term.toNat < Saturating.top) :
    Succession (recordAt key w.store) (stored ls) := by
  induction h with
  | nil w => trivial
  | @cons w w₁ w₂ l ls hstep hrun ih =>
    rw [stored_cons] at hversions hterms ⊢
    rw [List.length_append] at hversions
    have hroom : versionAt key w.store + l.stored?.toList.length < UInt64.size := by omega
    have hnext := hstep.versionAt hroom
    have hlater := ih (hstep.sound hw hroom) (by omega)
      fun p hp => hterms p (List.mem_append_right _ hp)
    cases hl : l.stored? with
    | none =>
      rw [hstep.recordAt hl] at hlater
      exact hlater
    | some p =>
      obtain ⟨request, record⟩ := p
      obtain ⟨i, c, answer, -, rfl, hstores⟩ := hstep.stores hw hl
      rw [hstores.recordAt] at hlater
      exact ⟨hstores.replaces.succeeds (hterms (c.request, record) (by simp [hl])), hlater⟩

/-- Every label of a run is that of a step. -/
theorem Run.exists_step (h : Run key rules w ls w') (hl : l ∈ ls) :
    ∃ u u', Step key rules u l u' := by
  induction h with
  | nil w => simp at hl
  | @cons w w₁ w₂ m ls hstep hrun ih =>
    obtain rfl | hl := List.mem_cons.1 hl
    · exact ⟨w, w₁, hstep⟩
    · exact ih hl

/-- **Terms fence.** Let any number of calls work on a lease that is absent
or holds a record of this layout. As long as no stored term is the last one
there is, each stored record succeeds the one before it, each fences those
after it, and whoever is told a term has stored a record of that term by
acquiring it. So the terms that callers are told to have acquired grow
from each to the next, and no two are told the same. -/
theorem terms_fence (hidle : ∀ i, w.calls i = none)
    (hlayout : ∀ record, recordAt key w.store = some record → record.schema = schemaVersion)
    (hrun : Run key rules w ls w')
    (hversions : versionAt key w.store + (stored ls).length < UInt64.size)
    (hterms : ∀ p ∈ stored ls, p.2.term.toNat < Saturating.top) :
    Succession (recordAt key w.store) (stored ls) ∧
      (∀ r, recordAt key w.store = some r → ∀ p ∈ stored ls, Fences r p) ∧
      (stored ls).Pairwise (fun a b => Fences a.2 b) ∧
      (∀ l ∈ ls, ∀ term, l.acquired? = some term →
        ∃ record, l.stored? = some (.acquire, record) ∧ record.term = term.value) ∧
      (ls.filterMap Label.acquired?).Pairwise fun a b => a.value < b.value := by
  have hsound : Sound key w := ⟨fun i c hcall => by simp [hidle i] at hcall, hlayout⟩
  have hsuccession := hrun.succession hsound hversions hterms
  obtain ⟨hfirst, hpairs⟩ := hsuccession.fences
  have htold : ∀ l ∈ ls, ∀ term, l.acquired? = some term →
      ∃ record, l.stored? = some (.acquire, record) ∧ record.term = term.value := by
    intro l hl term hterm
    obtain ⟨u, u', hstep⟩ := hrun.exists_step hl
    exact hstep.stored?_of_acquired? hterm
  refine ⟨hsuccession, hfirst, hpairs, htold, List.pairwise_filterMap.2 ?_⟩
  -- Told terms are terms of stored records, and these grow with each acquisition.
  refine (List.pairwise_filterMap.1 hpairs).imp_of_mem ?_
  intro l m hl hm hfences a ha b hb
  obtain ⟨r, hr, hra⟩ := htold l hl a ha
  obtain ⟨r', hr', hrb⟩ := htold m hm b hb
  rw [← hra, ← hrb]
  exact (hfences _ hr _ hr').2 rfl

/-- Among these runs is the one in which a caller acquires the absent lease
for ten milliseconds, and another takes it over in the eleventh. They are
told the terms 1 and 2. -/
theorem terms_fence_takeover :
    ∃ (ls : List (Label Bool)) (w' : Contention Bool),
      Run "lease" ⟨fun _ _ => True, fun _ _ _ => True⟩ ⟨0, .empty, fun _ => none⟩ ls w' ∧
      stored ls = [(.acquire, .acquired "a" 1 10 0), (.acquire, .acquired "b" 2 10 11)] ∧
      ls.filterMap Label.acquired? = [⟨1⟩, ⟨2⟩] ∧
      Succession none (stored ls) ∧ (stored ls).Pairwise (fun a b => Fences a.2 b) ∧
      (ls.filterMap Label.acquired?).Pairwise fun a b => a.value < b.value := by
  let w : Contention Bool := ⟨0, .empty, fun _ => none⟩
  let rules : Rules Bool := ⟨fun _ _ => True, fun _ _ _ => True⟩
  let first : Record := .acquired "a" 1 10 0
  let second : Record := .acquired "b" 2 10 11
  have habsent : Lock.current ⟨"lease", 10⟩ (w.store.read "lease") = .ok none := rfl
  have hwritten : (w.carryOut "lease" none first).1 = .ok ⟨some 1⟩ := by decide +kernel
  let w₁ : Contention Bool := { w with store := (w.carryOut "lease" none first).2 }
  let w₂ : Contention Bool := { w₁ with clock := 11 }
  have hexpired : Lock.current ⟨"lease", 10⟩ (w₂.store.read "lease") = .ok (some (first, 1)) :=
    current_carryOut hwritten rfl 10
  have hfree : first.isFreeFor "b" 11 := by decide
  have hrewritten : (w₂.carryOut "lease" (some 1) second).1 = .ok ⟨some 2⟩ := by decide +kernel
  let w₃ : Contention Bool := { w₂ with store := (w₂.carryOut "lease" (some 1) second).2 }
  have hfirst : Run "lease" rules w
      [.begins false "a" .acquire, .quiet,
        .ends false "a" .acquire (some (.ok (.acquired (.acquired ⟨1⟩ 10)))) (some first)] w₁ :=
    Run.acquires rfl trivial habsent (fun _ _ h => by contradiction) rfl hwritten
  have hsecond : Run "lease" rules w₂
      [.begins true "b" .acquire, .quiet,
        .ends true "b" .acquire (some (.ok (.acquired (.acquired ⟨2⟩ 21)))) (some second)] w₃ :=
    Run.acquires rfl trivial hexpired (fun _ _ h => by cases h; exact hfree) rfl hrewritten
  have hrun := hfirst.append (.cons (.clock trivial : Step "lease" rules w₁ .quiet w₂) hsecond)
  obtain ⟨hsuccession, -, hpairs, -, hgrow⟩ := terms_fence (fun _ => rfl)
    (fun record h => by simp [w, recordAt] at h) hrun (by decide) (by decide)
  exact ⟨_, w₃, hrun, rfl, rfl, hsuccession, hpairs, hgrow⟩

end Contention

end Tenure.Lease
