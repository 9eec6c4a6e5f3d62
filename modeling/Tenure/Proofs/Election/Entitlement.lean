import Tenure.Proofs.Election.Contest

/-!
# What electors rely on

An elector relies on its lease up to the deadline it was told. It does so
from the moment at which the store has accepted the record, before the
answer arrives, so a `Claim` belongs to the phase of an elector and its
flight together. No turn makes a claim (`Turn.claim`): it comes with an
answer of the store.

A leader must not outlive its deadline, and renewals see to that. They are
due once in each interval, and a renewal may take no longer than the lease
lasts, so it is over by the deadline, and what it has renewed lasts beyond
the next interval (`Timely`). What they cannot see to is the first
interval. It begins when the answer of the store arrives, not when the
lease was acquired, and an answer is taken as long as any of the lease is
left.
-/

namespace Tenure.Election

open Lease (Contention Lock Operation Outcome Record Request)

/-! ## Claims -/

/-- **A term and a deadline that an elector relies on**, or has been
granted, though the answer may not have arrived. -/
inductive Claim (c : Candidate) : Phase → Flight → Term → UInt64 → Prop
  | leading {period : Period} {f : Flight} :
    Claim c (.leading period) f period.term period.deadline
  | renewing {period : Period} {call : Progress} {budget : UInt64} {giveUp : Nat} {f : Flight} :
    Claim c (.renewing period call budget giveUp) f period.term period.deadline
  | acquired {record : Record} {giveUp : Nat} {answer : Store.WriteAnswer} {term : Term}
      {deadline : UInt64}
      (h : ((c.lock.serve c.identity .acquire).onSwap record answer).1
        = .ok (.acquired (.acquired term deadline))) :
      Claim c (.acquiring (.swapping record) giveUp) (.swapped answer) term deadline
  | renewed {period : Period} {record : Record} {budget : UInt64} {giveUp : Nat}
      {answer : Store.WriteAnswer} {next : UInt64}
      (h : ((c.lock.serve c.identity (.renew period.term)).onSwap record answer).1
        = .ok (.renewed (.renewed next))) :
      Claim c (.renewing period (.swapping record) budget giveUp) (.swapped answer) period.term next

/-- **An answer grants a term** for a record that an elector has swapped, be
it to acquire the lease or to lead on. -/
def Grants (c : Candidate) (φ : Phase) (answer : Store.WriteAnswer) (record : Record)
    (term : Term) (deadline : UInt64) : Prop :=
  ∃ request outcome, φ.asked? = some (request, .swapping record) ∧
    (request = .acquire ∨ φ.leads = true) ∧
    ((c.lock.serve c.identity request).onSwap record answer).1 = .ok outcome ∧
    outcome.grant? request = some (term, deadline)

section Turn

variable {c : Candidate} {s : Surroundings} {φ φ' : Phase} {f f₀ f' : Flight} {st st' : State}
  {input : Input} {term : Term} {deadline : UInt64}

/-- A turn makes no claim that was not there before. -/
theorem Turn.claim (h : Turn c s φ f st input φ' f' st')
    (harrived : ∀ answer, input = .swapAnswered answer → f₀ = .swapped answer)
    (hc : Claim c φ' f' term deadline) : Claim c φ f₀ term deadline := by
  cases h with
  | rests hcall hleads hshown => cases hc <;> contradiction
  | asks hcall hleads hshown => cases hc <;> contradiction
  | resumes hcall hswap =>
    cases φ with
    | acquiring call giveUp => cases hc
    | renewing period call budget giveUp =>
      cases hc
      exact .renewing
    | drainRenewing period call budget giveUp stopped => cases hc
    | releasing term call giveUp => cases hc
    | _ => contradiction
  | hears => cases hc
  | takes hacquired =>
    rw [harrived _ rfl]
    cases hc
    exact .acquired hacquired
  | ticks hbudget =>
    cases hc
    exact .leading
  | renews hrenewed =>
    rw [harrived _ rfl]
    cases hc
    exact .renewed hrenewed

/-- Whoever has a claim asks for nothing but its renewal. -/
theorem Claim.request (h : Claim c φ f term deadline) {call : Lease.Call}
    (hcall : c.callOf φ f = some call) : ∃ term', call.request = .renew term' := by
  cases h with
  | leading =>
    rw [callOf_of_asked?_none rfl] at hcall
    contradiction
  | @renewing period call' budget giveUp f =>
    unfold Candidate.callOf at hcall
    obtain ⟨stage, -, rfl⟩ := Option.map_eq_some_iff.1 hcall
    exact ⟨period.term, rfl⟩
  | acquired h =>
    rw [callOf_swapped] at hcall
    contradiction
  | renewed h =>
    rw [callOf_swapped] at hcall
    contradiction

/-- Wherever the call has come, a claim was there before unless it rests on
an answer that grants it. -/
theorem Claim.granted (h : Claim c φ f' term deadline) (f : Flight) :
    Claim c φ f term deadline ∨
      ∃ answer record, f' = .swapped answer ∧ Grants c φ answer record term deadline := by
  cases h with
  | leading => exact .inl .leading
  | renewing => exact .inl .renewing
  | acquired h => exact .inr ⟨_, _, rfl, .acquire, _, rfl, .inl rfl, h, rfl⟩
  | @renewed period record budget giveUp answer next h =>
    exact .inr ⟨_, _, rfl, .renew period.term, _, rfl, .inr rfl, h, rfl⟩

end Turn

/-! ## Renewals in time

The moments of an elector are counted on the timer, and its deadlines are
clock readings, which are `origin` ahead of the timer. -/

/-- The lease lasts until the next renewal is due, or to the end of all
clocks. -/
def Period.Lasts (origin : Nat) (period : Period) : Prop :=
  min (origin + period.tick) Saturating.top ≤ period.deadline.toNat

/-- **A renewal under way is in time**: it will be over by the deadline and
before the next one is due, and if it is granted the lease lasts until
then. It was begun less than a renewal interval before that. -/
structure Timely (c : Candidate) (origin time : Nat) (period : Period) (call : Progress)
    (giveUp : Nat) (f : Flight) : Prop where
  early : time ≤ giveUp
  short : giveUp ≤ period.tick
  ahead : origin + giveUp ≤ period.deadline.toNat
  reading : ∀ now, call = .reading now →
    origin + period.tick ≤ now.toNat + c.timing.renewInterval.toNat
  swapping : ∀ record, call = .swapping record →
    origin + period.tick ≤ record.renewedAt.toNat + c.timing.renewInterval.toNat
  granted : ∀ record answer next, call = .swapping record → f = .swapped answer →
    ((c.lock.serve c.identity (.renew period.term)).onSwap record answer).1
      = .ok (.renewed (.renewed next)) →
    Period.Lasts origin { period with deadline := next }

/-- **What an elector is in time for.** A leader looks at its lease when
the next renewal is due, and the lease lasts until then unless the period
was `taken` late. -/
def Punctual (c : Candidate) (origin : Nat) (taken : Period → Prop) (time : Nat) :
    Phase → Flight → Prop
  | .leading period, _ => time ≤ period.tick ∧ (period.Lasts origin ∨ taken period)
  | .renewing period call _ giveUp, f => Timely c origin time period call giveUp f
  | _, _ => True

section Punctual

variable {c : Candidate} {s : Surroundings} {φ φ' : Phase} {f f₀ f' : Flight} {st st' : State}
  {input : Input} {origin : Nat} {taken : Period → Prop}

theorem punctual_of_leads_eq_false (h : φ.leads = false) (f : Flight) {time : Nat} :
    Punctual c origin taken time φ f := by
  cases φ <;> trivial

/-- **Turns keep an elector in time**, given that it is woken when it goes
on by itself. -/
theorem Turn.punctual (h : Turn c s φ f st input φ' f' st')
    (hclock : s.clock.toNat = origin + s.time)
    (harrived : ∀ answer, input = .swapAnswered answer → f₀ = .swapped answer)
    (hdue : input = .timeUp → ∀ due, φ.due = some due → due ≤ s.time)
    (htaken : ∀ call giveUp period, φ = .acquiring call giveUp → φ' = .leading period →
      period.tick = s.time + c.timing.renewInterval.toNat → taken period)
    (hφ : Punctual c origin taken s.time φ f₀) : Punctual c origin taken s.time φ' f' := by
  cases h with
  | rests hcall hleads hshown => exact punctual_of_leads_eq_false hleads _
  | asks hcall hleads hshown => exact punctual_of_leads_eq_false hleads _
  | @resumes φ f st request now answer expected record hcall hswap =>
    cases φ with
    | renewing period call budget giveUp =>
      obtain ⟨rfl, rfl⟩ := Prod.mk.inj (Option.some.inj hcall)
      obtain ⟨-, -, -, hstamps, -⟩ := Lease.replaces_of_onRead hswap
      obtain ⟨hearly, hshort, hahead, hreading, -, -⟩ := hφ
      refine ⟨hearly, hshort, hahead, fun now' hnow => by contradiction, ?_, ?_⟩
      · intro record' hrecord
        obtain rfl := Progress.swapping.inj hrecord
        rw [show record.renewedAt = now from hstamps]
        exact hreading now rfl
      · intro record' answer' next hrecord hflight
        contradiction
    | _ => trivial
  | hears => trivial
  | takes hacquired =>
    exact ⟨Nat.le_add_right _ _, .inr (htaken _ _ _ rfl rfl rfl)⟩
  | @ticks period budget f st hbudget =>
    obtain ⟨htick, -⟩ := hφ
    have htime : s.time = period.tick := Nat.le_antisymm htick (hdue rfl period.tick rfl)
    obtain ⟨-, hremaining, hinterval⟩ := Lease.of_renewBudget hbudget
    have hinterval := UInt64.le_iff_toNat_le.1 hinterval
    have hend := pauseEnd_le s.time budget.toNat
    have hnext : c.nextTick s.time period.tick = s.time + c.timing.renewInterval.toNat := by
      unfold Candidate.nextTick
      rw [htime, if_neg (by omega)]
    refine ⟨le_pauseEnd _ _, ?_, ?_, ?_, fun record hrecord => by contradiction,
      fun record answer next hrecord => by contradiction⟩
    · show pauseEnd s.time budget.toNat ≤ c.nextTick s.time period.tick
      omega
    · show origin + pauseEnd s.time budget.toNat ≤ period.deadline.toNat
      omega
    · intro now hnow
      obtain rfl := Progress.reading.inj hnow
      show origin + c.nextTick s.time period.tick ≤ s.clock.toNat + c.timing.renewInterval.toNat
      omega
  | renews hrenewed =>
    obtain ⟨hearly, hshort, -, -, -, hgranted⟩ := hφ
    exact ⟨Nat.le_trans hearly hshort,
      .inl (hgranted _ _ _ rfl (harrived _ rfl) hrenewed)⟩

/-- Time may pass up to the moment at which an elector goes on. -/
theorem Punctual.pass {time time' : Nat} (h : Punctual c origin taken time φ f)
    (hdue : ∀ due, φ.due = some due → time' ≤ due) : Punctual c origin taken time' φ f := by
  cases φ with
  | leading period => exact ⟨hdue _ rfl, h.2⟩
  | renewing period call budget giveUp =>
    obtain ⟨-, hshort, hahead, hreading, hswapping, hgranted⟩ := h
    exact ⟨hdue _ rfl, hshort, hahead, hreading, hswapping, hgranted⟩
  | _ => trivial

/-- As long as a renewal has not been granted, it does not matter where the
call is. -/
theorem Punctual.setFlight {time : Nat} (h : Punctual c origin taken time φ f)
    (hf' : ∀ period record budget giveUp answer next,
      φ = .renewing period (.swapping record) budget giveUp → f' = .swapped answer →
      Grants c φ answer record period.term next →
      Period.Lasts origin { period with deadline := next }) :
    Punctual c origin taken time φ f' := by
  cases φ with
  | renewing period call budget giveUp =>
    obtain ⟨hearly, hshort, hahead, hreading, hswapping, -⟩ := h
    refine ⟨hearly, hshort, hahead, hreading, hswapping, ?_⟩
    rintro record answer next rfl hflight hanswered
    exact hf' _ _ _ _ _ _ rfl hflight ⟨.renew period.term, _, rfl, .inr rfl, hanswered, rfl⟩
  | leading period => exact h
  | _ => trivial

end Punctual

end Tenure.Election
