import Tenure.Proofs.Election.ElectorWithStore

/-!
# What an elector leaves behind

When an elector has ended, others should find the lease free. Mostly they
do: whoever leads gives the lease back before anything else, and gives back
whatever it has, also if a renewal was cut short and it is not known how far
it came. But an elector may leave a lease behind, and no fault of the store
is needed for it.

* It is told to stop while an acquisition is on its way back: the store has
  written the lease, and nobody has heard of it
  (`LeaseEffect.cancelledInFlight`).
* An acquisition takes longer than it is given, and is carried out for all
  that (`LeaseEffect.acquireGivenUp`). By then the lease is past, unless it
  lasts longer than the attempt or the clock falls behind
  (`ElectorSetup.Outlasts`).
* The release, which is a read and a swap, takes longer than it is given,
  and the lease is left to run out (`LeaseEffect.releaseGivenUp`).

A lease of its own that is stored when an elector has ended is due to one of
the three, or has reached its deadline (`ElectorWithStore.leaves_no_lease`),
and each of these does happen (`ElectorWithStore.leases_left_behind`).
-/

namespace Tenure.Election

open Lease (Lock Operation Record)

namespace ElectorWithStore

/-! ## Turns -/

/-- A lease is spent when it may be left behind, or has reached its
deadline. -/
def Spent (S : ElectorSetup) (w : ElectorWithStore) (last : Option LeaseEffect) (r : Record) :
    Prop :=
  LeaseEffect.MayLeaveLease S last ∨ r.deadline ≤ w.clock

/-- The last step that mattered, after one more step. -/
def orLast (l : LeaseEffect) (last : Option LeaseEffect) : Option LeaseEffect :=
  if l.matters then some l else last

/-- What is known after a turn. -/
def Turns (S : ElectorSetup) (w : ElectorWithStore) (last : Option LeaseEffect) (input : Input)
    (f : Flight) (done : Elector × List Action) : Prop :=
  Keeps S w.store (w.Spent S (orLast (.ofTurn w.elector.phase w.flight input) last)) done.1.phase
    (flown done.2 f)

/-- Whatever is noted first makes no difference. -/
theorem Leaves.said {S : ElectorSetup} {s : Store} {spent : Record → Prop}
    {done : Elector × List Action} (h : Leaves S s spent done) (ns : List Notice) :
    Keeps S s spent done.1.phase (flown (Candidate.notes ns ++ done.2) .idle) := by
  rw [flown_append, flown_notes]
  exact h

section Turns

variable {S : ElectorSetup} {w : ElectorWithStore} {last : Option LeaseEffect} {n : UInt32}
  {input : Input} {f : Flight}
  {deaf : Bool} {chance : Float} {done : Elector × List Action} {spent : Record → Prop}

/-- **An answer** lets a call go on, or ends it. -/
theorem Arrives.answered {α : Type} {op : Operation α} {call : Progress}
    {resume : Progress → Elector} {conclude : Except Lease.Error α → Elector × List Action}
    (harrives : w.Arrives input f)
    (h : Candidate.answered op call input resume conclude = some done)
    (hends : ∀ {now answer result}, call = .reading now → w.flight = .read answer →
      (op.onRead now answer).1 = .done result → Leaves S w.store spent (conclude result))
    (hgoesOn : ∀ {now answer expected record}, call = .reading now → w.flight = .read answer →
      (op.onRead now answer).1 = .swap expected record →
      Keeps S w.store spent (resume (.swapping record)).phase (.swapping expected record))
    (hswapped : ∀ {record answer}, call = .swapping record → w.flight = .swapped answer →
      Leaves S w.store spent (conclude (op.onSwap record answer).1)) :
    Keeps S w.store spent done.1.phase (flown done.2 f) := by
  cases Candidate.of_answered h with
  | ends ns hread =>
    cases harrives with
    | readAnswered hflight => exact (hends rfl hflight hread).said ns
  | goesOn ns hread =>
    cases harrives with
    | readAnswered hflight =>
      show Keeps S w.store spent _ (flown (Candidate.notes ns ++ [.swap _ _]) .idle)
      rw [flown_append, flown_notes]
      exact hgoesOn rfl hflight hread
  | swapped ns =>
    cases harrives with
    | swapAnswered hflight => exact (hswapped rfl hflight).said ns

/-- An attempt that is not carried out leaves things as they are. -/
theorem of_attempt {call : Progress} {giveUp : Nat}
    (hdue : call.Due S giveUp) (hpending : ∀ a, w.flight ≠ .swapped (.ok a))
    (hspent : ∀ r, Owns S w.store r → spent r) (harrives : w.Arrives input f)
    (hstep : S.candidate.step (w.surroundings deaf chance) ⟨.acquiring call giveUp, n⟩ input
      = some done) : Keeps S w.store spent done.1.phase (flown done.2 f) := by
  cases input with
  | cancelled =>
    obtain rfl := Option.some.inj hstep
    exact .apart rfl hspent
  | timeUp =>
    obtain rfl := Option.some.inj hstep
    exact .apart rfl hspent
  | crash => cases harrives
  | _ =>
    simp only [Candidate.step] at hstep
    refine harrives.answered hstep (fun _ _ hdone => ?_) (fun hcall _ hswap => ?_)
      (fun _ hflight => ?_)
    · exact Leaves.attempted hspent n (Lease.not_acquired_of_onRead hdone)
    · subst hcall
      exact .attempts (hdue.of_onRead hswap) rfl (fun a ha => by contradiction) hspent
    · exact Leaves.attempted hspent n (Lease.not_acquired_of_onSwap fun a ha =>
        hpending a (ha ▸ hflight))

/-- An acquisition that is carried out is heard of, or is not. -/
theorem of_taken {record : Record} {giveUp : Nat} {a : Store.WriteResult}
    (hw : w.elector = ⟨.acquiring (.swapping record) giveUp, n⟩)
    (hflight : w.flight = .swapped (.ok a)) (hclock : S.Reads w.time w.clock)
    (hdue : (Progress.swapping record).Due S giveUp) (h : ∀ r, Owns S w.store r → r = record)
    (harrives : w.Arrives input f)
    (hstep : S.candidate.step (w.surroundings deaf chance)
      ⟨.acquiring (.swapping record) giveUp, n⟩ input = some done) :
    w.Turns S last input f done := by
  unfold Turns
  rw [hw, hflight]
  cases input with
  | cancelled =>
    obtain rfl := Option.some.inj hstep
    exact .apart rfl fun _ _ => .inl trivial
  | timeUp =>
    obtain rfl := Option.some.inj hstep
    refine .apart rfl fun r hr => ?_
    obtain rfl := h r hr
    have hpast : giveUp ≤ w.time := by
      cases harrives with
      | timeUp hphase hpast =>
        rw [hw] at hphase
        exact Option.some.inj hphase ▸ hpast
    -- the attempt was given until the end of the lease
    rcases hdue with houtlasts | ⟨origin, horigin, hdeadline⟩
    · exact .inl houtlasts
    · have hreads := hclock origin horigin
      rw [Progress.reach_swapping] at hdeadline
      refine .inr (UInt64.le_iff_toNat_le.2 ?_)
      omega
  | crash => cases harrives
  | _ =>
    simp only [Candidate.step] at hstep
    refine harrives.answered hstep (fun hcall => by contradiction) (fun hcall => by contradiction)
      fun hcall hanswer => ?_
    obtain rfl := Progress.swapping.inj hcall
    obtain rfl := Flight.swapped.inj (hflight.symm.trans hanswer)
    refine Leaves.acquired (fun r hr => ?_) (fun r hlate => .inr hlate) n
    obtain rfl := h r hr
    exact ⟨rfl, rfl⟩

section Term

variable {period : Period} {call : Progress} {budget : UInt64} {giveUp : Nat} {stopped : Bool}

theorem of_leading (hf : w.flight = .idle) (h : ∀ r, Owns S w.store r → r.term = period.term.value)
    (harrives : w.Arrives input f)
    (hstep : S.candidate.step (w.surroundings deaf chance) ⟨.leading period, n⟩ input
      = some done) : Keeps S w.store spent done.1.phase (flown done.2 f) := by
  cases input with
  | cancelled =>
    cases harrives with
    | cancelled hcancelled =>
      obtain rfl := Option.some.inj hstep
      rw [hf]
      exact Leaves.lose h n .shutdown
  | timeUp =>
    cases harrives with
    | timeUp hphase hpast =>
      simp only [Candidate.step, Candidate.onTick] at hstep
      cases hbudget : Lease.renewBudget period.deadline (w.surroundings deaf chance).clock
          S.candidate.timing.renewInterval with
      | some budget =>
        rw [hbudget] at hstep
        obtain rfl := Option.some.inj hstep
        exact .holds rfl trivial (fun _ _ hasked => by cases hasked) h
      | none =>
        rw [hbudget] at hstep
        obtain rfl := Option.some.inj hstep
        rw [hf]
        exact Leaves.lose h n .renewFailed
  | _ => contradiction

theorem of_renewing (h : ∀ r, Owns S w.store r → r.term = period.term.value)
    (harrives : w.Arrives input f)
    (hstep : S.candidate.step (w.surroundings deaf chance)
      ⟨.renewing period call budget giveUp, n⟩ input = some done) :
    Keeps S w.store spent done.1.phase (flown done.2 f) := by
  cases input with
  | cancelled =>
    obtain rfl := Option.some.inj hstep
    exact Leaves.lose h n .shutdown
  | timeUp =>
    obtain rfl := Option.some.inj hstep
    exact Leaves.renewed h n (S.candidate.tooLate budget)
  | crash => cases harrives
  | _ =>
    simp only [Candidate.step] at hstep
    refine harrives.answered hstep (fun _ _ _ => Leaves.renewed h n _) (fun _ _ hswap => ?_)
      (fun _ _ => Leaves.renewed h n _)
    exact .holds rfl rfl (fun _ _ hasked => by cases hasked; exact Lease.term_of_renew hswap) h

theorem of_draining (hf : w.flight = .idle) (h : ∀ r, Owns S w.store r → r.term = period.term.value)
    (harrives : w.Arrives input f)
    (hstep : S.candidate.step (w.surroundings deaf chance) ⟨.draining period, n⟩ input
      = some done) : Keeps S w.store spent done.1.phase (flown done.2 f) := by
  cases input with
  | stopped =>
    obtain rfl := Option.some.inj hstep
    exact Leaves.giveBack h n
  | timeUp =>
    cases harrives with
    | timeUp hphase hpast =>
      simp only [Candidate.step, Candidate.onTick] at hstep
      cases hbudget : Lease.renewBudget period.deadline (w.surroundings deaf chance).clock
          S.candidate.timing.renewInterval with
      | some budget =>
        rw [hbudget] at hstep
        obtain rfl := Option.some.inj hstep
        exact .holds rfl trivial (fun _ _ hasked => by cases hasked) h
      | none =>
        rw [hbudget] at hstep
        obtain rfl := Option.some.inj hstep
        rw [hf]
        exact Leaves.drainRenewed h n false (.ok (.lost none))
  | _ => contradiction

theorem of_drainRenewing (hf : w.flight.isOf (some (.renew period.term, call)))
    (hcall : ∀ record, call = .swapping record → record.term = period.term.value)
    (h : ∀ r, Owns S w.store r → r.term = period.term.value) (harrives : w.Arrives input f)
    (hstep : S.candidate.step (w.surroundings deaf chance)
      ⟨.drainRenewing period call budget giveUp stopped, n⟩ input = some done) :
    Keeps S w.store spent done.1.phase (flown done.2 f) := by
  cases input with
  | stopped =>
    cases harrives with
    | stopped =>
      obtain rfl := Option.some.inj hstep
      exact .holds rfl hf (fun _ _ hasked => hcall _ (Prod.mk.inj (Option.some.inj hasked)).2) h
  | timeUp =>
    obtain rfl := Option.some.inj hstep
    exact Leaves.drainRenewed h n stopped (S.candidate.tooLate budget)
  | crash => cases harrives
  | _ =>
    simp only [Candidate.step] at hstep
    refine harrives.answered hstep (fun _ _ _ => Leaves.drainRenewed h n stopped _)
      (fun _ _ hswap => ?_) (fun _ _ => Leaves.drainRenewed h n stopped _)
    exact .holds rfl rfl (fun _ _ hasked => by cases hasked; exact Lease.term_of_renew hswap) h

theorem of_awaitingStop {term : Term} (h : ∀ r, Owns S w.store r → r.term = term.value)
    (hstep : S.candidate.step (w.surroundings deaf chance) ⟨.awaitingStop term, n⟩ input
      = some done) : Keeps S w.store spent done.1.phase (flown done.2 f) := by
  cases input with
  | stopped =>
    obtain rfl := Option.some.inj hstep
    exact Leaves.giveBack h n
  | _ => contradiction

end Term

/-- Between terms nothing of its own changes. -/
theorem of_hasNoTerm {φ : Phase} (hφ : φ.hasNoTerm = true) (hf : w.flight = .idle)
    (hclock : S.Reads w.time w.clock) (h : ∀ r, Owns S w.store r → spent r)
    (harrives : w.Arrives input f)
    (hstep : S.candidate.step (w.surroundings deaf chance) ⟨φ, n⟩ input = some done) :
    Keeps S w.store spent done.1.phase (flown done.2 f) := by
  have hattempt : Leaves S w.store spent
      (S.candidate.attempt (w.surroundings deaf chance) n) :=
    Leaves.attempt hclock h n
  cases φ with
  | created =>
    cases harrives with
    | start =>
      obtain rfl := Option.some.inj hstep
      rw [hf]
      exact hattempt
    | _ => contradiction
  | standingBy wake =>
    cases harrives with
    | timeUp hphase hpast =>
      obtain rfl := Option.some.inj hstep
      rw [hf]
      exact hattempt
    | cancelled hcancelled =>
      obtain rfl := Option.some.inj hstep
      rw [hf]
      exact .apart rfl h
    | _ => contradiction
  | finished => cases input <;> contradiction
  | _ => contradiction

/-- What the release has found it gives back. -/
theorem of_releasing {term : Term} {call : Progress} {giveUp : Nat}
    (hw : w.elector = ⟨.releasing term call giveUp, n⟩)
    (hk : Keeps S w.store spent (.releasing term call giveUp) w.flight)
    (harrives : w.Arrives input f)
    (hstep : S.candidate.step (w.surroundings deaf chance) ⟨.releasing term call giveUp, n⟩ input
      = some done) : w.Turns S last input f done := by
  have hended : ∀ (result : Except Lease.Error Lease.ReleaseOutcome),
      (∀ r, ¬ Owns S w.store r) →
      Leaves S w.store (w.Spent S (orLast (.ofTurn w.elector.phase w.flight input) last))
        (S.candidate.releaseEnded (w.surroundings deaf chance) n term (some result)) :=
    fun result hnone => Leaves.releaseEnded (fun r hr => absurd hr (hnone r)) n term _
  unfold Turns
  cases input with
  | timeUp =>
    rw [hw]
    obtain rfl := Option.some.inj hstep
    generalize w.flight = g at hk
    cases hk with
    | apart hφ => contradiction
    | holds hφ => contradiction
    | gaveBack h => exact .apart rfl fun r hr => absurd hr (h r)
    | _ => exact .apart rfl fun _ _ => .inl trivial
  | crash => cases harrives
  | _ =>
    simp only [Candidate.step] at hstep
    refine harrives.answered hstep (fun hcall hanswer hdone => ?_) (fun hcall hanswer hswap => ?_)
      (fun hcall hanswer => ?_)
    · subst hcall
      rw [hanswer] at hk
      cases hk with
      | holds hφ => contradiction
      | sees h =>
        -- a lease of its own would have been read, and is of this term
        refine hended _ fun r hr => ?_
        obtain ⟨hterm, version, hcurrent, -⟩ := h r hr
        simp only [Lock.release, hcurrent, if_pos (hr.isHeldBy hterm)] at hdone
        contradiction
    · subst hcall
      rw [hanswer] at hk
      cases hk with
      | holds hφ => contradiction
      | sees h =>
        obtain ⟨found, hcurrent, rfl, -⟩ := Lease.replaces_of_release hswap
        refine .givesBack (Lease.isReleased_of_release hswap) fun r hr => ?_
        obtain ⟨-, version, hcurrent', hversion⟩ := h r hr
        obtain rfl := Except.ok.inj (hcurrent.symm.trans hcurrent')
        exact hversion
    · subst hcall
      rw [hanswer] at hk
      cases hk with
      | holds hφ => contradiction
      | gaveBack h => exact hended _ h

/-- **What a turn leaves known.** -/
theorem of_turn (hclock : S.Reads w.time w.clock)
    (hk : Keeps S w.store (w.Spent S last) w.elector.phase w.flight)
    (harrives : w.Arrives input f)
    (hstep : S.candidate.step (w.surroundings deaf chance) w.elector input = some done) :
    w.Turns S last input f done := by
  cases hw : w.elector with
  | mk φ n =>
    rw [hw] at hstep hk
    generalize hg : w.flight = g at hk
    cases φ with
    | created | standingBy | finished =>
      cases hk with
      | holds hφ => contradiction
      | apart hφ h =>
        unfold Turns
        rw [hw]
        exact of_hasNoTerm hφ hg hclock h harrives hstep
    | acquiring call giveUp =>
      cases hk with
      | apart hφ => contradiction
      | holds hφ => contradiction
      | attempts hdue hf hpending h =>
        unfold Turns
        rw [hw, hg, LeaseEffect.ofTurn_acquiring _ _ hpending]
        exact of_attempt hdue (hg ▸ hpending) h harrives hstep
      | takes hdue h => exact of_taken hw hg hclock hdue h harrives hstep
    | leading period =>
      obtain ⟨hf, -, h⟩ := hk.of_heldTerm? rfl
      exact of_leading (hg.trans (Flight.eq_idle_of_isOf hf)) h harrives hstep
    | renewing period call budget giveUp =>
      exact of_renewing (hk.of_heldTerm? rfl).2.2 harrives hstep
    | draining period =>
      obtain ⟨hf, -, h⟩ := hk.of_heldTerm? rfl
      exact of_draining (hg.trans (Flight.eq_idle_of_isOf hf)) h harrives hstep
    | drainRenewing period call budget giveUp stopped =>
      obtain ⟨hf, hcall, h⟩ := hk.of_heldTerm? rfl
      exact of_drainRenewing (hg ▸ hf)
        (fun record heq => hcall (.renew period.term) record (heq ▸ rfl)) h harrives hstep
    | awaitingStop term => exact of_awaitingStop (hk.of_heldTerm? rfl).2.2 hstep
    | releasing term call giveUp => exact of_releasing hw (hg ▸ hk) harrives hstep
    | crashed => cases input <;> contradiction

end Turns

/-! ## Steps -/

section Keeps

variable {S : ElectorSetup} {s s' : Store} {spent spent' : Record → Prop} {φ : Phase} {f : Flight}

theorem Keeps.mono (hk : Keeps S s spent φ f) (hspent : ∀ r, spent r → spent' r) :
    Keeps S s spent' φ f := by
  cases hk with
  | apart hφ h => exact .apart hφ fun r hr => hspent r (h r hr)
  | attempts hdue hf hpending h => exact .attempts hdue hf hpending fun r hr => hspent r (h r hr)
  | takes hdue h => exact .takes hdue h
  | holds hφ hf hcall h => exact .holds hφ hf hcall h
  | asksBack h => exact .asksBack h
  | sees h => exact .sees h
  | givesBack hreleased h => exact .givesBack hreleased h
  | gaveBack h => exact .gaveBack h
  | down => exact .down

/-- Others do not bring in a lease of its own. -/
theorem Keeps.of_store (hk : Keeps S s spent φ f)
    (hstore : ∀ r, Owns S s' r → s'.find? S.key = s.find? S.key) : Keeps S s' spent φ f := by
  have howns : ∀ r, Owns S s' r → Owns S s r := fun r hr => hr.of_find?_eq (hstore r hr)
  have hversion : ∀ r, Owns S s' r → s'.version? S.key = s.version? S.key := fun r hr => by
    rw [Store.version?, Store.version?, hstore r hr]
  cases hk with
  | apart hφ h => exact .apart hφ fun r hr => h r (howns r hr)
  | attempts hdue hf hpending h => exact .attempts hdue hf hpending fun r hr => h r (howns r hr)
  | takes hdue h => exact .takes hdue fun r hr => h r (howns r hr)
  | holds hφ hf hcall h => exact .holds hφ hf hcall fun r hr => h r (howns r hr)
  | asksBack h => exact .asksBack fun r hr => h r (howns r hr)
  | sees h =>
    refine .sees fun r hr => ?_
    rw [hversion r hr]
    exact h r (howns r hr)
  | givesBack hreleased h =>
    exact .givesBack hreleased fun r hr => (hversion r hr).trans (h r (howns r hr))
  | gaveBack h => exact .gaveBack fun r hr => h r (howns r hr)
  | down => exact .down

/-- The release reads what there is to give back. -/
theorem Keeps.of_read (hk : Keeps S s spent φ .reading)
    (hanswer : ReplicaWithOthers.IsRead (s.read S.key)) :
    Keeps S s spent φ (.read (s.read S.key)) := by
  cases hk with
  | attempts hdue hf hpending h =>
    obtain ⟨request, now, hcall⟩ := Flight.of_isOf_reading hf
    obtain ⟨-, rfl⟩ := Prod.mk.inj (Option.some.inj hcall)
    exact .attempts hdue trivial (fun a ha => by contradiction) h
  | holds hφ hf hcall h =>
    obtain ⟨request, now, hasked⟩ := Flight.of_isOf_reading hf
    refine .holds hφ ?_ hcall h
    rw [hasked]
    trivial
  | asksBack h => exact .sees fun r hr => ⟨h r hr, hr.current hanswer⟩
  | down => exact .down

/-- A swap takes the lease, keeps it, or gives it back. -/
theorem Keeps.of_swap {expected : Option UInt64} {record : Record}
    (hk : Keeps S s spent φ (.swapping expected record))
    (hanswer : ReplicaWithOthers.IsSwapped
      (s.write (S.candidate.lock.swapCommand expected record)).1)
    (hspent : ∀ e, (s.write (S.candidate.lock.swapCommand expected record)).1 = .error e →
      ∀ r, spent r → spent' r) :
    Keeps S (s.write (S.candidate.lock.swapCommand expected record)).2 spent' φ
      (.swapped (s.write (S.candidate.lock.swapCommand expected record)).1) := by
  obtain ⟨a, ha, hfind⟩ | ⟨e, he, hversion, hfind⟩ := ElectorWithStore.of_swap hanswer
  -- the record is stored
  · rw [ha]
    cases hk with
    | attempts hdue hf hpending h =>
      obtain ⟨request, hcall⟩ := Flight.of_isOf_swapping hf
      obtain ⟨-, rfl⟩ := Prod.mk.inj (Option.some.inj hcall)
      exact .takes hdue fun r hr => hr.eq_of_text hfind
    | holds hφ hf hcall h =>
      obtain ⟨request, hasked⟩ := Flight.of_isOf_swapping hf
      refine .holds hφ ?_ hcall fun r hr => ?_
      · rw [hasked]
        trivial
      · rw [hr.eq_of_text hfind]
        exact hcall request record hasked
    | givesBack hreleased h =>
      refine .gaveBack fun r hr => ?_
      obtain rfl := hr.eq_of_text hfind
      cases hr.held.symm.trans (Record.not_isHeldBy_of_isReleased hreleased _ _)
    | down => exact .down
  -- nothing is changed
  · have howns : ∀ r, Owns S (s.write (S.candidate.lock.swapCommand expected record)).2 r →
        Owns S s r := fun r hr => hr.of_find?_eq hfind
    cases hk with
    | attempts hdue hf hpending h =>
      obtain ⟨request, hcall⟩ := Flight.of_isOf_swapping hf
      obtain ⟨-, rfl⟩ := Prod.mk.inj (Option.some.inj hcall)
      refine .attempts hdue trivial (fun a ha => ?_) fun r hr => hspent e he r (h r (howns r hr))
      cases he.symm.trans (Flight.swapped.inj ha)
    | holds hφ hf hcall h =>
      obtain ⟨request, hasked⟩ := Flight.of_isOf_swapping hf
      refine .holds hφ ?_ hcall fun r hr => h r (howns r hr)
      rw [hasked]
      trivial
    | givesBack hreleased h => exact .gaveBack fun r hr => hversion (h r (howns r hr))
    | down => exact .down

end Keeps

/-- **What is known all along.** -/
structure Kept (S : ElectorSetup) (w : ElectorWithStore) (last : Option LeaseEffect) : Prop where
  clock : S.Reads w.time w.clock
  knows : Keeps S w.store (w.Spent S last) w.elector.phase w.flight

variable {S : ElectorSetup} {w w' : ElectorWithStore} {l : LeaseEffect} {last : Option LeaseEffect}

theorem Begins.kept (hw : Begins S w) : Kept S w none := by
  refine ⟨hw.clock, ?_⟩
  rw [hw.elector, hw.flight]
  exact .apart rfl fun r hr => absurd hr.holder_eq (hw.stored r hr.stored)

/-- A swap that is not carried out does not matter. -/
theorem orLast_ofSwap {φ : Phase} {e : Store.Error} :
    orLast (.ofSwap φ (.error e)) last = last := by
  cases φ <;> rfl

theorem Step.kept (h : Step S w l w') (hk : Kept S w last) : Kept S w' (orLast l last) := by
  obtain ⟨hclock, hknows⟩ := hk
  cases h with
  | pass hlater hforth hclock' hprompt =>
    refine ⟨hclock', hknows.mono fun r hr => hr.imp_right fun hdeadline => ?_⟩
    exact UInt64.le_trans hdeadline hforth
  | cancel => exact ⟨hclock, hknows⟩
  | others hothers =>
    exact ⟨hclock, hknows.of_store fun r hr => hothers r hr.stored hr.holder_eq⟩
  | turn harrives hstep => exact ⟨hclock, of_turn hclock hknows harrives hstep⟩
  | read hflight hanswer =>
    rw [hflight] at hknows
    exact ⟨hclock, hknows.of_read hanswer⟩
  | swap hflight hanswer =>
    rw [hflight] at hknows
    refine ⟨hclock, hknows.of_swap hanswer fun e he r hr => ?_⟩
    rw [he, orLast_ofSwap]
    exact hr

/-- **No lease is left behind** that has not reached its deadline, unless
the last acquisition was cut short or given up, or the release was. -/
theorem leaves_no_lease (hw : Begins S w) {ls : List LeaseEffect} (t : Trail (Step S) w ls w')
    (hended : w'.elector.phase = .finished)
    (hinFlight : latest LeaseEffect.matters ls ≠ some .cancelledInFlight)
    (hreturned : latest LeaseEffect.matters ls ≠ some .releaseGivenUp)
    (hgivenUp : latest LeaseEffect.matters ls = some .acquireGivenUp → ¬ S.Outlasts)
    {record : Record} (howns : Owns S w'.store record) : record.deadline ≤ w'.clock := by
  have hk : Kept S w' (latest LeaseEffect.matters ls) :=
    t.latest (Kept S) (fun _ _ _ _ hstep hk => hstep.kept hk) hw.kept
  have hknows := hk.knows
  rw [hended] at hknows
  generalize w'.flight = f at hknows
  cases hknows with
  | holds hφ => contradiction
  | apart hφ h =>
    refine (h record howns).resolve_left fun hexcuse => ?_
    cases hlast : latest LeaseEffect.matters ls with
    | none => exact (hlast ▸ hexcuse : LeaseEffect.MayLeaveLease S none)
    | some l =>
      rw [hlast] at hexcuse
      cases l with
      | cancelledInFlight => exact hinFlight hlast
      | releaseGivenUp => exact hreturned hlast
      | acquireGivenUp => exact hgivenUp hlast hexcuse
      | quiet => exact hexcuse
      | acquires => exact hexcuse

/-! ## Leases that are left behind -/

/-- **An elector ends, and its lease still runs.** This is the last step that
mattered to the lease. -/
def LeavesBehind (S : ElectorSetup) (l : LeaseEffect) : Prop :=
  ∃ w ls w' record, Begins S w ∧ Trail (Step S) w ls w' ∧ w'.elector.phase = .finished ∧
    latest LeaseEffect.matters ls = some l ∧ Owns S w'.store record ∧
      record.isExpiredAt w'.clock = false

/-- A turn of an elector that is listened to. -/
theorem Step.listened {S : ElectorSetup} {w : ElectorWithStore} {input : Input} {f g : Flight}
    {l : LeaseEffect} {e : Elector} {actions : List Action} {began : Nat}
    (harrives : Arrives w input f)
    (hstep : S.candidate.step (w.surroundings false 0) w.elector input = some (e, actions))
    (hl : LeaseEffect.ofTurn w.elector.phase w.flight input = l) (hflown : flown actions f = g)
    (hbegan : (if actions.any Action.isCall then w.time else w.began) = began) :
    Step S w l { w with elector := e, flight := g, began } := by
  subst hl hflown hbegan
  exact .turn harrives hstep

theorem any_isCall_notes (ns : List Notice) : (Candidate.notes ns).any Action.isCall = false := by
  induction ns with
  | nil => rfl
  | cons n ns ih => exact ih

/-- A swap that is answered so. -/
theorem Step.answers {S : ElectorSetup} {w : ElectorWithStore} {expected : Option UInt64}
    {record : Record} {answer : Store.WriteAnswer} {s : Store} {l : LeaseEffect}
    (h : w.flight = .swapping expected record)
    (hwritten : w.store.write (S.candidate.lock.swapCommand expected record) = (answer, s))
    (hanswer : ReplicaWithOthers.IsSwapped answer)
    (hl : LeaseEffect.ofSwap w.elector.phase answer = l) :
    Step S w l { w with store := s, flight := .swapped answer } := by
  have hstep : Step S w _ (w.afterSwap S expected record) :=
    .swap h (by rw [hwritten]; exact hanswer)
  unfold afterSwap at hstep
  rw [hwritten] at hstep
  exact hl ▸ hstep

/-- An elector that waits is told to stop. -/
theorem finishes {S : ElectorSetup} {w : ElectorWithStore} {wake : Nat} {n : UInt32}
    (helector : w.elector = ⟨.standingBy wake, n⟩) (hflight : w.flight = .idle) :
    Trail (Step S) w [.quiet, .quiet]
      { w with elector := ⟨.finished, n⟩, flight := .idle, cancelled := true } := by
  obtain ⟨time, clock, store, elector, flight, began, cancelled⟩ := w
  obtain rfl : elector = _ := helector
  obtain rfl : flight = _ := hflight
  exact .cons .cancel (.single (.listened (.cancelled rfl) rfl rfl rfl rfl))

/-- A release goes on to its swap. -/
theorem step_releases {c : Candidate} {u : Surroundings} {term : Term} {now : UInt64} {giveUp : Nat}
    {n : UInt32} {answer : Store.ReadAnswer} {expected : Option UInt64} {record : Record}
    {ns : List Notice}
    (hswap : (c.lock.release c.identity term).onRead now answer = (.swap expected record, ns)) :
    c.step u ⟨.releasing term (.reading now) giveUp, n⟩ (.readAnswered answer)
      = some (⟨.releasing term (.swapping record) giveUp, n⟩,
        Candidate.notes ns ++ [.swap expected record]) := by
  simp only [Candidate.step, Candidate.answered, hswap]

/-- A candidate whose leases last so long, alone with its store. -/
def lone (duration : UInt64) : ElectorSetup where
  candidate := ⟨"a", ⟨"lease", duration⟩, { leaseDuration := 6000 }⟩
  origin := some 0

/-- It has not begun. -/
def unused : ElectorWithStore where
  time := 0
  clock := 0
  store := Store.empty
  elector := {}
  flight := .idle
  began := 0
  cancelled := false

theorem unused_begins (duration : UInt64) : Begins (lone duration) unused where
  elector := rfl
  flight := rfl
  clock origin horigin := Option.some.inj horigin ▸ rfl
  stored record h := by contradiction

/-- Its first lease. -/
def firstLease (duration : UInt64) : Record := .acquired "a" 1 duration 0

/-- Its first swap. -/
def firstSwap (duration : UInt64) : Store.Command :=
  (lone duration).candidate.lock.swapCommand none (firstLease duration)

/-- The elector at some moment after that. -/
def since (s : Store) (time : Nat) (φ : Phase) (f : Flight) (began : Nat) (cancelled : Bool) :
    ElectorWithStore where
  time := time
  clock := .ofNat time
  store := s
  elector := ⟨φ, 0⟩
  flight := f
  began := began
  cancelled := cancelled

/-- The store has carried out the swap, and the elector has not heard of
it. -/
def pending (duration : UInt64) (s : Store) (time began : Nat) (cancelled : Bool) :
    ElectorWithStore :=
  since s time (.acquiring (.swapping (firstLease duration)) 6000) (.swapped (.ok ⟨some 1⟩)) began
    cancelled

section Since

variable {duration : UInt64} {s : Store}

/-- What is stored does not matter while time passes. -/
theorem Step.since {time later began : Nat} {φ : Phase} {f : Flight} {cancelled : Bool}
    (hlater : time ≤ later) (hprompt : later < began + 5000)
    (htop : began + 5000 ≤ Saturating.top) :
    Step (lone duration) (since s time φ f began cancelled) .quiet
      (since s later φ f began cancelled) := by
  have hclock : ∀ moment, moment ≤ later → (UInt64.ofNat moment).toNat = moment :=
    fun moment hmoment => Saturating.toNat_ofNat_of_le (by omega)
  refine .pass hlater ?_ (fun origin horigin => ?_) (.inr hprompt)
  · rw [UInt64.le_iff_toNat_le]
    show (UInt64.ofNat time).toNat ≤ (UInt64.ofNat later).toNat
    rwa [hclock time hlater, hclock later (Nat.le_refl later)]
  · obtain rfl := Option.some.inj horigin
    rw [hclock later (Nat.le_refl later), Nat.zero_add]

theorem trail_pending {delay : Nat} (hdelay : delay < 5000)
    (hwritten : Store.empty.write (firstSwap duration) = (.ok ⟨some 1⟩, s)) :
    Trail (Step (lone duration)) unused [.quiet, .quiet, .quiet, .quiet, .acquires]
      (pending duration s delay delay false) := by
  obtain ⟨note, hstart⟩ := @Candidate.step_start (lone duration).candidate
    (unused.surroundings false 0) rfl 0
  let asking : Phase := .acquiring (.reading 0) 6000
  let decided : Phase := .acquiring (.swapping (firstLease duration)) 6000
  have h₁ : Step (lone duration) unused .quiet (since .empty 0 asking .reading 0 false) :=
    .listened .start hstart rfl rfl rfl
  have h₂ : Step (lone duration) (since .empty 0 asking .reading 0 false) .quiet
      (since .empty delay asking .reading 0 false) :=
    .since (Nat.zero_le delay) (by omega) (by decide)
  have h₃ : Step (lone duration) (since .empty delay asking .reading 0 false) .quiet
      (since .empty delay asking (.read (Store.empty.read "lease")) 0 false) := .read rfl trivial
  have h₄ : Step (lone duration)
      (since .empty delay asking (.read (Store.empty.read "lease")) 0 false) .quiet
      (since .empty delay decided (.swapping none (firstLease duration)) delay false) :=
    .listened (.readAnswered rfl) rfl rfl rfl rfl
  have h₅ : Step (lone duration)
      (since .empty delay decided (.swapping none (firstLease duration)) delay false) .acquires
      (pending duration s delay delay false) :=
    .answers rfl hwritten trivial rfl
  exact .cons h₁ (.cons h₂ (.cons h₃ (.cons h₄ (.single h₅))))

theorem owns_since (hwritten : Store.empty.write (firstSwap duration) = (.ok ⟨some 1⟩, s))
    (hheld : (firstLease duration).isHeldBy "a" ⟨1⟩ = true) :
    Owns (lone duration) s (firstLease duration) := by
  have hfind : (Store.empty.write (firstSwap duration)).2.find? "lease"
      = some ⟨(firstLease duration).text, 1⟩ :=
    (Store.find?_write_swap_of_ok (congrArg Prod.fst hwritten)).2
  rw [hwritten] at hfind
  exact ⟨Lease.recordAt_of_text hfind rfl, hheld⟩

/-- An attempt hears of its swap. -/
theorem exists_step_acquired {u : Surroundings} {a : Store.WriteResult} :
    ∃ ns, (lone duration).candidate.step u
        ⟨.acquiring (.swapping (firstLease duration)) 6000, 0⟩ (.swapAnswered (.ok a))
      = some (((lone duration).candidate.attempted u 0
          (.ok (.acquired ⟨1⟩ (firstLease duration).deadline))).1,
        Candidate.notes ns ++ ((lone duration).candidate.attempted u 0
          (.ok (.acquired ⟨1⟩ (firstLease duration).deadline))).2) := ⟨_, rfl⟩

theorem exists_written (duration : UInt64)
    (h : (Store.empty.write (firstSwap duration)).1 = .ok ⟨some 1⟩) :
    ∃ s, Store.empty.write (firstSwap duration) = (.ok ⟨some 1⟩, s) := ⟨_, Prod.ext h rfl⟩

end Since

/-- It is told to stop before it hears that it has the lease. -/
theorem leaves_cancelledInFlight : LeavesBehind (lone 6000) .cancelledInFlight := by
  obtain ⟨s, hwritten⟩ := exists_written 6000 (by decide +kernel)
  have h₁ : Step (lone 6000) (pending 6000 s 0 0 false) .quiet (pending 6000 s 0 0 true) := .cancel
  have h₂ : Step (lone 6000) (pending 6000 s 0 0 true) .cancelledInFlight
      (since s 0 .finished .idle 0 true) :=
    .listened (.cancelled rfl) rfl rfl rfl rfl
  exact ⟨unused, _, _, firstLease 6000, unused_begins 6000,
    (trail_pending (by decide) hwritten).append (.cons h₁ (.single h₂)), rfl, rfl,
    owns_since hwritten (by decide),
    (by decide : (firstLease 6000).isExpiredAt (.ofNat 0) = false)⟩

/-- It hears of the lease at its deadline, and is told to stop. -/
theorem leaves_late : LeavesBehind (lone 6000) .acquires := by
  obtain ⟨s, hwritten⟩ := exists_written 6000 (by decide +kernel)
  have h₁ : Step (lone 6000) (pending 6000 s 3000 3000 false) .quiet
      (pending 6000 s 6000 3000 false) := .since (by decide) (by decide) (by decide)
  have hlate : ¬ (lone 6000).candidate.isAhead
      ((pending 6000 s 6000 3000 false).surroundings false 0) (firstLease 6000).deadline = true :=
    (by decide : ¬ (Lease.renewBudget (firstLease 6000).deadline (.ofNat 6000) 5000).isSome = true)
  obtain ⟨wake, h₂⟩ : ∃ wake, Step (lone 6000) (pending 6000 s 6000 3000 false) .quiet
      (since s 6000 (.standingBy wake) .idle 3000 false) := by
    obtain ⟨ns, hstep⟩ := @exists_step_acquired 6000
      ((pending 6000 s 6000 3000 false).surroundings false 0) ⟨some 1⟩
    unfold Candidate.attempted at hstep
    simp only [if_neg hlate] at hstep
    exact ⟨_, .listened (.swapAnswered rfl) hstep rfl (by simp [Flight.act])
      (by simp [any_isCall_notes, Action.isCall, pending, since])⟩
  exact ⟨unused, _, _, firstLease 6000, unused_begins 6000,
    (trail_pending (by decide) hwritten).append (.cons h₁ (.cons h₂ (finishes rfl rfl))),
    rfl, rfl, owns_since hwritten (by decide),
    (by decide : (firstLease 6000).isExpiredAt (.ofNat 6000) = false)⟩

/-- It gives up waiting for an answer, though the lease lasts longer, and is
told to stop. -/
theorem leaves_acquireGivenUp : LeavesBehind (lone 20000) .acquireGivenUp := by
  obtain ⟨s, hwritten⟩ := exists_written 20000 (by decide +kernel)
  have h₁ : Step (lone 20000) (pending 20000 s 3000 3000 false) .quiet
      (pending 20000 s 6000 3000 false) := .since (by decide) (by decide) (by decide)
  obtain ⟨wake, h₂⟩ : ∃ wake, Step (lone 20000) (pending 20000 s 6000 3000 false) .acquireGivenUp
      ⟨6000, .ofNat 6000, s, ⟨.standingBy wake, 1⟩, .idle, 3000, false⟩ :=
    ⟨_, .listened (.timeUp rfl (Nat.le_refl 6000)) rfl rfl rfl rfl⟩
  exact ⟨unused, _, _, firstLease 20000, unused_begins 20000,
    (trail_pending (by decide) hwritten).append (.cons h₁ (.cons h₂ (finishes rfl rfl))), rfl, rfl,
    owns_since hwritten (by decide),
    (by decide : (firstLease 20000).isExpiredAt (.ofNat 6000) = false)⟩

/-- It leads, is told to stop, and gives up the release, which has read the
lease. -/
theorem leaves_releaseGivenUp : LeavesBehind (lone 6000) .releaseGivenUp := by
  obtain ⟨s, hwritten⟩ := exists_written 6000 (by decide +kernel)
  have hread : s.read "lease" = .ok ⟨some ⟨"lease", (firstLease 6000).text, 1⟩⟩ := by
    have h : (Store.empty.write (firstSwap 6000)).2.read "lease"
        = .ok ⟨some ⟨"lease", (firstLease 6000).text, 1⟩⟩ := by decide +kernel
    rwa [hwritten] at h
  let period : Period := ⟨⟨1⟩, 6000, 5000⟩
  let asking : Phase := .releasing ⟨1⟩ (.reading (.ofNat 0)) 5000
  let decided : Phase := .releasing ⟨1⟩ (.swapping (firstLease 6000).released) 5000
  let giving : Flight := .swapping (some 1) (firstLease 6000).released
  -- It leads and is told to stop, ...
  have h₁ : Step (lone 6000) (pending 6000 s 0 0 false) .quiet
      (since s 0 (.leading period) .idle 0 false) := by
    have hahead : (lone 6000).candidate.isAhead ((pending 6000 s 0 0 false).surroundings false 0)
        (firstLease 6000).deadline = true :=
      (by decide : (Lease.renewBudget (firstLease 6000).deadline (.ofNat 0) 5000).isSome = true)
    obtain ⟨ns, note, hlead⟩ := @Candidate.step_swapAnswered (lone 6000).candidate
      ((pending 6000 s 0 0 false).surroundings false 0) (firstLease 6000) 6000 ⟨some 1⟩ rfl
      (by decide) hahead 0
    exact .listened (.swapAnswered rfl) hlead rfl (by simp [Flight.act])
      (by simp [any_isCall_notes, Action.isCall, pending, since])
  have h₂ : Step (lone 6000) (since s 0 (.leading period) .idle 0 false) .quiet
      (since s 0 (.leading period) .idle 0 true) := .cancel
  have h₃ : Step (lone 6000) (since s 0 (.leading period) .idle 0 true) .quiet
      (since s 0 (.draining period) .idle 0 true) :=
    .listened (.cancelled rfl) rfl rfl rfl rfl
  -- ... its work stops, and the release begins, ...
  have h₄ : Step (lone 6000) (since s 0 (.draining period) .idle 0 true) .quiet
      (since s 0 asking .reading 0 true) := .listened .stopped rfl rfl rfl rfl
  have h₅ : Step (lone 6000) (since s 0 asking .reading 0 true) .quiet
      (since s 3000 asking .reading 0 true) := .since (by decide) (by decide) (by decide)
  have h₆ : Step (lone 6000) (since s 3000 asking .reading 0 true) .quiet
      (since s 3000 asking (.read (s.read "lease")) 0 true) :=
    .read rfl ((congrArg ReplicaWithOthers.IsRead hread).mpr trivial)
  have h₇ : Step (lone 6000) (since s 3000 asking (.read (s.read "lease")) 0 true) .quiet
      (since s 3000 decided giving 3000 true) := by
    have hcurrent : (lone 6000).candidate.lock.current (s.read "lease")
        = .ok (some (firstLease 6000, 1)) := by
      rw [hread, Lock.current_text _ rfl]
    have hswap : ((lone 6000).candidate.lock.release "a" ⟨1⟩).onRead (.ofNat 0) (s.read "lease")
        = (.swap (some 1) (firstLease 6000).released, []) := by
      simp only [Lock.release, hcurrent]
      rfl
    exact .listened (.readAnswered rfl) (step_releases hswap) rfl rfl rfl
  -- ... but its swap is given up.
  have h₈ : Step (lone 6000) (since s 3000 decided giving 3000 true) .quiet
      (since s 5000 decided giving 3000 true) := .since (by decide) (by decide) (by decide)
  obtain ⟨wake, h₉⟩ : ∃ wake,
      Step (lone 6000) (since s 5000 decided giving 3000 true) .releaseGivenUp
        (since s 5000 (.standingBy wake) .idle 3000 true) :=
    ⟨_, .listened (.timeUp rfl (Nat.le_refl 5000)) rfl rfl rfl rfl⟩
  exact ⟨unused, _, _, firstLease 6000, unused_begins 6000,
    (trail_pending (by decide) hwritten).append (.cons h₁ (.cons h₂ (.cons h₃ (.cons h₄ (.cons h₅
      (.cons h₆ (.cons h₇ (.cons h₈ (.cons h₉ (finishes rfl rfl)))))))))),
    rfl, rfl, owns_since hwritten (by decide),
    (by decide : (firstLease 6000).isExpiredAt (.ofNat 5000) = false)⟩

/-- **Leases that are left behind**, for each of these reasons: the
acquisition is cut short, or given up, or the release is, or the deadline is
this very moment. -/
theorem leases_left_behind :
    LeavesBehind (lone 6000) .cancelledInFlight ∧ LeavesBehind (lone 20000) .acquireGivenUp ∧
      LeavesBehind (lone 6000) .releaseGivenUp ∧ LeavesBehind (lone 6000) .acquires :=
  ⟨leaves_cancelledInFlight, leaves_acquireGivenUp, leaves_releaseGivenUp, leaves_late⟩

/-- A lease that is heard of at its deadline is left to itself. -/
theorem leaves_lease_at_deadline :
    ∃ w ls w' record, Begins (lone 6000) w ∧ Trail (Step (lone 6000)) w ls w' ∧
      w'.elector.phase = .finished ∧ latest LeaseEffect.matters ls = some .acquires ∧
      Owns (lone 6000) w'.store record ∧ record.deadline ≤ w'.clock := by
  obtain ⟨w, ls, w', record, hw, t, hended, hlast, howns, -⟩ := leaves_late
  refine ⟨w, ls, w', record, hw, t, hended, hlast, howns, ?_⟩
  refine leaves_no_lease hw t hended ?_ ?_ ?_ howns
  · rw [hlast]
    decide
  · rw [hlast]
    decide
  · rw [hlast]
    intro hgivenUp
    contradiction

end ElectorWithStore

end Tenure.Election
