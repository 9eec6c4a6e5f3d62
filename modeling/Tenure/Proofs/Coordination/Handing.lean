import Tenure.Proofs.Coordination.Observations

/-!
# How a coordinator and its elector stand to each other

The elector announces the beginning and the end of a term and goes on; the
coordinator takes the announcements when it gets to them. `StagesAgree` lists
how far the two can be apart: what is in the inbox, what the consumer is doing
and whether it has confirmed, for each stage of the elector. There are never
more than two announcements in the inbox, both of the same term, because the
elector waits for the confirmation before anything else.

Every step of a run keeps the two in one of these positions and goes one of
the ways of a coordinator (`Run.step_trail`).
-/

namespace Tenure.Election

/-! ## What the elector leaves to others -/

/-- Who leads this term, or came down while leading it. -/
inductive ElectorStage.Leads (t : Term) : ElectorStage → Prop
  | leading : Leads t (.leading t)
  | stepping : Leads t (.stepping t)
  | ceded : Leads t (.ceded t)
  | down : Leads t (.down (some t))

/-- Who has announced the end of this term, or came down after that. -/
inductive ElectorStage.Awaits (t : Term) : ElectorStage → Prop
  | told : Awaits t (.told t)
  | down : Awaits t (.down none)

/-- Who has nothing announced that is not confirmed. -/
inductive ElectorStage.Free : ElectorStage → Prop
  | idle : Free .idle
  | opening : Free .opening
  | trying : Free .trying
  | taken {t : Term} : Free (.taken t)
  | releasing {t : Term} : Free (.releasing t)
  | ended : Free .ended
  | down : Free (.down none)

/-- Who begins nothing new once it is told to stop. -/
def ElectorStage.isQuiet : ElectorStage → Bool
  | idle => true
  | told _ => true
  | heard _ => true
  | deserted _ => true
  | releasing _ => true
  | ended => true
  | down term => term.isNone
  | _ => false

theorem Next.isQuiet {a b : ElectorStage} {x : Observation} (h : Next true a x b)
    (ha : a.isQuiet = true) :
    b.isQuiet = true := by
  cases h <;> first | rfl | contradiction

theorem Phase.eq_crashed {φ : Phase} {term : Option Term} (h : φ.IsAt (.down term)) :
    φ = .crashed := by
  cases φ with
  | crashed => rfl
  | drainRenewing period call budget giveUp stopped => cases stopped <;> contradiction
  | _ => contradiction

/-- A leader that has come to an end has come down. -/
theorem ElectorStage.Leads.eq_down {a : ElectorStage} {t : Term} (h : a.Leads t)
    (ha : a.isLast = true) :
    a = .down (some t) := by
  cases h with
  | down => rfl
  | _ => contradiction

theorem ElectorStage.Awaits.isQuiet {a : ElectorStage} {t : Term} (h : a.Awaits t) :
    a.isQuiet = true := by
  cases h <;> rfl

/-- Nothing that the rest of a coordinator takes note of, but for the
revocation. -/
def Observation.isPrivate : Observation → Bool
  | announces _ _ => false
  | hears _ => false
  | calls (.release _) => false
  | _ => true

section Next

variable {a b : ElectorStage} {x : Observation} {t : Term}

theorem ElectorStage.Leads.next (ha : a.Leads t) (h : Next false a x b)
    (hx : ∀ e, x ≠ .announces e false) :
    (x.isPrivate = true ∧ b.Leads t) ∨
      ∃ reason, x = .announces (.lostLeadership t reason) true ∧ b = .told t := by
  cases ha with
  | leading => cases h <;> exact .inl ⟨rfl, by constructor⟩
  | stepping =>
    cases h with
    | cedes => exact .inl ⟨rfl, .ceded⟩
  | ceded =>
    cases h with
    | tells => exact .inr ⟨_, rfl, rfl⟩
    | tellsNobody => exact absurd rfl (hx _)
  | down => cases h

theorem ElectorStage.Awaits.next (ha : a.Awaits t) (h : Next false a x b) :
    (x.isPrivate = true ∧ b.Awaits t) ∨ (x = .hears t ∧ b = .heard t) := by
  cases ha with
  | told =>
    cases h with
    | drains => exact .inl ⟨rfl, .told⟩
    | hears => exact .inr ⟨rfl, rfl⟩
    | fallsTold => exact .inl ⟨rfl, .down⟩
  | down => cases h

theorem ElectorStage.Free.next (ha : a.Free) (h : Next false a x b)
    (hx : ∀ e, x ≠ .announces e false) :
    (x.isPrivate = true ∧ b.Free) ∨
      ∃ t, x = .announces (.becameLeader t) true ∧ b = .leading t := by
  cases ha with
  | taken =>
    cases h with
    | begins => exact .inr ⟨_, rfl, rfl⟩
    | speaksAlone => exact absurd rfl (hx _)
  | _ => cases h <;> exact .inl ⟨rfl, by constructor⟩

end Next

end Tenure.Election

namespace Tenure.Coordinator

open Election (Event LossReason ElectorStage)
open Work (Members Pool Queue)

/-! ## The work of a term -/

/-- **What the work of a period stands for.** -/
inductive PeriodWork.IsAt : PeriodWork → TermStage → Prop
  | created {t : Term} : IsAt ⟨t, .created, none⟩ (.waiting t)
  | syncing {t : Term} {deadline : Nat} {known : List Nat} :
    IsAt ⟨t, .syncing deadline known, none⟩ (.waiting t)
  | unready {t : Term} {failure : Option RunError} : IsAt ⟨t, .ended failure, none⟩ (.unready t)
  | idle {t : Term} : IsAt ⟨t, .idle, none⟩ (.working t .none)
  | idled {t : Term} : IsAt ⟨t, .ended none, none⟩ (.working t .none)
  | running {t : Term} {p : Pool} (hp : p.Sound) :
    IsAt ⟨t, .running, some p⟩ (.working t p.members)
  | stopping {t : Term} {p : Pool} (hp : p.Sound) :
    IsAt ⟨t, .stopping, some p⟩ (.working t p.members)
  | emptied {t : Term} {p : Pool} (hp : p.Sound) (hempty : p.members = .none) :
    IsAt ⟨t, .ended none, some p⟩ (.working t .none)

namespace PeriodWork.IsAt

variable {work : PeriodWork} {b : TermStage}

theorem isDuring (h : work.IsAt b) : b.IsDuring work.term := by
  cases h with
  | created => exact .waiting
  | syncing => exact .waiting
  | unready => exact .unready
  | _ => exact .working

/-- Work that has ended has left nobody behind. -/
theorem isDone (h : work.IsAt b) {failure : Option RunError}
    (hended : work.stage = .ended failure) :
    b.IsDone work.term ∧ (work.pool.map Pool.active).getD 0 = 0 := by
  cases h with
  | unready => exact ⟨.unready, rfl⟩
  | idled => exact ⟨.working, rfl⟩
  | emptied hp hempty => exact ⟨.working, hp.active_eq_zero hempty⟩
  | _ => contradiction

end PeriodWork.IsAt

/-- The work gets on, and nothing else changes but that the run may tell
itself to stop, as it does when the work fails. -/
structure GetsOn (r r' : Run) (work work' : PeriodWork) : Prop where
  rest : r' = { r with work := some work', halted := r'.halted }
  term : work'.term = work.term
  halted : r.halted = true → r'.halted = true
  failed : ∀ e, work'.stage = .ended (some e) → work.stage = .ended (some e) ∨ r'.halted = true

section Work

variable {c : Coordinator} {s : Surroundings} {r r' : Run} {work : PeriodWork} {a : ElectorStage}
  {b : TermStage} {actions : List Action}

/-- The caches are complete, and the workers are started if there are
any. -/
theorem startWorkers_trail {t : Term} {deadline : Nat} {known : List Nat}
    (hwork : r.work = some ⟨t, .syncing deadline known, none⟩)
    (hr' : r' = { r with
      work := some (Run.startWorkers c s ⟨t, .syncing deadline known, none⟩).1 }) :
    ∃ work' b', GetsOn r r' ⟨t, .syncing deadline known, none⟩ work' ∧ work'.IsAt b' ∧
      Trail Next ⟨a, .waiting t⟩ (.waited t .allSynced ::
        (Run.startWorkers c s ⟨t, .syncing deadline known, none⟩).2.flatMap
          (Observation.ofAction c r r')) ⟨a, b'⟩ := by
  subst hr'
  unfold Run.startWorkers
  cases c.hasReconciler with
  | true =>
    refine ⟨_, _, ⟨rfl, rfl, id, fun e he => by cases he⟩, .running (Pool.sound_start _ _ _),
      ?_⟩
    rw [Pool.members_start]
    refine .cons .syncs ?_
    have hstart : Trail Next ⟨a, .working t .none⟩
        ((Work.Observation.ofStart c.config.workerCount.toNat).map (.pool t))
        ⟨a, .working t ⟨{i | i < c.config.workerCount.toNat}, ∅⟩⟩ :=
      trail_of_members (Members.trail_ofStart _)
    simpa [Observation.ofAction, Observation.ofPool, hwork] using hstart
  | false =>
    refine ⟨_, _, ⟨rfl, rfl, id, fun e he => by cases he⟩, .idle, ?_⟩
    exact .single .syncs

/-- The work waits for the caches, or has them. -/
theorem lookAtCaches_trail {overFirst : Bool} {t : Term} {deadline : Nat} {known : List Nat}
    (hwork : r.work = some ⟨t, .syncing deadline known, none⟩)
    (h : r.lookAtCaches c s ⟨t, .syncing deadline known, none⟩ deadline known overFirst
      = some (r', actions)) :
    ∃ work' b', GetsOn r r' ⟨t, .syncing deadline known, none⟩ work' ∧ work'.IsAt b' ∧
      Trail Next ⟨a, .waiting t⟩ (Observation.ofStep c s r r' (.work overFirst) actions)
        ⟨a, b'⟩ := by
  have hinput : Observation.ofInput s r (.work overFirst)
      = ((r.look s deadline overFirst).map fun outcome => .waited t outcome).toList := by
    unfold Observation.ofInput
    rw [hwork]
  unfold Observation.ofStep
  rw [hinput]
  generalize hstuck : (if r.isRevoked s && !overFirst then []
    else Barrier.newlyStuck s.caches known) = stuck
  cases hlook : r.look s deadline overFirst with
  | none =>
    simp only [Run.look] at hlook
    simp only [Run.lookAtCaches, hlook, hstuck] at h
    split at h
    · contradiction
    · obtain ⟨rfl, rfl⟩ := Prod.mk.inj (Option.some.inj h)
      refine ⟨_, _, ⟨rfl, rfl, id, fun e he => by cases he⟩, .syncing, ?_⟩
      rw [Observation.flatMap_notes]
      exact .nil
  | some outcome =>
    simp only [Run.look] at hlook
    simp only [Run.lookAtCaches, hlook, hstuck] at h
    cases outcome with
    | cancelled =>
      obtain ⟨rfl, rfl⟩ := Prod.mk.inj (Option.some.inj h)
      refine ⟨_, _, ⟨rfl, rfl, id, fun e he => by cases he⟩, .unready, ?_⟩
      rw [List.flatMap_append, Observation.flatMap_notes, Observation.flatMap_notes]
      exact .single (.givesUp (by simp))
    | partialTimeout unsynced =>
      obtain ⟨rfl, rfl⟩ := Prod.mk.inj (Option.some.inj h)
      refine ⟨_, _, ⟨rfl, rfl, fun _ => rfl, fun e he => .inr rfl⟩, .unready, ?_⟩
      rw [List.flatMap_append, List.flatMap_append, Observation.flatMap_notes,
        Observation.flatMap_notes]
      exact .single (.givesUp (by simp))
    | allSynced =>
      obtain ⟨rfl, rfl⟩ := Prod.mk.inj (Option.some.inj h)
      rw [List.flatMap_append, List.flatMap_append, Observation.flatMap_notes,
        Observation.flatMap_notes]
      unfold Observation.ofEnd
      rw [List.append_nil]
      exact startWorkers_trail hwork rfl

/-- **The work goes on.** -/
theorem stepWork_trail {overFirst : Bool} (hwork : r.work = some work) (hb : work.IsAt b)
    (h : r.stepWork c s overFirst = some (r', actions)) :
    ∃ work' b', GetsOn r r' work work' ∧ work'.IsAt b' ∧
      Trail Next ⟨a, b⟩ (Observation.ofStep c s r r' (.work overFirst) actions) ⟨a, b'⟩ := by
  have hinput : (∀ deadline known, work.stage ≠ .syncing deadline known) →
      Observation.ofInput s r (.work overFirst) = [] := by
    intro hstage
    unfold Observation.ofInput
    rw [hwork]
    obtain ⟨t, stage, pool⟩ := work
    cases stage with
    | syncing deadline known => exact absurd rfl (hstage deadline known)
    | _ => rfl
  simp only [Run.stepWork, hwork] at h
  cases hb with
  | created =>
    obtain ⟨rfl, rfl⟩ := Prod.mk.inj (Option.some.inj h)
    refine ⟨_, _, ⟨rfl, rfl, id, fun e he => by cases he⟩, .syncing, ?_⟩
    unfold Observation.ofStep
    rw [hinput (by simp)]
    exact .nil
  | syncing => exact lookAtCaches_trail hwork h
  | unready => contradiction
  | idle =>
    simp only at h
    split at h
    · obtain ⟨rfl, rfl⟩ := Prod.mk.inj (Option.some.inj h)
      refine ⟨_, _, ⟨rfl, rfl, id, fun e he => by cases he⟩, .idled, ?_⟩
      unfold Observation.ofStep
      rw [hinput (by simp)]
      exact .nil
    · contradiction
  | idled => contradiction
  | @running t p hp =>
    simp only at h
    split at h
    · obtain ⟨rfl, rfl⟩ := Prod.mk.inj (Option.some.inj h)
      refine ⟨_, _, ⟨rfl, rfl, id, fun e he => by cases he⟩, .stopping ⟨hp.active, hp.numbered⟩, ?_⟩
      unfold Observation.ofStep
      rw [hinput (by simp)]
      exact .nil
    · contradiction
  | @stopping t p hp =>
    simp only at h
    split at h
    · rename_i hempty
      obtain ⟨rfl, rfl⟩ := Prod.mk.inj (Option.some.inj h)
      have hnone := (Pool.isEmpty_iff p).1 hempty
      refine ⟨_, _, ⟨rfl, rfl, id, fun e he => by cases he⟩, .emptied hp hnone, ?_⟩
      unfold Observation.ofStep
      rw [hinput (by simp), hnone]
      exact .nil
    · contradiction
  | emptied hp hempty => contradiction

/-- **The pool goes on.** -/
theorem stepPool_trail {q q' : Queue} {input : Work.PoolInput} (hwork : r.work = some work)
    (hb : work.IsAt b) (h : r.stepPool s q input = some (r', q', actions)) :
    ∃ work' b', GetsOn r r' work work' ∧ work'.IsAt b' ∧
      Trail Next ⟨a, b⟩ (Observation.ofStep c s r r' (.pool input) actions) ⟨a, b'⟩ := by
  obtain ⟨t, stage, pool⟩ := work
  cases pool with
  | none =>
    simp only [Run.stepPool, hwork] at h
    contradiction
  | some p =>
    cases hstep : Pool.step q s.time (r.isRevoked s) p input with
    | none =>
      simp only [Run.stepPool, hwork, hstep] at h
      contradiction
    | some done =>
      obtain ⟨q'', p', acts⟩ := done
      simp only [Run.stepPool, hwork, hstep, Option.some.injEq, Prod.mk.injEq] at h
      obtain ⟨rfl, rfl, rfl⟩ := h
      rw [Observation.ofStep_pool hwork]
      cases hb with
      | running hp =>
        obtain ⟨hmembers, hp'⟩ := Pool.step_trail hstep hp
        exact ⟨_, _, ⟨rfl, rfl, id, fun e he => by cases he⟩, .running hp',
          trail_of_members hmembers⟩
      | stopping hp =>
        obtain ⟨hmembers, hp'⟩ := Pool.step_trail hstep hp
        exact ⟨_, _, ⟨rfl, rfl, id, fun e he => by cases he⟩, .stopping hp',
          trail_of_members hmembers⟩
      | emptied hp hempty =>
        obtain ⟨hseen, hempty'⟩ := Pool.step_empty hstep hp hempty
        refine ⟨_, _, ⟨rfl, rfl, id, fun e he => by cases he⟩,
          .emptied (Pool.step_trail hstep hp).2 hempty', ?_⟩
        rw [hseen]
        exact .nil

end Work

/-! ## The turns of the elector -/

/-- What is made of the announcement of a term while it is led: the inbox,
the consumer, the work, and how far the rest of the coordinator is. -/
inductive Early (t : Term) : List Event → Consumer → Option PeriodWork → TermStage → Prop
  | told : Early t [.becameLeader t] .listening none .apart
  | welcoming : Early t [] (.announcing t) none (.welcoming t)
  | working {work : PeriodWork} {b : TermStage} (ht : work.term = t) (hb : work.IsAt b) :
    Early t [] .listening (some work) b

/-- What is made of the announcement of its end. The one of its beginning
may still have to be dealt with. -/
inductive Late (t : Term) : List Event → Consumer → Option PeriodWork → TermStage → Prop
  | early {inbox : List Event} {consumer : Consumer} {work : Option PeriodWork} {b : TermStage}
    {reason : LossReason} (h : Early t inbox consumer work b) :
    Late t (inbox ++ [.lostLeadership t reason]) consumer work b
  | joining {work : PeriodWork} {b : TermStage} {reason : LossReason} (ht : work.term = t)
    (hb : work.IsAt b) : Late t [] (.joining t reason) (some work) b
  | reporting : Late t [] (.reporting t) none (.parting t)

/-- **How the elector and the rest of a coordinator stand to each other**:
the stage of the elector, the inbox, the consumer, the work, whether its
end has been confirmed, and how far the rest is. -/
inductive StagesAgree : ElectorStage → List Event → Consumer → Option PeriodWork → Bool →
    TermStage → Prop
  | apart {a : ElectorStage} {confirmed : Bool} (ha : a.Free) :
    StagesAgree a [] .listening none confirmed .apart
  | early {a : ElectorStage} {t : Term} {inbox : List Event} {consumer : Consumer}
    {work : Option PeriodWork} {b : TermStage} (ha : a.Leads t)
    (h : Early t inbox consumer work b) : StagesAgree a inbox consumer work false b
  | late {a : ElectorStage} {t : Term} {inbox : List Event} {consumer : Consumer}
    {work : Option PeriodWork} {b : TermStage} (ha : a.Awaits t)
    (h : Late t inbox consumer work b) : StagesAgree a inbox consumer work false b
  | parted {a : ElectorStage} {t : Term} (ha : a.Awaits t) :
    StagesAgree a [] .listening none true (.parted t)
  | heard {t : Term} : StagesAgree (.heard t) [] .listening none true (.parted t)
  | closed {a : ElectorStage} {confirmed : Bool} {result : Except RunError Unit} :
    StagesAgree a [] (.finished result) none confirmed .closed
  | left {t : Term} {work : PeriodWork} {b : TermStage} {result : Except RunError Unit}
    {confirmed : Bool} (ht : work.term = t) (hb : work.IsAt b) :
    StagesAgree (.down (some t)) [] (.finished result) (some work) confirmed b

/-- When the run has returned and is closed, there is no work. -/
theorem StagesAgree.work_eq_none {a : ElectorStage} {inbox : List Event} {consumer : Consumer}
    {work : Option PeriodWork} {confirmed : Bool}
    (h : StagesAgree a inbox consumer work confirmed .closed) : work = none := by
  have notAt : ∀ w : PeriodWork, ¬ w.IsAt .closed := fun w hw => by cases hw
  cases h with
  | closed => rfl
  | early ha h =>
    cases h with
    | working ht hb => exact absurd hb (notAt _)
  | late ha h =>
    cases h with
    | early h =>
      cases h with
      | working ht hb => exact absurd hb (notAt _)
    | joining ht hb => exact absurd hb (notAt _)
  | left ht hb => exact absurd hb (notAt _)

theorem StagesAgree.inbox_le_two {a : ElectorStage} {inbox : List Event} {consumer : Consumer}
    {work : Option PeriodWork} {confirmed : Bool} {b : TermStage}
    (h : StagesAgree a inbox consumer work confirmed b) : inbox.length ≤ 2 := by
  cases h with
  | early ha h => cases h <;> simp
  | late ha h =>
    cases h with
    | early h => cases h <;> simp
    | _ => simp
  | _ => simp

namespace Run

/-- What the rest of a run takes note of. -/
def heedObservation (r : Run) : Election.Observation → Run
  | .announces (.becameLeader term) true =>
    { r with inbox := r.inbox ++ [.becameLeader term], revoked := false, confirmed := false }
  | .announces e true => { r with inbox := r.inbox ++ [e] }
  | .revokes _ => { r with revoked := true }
  | _ => r

/-- It takes note of nothing that the observations of an action do not show. -/
theorem foldl_heed (φ : Election.Phase) (actions : List Election.Action) (r : Run) :
    actions.foldl heed r
      = (actions.flatMap (Election.Observation.ofAction false φ)).foldl heedObservation r := by
  induction actions generalizing r with
  | nil => rfl
  | cons action actions ih =>
    rw [List.flatMap_cons, List.foldl_append, List.foldl_cons, ih]
    congr 1
    cases action with
    | announce e => cases e <;> rfl
    | read =>
      unfold Election.Observation.ofAction
      cases φ.asked? <;> rfl
    | _ => rfl

theorem foldl_heed_end (φ : Election.Phase) (r : Run) :
    (Election.Observation.ofEnd φ).foldl heedObservation r = r := by
  cases φ <;> rfl

section Heed

variable {r : Run} {x : Election.Observation}

theorem heedObservation_private (hx : x.isPrivate = true) :
    r.heedObservation x = { r with revoked := (r.heedObservation x).revoked } := by
  cases x with
  | announces e delivered => contradiction
  | _ => rfl

theorem heedObservation_rest :
    (r.heedObservation x).elector = r.elector ∧ (r.heedObservation x).work = r.work ∧
      (r.heedObservation x).consumer = r.consumer ∧ (r.heedObservation x).fatal = r.fatal ∧
      (r.heedObservation x).halted = r.halted := by
  unfold heedObservation
  split <;> exact ⟨rfl, rfl, rfl, rfl, rfl⟩

theorem foldl_heedObservation_rest (xs : List Election.Observation) :
    (xs.foldl heedObservation r).elector = r.elector ∧ (xs.foldl heedObservation r).work = r.work ∧
      (xs.foldl heedObservation r).consumer = r.consumer ∧
        (xs.foldl heedObservation r).fatal = r.fatal ∧
      (xs.foldl heedObservation r).halted = r.halted := by
  induction xs generalizing r with
  | nil => exact ⟨rfl, rfl, rfl, rfl, rfl⟩
  | cons x xs ih =>
    obtain ⟨helector, hwork, hconsumer, hfatal, hhalted⟩ := @heedObservation_rest r x
    rw [List.foldl_cons, ← helector, ← hwork, ← hconsumer, ← hfatal, ← hhalted]
    exact ih

end Heed

end Run

section Elector

variable {r : Run} {a a' : ElectorStage} {b : TermStage} {x : Election.Observation}
  {xs : List Election.Observation}

/-- An observation of the elector changes nothing between the two, or is the
one that the rest has been waiting for. -/
theorem StagesAgree.next (h : StagesAgree a r.inbox r.consumer r.work r.confirmed b)
    (hx : Election.Next false a x a') (hdelivered : ∀ e, x ≠ .announces e false)
    (hhears : ∀ t, x = .hears t → r.confirmed = true) (hover : r.isOver = false) :
    ∃ b', Next ⟨a, b⟩ (.elector x) ⟨a', b'⟩ ∧ StagesAgree a' (r.heedObservation x).inbox
      (r.heedObservation x).consumer (r.heedObservation x).work
      (r.heedObservation x).confirmed b' := by
  obtain ⟨elector, inbox, consumer, revoked, confirmed, work, fatal, halted⟩ := r
  have quietly : ∀ {b' : TermStage}, x.isPrivate = true → Next ⟨a, b'⟩ (.elector x) ⟨a', b'⟩ :=
    fun hp => .elector hx fun t hrelease => by subst hrelease; contradiction
  cases h with
  | apart ha =>
    rcases ha.next hx hdelivered with ⟨hp, ha'⟩ | ⟨t, rfl, rfl⟩
    · rw [Run.heedObservation_private hp]
      exact ⟨_, quietly hp, .apart ha'⟩
    · exact ⟨_, .elector hx (by simp), .early .leading .told⟩
  | early ha h =>
    rcases ha.next hx hdelivered with ⟨hp, ha'⟩ | ⟨reason, rfl, rfl⟩
    · rw [Run.heedObservation_private hp]
      exact ⟨_, quietly hp, .early ha' h⟩
    · exact ⟨_, .elector hx (by simp), .late .told (.early h)⟩
  | late ha h =>
    rcases ha.next hx with ⟨hp, ha'⟩ | ⟨rfl, rfl⟩
    · rw [Run.heedObservation_private hp]
      exact ⟨_, quietly hp, .late ha' h⟩
    · exact absurd (hhears _ rfl) Bool.false_ne_true
  | parted ha =>
    rcases ha.next hx with ⟨hp, ha'⟩ | ⟨rfl, rfl⟩
    · rw [Run.heedObservation_private hp]
      exact ⟨_, quietly hp, .parted ha'⟩
    · exact ⟨_, .elector hx (by simp), .heard⟩
  | heard =>
    cases hx with
    | givesBack => exact ⟨_, .releases .givesBack, .apart .releasing⟩
    | fallsHeard => exact ⟨_, .elector .fallsHeard (by simp), .parted .down⟩
  | closed => contradiction
  | left ht hb => contradiction

/-- A turn of the elector, but for the confirmation. -/
theorem StagesAgree.trail (t : Trail (Election.Next false) a xs a')
    (hxs : ∀ x ∈ xs, (∀ e, x ≠ .announces e false) ∧ ∀ t, x ≠ .hears t)
    (h : StagesAgree a r.inbox r.consumer r.work r.confirmed b) (hover : r.isOver = false) :
    ∃ b', Trail Next ⟨a, b⟩ (xs.map .elector) ⟨a', b'⟩ ∧
      StagesAgree a' (xs.foldl Run.heedObservation r).inbox
      (xs.foldl Run.heedObservation r).consumer
        (xs.foldl Run.heedObservation r).work (xs.foldl Run.heedObservation r).confirmed b' := by
  induction t generalizing r b with
  | nil => exact ⟨b, .nil, h⟩
  | @cons a a₁ a' x xs hx t ih =>
    obtain ⟨hdelivered, hhears⟩ := hxs x List.mem_cons_self
    obtain ⟨b₁, hnext, h₁⟩ := h.next hx hdelivered (fun t ht => absurd ht (hhears t)) hover
    have hover₁ : (r.heedObservation x).isOver = false := by
      unfold Run.isOver
      rw [Run.heedObservation_rest.2.2.1]
      exact hover
    obtain ⟨b', u, h'⟩ := ih (fun y hy => hxs y (List.mem_cons_of_mem x hy)) h₁ hover₁
    exact ⟨b', .cons hnext u, h'⟩

end Elector

/-! ## Steps -/

/-- **Where a run is**: what its parts are doing, and what it relies on when
it returns. -/
structure Run.Fits (r : Run) (p : RunStage) : Prop where
  phase : r.elector.phase.IsAt p.elector
  agree : StagesAgree p.elector r.inbox r.consumer r.work r.confirmed p.rest
  /-- A run does not return before its elector has ended. -/
  ended : r.isOver = true → r.elector.phase = .created ∨ r.electorEnded = true
  /-- A failure stops the elector. -/
  fatal : r.fatal.isSome = true → r.halted = true ∧ p.elector.isQuiet = true
  failed : ∀ work e, r.work = some work → work.stage = .ended (some e) → r.halted = true

section Step

variable {c : Coordinator} {s : Surroundings} {r r' : Run} {p : RunStage} {actions : List Action}

/-- What a turn of the elector does to a run. -/
theorem Run.stepElector_eq {input : Election.Input}
    (h : r.stepElector c s input = some (r', actions)) :
    ∃ done : Election.Elector × List Election.Action,
      c.candidate.step (r.electorSurroundings s) r.elector input = some done ∧
      r.admits s input = true ∧ actions = done.2.map .elector ∧
      r' = (Election.Observation.ofDone false done).foldl Run.heedObservation
        { r with elector := done.1 } := by
  unfold Run.stepElector at h
  cases hadmits : r.admits s input with
  | false =>
    rw [hadmits] at h
    contradiction
  | true =>
    rw [hadmits] at h
    cases hstep : c.candidate.step (r.electorSurroundings s) r.elector input with
    | none =>
      rw [hstep] at h
      contradiction
    | some done =>
      rw [hstep] at h
      obtain ⟨rfl, rfl⟩ := Prod.mk.inj (Option.some.inj h)
      refine ⟨done, rfl, rfl, rfl, ?_⟩
      unfold Election.Observation.ofDone
      rw [Run.foldl_heed done.1.phase, List.foldl_append, Run.foldl_heed_end]

/-- An elector that takes a turn has not ended. -/
theorem Run.Fits.isOver_eq_false (h : r.Fits p) {input : Election.Input}
    {done : Election.Elector × List Election.Action}
    (hstep : c.candidate.step (r.electorSurroundings s) r.elector input = some done)
    (hadmits : r.admits s input = true) : r.isOver = false := by
  obtain ⟨elector, inbox, consumer, revoked, confirmed, work, fatal, halted⟩ := r
  obtain ⟨φ, n⟩ := elector
  by_contra hover
  rw [Bool.not_eq_false] at hover
  rcases h.ended hover with hφ | hφ
  · obtain rfl : φ = .created := hφ
    cases input with
    | start =>
      rw [show Run.admits s _ .start = !Run.isOver _ from rfl, hover] at hadmits
      contradiction
    | _ => contradiction
  · cases φ with
    | finished => cases input <;> contradiction
    | crashed => cases input <;> contradiction
    | _ => contradiction

/-- **The elector takes a turn.** -/
theorem Run.Fits.stepElector (h : r.Fits p) {input : Election.Input}
    (hstep : r.stepElector c s input = some (r', actions)) :
    ∃ p', Trail Next p (Observation.ofStep c s r r' (.elector input) actions) p' ∧ r'.Fits p' := by
  obtain ⟨done, hturn, hadmits, rfl, hr'⟩ := Run.stepElector_eq hstep
  have hover := h.isOver_eq_false hturn hadmits
  obtain ⟨a', t, ha'⟩ := Election.Candidate.step_goesOn hturn h.phase
  have hrest := @Run.foldl_heedObservation_rest { r with elector := done.1 }
    (Election.Observation.ofDone false done)
  rw [← hr'] at hrest
  obtain ⟨helector, hwork, hconsumer, hfatal, hhalted⟩ := hrest
  have hquiet : r'.fatal.isSome = true → r'.halted = true ∧ a'.isQuiet = true := by
    rw [hfatal, hhalted]
    intro hsome
    obtain ⟨hhalted, ha⟩ := h.fatal hsome
    have hcancelled : (r.electorSurroundings s).cancelled = true := by
      show (s.stopped || r.halted) = true
      rw [hhalted, Bool.or_true]
    rw [hcancelled] at t
    exact ⟨hhalted, t.preserves (·.isQuiet = true) (fun _ _ _ hx ha => hx.isQuiet ha) ha⟩
  -- the confirmation comes first, and only after it was given
  obtain ⟨a₁, t₁, t₂⟩ := (t.mono fun _ _ _ => Election.Next.anyway).of_append
  have hconfirmed : ∃ b₁, Trail Next p
      ((Election.Observation.ofInput r.elector.phase input).map .elector) ⟨a₁, b₁⟩ ∧
      StagesAgree a₁ r.inbox r.consumer r.work r.confirmed b₁ := by
    rcases Election.Observation.ofInput_eq r.elector.phase input with hinput | ⟨term, rfl, hinput⟩
    · rw [hinput] at t₁ ⊢
      cases t₁
      exact ⟨_, .nil, h.agree⟩
    · rw [hinput] at t₁ ⊢
      cases t₁ with
      | cons hx t₁ =>
        cases t₁
        obtain ⟨b₁, hnext, hagree⟩ := h.agree.next hx (by simp) (fun _ _ => hadmits) hover
        exact ⟨b₁, .single hnext, hagree⟩
  obtain ⟨b₁, u₁, hhand₁⟩ := hconfirmed
  obtain ⟨b', u₂, hhand'⟩ := @StagesAgree.trail { r with elector := done.1 } _ _ _ _ t₂
    (fun x hx => Election.Observation.not_hears_of_mem_ofDone hx) hhand₁ hover
  rw [show (r.electorSurroundings s).deaf = false from rfl, ← hr'] at hhand'
  refine ⟨⟨a', b'⟩, ?_, ?_, hhand', ?_, hquiet, ?_⟩
  · rw [Observation.ofStep_elector, helector]
    unfold Election.Observation.ofStep
    rw [List.map_append]
    exact u₁.append u₂
  · rw [helector]
    exact ha'
  · unfold Run.isOver at hover ⊢
    rw [hconsumer, hover]
    intro hfalse
    contradiction
  · rw [hwork, hhalted]
    exact h.failed

end Step

end Tenure.Coordinator
