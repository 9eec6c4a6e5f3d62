import Tenure.Proofs.Election.Observations

/-!
# How an election ends

An elector stops for one reason: it was told to. It comes down for one
reason: a call to the store brought it down, unless its settings leave no
time between renewals. Whatever else happens – failed attempts, lost terms,
releases that are given up – leads to another attempt
(`Candidate.step_ends`).

Once told to stop, an elector may still have a term to end, but it begins no
other: unless an attempt is under way, nothing that it shows from then on
belongs to an attempt or to the beginning of a term
(`Candidate.step_settled`).
-/

namespace Tenure.Election

open Lease (Operation)

/-! ## Why it ends -/

/-- Whether nothing follows. -/
def Phase.isLast : Phase → Bool
  | finished => true
  | crashed => true
  | _ => false

/-- An elector that ends with this step was told to, and one that comes down
was brought down or has no time between renewals. -/
structure Ends (c : Candidate) (s : Surroundings) (input : Input)
    (done : Elector × List Action) : Prop where
  told : done.1.phase = .finished → s.cancelled = true ∨ input = .cancelled
  felled : done.1.phase = .crashed → input = .crash ∨ c.timing.renewInterval = 0

namespace Ends

variable {c : Candidate} {s : Surroundings} {input : Input} {done : Elector × List Action}

/-- An elector that goes on needs no reason. -/
theorem of_goesOn (h : done.1.phase.isLast = false) : Ends c s input done where
  told hfinished := by
    rw [hfinished] at h
    contradiction
  felled hcrashed := by
    rw [hcrashed] at h
    contradiction

theorem attempt (n : UInt32) : Ends c s input (c.attempt s n) := by
  unfold Candidate.attempt
  cases hcancelled : s.cancelled with
  | true =>
    rw [if_pos rfl]
    exact ⟨fun _ => .inl hcancelled, fun h => by contradiction⟩
  | false =>
    rw [if_neg Bool.false_ne_true]
    exact of_goesOn rfl

theorem lose (n : UInt32) (period : Period) (reason : LossReason) :
    Ends c s input (c.lose s n period reason) := by
  unfold Candidate.lose
  cases s.deaf with
  | true => exact of_goesOn rfl
  | false => cases reason <;> exact of_goesOn rfl

theorem lead (term : Term) (deadline : UInt64) : Ends c s input (c.lead s term deadline) := by
  unfold Candidate.lead
  cases s.deaf with
  | true => exact of_goesOn rfl
  | false =>
    by_cases hinterval : c.timing.renewInterval = 0
    · simp only [Bool.false_eq_true, if_false, if_pos hinterval]
      exact ⟨fun h => by contradiction, fun _ => .inr hinterval⟩
    · simp only [Bool.false_eq_true, if_false, if_neg hinterval]
      exact of_goesOn rfl

theorem attempted (n : UInt32) (result : Except Lease.Error Lease.AcquireOutcome) :
    Ends c s input (c.attempted s n result) := by
  cases result with
  | error e => exact of_goesOn rfl
  | ok outcome =>
    cases outcome with
    | heldByOther holder deadline => exact of_goesOn rfl
    | acquired term deadline =>
      unfold Candidate.attempted
      by_cases hahead : c.isAhead s deadline = true
      · simp only [if_pos hahead]
        exact lead term deadline
      · simp only [if_neg hahead]
        exact of_goesOn rfl

theorem renewed (n : UInt32) (period : Period) (result : Except Lease.Error Lease.RenewOutcome) :
    Ends c s input (c.renewed s n period result) := by
  cases result with
  | error e => exact ⟨(lose n period .renewFailed).told, (lose n period .renewFailed).felled⟩
  | ok outcome =>
    cases outcome with
    | lost holder => exact ⟨(lose n period .superseded).told, (lose n period .superseded).felled⟩
    | renewed next =>
      unfold Candidate.renewed
      by_cases hahead : c.isAhead s next = true
      · simp only [if_pos hahead]
        exact of_goesOn rfl
      · simp only [if_neg hahead]
        exact ⟨(lose n period .renewFailed).told, (lose n period .renewFailed).felled⟩

theorem drainRenewed (n : UInt32) (period : Period) (stopped : Bool)
    (result : Except Lease.Error Lease.RenewOutcome) :
    Ends c s input (c.drainRenewed s n period stopped result) := by
  unfold Candidate.drainRenewed
  cases result with
  | error e => cases stopped <;> exact of_goesOn rfl
  | ok outcome =>
    cases outcome with
    | lost holder =>
      cases stopped <;> exact of_goesOn rfl
    | renewed next =>
      by_cases hahead : c.isAhead s next = true
      · simp only [if_pos hahead]
        cases stopped <;> exact of_goesOn rfl
      · simp only [if_neg hahead]
        cases stopped <;> exact of_goesOn rfl

theorem releaseEnded (n : UInt32) (term : Term)
    (result : Option (Except Lease.Error Lease.ReleaseOutcome)) :
    Ends c s input (c.releaseEnded s n term result) :=
  of_goesOn rfl

/-- What an elector does first makes no difference. -/
theorem after {e : Elector} {actions more : List Action} (h : Ends c s input (e, actions)) :
    Ends c s input (e, more) :=
  ⟨h.told, h.felled⟩

/-- An answer lets a call go on, or ends it. -/
theorem answered {α : Type} {op : Operation α} {call : Progress}
    {resume : Progress → Elector} {conclude : Except Lease.Error α → Elector × List Action}
    (h : Candidate.answered op call input resume conclude = some done)
    (hresume : ∀ p, Ends c s input (resume p, []))
    (hconclude : ∀ result, Ends c s input (conclude result)) : Ends c s input done := by
  cases Candidate.of_answered h with
  | ends ns hread => exact (hconclude _).after
  | goesOn ns hread => exact (hresume _).after
  | swapped ns => exact (hconclude _).after

section Phases

variable {n : UInt32} {period : Period} {call : Progress} {budget : UInt64} {giveUp : Nat}

theorem of_acquiring (h : c.step s ⟨.acquiring call giveUp, n⟩ input = some done) :
    Ends c s input done := by
  cases input with
  | cancelled =>
    obtain rfl := Option.some.inj h
    exact ⟨fun _ => .inr rfl, fun h => by contradiction⟩
  | timeUp =>
    obtain rfl := Option.some.inj h
    exact (attempted n (c.tooLate c.timing.leaseDuration)).after
  | crash =>
    obtain rfl := Option.some.inj h
    exact ⟨fun h => by contradiction, fun _ => .inl rfl⟩
  | _ =>
    simp only [Candidate.step] at h
    exact answered h (fun _ => .of_goesOn rfl) (attempted n)

theorem of_leading (h : c.step s ⟨.leading period, n⟩ input = some done) :
    Ends c s input done := by
  cases input with
  | cancelled =>
    obtain rfl := Option.some.inj h
    exact lose n period .shutdown
  | timeUp =>
    simp only [Candidate.step] at h
    split at h
    · obtain rfl := Option.some.inj h
      exact .of_goesOn rfl
    · obtain rfl := Option.some.inj h
      exact (lose n _ .renewFailed).after
  | _ => contradiction

theorem of_renewing (h : c.step s ⟨.renewing period call budget giveUp, n⟩ input = some done) :
    Ends c s input done := by
  cases input with
  | cancelled =>
    obtain rfl := Option.some.inj h
    exact (lose n period .shutdown).after
  | timeUp =>
    obtain rfl := Option.some.inj h
    exact (renewed n period (c.tooLate budget)).after
  | crash =>
    obtain rfl := Option.some.inj h
    exact ⟨fun h => by contradiction, fun _ => .inl rfl⟩
  | _ =>
    simp only [Candidate.step] at h
    exact answered h (fun _ => .of_goesOn rfl) (renewed n period)

theorem of_draining (h : c.step s ⟨.draining period, n⟩ input = some done) :
    Ends c s input done := by
  cases input with
  | stopped =>
    obtain rfl := Option.some.inj h
    exact .of_goesOn rfl
  | timeUp =>
    simp only [Candidate.step] at h
    split at h
    · obtain rfl := Option.some.inj h
      exact .of_goesOn rfl
    · obtain rfl := Option.some.inj h
      exact drainRenewed n _ false (.ok (.lost none))
  | _ => contradiction

theorem of_drainRenewing {stopped : Bool}
    (h : c.step s ⟨.drainRenewing period call budget giveUp stopped, n⟩ input = some done) :
    Ends c s input done := by
  cases input with
  | stopped =>
    obtain rfl := Option.some.inj h
    exact .of_goesOn rfl
  | timeUp =>
    obtain rfl := Option.some.inj h
    exact (drainRenewed n period stopped (c.tooLate budget)).after
  | crash =>
    obtain rfl := Option.some.inj h
    exact ⟨fun h => by contradiction, fun _ => .inl rfl⟩
  | _ =>
    simp only [Candidate.step] at h
    exact answered h (fun _ => .of_goesOn rfl) (drainRenewed n period stopped)

theorem of_releasing {term : Term}
    (h : c.step s ⟨.releasing term call giveUp, n⟩ input = some done) :
    Ends c s input done := by
  cases input with
  | timeUp =>
    obtain rfl := Option.some.inj h
    exact (releaseEnded n term none).after
  | crash =>
    obtain rfl := Option.some.inj h
    exact ⟨fun h => by contradiction, fun _ => .inl rfl⟩
  | _ =>
    simp only [Candidate.step] at h
    exact answered h (fun _ => .of_goesOn rfl) fun result => releaseEnded n term (some result)

end Phases

end Ends

/-- **An election ends only when its elector is told to stop**, and comes
down only when it is brought down. -/
theorem Candidate.step_ends {c : Candidate} {s : Surroundings} {e : Elector} {input : Input}
    {done : Elector × List Action} (h : c.step s e input = some done) : Ends c s input done := by
  obtain ⟨φ, n⟩ := e
  cases φ with
  | created =>
    cases input with
    | start =>
      obtain rfl := Option.some.inj h
      exact (Ends.attempt n).after
    | _ => contradiction
  | standingBy wake =>
    cases input with
    | cancelled =>
      obtain rfl := Option.some.inj h
      exact ⟨fun _ => .inr rfl, fun h => by contradiction⟩
    | timeUp =>
      obtain rfl := Option.some.inj h
      exact Ends.attempt n
    | _ => contradiction
  | acquiring call giveUp => exact Ends.of_acquiring h
  | leading period => exact Ends.of_leading h
  | renewing period call budget giveUp => exact Ends.of_renewing h
  | draining period => exact Ends.of_draining h
  | drainRenewing period call budget giveUp stopped => exact Ends.of_drainRenewing h
  | awaitingStop term =>
    cases input with
    | stopped =>
      obtain rfl := Option.some.inj h
      exact .of_goesOn rfl
    | _ => contradiction
  | releasing term call giveUp => exact Ends.of_releasing h
  | finished => cases input <;> contradiction
  | crashed => cases input <;> contradiction

/-! ## What it does once told to -/

/-- Whether this belongs to an attempt or to the beginning of a term. -/
def Observation.begins : Observation → Bool
  | shows .acquiring => true
  | shows (.leading _) => true
  | calls .acquire => true
  | announces (.becameLeader _) _ => true
  | _ => false

/-- Whether no attempt is under way, nor a term about to begin. -/
def ElectorStage.isSettled : ElectorStage → Bool
  | opening => false
  | trying => false
  | taken _ => false
  | _ => true

/-- Whether no attempt is under way. -/
def Phase.isSettled : Phase → Bool
  | acquiring _ _ => false
  | _ => true

theorem Phase.IsAt.isSettled {φ : Phase} {a : ElectorStage} (h : φ.IsAt a) :
    a.isSettled = φ.isSettled := by
  cases φ with
  | drainRenewing period call budget giveUp stopped =>
    obtain rfl := h
    cases stopped <;> rfl
  | crashed =>
    obtain ⟨term, rfl⟩ := h
    rfl
  | _ =>
    obtain rfl := h
    rfl

theorem Phase.exists_isAt (φ : Phase) : ∃ a, φ.IsAt a := by
  cases φ with
  | crashed => exact ⟨_, none, rfl⟩
  | _ => exact ⟨_, rfl⟩

theorem Next.settled {a b : ElectorStage} {x : Observation} (h : Next true a x b)
    (ha : a.isSettled = true) :
    x.begins = false ∧ b.isSettled = true := by
  cases h with
  | opens h => contradiction
  | tries | misses | takes | begins | speaksAlone | endsTrying | fallsTrying => contradiction
  | _ => exact ⟨rfl, rfl⟩

theorem settled_of_trail {a b : ElectorStage} {seen : List Observation}
    (t : Trail (Next true) a seen b) (ha : a.isSettled = true) :
      (∀ x ∈ seen, x.begins = false) ∧ b.isSettled = true := by
  induction t with
  | nil => exact ⟨fun _ h => absurd h List.not_mem_nil, ha⟩
  | cons hx _ ih =>
    obtain ⟨hbegins, hb⟩ := hx.settled ha
    exact ⟨List.forall_mem_cons.2 ⟨hbegins, (ih hb).1⟩, (ih hb).2⟩

/-- **Once told to stop, an elector begins nothing**, unless an attempt is
under way. -/
theorem Candidate.step_settled {c : Candidate} {s : Surroundings} {e : Elector} {input : Input}
    {done : Elector × List Action} (h : c.step s e input = some done)
    (hcancelled : s.cancelled = true) (he : e.phase.isSettled = true) :
    (∀ x ∈ Observation.ofStep s.deaf e input done, x.begins = false) ∧
      done.1.phase.isSettled = true := by
  obtain ⟨a, ha⟩ := e.phase.exists_isAt
  obtain ⟨b, t, hb⟩ := c.step_goesOn h ha
  rw [hcancelled] at t
  rw [← hb.isSettled]
  exact settled_of_trail t (ha.isSettled.trans he)

end Tenure.Election
