import Mathlib.Data.List.Induction
import Tenure.Proofs.Election.Protocol
import Tenure.Proofs.Election.Turn

/-!
# How long an elector pauses

After each attempt an elector pauses, and longer each time if attempts fail
one after the other. It counts the failures, and should count only those in a
row: an attempt that the store has answered shows that the store can be
reached, whatever the answer is.

An answer that brings the lease too late to act on it is the exception. The
pause after it is that of an answered attempt, but the count stays, and the
next failure is taken for one more in the row. So what an elector counts are
the failures since the last attempt that was answered **in time**
(`Attempt.counted`), and this differs from the failures in a row
(`Attempt.inRow`) if such an answer came after a failure, and none in time
since then (`Attempt.counted_ne_inRow_iff`).
-/

namespace Tenure.Election

open Lease (AcquireOutcome)

/-- How an attempt ends. -/
inductive Attempt where
  | failed
  /-- With the lease, but too late to act on it. -/
  | late
  /-- With the lease, or with who has it. -/
  | answered
  deriving DecidableEq

namespace Attempt

variable {seen : List Attempt} {x : Attempt}

/-- The failures since the last attempt that was answered, in time or not. -/
def inRow (seen : List Attempt) : Nat := (seen.reverse.takeWhile (· = .failed)).length

/-- The failures since the last attempt that was answered in time. -/
def counted (seen : List Attempt) : Nat :=
  (seen.reverse.takeWhile (· ≠ .answered)).count .failed

@[simp] theorem inRow_append_failed : inRow (seen ++ [.failed]) = inRow seen + 1 := by
  simp [inRow]

theorem inRow_append_of_ne (h : x ≠ .failed) : inRow (seen ++ [x]) = 0 := by
  simp [inRow, h]

@[simp] theorem counted_append_failed : counted (seen ++ [.failed]) = counted seen + 1 := by
  simp [counted]

@[simp] theorem counted_append_late : counted (seen ++ [.late]) = counted seen := by
  simp [counted]

@[simp] theorem counted_append_answered : counted (seen ++ [.answered]) = 0 := by
  simp [counted]

/-- Where the last of a list may stand. -/
theorem of_append_single_eq {before after : List Attempt} {y : Attempt}
    (h : seen ++ [x] = before ++ y :: after) :
    x = y ∧ seen = before ∨ ∃ rest, after = rest ++ [x] ∧ seen = before ++ y :: rest := by
  rcases List.eq_nil_or_concat after with rfl | ⟨rest, z, rfl⟩
  · obtain ⟨hseen, hx⟩ := List.append_inj' h rfl
    exact .inl ⟨(List.cons.inj hx).1, hseen⟩
  · rw [List.concat_eq_append, ← List.cons_append, ← List.append_assoc] at h
    obtain ⟨hseen, hx⟩ := List.append_inj' h rfl
    exact .inr ⟨rest, by rw [hx, List.concat_eq_append], hseen⟩

/-- Some failure counts. -/
theorem counted_pos_iff :
    0 < counted seen ↔ ∃ before after, seen = before ++ .failed :: after ∧ .answered ∉ after := by
  induction seen using List.reverseRecOn with
  | nil => simp [counted]
  | append_singleton seen x ih =>
    cases x with
    | failed => exact ⟨fun _ => ⟨seen, [], rfl, List.not_mem_nil⟩, fun _ => by simp⟩
    | late =>
      rw [counted_append_late, ih]
      constructor
      · rintro ⟨before, after, rfl, hnone⟩
        exact ⟨before, after ++ [.late], by simp, by simpa using hnone⟩
      · rintro ⟨before, after, heq, hnone⟩
        obtain ⟨hx, -⟩ | ⟨rest, rfl, hseen⟩ := of_append_single_eq heq
        · contradiction
        · exact ⟨before, rest, hseen, fun hmem => hnone (List.mem_append_left _ hmem)⟩
    | answered =>
      rw [counted_append_answered]
      refine ⟨fun h => absurd h (Nat.lt_irrefl 0), ?_⟩
      rintro ⟨before, after, heq, hnone⟩
      obtain ⟨hx, -⟩ | ⟨rest, rfl, hseen⟩ := of_append_single_eq heq
      · contradiction
      · exact absurd (List.mem_append_right _ List.mem_cons_self) hnone

/-- **When more is counted than failed in a row**: an answer came too late after
a failure, and no attempt has been answered in time since the failure. -/
theorem counted_ne_inRow_iff :
    counted seen ≠ inRow seen ↔ ∃ before between after,
      seen = before ++ .failed :: between ++ .late :: after ∧
        .answered ∉ between ∧ .answered ∉ after := by
  induction seen using List.reverseRecOn with
  | nil => simp [counted, inRow]
  | append_singleton seen x ih =>
    cases x with
    | failed =>
      rw [counted_append_failed, inRow_append_failed, Ne, Nat.add_right_cancel_iff, ← Ne, ih]
      constructor
      · rintro ⟨before, between, after, rfl, hbetween, hafter⟩
        exact ⟨before, between, after ++ [.failed], by simp, hbetween, by simpa using hafter⟩
      · rintro ⟨before, between, after, heq, hbetween, hafter⟩
        obtain ⟨hx, -⟩ | ⟨rest, rfl, hseen⟩ := of_append_single_eq heq
        · contradiction
        · exact ⟨before, between, rest, hseen, hbetween,
            fun hmem => hafter (List.mem_append_left _ hmem)⟩
    | late =>
      rw [counted_append_late, inRow_append_of_ne (by decide), ← Nat.pos_iff_ne_zero,
        counted_pos_iff]
      constructor
      · rintro ⟨before, after, rfl, hnone⟩
        exact ⟨before, after, [], rfl, hnone, List.not_mem_nil⟩
      · rintro ⟨before, between, after, heq, hbetween, hafter⟩
        obtain ⟨-, hseen⟩ | ⟨rest, rfl, hseen⟩ := of_append_single_eq heq
        · exact ⟨before, between, hseen, hbetween⟩
        · refine ⟨before, between ++ .late :: rest, by simp [hseen], ?_⟩
          simpa [hbetween] using hafter
    | answered =>
      rw [counted_append_answered, inRow_append_of_ne (by decide)]
      refine ⟨fun h => absurd rfl h, ?_⟩
      rintro ⟨before, between, after, heq, -, hafter⟩
      obtain ⟨hx, -⟩ | ⟨rest, rfl, hseen⟩ := of_append_single_eq heq
      · contradiction
      · exact absurd (List.mem_append_right _ List.mem_cons_self) hafter

end Attempt

/-! ## The count -/

/-- A count as the elector keeps it: a word of 32 bits that stays at its
largest. -/
def tally (k : Nat) : UInt32 := UInt32.ofNat (min k 0xFFFFFFFF)

theorem toNat_tally (k : Nat) : (tally k).toNat = min k 0xFFFFFFFF := by
  rw [tally, UInt32.toNat_ofNat']
  omega

theorem tally_succ (k : Nat) :
    tally (k + 1) = if tally k = 0xFFFFFFFF then tally k else tally k + 1 := by
  have hlast : (0xFFFFFFFF : UInt32).toNat = 0xFFFFFFFF := rfl
  have hone : (1 : UInt32).toNat = 1 := rfl
  split
  · rename_i hfull
    have hk := toNat_tally k
    rw [hfull, hlast] at hk
    rw [← UInt32.toNat_inj, toNat_tally, toNat_tally]
    omega
  · rename_i hfull
    rw [← UInt32.toNat_inj, toNat_tally, hlast] at hfull
    rw [← UInt32.toNat_inj, UInt32.toNat_add, toNat_tally, toNat_tally, hone]
    omega

/-! ## Attempts in a run -/

namespace Phase

/-- Until when the elector pauses. -/
def pause? : Phase → Option Nat
  | standingBy wake => some wake
  | _ => none

/-- Whether a leadership period goes on, or its lease is being given back. -/
def hasTerm : Phase → Bool
  | leading _ => true
  | renewing _ _ _ _ => true
  | draining _ => true
  | drainRenewing _ _ _ _ _ => true
  | awaitingStop _ => true
  | releasing _ _ _ => true
  | _ => false

theorem pause?_of_hasTerm {φ : Phase} (h : φ.hasTerm = true) : φ.pause? = none := by
  cases φ with
  | standingBy wake => contradiction
  | _ => rfl

end Phase

namespace Candidate

/-- What becomes of an attempt with this result. -/
def judge (c : Candidate) (s : Surroundings) : Except Lease.Error AcquireOutcome → Attempt
  | .error _ => .failed
  | .ok (.acquired _ deadline) => if c.isAhead s deadline then .answered else .late
  | .ok (.heldByOther _ _) => .answered

/-- The result of the attempt that has come this far, if what arrives ends it. -/
def result? (c : Candidate) (input : Input) (call : Progress) :
    Option (Except Lease.Error AcquireOutcome) :=
  match input, call with
  | .timeUp, _ => some (c.tooLate c.timing.leaseDuration)
  | .readAnswered answer, .reading now =>
    match ((c.lock.acquire c.identity).onRead now answer).1 with
    | .done result => some result
    | .swap _ _ => none
  | .swapAnswered answer, .swapping record =>
    some ((c.lock.acquire c.identity).onSwap record answer).1
  | _, _ => none

/-- **How the attempt under way ends**, if there is one and it does. One that
is cut short by the end of the election has no end of its own. -/
def ended? (c : Candidate) (s : Surroundings) (φ : Phase) (input : Input) : Option Attempt :=
  match φ with
  | .acquiring call _ => (c.result? input call).map (c.judge s)
  | _ => none

/-- **A run of an elector** with how its attempts ended, in order. What arrives
is arbitrary, and so is what each step finds around it. -/
inductive Tries (c : Candidate) : List Attempt → Elector → Prop
  | created : c.Tries [] {}
  | step {seen : List Attempt} {e : Elector} {done : Elector × List Action} (s : Surroundings)
      (input : Input) (h : c.Tries seen e) (hstep : c.step s e input = some done) :
      c.Tries (seen ++ (c.ended? s e.phase input).toList) done.1

/-- The pause that the last attempt calls for, so many having been counted
before it. -/
def pauseAfter (c : Candidate) (s : Surroundings) (k : Nat) : Attempt → UInt64
  | .failed => c.backoffDelay s (tally k)
  | _ => c.retryDelay s

end Candidate

/-- **What a step does to the pace**, from this phase with so many failures
counted: to the end of the attempt under way, to the count and to the pause. -/
inductive Paced (c : Candidate) (s : Surroundings) (φ : Phase) (n : UInt32) :
    Option Attempt → Elector → Prop
  /-- It begins no pause, and leads no further than it did. -/
  | goesOn {φ' : Phase} (hpause : φ'.pause? = none)
      (hterm : φ'.hasTerm = true → φ.hasTerm = true) : Paced c s φ n none ⟨φ', n⟩
  | fails : Paced c s φ n (some .failed)
      (Candidate.standBy s (if n = 0xFFFFFFFF then n else n + 1) (c.backoffDelay s n))
  /-- The count stays as it is. -/
  | comesLate : Paced c s φ n (some .late) (Candidate.standBy s n (c.retryDelay s))
  | learns : Paced c s φ n (some .answered) (Candidate.standBy s 0 (c.retryDelay s))
  /-- Or it crashes, if there is no time between renewals. -/
  | leads {φ' : Phase} (hterm : φ'.hasTerm = true ∨ φ' = .crashed) :
      Paced c s φ n (some .answered) ⟨φ', 0⟩
  /-- The leadership period is over. -/
  | rests (hterm : φ.hasTerm = true) :
      Paced c s φ n none (Candidate.standBy s n (c.retryDelay s))

namespace Paced

variable {c : Candidate} {s : Surroundings} {φ : Phase} {n : UInt32}

theorem attempt : Paced c s φ n none (c.attempt s n).1 := by
  unfold Candidate.attempt
  split
  · exact .goesOn rfl fun h => absurd h Bool.false_ne_true
  · exact .goesOn rfl fun h => absurd h Bool.false_ne_true

theorem giveBack (hφ : φ.hasTerm = true) (term : Term) :
    Paced c s φ n none (c.giveBack s n term).1 := .goesOn rfl fun _ => hφ

theorem lose (hφ : φ.hasTerm = true) (period : Period) (reason : LossReason) :
    Paced c s φ n none (c.lose s n period reason).1 := by
  unfold Candidate.lose
  split
  · exact giveBack hφ period.term
  · cases reason with
    | superseded => exact .goesOn rfl fun _ => hφ
    | renewFailed => exact .goesOn rfl fun _ => hφ
    | shutdown => exact .goesOn rfl fun _ => hφ

theorem lead (term : Term) (deadline : UInt64) :
    Paced c s φ n (some .answered) (c.lead s term deadline).1 := by
  unfold Candidate.lead
  split
  · exact .leads (.inl rfl)
  · split
    · exact .leads (.inr rfl)
    · exact .leads (.inl rfl)

/-- An attempt has ended. -/
theorem attempted (result : Except Lease.Error AcquireOutcome) :
    Paced c s φ n (some (c.judge s result)) (c.attempted s n result).1 := by
  cases result with
  | error e => exact .fails
  | ok outcome =>
    cases outcome with
    | heldByOther holder deadline => exact .learns
    | acquired term deadline =>
      unfold Candidate.attempted Candidate.judge
      by_cases hahead : c.isAhead s deadline = true
      · simp only [if_pos hahead]
        exact lead term deadline
      · simp only [if_neg hahead]
        exact .comesLate

/-- A renewal of a leader has ended. -/
theorem renewed (hφ : φ.hasTerm = true) (period : Period)
    (result : Except Lease.Error Lease.RenewOutcome) :
    Paced c s φ n none (c.renewed s n period result).1 := by
  cases result with
  | error e => exact lose hφ period .renewFailed
  | ok outcome =>
    cases outcome with
    | lost holder => exact lose hφ period .superseded
    | renewed next =>
      unfold Candidate.renewed
      by_cases hahead : c.isAhead s next = true
      · simp only [if_pos hahead]
        exact .goesOn rfl fun _ => hφ
      · simp only [if_neg hahead]
        exact lose hφ period .renewFailed

/-- A renewal while work is drained has ended. -/
theorem drainRenewed (hφ : φ.hasTerm = true) (period : Period) (stopped : Bool)
    (result : Except Lease.Error Lease.RenewOutcome) :
    Paced c s φ n none (c.drainRenewed s n period stopped result).1 := by
  have hfailed : ∀ note : Action, Paced c s φ n none
      (if stopped then ((c.giveBack s n period.term).1, note :: (c.giveBack s n period.term).2)
        else (⟨.awaitingStop period.term, n⟩, [note])).1 := by
    intro note
    cases stopped with
    | true => exact giveBack hφ period.term
    | false => exact .goesOn rfl fun _ => hφ
  unfold Candidate.drainRenewed
  cases result with
  | error e => exact hfailed _
  | ok outcome =>
    cases outcome with
    | lost holder => exact hfailed _
    | renewed next =>
      by_cases hahead : c.isAhead s next = true
      · simp only [if_pos hahead]
        cases stopped with
        | true => exact giveBack hφ period.term
        | false => exact .goesOn rfl fun _ => hφ
      · simp only [if_neg hahead]
        exact hfailed _

/-- The answer to a call during a leadership period. -/
theorem answered {α : Type} {op : Lease.Operation α} {call : Progress} {input : Input}
    {resume : Progress → Elector} {conclude : Except Lease.Error α → Elector × List Action}
    {done : Elector × List Action}
    (h : Candidate.answered op call input resume conclude = some done)
    (hresume : ∀ p, Paced c s φ n none (resume p))
    (hconclude : ∀ result, Paced c s φ n none (conclude result).1) :
    Paced c s φ n none done.1 := by
  cases Candidate.of_answered h with
  | ends ns hread => exact hconclude _
  | goesOn ns hread => exact hresume _
  | swapped ns => exact hconclude _

section Phases

variable {input : Input} {done : Elector × List Action}

/-- During an attempt. -/
theorem of_acquiring {call : Progress} {giveUp : Nat}
    (h : c.step s ⟨.acquiring call giveUp, n⟩ input = some done) :
    Paced c s (.acquiring call giveUp) n ((c.result? input call).map (c.judge s)) done.1 := by
  cases input with
  | cancelled =>
    obtain rfl := Option.some.inj h
    exact .goesOn rfl fun h => absurd h Bool.false_ne_true
  | timeUp =>
    obtain rfl := Option.some.inj h
    exact attempted (c.tooLate c.timing.leaseDuration)
  | crash =>
    obtain rfl := Option.some.inj h
    exact .goesOn rfl fun h => absurd h Bool.false_ne_true
  | readAnswered answer =>
    simp only [Candidate.step] at h
    cases Candidate.of_answered h with
    | ends ns hread =>
      simp only [Candidate.result?, hread]
      exact attempted _
    | goesOn ns hread =>
      simp only [Candidate.result?, hread]
      exact .goesOn rfl fun h => absurd h Bool.false_ne_true
  | swapAnswered answer =>
    simp only [Candidate.step] at h
    cases Candidate.of_answered h with
    | swapped ns => exact attempted _
  | start => cases call <;> contradiction
  | stopped => cases call <;> contradiction

/-- Between the renewals of a leader. -/
theorem of_leading {period : Period} (h : c.step s ⟨.leading period, n⟩ input = some done) :
    Paced c s (.leading period) n none done.1 := by
  cases input with
  | cancelled =>
    obtain rfl := Option.some.inj h
    exact lose rfl period .shutdown
  | timeUp =>
    simp only [Candidate.step] at h
    split at h
    · obtain rfl := Option.some.inj h
      exact .goesOn rfl fun _ => rfl
    · obtain rfl := Option.some.inj h
      exact lose rfl _ .renewFailed
  | _ => contradiction

/-- During a renewal of a leader. -/
theorem of_renewing {period : Period} {call : Progress} {budget : UInt64} {giveUp : Nat}
    (h : c.step s ⟨.renewing period call budget giveUp, n⟩ input = some done) :
    Paced c s (.renewing period call budget giveUp) n none done.1 := by
  cases input with
  | cancelled =>
    obtain rfl := Option.some.inj h
    exact lose rfl period .shutdown
  | timeUp =>
    obtain rfl := Option.some.inj h
    exact renewed rfl period (c.tooLate budget)
  | crash =>
    obtain rfl := Option.some.inj h
    exact .goesOn rfl fun _ => rfl
  | _ =>
    simp only [Candidate.step] at h
    exact answered h (fun p => .goesOn rfl fun _ => rfl) (renewed rfl period)

/-- While work is drained, between renewals. -/
theorem of_draining {period : Period} (h : c.step s ⟨.draining period, n⟩ input = some done) :
    Paced c s (.draining period) n none done.1 := by
  cases input with
  | stopped =>
    obtain rfl := Option.some.inj h
    exact giveBack rfl period.term
  | timeUp =>
    simp only [Candidate.step] at h
    split at h
    · obtain rfl := Option.some.inj h
      exact .goesOn rfl fun _ => rfl
    · obtain rfl := Option.some.inj h
      exact drainRenewed rfl _ false _
  | _ => contradiction

/-- And during one. -/
theorem of_drainRenewing {period : Period} {call : Progress} {budget : UInt64} {giveUp : Nat}
    {stopped : Bool}
    (h : c.step s ⟨.drainRenewing period call budget giveUp stopped, n⟩ input = some done) :
    Paced c s (.drainRenewing period call budget giveUp stopped) n none done.1 := by
  cases input with
  | stopped =>
    obtain rfl := Option.some.inj h
    exact .goesOn rfl fun _ => rfl
  | timeUp =>
    obtain rfl := Option.some.inj h
    exact drainRenewed rfl period stopped (c.tooLate budget)
  | crash =>
    obtain rfl := Option.some.inj h
    exact .goesOn rfl fun _ => rfl
  | _ =>
    simp only [Candidate.step] at h
    exact answered h (fun p => .goesOn rfl fun _ => rfl) (drainRenewed rfl period stopped)

/-- While the lease is given back. -/
theorem of_releasing {term : Term} {call : Progress} {giveUp : Nat}
    (h : c.step s ⟨.releasing term call giveUp, n⟩ input = some done) :
    Paced c s (.releasing term call giveUp) n none done.1 := by
  cases input with
  | timeUp =>
    obtain rfl := Option.some.inj h
    exact .rests rfl
  | crash =>
    obtain rfl := Option.some.inj h
    exact .goesOn rfl fun h => absurd h Bool.false_ne_true
  | _ =>
    simp only [Candidate.step] at h
    exact answered h (fun p => .goesOn rfl fun _ => rfl) fun result => .rests rfl

end Phases

/-- **Every step keeps one of these paces.** -/
theorem of_step {e : Elector} {input : Input} {done : Elector × List Action}
    (h : c.step s e input = some done) :
    Paced c s e.phase e.failures (c.ended? s e.phase input) done.1 := by
  obtain ⟨φ, n⟩ := e
  cases φ with
  | created =>
    cases input with
    | start =>
      obtain rfl := Option.some.inj h
      exact attempt
    | _ => contradiction
  | acquiring call giveUp => exact of_acquiring h
  | standingBy wake =>
    cases input with
    | cancelled =>
      obtain rfl := Option.some.inj h
      exact .goesOn rfl fun h => absurd h Bool.false_ne_true
    | timeUp =>
      obtain rfl := Option.some.inj h
      exact attempt
    | _ => contradiction
  | leading period => exact of_leading h
  | renewing period call budget giveUp => exact of_renewing h
  | draining period => exact of_draining h
  | drainRenewing period call budget giveUp stopped => exact of_drainRenewing h
  | awaitingStop term =>
    cases input with
    | stopped =>
      obtain rfl := Option.some.inj h
      exact giveBack rfl term
    | _ => contradiction
  | releasing term call giveUp => exact of_releasing h
  | finished => cases input <;> contradiction
  | crashed => cases input <;> contradiction

end Paced

/-! ## The pauses of a run -/

open Attempt

/-- What an elector knows of its attempts: how many failures to count, and that
it has a term only from one that was answered. -/
structure Counts (seen : List Attempt) (e : Elector) : Prop where
  failures : e.failures = tally (counted seen)
  hasTerm : e.phase.hasTerm = true → seen.getLast? = some .answered

variable {c : Candidate} {seen : List Attempt} {e : Elector}

theorem Counts.next {s : Surroundings} {e' : Elector} {ended : Option Attempt}
    (hcounts : Counts seen e) (h : Paced c s e.phase e.failures ended e') :
    Counts (seen ++ ended.toList) e' := by
  have hsame : Counts (seen ++ (none : Option Attempt).toList) e :=
    (List.append_nil seen).symm ▸ hcounts
  cases h with
  | goesOn hpause hterm => exact ⟨hsame.failures, fun h => hsame.hasTerm (hterm h)⟩
  | rests hterm => exact ⟨hsame.failures, fun h => absurd h Bool.false_ne_true⟩
  | fails =>
    refine ⟨?_, fun h => absurd h Bool.false_ne_true⟩
    rw [hcounts.failures, Option.toList_some, counted_append_failed, tally_succ]
    rfl
  | comesLate =>
    refine ⟨?_, fun h => absurd h Bool.false_ne_true⟩
    rw [Option.toList_some, counted_append_late]
    exact hcounts.failures
  | learns =>
    refine ⟨?_, fun h => absurd h Bool.false_ne_true⟩
    rw [Option.toList_some, counted_append_answered]
    rfl
  | leads hterm =>
    refine ⟨?_, fun _ => List.getLast?_concat⟩
    rw [Option.toList_some, counted_append_answered]
    rfl

/-- What is counted along a run. -/
theorem Candidate.Tries.counts (h : c.Tries seen e) : Counts seen e := by
  induction h with
  | created => exact ⟨rfl, fun h => absurd h Bool.false_ne_true⟩
  | step s input _ hstep ih => exact ih.next (.of_step hstep)

/-- **How an elector pauses** after such attempts, in any step that follows. -/
structure Candidate.Paces (c : Candidate) (seen : List Attempt) (e : Elector) : Prop where
  /-- A pause begins where an attempt ends, unless the elector leads first. -/
  begins {s : Surroundings} {input : Input} {done : Elector × List Action} {x : Attempt}
    (hstep : c.step s e input = some done) (h : c.ended? s e.phase input = some x) :
    done.1.phase.pause?.isSome = true ∨
      x = .answered ∧ (done.1.phase.hasTerm = true ∨ done.1.phase = .crashed)
  /-- It is as long as the last attempt says: the retry period if that was
  answered, and if it failed the backoff for the failures counted before it. -/
  lasts {s : Surroundings} {input : Input} {done : Elector × List Action} {wake : Nat}
    (hstep : c.step s e input = some done) (h : done.1.phase.pause? = some wake) :
    ∃ before x, seen ++ (c.ended? s e.phase input).toList = before ++ [x] ∧
      wake = pauseEnd s.time (c.pauseAfter s (counted before) x).toNat
  /-- Not only failures in a row are counted if an answer came too late after a
  failure, and none in time since then. -/
  exceeds : counted seen ≠ inRow seen ↔ ∃ before between after,
    seen = before ++ .failed :: between ++ .late :: after ∧
      .answered ∉ between ∧ .answered ∉ after

/-- **The pauses of an elector**, through all its attempts and terms. -/
theorem Candidate.Tries.paces (h : c.Tries seen e) : c.Paces seen e where
  begins {s input done x} hstep hended := by
    have hpaced := Paced.of_step hstep
    rw [hended] at hpaced
    obtain ⟨e', actions⟩ := done
    cases hpaced with
    | fails => exact .inl rfl
    | comesLate => exact .inl rfl
    | learns => exact .inl rfl
    | leads hterm => exact .inr ⟨rfl, hterm⟩
  lasts {s input done wake} hstep hpause := by
    have hpaced := Paced.of_step hstep
    obtain ⟨e', actions⟩ := done
    generalize c.ended? s e.phase input = ended at hpaced ⊢
    cases hpaced with
    | goesOn hnone hterm =>
      rw [hnone] at hpause
      contradiction
    | fails =>
      refine ⟨seen, .failed, rfl, ?_⟩
      rw [Candidate.pauseAfter, ← h.counts.failures]
      exact (Option.some.inj hpause).symm
    | comesLate => exact ⟨seen, .late, rfl, (Option.some.inj hpause).symm⟩
    | learns => exact ⟨seen, .answered, rfl, (Option.some.inj hpause).symm⟩
    | leads hterm =>
      obtain hterm | rfl := hterm
      · rw [Phase.pause?_of_hasTerm hterm] at hpause
        contradiction
      · contradiction
    | rests hterm =>
      obtain ⟨before, hseen⟩ := List.getLast?_eq_some_iff.1 (h.counts.hasTerm hterm)
      refine ⟨before, .answered, ?_, (Option.some.inj hpause).symm⟩
      rw [Option.toList_none, List.append_nil, hseen]
  exceeds := counted_ne_inRow_iff

/-- An attempt that fails, one in which the clock leaps past the new deadline
before the answer is there, and one under way. -/
theorem anyone_tries : ∃ giveUp,
    anyone.Tries [.failed, .late] ⟨.acquiring (.reading 22003) giveUp, 1⟩ := by
  have h₁ : anyone.Tries _ _ := .step (moment 0) .start .created rfl
  have h₂ := h₁.step (moment 1) (.readAnswered (.error (.unavailable "outage"))) rfl
  have h₃ := h₂.step (moment 2001) .timeUp rfl
  have h₄ := h₃.step (moment 2002) (.readAnswered (.error (.notFound "lease"))) rfl
  have h₅ := h₄.step { moment 2003 with clock := 20003 } (.swapAnswered (.ok ⟨some 1⟩)) rfl
  have h₆ := h₅.step { moment 4003 with clock := 22003 } .timeUp rfl
  exact ⟨_, h₆⟩

/-- This is how it goes on. -/
theorem anyone_paces_after_late : ∃ giveUp,
    anyone.Tries [.failed, .late] ⟨.acquiring (.reading 22003) giveUp, 1⟩ ∧
      anyone.Paces [.failed, .late] ⟨.acquiring (.reading 22003) giveUp, 1⟩ := by
  obtain ⟨giveUp, h⟩ := anyone_tries
  exact ⟨giveUp, h, h.paces⟩

/-- That only failures in a row make a pause longer. -/
def Candidate.PacesInRow (c : Candidate) : Prop :=
  ∀ {seen : List Attempt} {e : Elector} {s : Surroundings} {input : Input}
    {done : Elector × List Action}, c.Tries seen e → c.step s e input = some done →
      c.ended? s e.phase input = some .failed →
      done.1.phase.pause? = some (pauseEnd s.time (c.pauseAfter s (inRow seen) .failed).toNat)

/-- They do not: the attempt under way there fails too, and the pause is four
seconds instead of two. -/
theorem not_pacesInRow : ¬ anyone.PacesInRow := by
  intro h
  obtain ⟨giveUp, hrun⟩ := anyone_tries
  let s := { moment 4004 with clock := 22004 }
  have hstep : anyone.step s ⟨.acquiring (.reading 22003) giveUp, 1⟩
      (.readAnswered (.error (.unavailable "outage"))) = some _ := rfl
  have hpause : some (pauseEnd 4004 (anyone.backoffDelay s (tally 1)).toNat)
      = some (pauseEnd 4004 (anyone.backoffDelay s (tally 0)).toNat) := h hrun hstep rfl
  have hdiffers : ¬ some (pauseEnd 4004 (anyone.backoffDelay s (tally 1)).toNat)
      = some (pauseEnd 4004 (anyone.backoffDelay s (tally 0)).toNat) := by decide +kernel
  exact hdiffers hpause

end Tenure.Election
