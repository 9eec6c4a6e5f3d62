import Tenure.Proofs.Election.ReplicaWithOthers

/-!
# An elector with its store

An elector that comes to a store, is told to stop at some moment, and goes.
All else goes well: each call to the store is answered without a fault
within one renewal interval, and one that is given up has no effect from
then on. How long a call takes within that, when the elector gets to its
answers and its timers, and what others do with the store is arbitrary, but
that nobody else writes records of its identity.

The question is where the lease of such an elector is in the end, so each step
is labelled by what it means for the lease (`LeaseEffect`), and the stored
record matters only if it is a lease of this candidate (`Owns`). What a phase
of the elector knows of it is said by `Keeps`: between terms it is of no
concern any more; in a term it is of that term, so that the release will find
it; and once the release has read it, it is still what was read.
-/

namespace Tenure.Election

open Lease (Lock Operation Outcome Record Request)

/-- A candidate, and how its clock goes. -/
structure ElectorSetup where
  candidate : Candidate
  /-- What the clock reads when the timer is at zero, if the two are in step.
  If not, it goes on as it likes, but never back. -/
  origin : Option Nat

namespace ElectorSetup

/-- The key of the lease. -/
def key (S : ElectorSetup) : String := S.candidate.lock.key

/-- Whether the clock may read this at a moment of the timer. -/
def Reads (S : ElectorSetup) (time : Nat) (clock : UInt64) : Prop :=
  ∀ origin, S.origin = some origin → clock.toNat = origin + time

/-- Whether a lease may last longer than an attempt to acquire it. -/
def Outlasts (S : ElectorSetup) : Prop :=
  S.origin = none ∨
    min S.candidate.timing.leaseDuration.toNat longestPause < S.candidate.lock.duration.toNat

end ElectorSetup

/-- What a step means for the lease. -/
inductive LeaseEffect where
  | quiet
  /-- The store carries out an acquisition. -/
  | acquires
  /-- Told to stop, the elector drops one that is carried out and not
  answered. -/
  | cancelledInFlight
  /-- It gives up waiting for that answer. -/
  | acquireGivenUp
  /-- It gives up the release, which is not carried out. -/
  | releaseGivenUp
  deriving DecidableEq

namespace LeaseEffect

/-- Whether a step means anything for the lease. -/
def matters : LeaseEffect → Bool
  | quiet => false
  | _ => true

/-- What a turn of the elector means. -/
def ofTurn : Phase → Flight → Input → LeaseEffect
  | .acquiring _ _, .swapped (.ok _), .cancelled => .cancelledInFlight
  | .acquiring _ _, .swapped (.ok _), .timeUp => .acquireGivenUp
  | .releasing _ _ _, .swapped _, .timeUp => .quiet
  | .releasing _ _ _, _, .timeUp => .releaseGivenUp
  | _, _, _ => .quiet

/-- An attempt that is not carried out may end in any way. -/
theorem ofTurn_acquiring (call : Progress) (giveUp : Nat) {f : Flight}
    (h : ∀ a, f ≠ .swapped (.ok a)) (input : Input) :
    ofTurn (.acquiring call giveUp) f input = .quiet := by
  unfold ofTurn
  split
  · exact absurd rfl (h _)
  · exact absurd rfl (h _)
  · rfl
  · contradiction
  · rfl

/-- What a swap of the elector means, by its answer. -/
def ofSwap : Phase → Store.WriteAnswer → LeaseEffect
  | .acquiring _ _, .ok _ => .acquires
  | _, _ => .quiet

/-- Whether a lease may be left behind after this. -/
def MayLeaveLease (S : ElectorSetup) : Option LeaseEffect → Prop
  | some .cancelledInFlight => True
  | some .releaseGivenUp => True
  | some .acquireGivenUp => S.Outlasts
  | _ => False

end LeaseEffect

/-- Whether an action begins a call to the store. -/
def Action.isCall : Action → Bool
  | read => true
  | swap _ _ => true
  | _ => false

/-- An elector, its store, and what lies between the two. -/
structure ElectorWithStore where
  time : Nat
  clock : UInt64
  store : Store
  elector : Elector
  flight : Flight
  /-- When the call under way was begun. -/
  began : Nat
  cancelled : Bool

namespace ElectorWithStore

/-- What the elector finds around it. -/
def surroundings (w : ElectorWithStore) (deaf : Bool) (chance : Float) : Surroundings where
  time := w.time
  clock := w.clock
  cancelled := w.cancelled
  deaf := deaf
  chance := chance

/-- The same after a turn of the elector. -/
def afterTurn (w : ElectorWithStore) (f : Flight) (done : Elector × List Action) :
    ElectorWithStore :=
  { w with
    elector := done.1
    flight := flown done.2 f
    began := if done.2.any Action.isCall then w.time else w.began }

/-- The same after a swap. -/
def afterSwap (S : ElectorSetup) (w : ElectorWithStore) (expected : Option UInt64)
    (record : Record) : ElectorWithStore :=
  { w with
    store := (w.store.write (S.candidate.lock.swapCommand expected record)).2
    flight := .swapped (w.store.write (S.candidate.lock.swapCommand expected record)).1 }

/-- What may arrive at the elector, and where its call is then. -/
inductive Arrives (w : ElectorWithStore) : Input → Flight → Prop
  | start : Arrives w .start w.flight
  | readAnswered {answer : Store.ReadAnswer} (h : w.flight = .read answer) :
    Arrives w (.readAnswered answer) .idle
  | swapAnswered {answer : Store.WriteAnswer} (h : w.flight = .swapped answer) :
    Arrives w (.swapAnswered answer) .idle
  | timeUp {due : Nat} (h : w.elector.phase.due = some due) (hdue : due ≤ w.time) :
    Arrives w .timeUp w.flight
  | cancelled (h : w.cancelled = true) : Arrives w .cancelled w.flight
  | stopped : Arrives w .stopped w.flight

/-- **One step.** A call that is given up has no effect from then on. -/
inductive Step (S : ElectorSetup) : ElectorWithStore → LeaseEffect → ElectorWithStore → Prop
  /-- Time passes, and the clock does not go back, but a call is answered in
  less than a renewal interval. -/
  | pass {w : ElectorWithStore} {time : Nat} {clock : UInt64} (hlater : w.time ≤ time)
      (hforth : w.clock ≤ clock) (hclock : S.Reads time clock)
      (hprompt : w.flight = .idle ∨
        time < w.began + S.candidate.timing.renewInterval.toNat) :
      Step S w .quiet { w with time, clock }
  /-- The elector is told to stop. -/
  | cancel {w : ElectorWithStore} : Step S w .quiet { w with cancelled := true }
  /-- Others use the store, but no record of this identity comes from them. -/
  | others {w : ElectorWithStore} {store : Store}
      (h : ∀ record, Lease.recordAt S.key store = some record →
        record.holder = S.candidate.identity → store.find? S.key = w.store.find? S.key) :
      Step S w .quiet { w with store }
  | turn {w : ElectorWithStore} {input : Input} {f : Flight} {deaf : Bool} {chance : Float}
      {done : Elector × List Action} (harrives : Arrives w input f)
      (hstep : S.candidate.step (w.surroundings deaf chance) w.elector input = some done) :
      Step S w (.ofTurn w.elector.phase w.flight input) (w.afterTurn f done)
  /-- The store carries out a read, -/
  | read {w : ElectorWithStore} (h : w.flight = .reading)
      (hanswer : ReplicaWithOthers.IsRead (w.store.read S.key)) :
      Step S w .quiet { w with flight := .read (w.store.read S.key) }
  /-- or a swap; the elector does not know of it before the answer
  arrives. -/
  | swap {w : ElectorWithStore} {expected : Option UInt64} {record : Record}
      (h : w.flight = .swapping expected record)
      (hanswer : ReplicaWithOthers.IsSwapped
        (w.store.write (S.candidate.lock.swapCommand expected record)).1) :
      Step S w (.ofSwap w.elector.phase
        (w.store.write (S.candidate.lock.swapCommand expected record)).1)
        (w.afterSwap S expected record)

/-- The elector has not begun, and there is no lease of its identity. -/
structure Begins (S : ElectorSetup) (w : ElectorWithStore) : Prop where
  elector : w.elector = {}
  flight : w.flight = .idle
  clock : S.Reads w.time w.clock
  stored : ∀ record, Lease.recordAt S.key w.store = some record →
    record.holder ≠ S.candidate.identity

/-! ## Records of its own -/

/-- **The stored record is a lease of this candidate.** -/
structure Owns (S : ElectorSetup) (s : Store) (r : Record) : Prop where
  stored : Lease.recordAt S.key s = some r
  held : r.isHeldBy S.candidate.identity ⟨r.term⟩ = true

section Owns

variable {S : ElectorSetup} {s s' : Store} {r record : Record} {version : UInt64}

theorem Owns.holder_eq (h : Owns S s r) : r.holder = S.candidate.identity :=
  (Record.isHeldBy_iff.1 h.held).2.2.1

/-- It is held by the term that it is of. -/
theorem Owns.isHeldBy (h : Owns S s r) {term : Term} (hterm : r.term = term.value) :
    r.isHeldBy S.candidate.identity term = true := by
  obtain ⟨hholder, hdeadline, hidentity, -⟩ := Record.isHeldBy_iff.1 h.held
  exact Record.isHeldBy_iff.2 ⟨hholder, hdeadline, hidentity, hterm⟩

theorem Owns.of_find?_eq (h : Owns S s' r) (hfind : s'.find? S.key = s.find? S.key) :
    Owns S s r :=
  ⟨(Lease.recordAt_of_find?_eq hfind).symm.trans h.stored, h.held⟩

/-- The stored text says which record it is. -/
theorem Owns.eq_of_text (h : Owns S s r) (hfind : s.find? S.key = some ⟨record.text, version⟩) :
    r = record := by
  have hstored := h.stored
  rw [Lease.recordAt, hfind, Option.bind_some, Lock.decode_text_eq] at hstored
  split at hstored
  · exact (Option.some.inj hstored).symm
  · contradiction

/-- What a read says of it. -/
theorem Owns.current (h : Owns S s r) (hread : ReplicaWithOthers.IsRead (s.read S.key)) :
    ∃ version, S.candidate.lock.current (s.read S.key) = .ok (some (r, version)) ∧
      s.version? S.key = some version := by
  have hstored := h.stored
  rw [Lease.recordAt] at hstored
  obtain ⟨entry, hentry, hdecode⟩ := Option.bind_eq_some_iff.1 hstored
  refine ⟨entry.version, ?_, by rw [Store.version?, hentry]; rfl⟩
  have hdecoded : S.candidate.lock.decode entry.value = .ok r := by
    cases hresult : S.candidate.lock.decode entry.value with
    | ok r' =>
      rw [show Lock.decode ⟨S.key, 0⟩ entry.value = .ok r' from hresult] at hdecode
      rw [Option.some.inj hdecode]
    | error e =>
      rw [show Lock.decode ⟨S.key, 0⟩ entry.value = .error e from hresult] at hdecode
      contradiction
  cases hdown : s.unavailable with
  | true =>
    rw [Store.read, hdown] at hread
    exact hread.elim
  | false =>
    rw [Store.read, hdown, Store.get?, hentry]
    show (S.candidate.lock.decode entry.value).map _ = _
    rw [hdecoded]
    rfl

/-- **A swap that is answered** has put its record in the place of the
expected version, or has met another version and changed nothing. -/
theorem of_swap {expected : Option UInt64}
    (h : ReplicaWithOthers.IsSwapped (s.write (S.candidate.lock.swapCommand expected record)).1) :
    (∃ a, (s.write (S.candidate.lock.swapCommand expected record)).1 = .ok a ∧
      (s.write (S.candidate.lock.swapCommand expected record)).2.find? S.key
        = some ⟨record.text, Store.nextVersion expected⟩) ∨
    (∃ e, (s.write (S.candidate.lock.swapCommand expected record)).1 = .error e ∧
      s.version? S.key ≠ expected ∧
      (s.write (S.candidate.lock.swapCommand expected record)).2.find? S.key = s.find? S.key) := by
  cases hanswer : (s.write (S.candidate.lock.swapCommand expected record)).1 with
  | ok a => exact .inl ⟨a, rfl, (Store.find?_write_swap_of_ok hanswer).2⟩
  | error e =>
    refine .inr ⟨e, rfl, fun hversion => ?_, Store.find?_write_of_error hanswer _⟩
    rcases Store.write_swap_of_version record.text hversion with ⟨a, ha⟩ | ⟨e', he', hne⟩
    · cases hanswer.symm.trans ha
    · obtain rfl := Except.error.inj (hanswer.symm.trans he')
      rw [hanswer] at h
      cases e with
      | swapFailed key version actual => exact hne _ _ _ rfl
      | _ => exact h

end Owns

/-! ## What each phase knows of them -/

end ElectorWithStore

namespace Phase

/-- Whether no term is at hand. -/
def hasNoTerm : Phase → Bool
  | created => true
  | standingBy _ => true
  | finished => true
  | _ => false

/-- The term that is held, until it is given back. -/
def heldTerm? : Phase → Option Term
  | leading period => some period.term
  | renewing period _ _ _ => some period.term
  | draining period => some period.term
  | drainRenewing period _ _ _ _ => some period.term
  | awaitingStop term => some term
  | _ => none

end Phase

/-- Up to when a call may give a lease. -/
def Progress.reach (duration : UInt64) : Progress → Nat
  | reading now => now.toNat + duration.toNat
  | swapping record => record.deadline.toNat

@[simp] theorem Progress.reach_reading (duration now : UInt64) :
    (reading now).reach duration = now.toNat + duration.toNat := rfl

@[simp] theorem Progress.reach_swapping (duration : UInt64) (record : Record) :
    (swapping record).reach duration = record.deadline.toNat := rfl

/-- An attempt is given up when the lease that it asks for is past, unless
that may last longer than the attempt. -/
def Progress.Due (S : ElectorSetup) (giveUp : Nat) (call : Progress) : Prop :=
  S.Outlasts ∨ ∃ origin, S.origin = some origin ∧
    call.reach S.candidate.lock.duration ≤ origin + giveUp

/-- What an attempt asks for is no longer than what it was begun for. -/
theorem Progress.Due.of_onRead {S : ElectorSetup} {now : UInt64} {giveUp : Nat}
    {answer : Store.ReadAnswer} {expected : Option UInt64} {record : Record}
    (h : (Progress.reading now).Due S giveUp)
    (hswap : ((S.candidate.lock.acquire S.candidate.identity).onRead now answer).1
      = .swap expected record) : (Progress.swapping record).Due S giveUp := by
  rcases h with houtlasts | ⟨origin, horigin, hnow⟩
  · exact .inl houtlasts
  · refine .inr ⟨origin, horigin, ?_⟩
    rw [Progress.reach_reading] at hnow
    rw [Progress.reach_swapping, Lease.deadline_of_acquire hswap, Saturating.toNat_add]
    omega

namespace ElectorWithStore

/-- **What each phase knows of a lease of its own**, with its call being
where it is: that it is spent, of which term it is, or what was read of
it. -/
inductive Keeps (S : ElectorSetup) (s : Store) (spent : Record → Prop) : Phase → Flight → Prop
  | apart {φ : Phase} (hφ : φ.hasNoTerm = true) (h : ∀ r, Owns S s r → spent r) :
    Keeps S s spent φ .idle
  | attempts {call : Progress} {giveUp : Nat} {f : Flight} (hdue : call.Due S giveUp)
      (hf : f.isOf (some (.acquire, call))) (hpending : ∀ a, f ≠ .swapped (.ok a))
      (h : ∀ r, Owns S s r → spent r) : Keeps S s spent (.acquiring call giveUp) f
  /-- The acquisition is carried out, and not answered. -/
  | takes {record : Record} {giveUp : Nat} {a : Store.WriteResult}
      (hdue : (Progress.swapping record).Due S giveUp) (h : ∀ r, Owns S s r → r = record) :
      Keeps S s spent (.acquiring (.swapping record) giveUp) (.swapped (.ok a))
  | holds {φ : Phase} {term : Term} {f : Flight} (hφ : φ.heldTerm? = some term)
      (hf : f.isOf φ.asked?)
      (hcall : ∀ request record, φ.asked? = some (request, .swapping record) →
        record.term = term.value)
      (h : ∀ r, Owns S s r → r.term = term.value) : Keeps S s spent φ f
  | asksBack {term : Term} {now : UInt64} {giveUp : Nat}
      (h : ∀ r, Owns S s r → r.term = term.value) :
      Keeps S s spent (.releasing term (.reading now) giveUp) .reading
  | sees {term : Term} {now : UInt64} {giveUp : Nat} {answer : Store.ReadAnswer}
      (h : ∀ r, Owns S s r → r.term = term.value ∧ ∃ version,
        S.candidate.lock.current answer = .ok (some (r, version)) ∧
          s.version? S.key = some version) :
      Keeps S s spent (.releasing term (.reading now) giveUp) (.read answer)
  | givesBack {term : Term} {record : Record} {giveUp : Nat} {expected : Option UInt64}
      (hreleased : record.isReleased = true)
      (h : ∀ r, Owns S s r → s.version? S.key = expected) :
      Keeps S s spent (.releasing term (.swapping record) giveUp) (.swapping expected record)
  | gaveBack {term : Term} {record : Record} {giveUp : Nat} {answer : Store.WriteAnswer}
      (h : ∀ r, ¬ Owns S s r) :
      Keeps S s spent (.releasing term (.swapping record) giveUp) (.swapped answer)
  | down {f : Flight} : Keeps S s spent .crashed f

/-- A term is held while no call is under way. -/
theorem Keeps.holding {S : ElectorSetup} {s : Store} {spent : Record → Prop} {φ : Phase}
    {term : Term} (hφ : φ.heldTerm? = some term) (hasked : φ.asked? = none)
    (h : ∀ r, Owns S s r → r.term = term.value) : Keeps S s spent φ .idle := by
  refine .holds hφ ?_ ?_ h
  · rw [hasked]
    trivial
  · rw [hasked]
    exact fun request record hcall => by contradiction

/-- What is known in a term. -/
theorem Keeps.of_heldTerm? {S : ElectorSetup} {s : Store} {spent : Record → Prop} {φ : Phase}
    {f : Flight} {term : Term} (hk : Keeps S s spent φ f) (hφ : φ.heldTerm? = some term) :
    f.isOf φ.asked? ∧
      (∀ request record, φ.asked? = some (request, .swapping record) →
        record.term = term.value) ∧
      ∀ r, Owns S s r → r.term = term.value := by
  cases hk with
  | holds hφ' hf hcall h =>
    obtain rfl := Option.some.inj (hφ'.symm.trans hφ)
    exact ⟨hf, hcall, h⟩
  | apart hapart => cases φ <;> contradiction
  | _ => contradiction

/-- A step that leaves the elector so, once no call is under way any
more. -/
def Leaves (S : ElectorSetup) (s : Store) (spent : Record → Prop) (done : Elector × List Action) :
    Prop :=
  Keeps S s spent done.1.phase (flown done.2 .idle)

namespace Leaves

variable {S : ElectorSetup} {s : Store} {spent : Record → Prop} {u : Surroundings}

theorem attempt (hclock : S.Reads u.time u.clock) (h : ∀ r, Owns S s r → spent r)
    (n : UInt32) : Leaves S s spent (S.candidate.attempt u n) := by
  unfold Candidate.attempt
  split
  · exact .apart rfl h
  · refine .attempts ?_ trivial (fun a ha => by cases ha) h
    by_cases houtlasts : S.Outlasts
    · exact .inl houtlasts
    · obtain ⟨horigin, hduration⟩ := not_or.1 houtlasts
      obtain ⟨origin, horigin⟩ := Option.ne_none_iff_exists'.1 horigin
      have hreads := hclock origin horigin
      refine .inr ⟨origin, horigin, ?_⟩
      rw [Progress.reach_reading]
      unfold pauseEnd
      omega

theorem standBy (h : ∀ r, Owns S s r → spent r) (n : UInt32) (delay : UInt64)
    {actions : List Action} (hactions : flown actions .idle = .idle) :
    Leaves S s spent (Candidate.standBy u n delay, actions) := by
  unfold Leaves
  rw [hactions]
  exact .apart rfl h

theorem giveBack {term : Term} (h : ∀ r, Owns S s r → r.term = term.value) (n : UInt32) :
    Leaves S s spent (S.candidate.giveBack u n term) :=
  .asksBack h

theorem lose {period : Period} (h : ∀ r, Owns S s r → r.term = period.term.value) (n : UInt32)
    (reason : LossReason) : Leaves S s spent (S.candidate.lose u n period reason) := by
  unfold Candidate.lose
  cases u.deaf with
  | true => exact .asksBack h
  | false => cases reason <;> exact .holding rfl rfl h

theorem lead {term : Term} (h : ∀ r, Owns S s r → r.term = term.value) (deadline : UInt64) :
    Leaves S s spent (S.candidate.lead u term deadline) := by
  unfold Candidate.lead
  cases u.deaf with
  | true => exact .asksBack h
  | false =>
    by_cases hinterval : S.candidate.timing.renewInterval = 0
    · simp only [Bool.false_eq_true, if_false, if_pos hinterval]
      exact .down
    · simp only [Bool.false_eq_true, if_false, if_neg hinterval]
      exact .holding rfl rfl h

/-- An attempt that has acquired the lease has ended. -/
theorem acquired {term : Term} {deadline : UInt64}
    (h : ∀ r, Owns S s r → r.term = term.value ∧ r.deadline = deadline)
    (hlate : ∀ r : Record, r.deadline ≤ u.clock → spent r) (n : UInt32) :
    Leaves S s spent (S.candidate.attempted u n (.ok (.acquired term deadline))) := by
  unfold Candidate.attempted
  by_cases hahead : S.candidate.isAhead u deadline = true
  · simp only [if_pos hahead]
    exact lead (fun r hr => (h r hr).1) deadline
  · simp only [if_neg hahead]
    refine standBy (fun r hr => hlate r ?_) _ _ rfl
    rw [(h r hr).2]
    unfold Candidate.isAhead at hahead
    exact Lease.le_of_renewBudget_eq_none (Option.not_isSome_iff_eq_none.1 hahead)

/-- Any other has. -/
theorem attempted (h : ∀ r, Owns S s r → spent r) (n : UInt32)
    {result : Except Lease.Error Lease.AcquireOutcome}
    (hresult : ∀ term deadline, result ≠ .ok (.acquired term deadline)) :
    Leaves S s spent (S.candidate.attempted u n result) := by
  cases result with
  | error e => exact standBy h _ _ rfl
  | ok outcome =>
    cases outcome with
    | acquired term deadline => exact absurd rfl (hresult term deadline)
    | heldByOther holder deadline => exact standBy h _ _ rfl

theorem renewed {period : Period} (h : ∀ r, Owns S s r → r.term = period.term.value) (n : UInt32)
    (result : Except Lease.Error Lease.RenewOutcome) :
    Leaves S s spent (S.candidate.renewed u n period result) := by
  cases result with
  | error e => exact lose h n .renewFailed
  | ok outcome =>
    cases outcome with
    | lost holder => exact lose h n .superseded
    | renewed next =>
      unfold Candidate.renewed
      by_cases hahead : S.candidate.isAhead u next = true
      · simp only [if_pos hahead]
        exact .holding rfl rfl h
      · simp only [if_neg hahead]
        exact lose h n .renewFailed

theorem drainRenewed {period : Period} (h : ∀ r, Owns S s r → r.term = period.term.value)
    (n : UInt32) (stopped : Bool) (result : Except Lease.Error Lease.RenewOutcome) :
    Leaves S s spent (S.candidate.drainRenewed u n period stopped result) := by
  have ended : ∀ (φ : Phase) (note : Notice), φ.heldTerm? = some period.term → φ.asked? = none →
      Leaves S s spent (if stopped then ((S.candidate.giveBack u n period.term).1,
          Action.note note :: (S.candidate.giveBack u n period.term).2)
        else (⟨φ, n⟩, [Action.note note])) := by
    intro φ note hterm hasked
    cases stopped with
    | true => exact giveBack h n
    | false => exact .holding hterm hasked h
  unfold Candidate.drainRenewed
  cases result with
  | error e => exact ended (.awaitingStop period.term) _ rfl rfl
  | ok outcome =>
    cases outcome with
    | lost holder => exact ended (.awaitingStop period.term) _ rfl rfl
    | renewed next =>
      by_cases hahead : S.candidate.isAhead u next = true
      · simp only [if_pos hahead]
        exact ended (.draining { period with deadline := next }) _ rfl rfl
      · simp only [if_neg hahead]
        exact ended (.awaitingStop period.term) _ rfl rfl

theorem releaseEnded (h : ∀ r, Owns S s r → spent r) (n : UInt32) (term : Term)
    (result : Option (Except Lease.Error Lease.ReleaseOutcome)) :
    Leaves S s spent (S.candidate.releaseEnded u n term result) :=
  standBy h _ _ rfl

end Leaves

end ElectorWithStore

end Tenure.Election
