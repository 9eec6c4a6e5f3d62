import Tenure.Proofs.Election.Contest
import Tenure.Proofs.Trail

/-!
# A replica among others

One replica wants a lease that any number of others want too. Everything about
it is prompt: the store answers its calls before any time passes, and time
does not pass a moment at which it goes on by itself. The clock moves with the
timer. The others may be slow and may fail; they are callers of the
`Lease.Contention` that the replica takes part in (`ReplicaWithOthers.lease`),
and their calls go on whenever they like, also between two steps of the
replica.

In such a world a leader knows how old its lease is. A renewal is over in
the moment in which it is due, so the lease lasts one full term from the
last moment at which a renewal was due (`Leads`). It is nowhere said that
renewals succeed.
-/

namespace Tenure.Election

open Lease (Call Contention Label Record Request)
open Lease.Contention (orderlyRules)

/-- A replica, the clock reading when its timer is at zero, and the
identities of the others. -/
structure ReplicaSetup (ι : Type) where
  replica : Coordinator
  origin : Nat
  others : ι → String

namespace ReplicaSetup

variable {ι : Type}

/-- The candidate that the replica is. -/
def candidate (C : ReplicaSetup ι) : Candidate := C.replica.candidate

/-- The key of the lease. -/
def key (C : ReplicaSetup ι) : String := C.candidate.lock.key

/-- The identity of each caller; `none` is the replica. -/
def name (C : ReplicaSetup ι) : Option ι → String
  | none => C.candidate.identity
  | some i => C.others i

/-- **The settings of the replica have no problem**, and nobody else goes by
its identity. -/
structure Fit (C : ReplicaSetup ι) : Prop where
  valid : C.replica.config.validate = .ok ()
  alone : ∀ i, C.others i ≠ C.candidate.identity

variable {C : ReplicaSetup ι}

theorem Fit.named (hC : C.Fit) : C.name none ≠ "" := (Config.of_validate hC.valid).1

theorem Fit.eq_none (hC : C.Fit) (j : Option ι) (h : C.name j = C.name none) : j = none := by
  cases j with
  | none => rfl
  | some i => exact absurd h (hC.alone i)

theorem Fit.interval (hC : C.Fit) :
    0 < C.candidate.timing.renewInterval ∧
      C.candidate.timing.renewInterval < C.candidate.lock.duration := by
  have hsafe := (Config.of_validate hC.valid).2
  unfold Lease.isRenewIntervalSafe at hsafe
  rw [Bool.and_eq_true, decide_eq_true_eq, decide_eq_true_eq] at hsafe
  exact hsafe

theorem Fit.duration_pos (hC : C.Fit) : 0 < C.candidate.lock.duration :=
  UInt64.lt_trans hC.interval.1 hC.interval.2

end ReplicaSetup

/-- What is seen of a step. -/
inductive ReplicaLabel (ι : Type) where
  | quiet
  /-- The store carries out a swap of the replica. -/
  | written
  /-- A step of the others. -/
  | others (l : Label (Option ι))
  /-- Told to stop, the replica gives up leadership at this moment, having
  the lease up to a deadline. -/
  | loses (moment : Nat) (deadline : UInt64)
  /-- It is confirmed to the replica that the work has stopped. -/
  | stops

namespace ReplicaLabel

variable {ι : Type}

/-- How often the store is written. -/
def writes : ReplicaLabel ι → Nat
  | written => 1
  | others l => l.stored?.toList.length
  | _ => 0

/-- And in all of several steps. -/
def allWrites : List (ReplicaLabel ι) → Nat
  | [] => 0
  | l :: ls => l.writes + allWrites ls

@[simp] theorem allWrites_cons (l : ReplicaLabel ι) (ls : List (ReplicaLabel ι)) :
    allWrites (l :: ls) = l.writes + allWrites ls := rfl

@[simp] theorem allWrites_append (ls ms : List (ReplicaLabel ι)) :
    allWrites (ls ++ ms) = allWrites ls + allWrites ms := by
  induction ls with
  | nil => exact (Nat.zero_add _).symm
  | cons l ls ih => rw [List.cons_append, allWrites_cons, allWrites_cons, ih, Nat.add_assoc]

/-- What is seen of a turn of the replica. -/
def ofTurn (moment : Nat) : Phase → Input → ReplicaLabel ι
  | .leading period, .cancelled => .loses moment period.deadline
  | .renewing period _ _ _, .cancelled => .loses moment period.deadline
  | _, .stopped => .stops
  | _, _ => .quiet

theorem ofTurn_stopped (moment : Nat) (φ : Phase) :
    (ofTurn moment φ .stopped : ReplicaLabel ι) = .stops := by
  cases φ <;> rfl

theorem ofTurn_eq_loses {moment moment' : Nat} {φ : Phase} {input : Input} {deadline : UInt64}
    (h : (ofTurn moment φ input : ReplicaLabel ι) = .loses moment' deadline) :
    moment' = moment ∧ input = .cancelled ∧ ∃ period : Period, period.deadline = deadline ∧
      (φ = .leading period ∨ ∃ call budget giveUp, φ = .renewing period call budget giveUp) := by
  unfold ofTurn at h
  split at h
  · obtain ⟨rfl, rfl⟩ := ReplicaLabel.loses.inj h
    exact ⟨rfl, rfl, _, rfl, .inl rfl⟩
  · obtain ⟨rfl, rfl⟩ := ReplicaLabel.loses.inj h
    exact ⟨rfl, rfl, _, rfl, .inr ⟨_, _, _, rfl⟩⟩
  · contradiction
  · contradiction

theorem ofTurn_ne_others (moment : Nat) (φ : Phase) (input : Input) (l : Label (Option ι)) :
    ofTurn moment φ input ≠ .others l := by
  unfold ofTurn
  split <;> simp

end ReplicaLabel

/-- The replica, what lies between it and its store, and the calls of the
others. -/
structure ReplicaWithOthers (ι : Type) where
  time : Nat
  store : Store
  elector : Elector
  flight : Flight
  cancelled : Bool
  calls : ι → Option Call

/-- A tick that comes in time is followed by one an interval later. -/
theorem Candidate.nextTick_self (c : Candidate) (tick : Nat) :
    c.nextTick tick tick = tick + c.timing.renewInterval.toNat := by
  unfold nextTick
  rw [if_neg (by omega)]

/-- The clock reading that a call rests on is this one. -/
def Progress.ReadAt (call : Progress) (request : Request) (now : UInt64) : Prop :=
  match call with
  | .reading moment => moment = now
  | .swapping record => request.stamps record now

/-- In a turn the clock is read only for a new call. -/
theorem Turn.readAt {c : Candidate} {s : Surroundings} {φ φ' : Phase} {f f' : Flight}
    {st st' : State} {input : Input} (h : Turn c s φ f st input φ' f' st')
    (hφ : ∀ request call, φ.asked? = some (request, call) → call.ReadAt request s.clock)
    (request : Request) (call : Progress) (hasked : φ'.asked? = some (request, call)) :
    call.ReadAt request s.clock := by
  cases h with
  | rests hcall hleads hshown =>
    rw [hcall] at hasked
    contradiction
  | asks hcall hleads hshown =>
    rw [hcall] at hasked
    obtain ⟨rfl, rfl⟩ := Prod.mk.inj (Option.some.inj hasked)
    rfl
  | resumes hcall hswap =>
    rw [Phase.asked?_withCall hcall] at hasked
    obtain ⟨rfl, rfl⟩ := Prod.mk.inj (Option.some.inj hasked)
    obtain ⟨-, -, -, hstamps, -⟩ := Lease.replaces_of_onRead hswap
    exact (hφ _ _ hcall : _ = s.clock) ▸ hstamps
  | hears => exact hφ _ _ hasked
  | takes hacquired => contradiction
  | ticks hbudget =>
    obtain ⟨rfl, rfl⟩ := Prod.mk.inj (Option.some.inj hasked)
    rfl
  | renews hrenewed => contradiction

namespace ReplicaWithOthers

variable {ι : Type}

/-- The clock. -/
def clock (C : ReplicaSetup ι) (w : ReplicaWithOthers ι) : UInt64 :=
  UInt64.ofNat (C.origin + w.time)

/-- What the replica has under way on the lease. -/
def ownCall (C : ReplicaSetup ι) (w : ReplicaWithOthers ι) : Option Call :=
  C.candidate.callOf w.elector.phase w.flight

/-- **The contention** for the lease. -/
def lease (C : ReplicaSetup ι) (w : ReplicaWithOthers ι) : Contention (Option ι) where
  clock := w.clock C
  store := w.store
  calls
    | none => w.ownCall C
    | some i => w.calls i

/-- What the elector finds around it. The consumer of its events is
there. -/
def surroundings (C : ReplicaSetup ι) (w : ReplicaWithOthers ι) (chance : Float) :
    Surroundings where
  time := w.time
  clock := w.clock C
  cancelled := w.cancelled
  deaf := false
  chance := chance

/-- The same after a step of the others. -/
def afterOthers (w : ReplicaWithOthers ι) (u : Contention (Option ι)) : ReplicaWithOthers ι :=
  { w with store := u.store, calls := fun i => u.calls (some i) }

/-- The same after a turn of the elector. -/
def afterTurn (w : ReplicaWithOthers ι) (f : Flight) (done : Elector × List Action) :
    ReplicaWithOthers ι :=
  { w with elector := done.1, flight := flown done.2 f }

/-- The same after a read that the store was asked for. -/
def afterRead (C : ReplicaSetup ι) (w : ReplicaWithOthers ι) : ReplicaWithOthers ι :=
  { w with flight := .read (w.store.read C.key) }

/-- And after a swap. -/
def afterSwap (C : ReplicaSetup ι) (w : ReplicaWithOthers ι) (expected : Option UInt64)
    (record : Record) :
    ReplicaWithOthers ι :=
  { w with
    store := ((w.lease C).carryOut C.key expected record).2
    flight := .swapped ((w.lease C).carryOut C.key expected record).1 }

/-- What may arrive at the elector, and where its call is then. -/
inductive Arrives (w : ReplicaWithOthers ι) : Input → Flight → Prop
  | start : Arrives w .start w.flight
  | readAnswered {answer : Store.ReadAnswer} (h : w.flight = .read answer) :
    Arrives w (.readAnswered answer) .idle
  | swapAnswered {answer : Store.WriteAnswer} (h : w.flight = .swapped answer) :
    Arrives w (.swapAnswered answer) .idle
  | timeUp {due : Nat} (h : w.elector.phase.due = some due) (hdue : due ≤ w.time) :
    Arrives w .timeUp w.flight
  | cancelled (h : w.cancelled = true) : Arrives w .cancelled w.flight
  | stopped : Arrives w .stopped w.flight

/-- An answer that says what is stored. -/
def IsRead : Store.ReadAnswer → Prop
  | .ok _ => True
  | .error (.notFound _) => True
  | .error _ => False

/-- An answer that says whether the swap was carried out. -/
def IsSwapped : Store.WriteAnswer → Prop
  | .ok _ => True
  | .error (.swapFailed _ _ _) => True
  | .error _ => False

/-- **One step.** -/
inductive Step [DecidableEq ι] (C : ReplicaSetup ι) :
    ReplicaWithOthers ι → ReplicaLabel ι → ReplicaWithOthers ι → Prop
  /-- Time passes, and the clock with it, but not before the store has
  answered. -/
  | pass {w : ReplicaWithOthers ι} {time : Nat} (hlater : w.time ≤ time) (hidle : w.flight = .idle)
      (hdue : ∀ due, w.elector.phase.due = some due → time ≤ due)
      (hclock : C.origin + time ≤ Saturating.top) : Step C w .quiet { w with time }
  /-- The replica is told to stop. -/
  | cancel {w : ReplicaWithOthers ι} : Step C w .quiet { w with cancelled := true }
  /-- The others go on, or write elsewhere, or arm and disarm faults of the
  store. -/
  | others {w : ReplicaWithOthers ι} {l : Label (Option ι)} {u : Contention (Option ι)}
      (h : Contention.Step C.key (orderlyRules C.name) (w.lease C) l u)
      (hclock : u.clock = w.clock C) (hown : u.calls none = w.ownCall C) :
      Step C w (.others l) (w.afterOthers u)
  | turn {w : ReplicaWithOthers ι} {input : Input} {f : Flight} {chance : Float}
      {done : Elector × List Action} (harrives : Arrives w input f)
      (hstep : C.candidate.step (w.surroundings C chance) w.elector input = some done) :
      Step C w (.ofTurn w.time w.elector.phase input) (w.afterTurn f done)
  /-- The store answers a read of the replica. -/
  | read {w : ReplicaWithOthers ι} (h : w.flight = .reading)
      (hanswer : IsRead (w.store.read C.key)) :
      Step C w .quiet (w.afterRead C)
  /-- And a swap. -/
  | swap {w : ReplicaWithOthers ι} {expected : Option UInt64} {record : Record}
      (h : w.flight = .swapping expected record)
      (hanswer : IsSwapped ((w.lease C).carryOut C.key expected record).1) :
      Step C w .written (w.afterSwap C expected record)

/-- The replica has not begun, nobody has a call under way, and the lease is
absent or holds a record of this layout that lasts. -/
structure Begins (C : ReplicaSetup ι) (w : ReplicaWithOthers ι) : Prop where
  elector : w.elector = {}
  flight : w.flight = .idle
  calls : ∀ i, w.calls i = none
  clock : C.origin + w.time ≤ Saturating.top
  stored : ∀ record, Lease.recordAt C.key w.store = some record →
    record.schema = Lease.schemaVersion ∧ 0 < record.duration

variable {C : ReplicaSetup ι} {w w' : ReplicaWithOthers ι} {l : ReplicaLabel ι} {term : Term}
  {deadline : UInt64}

theorem toNat_clock (h : C.origin + w.time ≤ Saturating.top) :
    (w.clock C).toNat = C.origin + w.time := Saturating.toNat_ofNat_of_le h

theorem clock_eq (htime : w'.time = w.time) : w'.clock C = w.clock C := by
  rw [clock, clock, htime]

theorem lease_afterOthers {u : Contention (Option ι)} (hclock : u.clock = w.clock C)
    (hown : u.calls none = w.ownCall C) : (w.afterOthers u).lease C = u := by
  obtain ⟨clock, store, calls⟩ := u
  obtain rfl := hclock
  show Contention.mk _ _ _ = _
  congr 1
  funext j
  cases j with
  | none => exact hown.symm
  | some i => rfl

/-- What the elector does is such a turn. -/
theorem Arrives.turn {input : Input} {f : Flight} {chance : Float}
    {done : Elector × List Action} (harrives : Arrives w input f) (hC : C.Fit)
    (hw : w.flight.isOf w.elector.phase.asked?)
    (hstep : C.candidate.step (w.surroundings C chance) w.elector input = some done) (st : State) :
    Turn C.candidate (w.surroundings C chance) w.elector.phase f st input
      done.1.phase (flown done.2 f) (published done.2 st) := by
  refine Turn.of_step rfl (UInt64.ne_of_lt hC.interval.1).symm ?_ ?_ st hstep
  · cases harrives <;> simp
  · intro hidle
    have hkeeps : w.elector.phase.asked? = none → w.flight = .idle :=
      fun hnone => Flight.eq_idle_of_isOf (hnone ▸ hw)
    cases harrives with
    | readAnswered h => rfl
    | swapAnswered h => rfl
    | _ => exact hkeeps (hidle.resolve_left (by simp [Input.isAnswer]))

/-! ## What is kept up -/

/-- **The invariant.** The clock reading that the call of the replica rests
on is never an old one. -/
structure Kept (C : ReplicaSetup ι) (w : ReplicaWithOthers ι) : Prop where
  inStep : w.flight.isOf w.elector.phase.asked?
  clock : C.origin + w.time ≤ Saturating.top
  sound : Contention.Sound C.key (w.lease C)
  orderly : Contention.Orderly C.key C.name (w.lease C)
  fresh : ∀ request call, w.elector.phase.asked? = some (request, call) →
    call.ReadAt request (w.clock C)

/-- It holds at the start. -/
theorem Begins.kept (hw : Begins C w) : Kept C w := by
  have hasked : w.elector.phase.asked? = none := by rw [hw.elector]; rfl
  have hidle : ∀ j, (w.lease C).calls j = none := by
    intro j
    cases j with
    | none => exact callOf_of_asked?_none hasked _
    | some i => exact hw.calls i
  refine ⟨?_, hw.clock, ⟨fun j c hcall => ?_, fun record h => (hw.stored record h).1⟩,
    ⟨fun j c hcall => ?_, fun j c now hcall => ?_, fun record h => (hw.stored record h).2⟩,
    fun request call h => ?_⟩
  · rw [hasked, hw.flight]
    trivial
  · rw [hidle] at hcall
    contradiction
  · rw [hidle] at hcall
    contradiction
  · rw [hidle] at hcall
    contradiction
  · rw [hasked] at h
    contradiction

/-- Nothing is asked while time passes. -/
theorem Kept.asked?_of_idle (hk : Kept C w) (h : w.flight = .idle) :
    w.elector.phase.asked? = none :=
  Flight.eq_none_of_isOf_idle (h ▸ hk.inStep)

/-! ## What the replica has -/

/-- **The replica has a term** up to a deadline. -/
def Holds (C : ReplicaSetup ι) (w : ReplicaWithOthers ι) (term : Term) (deadline : UInt64) : Prop :=
  ∃ since, Contention.Secured C.key C.name (w.lease C) none term deadline since
    C.candidate.lock.duration

/-- What the replica has under way can only renew. -/
def OnlyRenews (C : ReplicaSetup ι) (w : ReplicaWithOthers ι) : Prop :=
  ∀ call, w.ownCall C = some call → ∃ term, call.request = .renew term

theorem onlyRenews_of_resting (h : w.elector.phase.asked? = none) : w.OnlyRenews C := by
  intro call hcall
  rw [ownCall, callOf_of_asked?_none h] at hcall
  contradiction

theorem onlyRenews_of_renewing {progress : Progress}
    (h : w.elector.phase.asked? = some (.renew term, progress)) : w.OnlyRenews C := by
  intro call hcall
  rw [ownCall, Candidate.callOf, h] at hcall
  obtain ⟨stage, -, rfl⟩ := Option.map_eq_some_iff.1 hcall
  exact ⟨term, rfl⟩

theorem onlyRenews_of_swapped {answer : Store.WriteAnswer} (h : w.flight = .swapped answer) :
    w.OnlyRenews C := by
  intro call hcall
  rw [ownCall, h, callOf_swapped] at hcall
  contradiction

/-- **A record is granted** when the replica has its term for as long as a
term lasts from now on. -/
def Granted (C : ReplicaSetup ι) (w : ReplicaWithOthers ι) (term : Term) (record : Record) : Prop :=
  record.deadline = Saturating.add (w.clock C) C.candidate.lock.duration ∧
    w.Holds C term record.deadline

theorem Granted.clock_le {record : Record} (h : w.Granted C term record) :
    w.clock C ≤ record.deadline := by
  have hnow := (w.clock C).toNat_lt
  rw [h.1, UInt64.le_iff_toNat_le, Saturating.toNat_add]
  unfold Saturating.top
  omega

/-! ## What a leader has -/

/-- The deadline is a full term after this moment, or at the end of all
clocks. -/
def Reaches (C : ReplicaSetup ι) (moment : Nat) (deadline : UInt64) : Prop :=
  min (C.origin + moment + C.candidate.lock.duration.toNat) Saturating.top ≤ deadline.toNat

/-- **A leader has its term**, for a full term from the moment at which it
last began to ask for it, which is less than an interval ago or was the
last moment at which a renewal was due. -/
def Leads (C : ReplicaSetup ι) (w : ReplicaWithOthers ι) : Phase → Prop
  | .acquiring call _ => ∀ record a, call = .swapping record → w.flight = .swapped (.ok a) →
    w.Granted C ⟨record.term⟩ record
  | .leading period => w.time ≤ period.tick ∧ w.Holds C period.term period.deadline ∧
    ∃ moment, period.tick = moment + C.candidate.timing.renewInterval.toNat ∧
      Reaches C moment period.deadline
  | .renewing period call _ _ =>
    period.tick = w.time + C.candidate.timing.renewInterval.toNat ∧
    w.Holds C period.term period.deadline ∧
    (∃ moment, w.time = moment + C.candidate.timing.renewInterval.toNat ∧
      Reaches C moment period.deadline) ∧
    ∀ record a, call = .swapping record → w.flight = .swapped (.ok a) →
      w.Granted C period.term record
  | _ => True

/-- No leader outlives its deadline. -/
theorem Reaches.clock_le {moment : Nat} (h : Reaches C moment deadline) (hC : C.Fit)
    (hclock : C.origin + w.time ≤ Saturating.top)
    (htime : w.time ≤ moment + C.candidate.timing.renewInterval.toNat) :
    w.clock C ≤ deadline := by
  have hinterval := UInt64.lt_iff_toNat_lt.1 hC.interval.2
  unfold Reaches at h
  rw [UInt64.le_iff_toNat_le, toNat_clock hclock]
  omega

theorem Granted.reaches {record : Record} (h : w.Granted C term record)
    (hclock : C.origin + w.time ≤ Saturating.top) : Reaches C w.time record.deadline := by
  unfold Reaches
  exact Nat.le_of_eq (by rw [h.1, Saturating.toNat_add, toNat_clock hclock])

/-- What the replica has after a step, if it only renews. -/
def Keeps (C : ReplicaSetup ι) (w w' : ReplicaWithOthers ι) : Prop :=
  ∀ term deadline, w'.OnlyRenews C → w'.clock C ≤ deadline → w.Holds C term deadline →
    w'.Holds C term deadline

theorem Granted.of_keeps {record : Record} (h : w.Granted C term record) (hkeeps : Keeps C w w')
    (htime : w'.time = w.time) {answer : Store.WriteAnswer}
    (hflight : w'.flight = .swapped answer) : w'.Granted C term record := by
  have hclock : w'.clock C = w.clock C := clock_eq htime
  refine ⟨hclock ▸ h.1, hkeeps _ _ (onlyRenews_of_swapped hflight) ?_ h.2⟩
  rw [hclock]
  exact h.clock_le

/-- Wherever the call of a leader goes, the leader has its term, and what is
granted to it besides. -/
theorem Leads.of_flight (hl : w.Leads C w.elector.phase) (hC : C.Fit)
    (hclock : C.origin + w.time ≤ Saturating.top) (helector : w'.elector = w.elector)
    (htime : w'.time = w.time) (hkeeps : Keeps C w w')
    (hgranted : ∀ request term record a,
      w.elector.phase.asked? = some (request, .swapping record) → w'.flight = .swapped (.ok a) →
      (request = .acquire ∧ term = ⟨record.term⟩ ∨
        request = .renew term ∧ ∃ deadline, w.Holds C term deadline) →
      (w.flight = w'.flight → w.Granted C term record) → w'.Granted C term record) :
    w'.Leads C w'.elector.phase := by
  have hclock' : C.origin + w'.time ≤ Saturating.top := htime ▸ hclock
  rw [helector]
  cases hphase : w.elector.phase with
  | acquiring call giveUp =>
    rw [hphase] at hl
    rintro record a rfl hflight
    exact hgranted .acquire _ record a (by rw [hphase]; rfl) hflight (.inl ⟨rfl, rfl⟩)
      fun hsame => hl record a rfl (hsame.trans hflight)
  | leading period =>
    rw [hphase] at hl
    obtain ⟨htick, hholds, moment, hmoment, hreaches⟩ := hl
    have hown : w'.OnlyRenews C := onlyRenews_of_resting (by rw [helector, hphase]; rfl)
    exact ⟨htime ▸ htick, hkeeps _ _ hown (hreaches.clock_le hC hclock' (by omega)) hholds,
      moment, hmoment, hreaches⟩
  | renewing period call budget giveUp =>
    rw [hphase] at hl
    obtain ⟨htick, hholds, ⟨moment, hmoment, hreaches⟩, hrecord⟩ := hl
    have hown : w'.OnlyRenews C := onlyRenews_of_renewing (by rw [helector, hphase]; rfl)
    refine ⟨htime ▸ htick, hkeeps _ _ hown (hreaches.clock_le hC hclock' (by omega)) hholds,
      ⟨moment, htime ▸ hmoment, hreaches⟩, ?_⟩
    rintro record a rfl hflight
    exact hgranted (.renew period.term) _ record a (by rw [hphase]; rfl) hflight
      (.inr ⟨rfl, _, hholds⟩) fun hsame => hrecord record a rfl (hsame.trans hflight)
  | _ => trivial

/-- Time passes between the renewals of a leader. -/
theorem Leads.of_pass {time : Nat} (hl : w.Leads C w.elector.phase) (hC : C.Fit) (hk : Kept C w)
    (hidle : w.flight = .idle) (hdue : ∀ due, w.elector.phase.due = some due → time ≤ due)
    (hclock : C.origin + time ≤ Saturating.top) (hkeeps : Keeps C w { w with time }) :
    Leads C { w with time } w.elector.phase := by
  have hasked := hk.asked?_of_idle hidle
  cases hphase : w.elector.phase with
  | acquiring call giveUp =>
    rw [hphase] at hasked
    contradiction
  | leading period =>
    rw [hphase] at hl hdue
    obtain ⟨-, hholds, moment, hmoment, hreaches⟩ := hl
    have htick : time ≤ period.tick := hdue _ rfl
    have hown : OnlyRenews C { w with time } := onlyRenews_of_resting hasked
    refine ⟨htick, hkeeps _ _ hown (hreaches.clock_le hC hclock ?_) hholds, moment, hmoment,
      hreaches⟩
    exact hmoment ▸ htick
  | renewing period call budget giveUp =>
    rw [hphase] at hasked
    contradiction
  | _ => trivial

/-- What is granted is what a leader has when it goes on to lead. -/
theorem Granted.leads {record : Record} {tick : Nat} (h : w.Granted C term record)
    (hclock : C.origin + w.time ≤ Saturating.top)
    (htick : tick = w.time + C.candidate.timing.renewInterval.toNat)
    (hphase : w'.elector.phase = .leading ⟨term, record.deadline, tick⟩)
    (htime : w'.time = w.time) (hkeeps : Keeps C w w') :
    w'.Leads C (.leading ⟨term, record.deadline, tick⟩) := by
  have hown : w'.OnlyRenews C := onlyRenews_of_resting (by rw [hphase]; rfl)
  refine ⟨?_, hkeeps _ _ hown ?_ h.2, w.time, htick, h.reaches hclock⟩
  · rw [htime, htick]
    exact Nat.le_add_right _ _
  · rw [clock_eq htime]
    exact h.clock_le

/-- A renewal that is under way, and has not been carried out, leaves a
leader what it has. -/
theorem Leads.of_renewing {period : Period} {call : Progress} {budget : UInt64} {giveUp : Nat}
    {moment : Nat} (hholds : w.Holds C period.term period.deadline)
    (hmoment : w.time = moment + C.candidate.timing.renewInterval.toNat)
    (hreaches : Reaches C moment period.deadline) (hC : C.Fit)
    (hclock : C.origin + w.time ≤ Saturating.top)
    (htick : period.tick = w.time + C.candidate.timing.renewInterval.toNat)
    (hphase : w'.elector.phase = .renewing period call budget giveUp) (htime : w'.time = w.time)
    (hflight : ∀ answer, w'.flight ≠ .swapped answer) (hkeeps : Keeps C w w') :
    w'.Leads C (.renewing period call budget giveUp) := by
  have hown : w'.OnlyRenews C := onlyRenews_of_renewing (by rw [hphase]; rfl)
  refine ⟨htime ▸ htick, hkeeps _ _ hown ?_ hholds, ⟨moment, htime ▸ hmoment, hreaches⟩,
    fun record a _ h => absurd h (hflight _)⟩
  rw [clock_eq htime]
  exact hreaches.clock_le hC hclock (Nat.le_of_eq hmoment)

/-- **Turns keep what a leader has.** -/
theorem Leads.of_turn {s : Surroundings} {φ φ' : Phase} {f f' : Flight} {st st' : State}
    {input : Input} (hl : w.Leads C φ)
    (h : Turn C.candidate s φ f st input φ' f' st') (hC : C.Fit)
    (hclock : C.origin + w.time ≤ Saturating.top) (hs : s.time = w.time)
    (hdue : input = .timeUp → ∀ due, φ.due = some due → due ≤ w.time)
    (harrived : ∀ answer, input = .swapAnswered answer → w.flight = .swapped answer)
    (hφ' : w'.elector.phase = φ') (hf' : w'.flight = f') (htime : w'.time = w.time)
    (hkeeps : Keeps C w w') : w'.Leads C φ' := by
  cases h with
  | rests hcall hleads hshown => cases φ' <;> first | contradiction | trivial
  | asks hcall hleads hshown =>
    cases φ' with
    | acquiring call giveUp =>
      obtain ⟨-, rfl⟩ := Prod.mk.inj (Option.some.inj hcall)
      rintro record a hrecord
      contradiction
    | leading period => contradiction
    | renewing period call budget giveUp => contradiction
    | _ => trivial
  | @resumes φ f st request now answer expected record hcall hswap =>
    have hflight : ∀ answer, w'.flight ≠ .swapped answer := fun answer => by simp [hf']
    cases φ with
    | acquiring call giveUp => exact fun record' a _ h => absurd h (hflight _)
    | renewing period call budget giveUp =>
      obtain ⟨htick, hholds, ⟨moment, hmoment, hreaches⟩, -⟩ := hl
      exact .of_renewing hholds hmoment hreaches hC hclock htick hφ' htime hflight hkeeps
    | leading period => contradiction
    | _ => trivial
  | hears => trivial
  | @takes record giveUp f st st' answer term deadline hacquired =>
    obtain ⟨⟨a, rfl⟩, rfl, hterm⟩ := Lease.grant?_of_onSwap hacquired rfl
    obtain ⟨-, rfl⟩ | hrenew := hterm
    · exact (hl record a rfl (harrived _ rfl)).leads hclock (by rw [hs]) hφ' htime hkeeps
    · contradiction
  | @ticks period budget f st hbudget =>
    obtain ⟨htick, hholds, moment, hmoment, hreaches⟩ := hl
    have hnow : w.time = period.tick := Nat.le_antisymm htick (hdue rfl _ rfl)
    have hnext : C.candidate.nextTick s.time period.tick
        = w.time + C.candidate.timing.renewInterval.toNat := by
      rw [hs, ← hnow, Candidate.nextTick_self]
    exact .of_renewing hholds (hnow.trans hmoment) hreaches hC hclock hnext hφ' htime
      (fun answer => by simp [hf']) hkeeps
  | @renews period record budget giveUp f st answer next hrenewed =>
    obtain ⟨htick, -, -, hrecord⟩ := hl
    obtain ⟨⟨a, rfl⟩, rfl, -⟩ := Lease.grant?_of_onSwap hrenewed rfl
    exact (hrecord record a rfl (harrived _ rfl)).leads hclock htick hφ' htime hkeeps

/-! ## The replica and the others as a contention -/

variable [DecidableEq ι]

/-- What the replica does and what is done for it changes nothing but its
own call, and the store. -/
theorem lease_eq_setCall (elector : Elector) (flight : Flight) (store : Store) :
    ({ w with store, elector, flight } : ReplicaWithOthers ι).lease C
      = { w.lease C with store }.setCall none
          (C.candidate.callOf elector.phase flight) := by
  unfold lease Contention.setCall
  congr 1
  funext j
  cases j with
  | none => simp [ownCall]
  | some i => simp

theorem lease_afterTurn (f : Flight) (done : Elector × List Action) :
    (w.afterTurn f done).lease C
      = (w.lease C).setCall none (C.candidate.callOf done.1.phase (flown done.2 f)) :=
  lease_eq_setCall done.1 _ w.store

theorem lease_afterRead :
    (w.afterRead C).lease C
      = (w.lease C).setCall none
          (C.candidate.callOf w.elector.phase (.read (w.store.read C.key))) :=
  lease_eq_setCall w.elector _ w.store

theorem lease_afterSwap (expected : Option UInt64) (record : Record) :
    (w.afterSwap C expected record).lease C
      = { w.lease C with store := ((w.lease C).carryOut C.key expected record).2 }.setCall none
          (C.candidate.callOf w.elector.phase
            (.swapped ((w.lease C).carryOut C.key expected record).1)) :=
  lease_eq_setCall w.elector _ _

/-- One step of the contention, by which the replica puts nothing at
stake. -/
theorem contends_of_step (l : ReplicaLabel ι) {u u' : Contention (Option ι)} {m : Label (Option ι)}
    {n : Nat} {held : Term → Prop} (h : Contention.Step C.key (orderlyRules C.name) u m u')
    (hn : m.stored?.toList.length ≤ n) (hl : ∀ m', l = .others m' → m' = m)
    (hm : ∀ term, ¬ m.risks none term) :
    ∃ ls, Contention.Run C.key (orderlyRules C.name) u ls u' ∧ (Lease.stored ls).length ≤ n ∧
      (∀ m', l = .others m' → m' ∈ ls) ∧ ∀ m' ∈ ls, ∀ term, m'.risks none term → held term := by
  refine ⟨[m], .cons h (.nil u'), ?_, fun m' hm' => List.mem_singleton.2 (hl m' hm'),
    fun m' hm' term hrisks => ?_⟩
  · rw [Contention.stored_cons]
    simpa [Lease.stored] using hn
  · obtain rfl := List.mem_singleton.1 hm'
    exact absurd hrisks (hm term)

/-- **Every step is a run of the contention.** The call of the replica stays
in step with it, and puts a term at stake only by beginning to ask for it. -/
theorem Step.contends (h : Step C w l w') (hC : C.Fit)
    (hw : w.flight.isOf w.elector.phase.asked?) :
    w'.flight.isOf w'.elector.phase.asked? ∧
      ∃ ls, Contention.Run C.key (orderlyRules C.name) (w.lease C) ls (w'.lease C) ∧
        (Lease.stored ls).length ≤ l.writes ∧ (∀ m, l = .others m → m ∈ ls) ∧
        ∀ m ∈ ls, ∀ term, m.risks none term → ∃ call, w'.ownCall C = some call ∧
          (call.request = .acquire ∨ call.request = .release term) := by
  cases h with
  | @pass time hlater hidle hdue hclock =>
    have hbefore : C.origin + w.time ≤ C.origin + time := Nat.add_le_add_left hlater _
    have hle : w.clock C ≤ clock C { w with time } := by
      rw [UInt64.le_iff_toNat_le, toNat_clock (Nat.le_trans hbefore hclock),
        toNat_clock (w := { w with time }) hclock]
      exact hbefore
    exact ⟨hw, contends_of_step .quiet (.clock hle) (Nat.le_refl _) (fun _ h => by contradiction)
      fun _ => id⟩
  | cancel =>
    exact ⟨hw, [], .nil _, Nat.le_refl _, fun _ h => by contradiction, fun m hm => by simp at hm⟩
  | @others m u h hclock hown =>
    refine ⟨hw, ?_⟩
    rw [lease_afterOthers hclock hown]
    exact contends_of_step (.others m) h (Nat.le_refl _)
      (fun m' hm' => (ReplicaLabel.others.inj hm').symm)
      (h.not_risks hown)
  | @turn input f chance done harrives hstep =>
    have harrived : (∀ answer, input = .readAnswered answer → w.flight = .read answer) ∧
        (input = .stopped → f = w.flight) := by
      cases harrives <;> simp_all
    obtain ⟨hof, ls, hrun, hstored, hrisks⟩ := (harrives.turn hC hw hstep .standby).contends
      (u := w.lease C) (i := none) C.key C.name hw harrived rfl rfl rfl
      hC.duration_pos
    refine ⟨hof, ls, ?_, ?_, fun m hm => ?_, fun m hm term hm' => (hrisks m hm none term hm').2⟩
    · exact (lease_afterTurn (w := w) f done).symm ▸ hrun
    · rw [hstored]
      exact Nat.zero_le _
    · exact absurd hm (ReplicaLabel.ofTurn_ne_others _ _ _ _)
  | read h hanswer =>
    obtain ⟨request, now, hasked⟩ := Flight.of_isOf_reading (h ▸ hw)
    obtain ⟨m, hread, hstored, hrisks⟩ := read_contends (u := w.lease C) (i := none) C.key
      (orderlyRules C.name) rfl hasked (h ▸ rfl) (.inl rfl)
    refine ⟨by rw [afterRead, hasked]; trivial, ?_⟩
    exact contends_of_step .quiet ((lease_afterRead (w := w)).symm ▸ hread) (by simp [hstored])
      (fun _ h => by contradiction) (hrisks none)
  | @swap expected record h hanswer =>
    obtain ⟨request, hasked⟩ := Flight.of_isOf_swapping (h ▸ hw)
    obtain ⟨stored?, hswap⟩ := swap_contends (u := w.lease C) (i := none) C.key
      (orderlyRules C.name) rfl hasked (by rw [← h]; rfl) (.inl rfl)
    rw [← lease_afterSwap] at hswap
    exact ⟨by rw [afterSwap, hasked]; trivial, contends_of_step .written hswap
      Option.length_toList_le (fun _ h => by contradiction) fun _ => id⟩

/-! ## Steps -/

/-- **Every step keeps it up.** -/
theorem Step.keeps (h : Step C w l w') (hC : C.Fit) (hk : Kept C w)
    (hroom : Lease.versionAt C.key w.store + l.writes < UInt64.size) :
    Kept C w' ∧
      Lease.versionAt C.key w'.store ≤ Lease.versionAt C.key w.store + l.writes := by
  obtain ⟨hinStep, ls, hrun, hlength, -⟩ := h.contends hC hk.inStep
  have hroom' : Lease.versionAt C.key (w.lease C).store + (Lease.stored ls).length < UInt64.size :=
    Nat.lt_of_le_of_lt (Nat.add_le_add_left hlength _) hroom
  obtain ⟨hsound, hversion⟩ := hrun.sound hk.sound hroom'
  refine ⟨⟨hinStep, ?_, hsound, hrun.orderly hk.sound hk.orderly hroom', ?_⟩,
    Nat.le_trans (Nat.le_of_eq hversion) (Nat.add_le_add_left hlength _)⟩
  · cases h with
    | pass hlater hidle hdue hclock => exact hclock
    | _ => exact hk.clock
  · cases h with
    | pass hlater hidle hdue hclock =>
      intro request call hasked
      have hnone := hk.asked?_of_idle hidle
      rw [show w.elector.phase.asked? = some (request, call) from hasked] at hnone
      contradiction
    | turn harrives hstep => exact (harrives.turn hC hk.inStep hstep .standby).readAt hk.fresh
    | _ => exact hk.fresh

/-- **What the replica has it keeps** up to the deadline as long as it only
renews it, and nobody acquires the lease meanwhile. -/
theorem Step.holds (h : Step C w l w') (hC : C.Fit) (hk : Kept C w)
    (hroom : Lease.versionAt C.key w.store + l.writes < UInt64.size)
    (hs : w.Holds C term deadline) (hown : w'.OnlyRenews C) (htime : w'.clock C ≤ deadline) :
    w'.Holds C term deadline ∧
      ∀ m record, l = .others m → m.stored? ≠ some (.acquire, record) := by
  obtain ⟨-, ls, hrun, hlength, hothers, hrisks⟩ := h.contends hC hk.inStep
  obtain ⟨since, hs⟩ := hs
  have hroom' : Lease.versionAt C.key (w.lease C).store + (Lease.stored ls).length < UInt64.size :=
    Nat.lt_of_le_of_lt (Nat.add_le_add_left hlength _) hroom
  have hharmless : ∀ m ∈ ls, ¬ m.risks none term := by
    intro m hm hm'
    obtain ⟨call, hcall, hrequest⟩ := hrisks m hm term hm'
    obtain ⟨term', hrenew⟩ := hown call hcall
    rw [hrenew] at hrequest
    obtain hrequest | hrequest := hrequest
    · contradiction
    · contradiction
  obtain ⟨hs', hnobody⟩ :=
    hrun.secured_of_alone hC.eq_none hk.sound hk.orderly hroom' hs hharmless htime
  exact ⟨⟨since, hs'⟩, fun m record hm hstored =>
    hnobody record (List.mem_filterMap.2 ⟨m, hothers m hm, hstored⟩)⟩

/-- What the store accepts of the replica is granted. -/
theorem Kept.granted_of_swap (hk : Kept C w) (hC : C.Fit) {request : Request}
    {expected : Option UInt64} {record : Record} {a : Store.WriteResult}
    (hflight : w.flight = .swapping expected record)
    (hasked : w.elector.phase.asked? = some (request, .swapping record))
    (hterm : request = .acquire ∧ term = ⟨record.term⟩ ∨
      request = .renew term ∧ ∃ deadline, w.Holds C term deadline)
    (hok : ((w.lease C).carryOut C.key expected record).1 = .ok a) :
    (w.afterSwap C expected record).Granted C term record := by
  obtain ⟨stored?, hswap⟩ := swap_contends (u := w.lease C) (i := none) C.key
    (orderlyRules C.name) rfl hasked (by rw [← hflight]; rfl) (.inl rfl)
  rw [← lease_afterSwap, hok] at hswap
  have hanswered : ∃ outcome, ((C.candidate.lock.serve C.candidate.identity request).onSwap record
      (.ok a)).1 = .ok outcome ∧ outcome.grant? request = some (term, record.deadline) := by
    obtain ⟨rfl, rfl⟩ | ⟨rfl, -⟩ := hterm
    · exact ⟨_, rfl, rfl⟩
    · exact ⟨_, rfl, rfl⟩
  obtain ⟨outcome, houtcome, hgrant⟩ := hanswered
  rw [houtcome] at hswap
  obtain ⟨c, record', -, -, hstores, hdeadline, hs⟩ :=
    hswap.secured_of_answer hC.named hk.sound hk.orderly hgrant
  -- What is stored is the record of the call, ...
  have hcall : (w.lease C).calls none = some ⟨C.candidate.identity, C.candidate.lock.duration,
      request, .swapping expected record⟩ := by
    show C.candidate.callOf w.elector.phase w.flight = _
    rw [hflight, callOf_swapping hasked]
  obtain rfl := Option.some.inj (hcall.symm.trans hstores.call)
  obtain ⟨_, hstage⟩ := hstores.decided
  obtain ⟨-, rfl⟩ := Lease.Stage.swapping.inj hstage
  -- ... stamped with the present clock reading, for as long as a term lasts.
  have hstamp : record.renewedAt = w.clock C := by
    have hfresh := hk.fresh _ _ hasked
    obtain ⟨rfl, -⟩ | ⟨rfl, -⟩ := hterm
    · exact hfresh
    · exact hfresh
  have hduration : record.duration = C.candidate.lock.duration := by
    obtain ⟨-, hduration⟩ | ⟨hrequest, old, hold, hduration⟩ := hstores.replaces.duration_eq
    · exact hduration
    · obtain ⟨rfl, -⟩ | ⟨-, -, -, ⟨old', hold', -, hduration', -⟩, -⟩ := hterm
      · contradiction
      · obtain rfl := Option.some.inj (hold.symm.trans hold')
        exact hduration.trans hduration'
  rw [hstamp, hduration] at hs hdeadline
  exact ⟨hdeadline, _, hs⟩

/-- **Every step keeps what a leader has.** -/
theorem Step.leads (h : Step C w l w') (hC : C.Fit) (hk : Kept C w)
    (hroom : Lease.versionAt C.key w.store + l.writes < UInt64.size)
    (hl : w.Leads C w.elector.phase) : w'.Leads C w'.elector.phase := by
  have hkeeps : Keeps C w w' := fun term deadline hown htime hs =>
    (h.holds hC hk hroom hs hown htime).1
  cases h with
  | pass hlater hidle hdue hclock => exact hl.of_pass hC hk hidle hdue hclock hkeeps
  | cancel =>
    exact hl.of_flight hC hk.clock rfl rfl hkeeps
      fun _ _ _ _ _ hflight _ hsame => (hsame rfl).of_keeps hkeeps rfl hflight
  | others h hclock hown =>
    exact hl.of_flight hC hk.clock rfl rfl hkeeps
      fun _ _ _ _ _ hflight _ hsame => (hsame rfl).of_keeps hkeeps rfl hflight
  | turn harrives hstep =>
    refine hl.of_turn (harrives.turn hC hk.inStep hstep .standby) hC hk.clock rfl ?_ ?_ rfl rfl rfl
      hkeeps
    · cases harrives <;> simp_all
    · cases harrives <;> simp_all
  | read h hanswer =>
    refine hl.of_flight hC hk.clock rfl rfl hkeeps fun _ _ _ _ _ hflight => ?_
    contradiction
  | @swap expected record h hanswer =>
    refine hl.of_flight hC hk.clock rfl rfl hkeeps
      fun request term record' a hasked hflight hterm _ => ?_
    obtain ⟨request', hasked'⟩ := Flight.of_isOf_swapping (h ▸ hk.inStep)
    obtain ⟨rfl, hrecord⟩ := Prod.mk.inj (Option.some.inj (hasked.symm.trans hasked'))
    obtain rfl := Progress.swapping.inj hrecord
    exact hk.granted_of_swap hC h hasked hterm (Flight.swapped.inj hflight)

/-- And so throughout. -/
theorem leads_of_trail {ls : List (ReplicaLabel ι)} (t : Trail (Step C) w ls w') (hC : C.Fit)
    (hk : Kept C w) (hl : w.Leads C w.elector.phase)
    (hroom : Lease.versionAt C.key w.store + ReplicaLabel.allWrites ls < UInt64.size) :
    Kept C w' ∧ w'.Leads C w'.elector.phase ∧
      Lease.versionAt C.key w'.store
        ≤ Lease.versionAt C.key w.store + ReplicaLabel.allWrites ls := by
  induction t with
  | nil => exact ⟨hk, hl, Nat.le_refl _⟩
  | @cons w w₁ w₂ l ls h t ih =>
    rw [ReplicaLabel.allWrites_cons] at hroom ⊢
    obtain ⟨hk₁, hversion⟩ := h.keeps hC hk (by omega)
    obtain ⟨hk₂, hl₂, hversion₂⟩ := ih hk₁ (h.leads hC hk (by omega) hl) (by omega)
    exact ⟨hk₂, hl₂, by omega⟩

end ReplicaWithOthers

end Tenure.Election
