import Tenure.Coordinator
import Tenure.Proofs.Election.Turn
import Tenure.Proofs.Lease.Tenancy

/-!
# Electors that contend for a lease

Any number of electors want the same lease. Time passes, but not past a
moment at which one of them goes on by itself; the clock moves with it.
Each elector takes its turns (`Candidate.step`) whenever something arrives,
and its calls to the store take as long as they like: a read or a swap on
its way is carried out at one moment and answered at another, or never, and
whatever is answered may be a failure, even of a swap that was carried out.
A call that its elector has abandoned takes no further step.

## A contest is a contention

Seen from the lease, a contest is a `Lease.Contention`, in which the call
of an elector is what it has asked of its lock. The two do not quite agree
on how far the call has come, since an elector learns of an answer later
than the store gives it: a call has gone on to its swap as soon as the
store has answered the read, and is over as soon as the store has carried
out the swap (`stageOf`). With this, every step of a contest is a run of
the contention (`Step.contends`), and what is known of leases carries over
to electors.
-/

namespace Tenure.Election

open Lease (Call Contention Label Lock Operation Outcome Record Request Stage)

/-- Electors, and what lies between them and their store. -/
structure Contest (ι : Type) where
  /-- The timer, which only ever moves forward. -/
  time : Nat
  store : Store
  electors : ι → Elector
  flights : ι → Flight
  /-- The state that each of them has published. -/
  shown : ι → State
  cancelled : ι → Bool

/-- Who contends, and for what. -/
structure ContestSetup (ι : Type) where
  /-- The key of the lease. -/
  key : String
  /-- The clock reading when the timer is at zero. -/
  origin : Nat
  candidates : ι → Candidate

/-- The identities of the candidates. -/
def ContestSetup.name {ι : Type} (F : ContestSetup ι) (i : ι) : String := (F.candidates i).identity

/-- **Candidates fit to contend**: each has an identity of its own, and
renews its terms before they are over. -/
structure ContestSetup.Fit {ι : Type} (F : ContestSetup ι) : Prop where
  distinct : Function.Injective F.name
  named : ∀ i, F.name i ≠ ""
  shared : ∀ i, (F.candidates i).lock.key = F.key
  lasts : ∀ i, (F.candidates i).lock.duration = (F.candidates i).timing.leaseDuration
  safe : ∀ i, Lease.isRenewIntervalSafe (F.candidates i).timing.renewInterval
    (F.candidates i).timing.leaseDuration = true

theorem ContestSetup.Fit.interval {ι : Type} {F : ContestSetup ι} (hF : F.Fit) (i : ι) :
    0 < (F.candidates i).timing.renewInterval ∧
      (F.candidates i).timing.renewInterval < (F.candidates i).timing.leaseDuration := by
  have hsafe := hF.safe i
  unfold Lease.isRenewIntervalSafe at hsafe
  simpa using hsafe

theorem ContestSetup.Fit.duration_pos {ι : Type} {F : ContestSetup ι} (hF : F.Fit) (i : ι) :
    0 < (F.candidates i).lock.duration := by
  rw [hF.lasts]
  exact UInt64.lt_trans (hF.interval i).1 (hF.interval i).2

/-- Replicas whose settings have no problem are fit to contend for one lease,
each under its own identity. -/
theorem ContestSetup.Fit.of_validate {ι : Type} {F : ContestSetup ι} {replicas : ι → Coordinator}
    (hcandidates : ∀ i, F.candidates i = (replicas i).candidate)
    (hvalid : ∀ i, (replicas i).config.validate = .ok ())
    (hdistinct : Function.Injective fun i => (replicas i).config.identity)
    (hshared : ∀ i, (replicas i).candidate.lock.key = F.key) : F.Fit where
  distinct i j h := by
    unfold ContestSetup.name at h
    rw [hcandidates, hcandidates] at h
    exact hdistinct h
  named i := by
    unfold ContestSetup.name
    rw [hcandidates]
    exact (Config.of_validate (hvalid i)).1
  shared i := by
    rw [hcandidates]
    exact hshared i
  lasts i := by
    rw [hcandidates]
    rfl
  safe i := by
    rw [hcandidates]
    exact (Config.of_validate (hvalid i)).2

/-- What is seen of a step. -/
inductive ContestLabel (ι : Type) where
  | quiet
  /-- The store carries out a swap. -/
  | written
  /-- An elector begins to lead, at this moment. -/
  | takes (i : ι) (moment : Nat) (period : Period)

/-- How often the store is written. -/
def ContestLabel.writes {ι : Type} : ContestLabel ι → Nat
  | written => 1
  | _ => 0

/-- And in all of several steps. -/
def ContestLabel.allWrites {ι : Type} : List (ContestLabel ι) → Nat
  | [] => 0
  | l :: ls => l.writes + allWrites ls

/-- What is seen of a turn. -/
def ContestLabel.ofTurn {ι : Type} (i : ι) (moment : Nat) : Phase → Phase → ContestLabel ι
  | .acquiring _ _, .leading period => .takes i moment period
  | _, _ => .quiet

namespace Contest

variable {ι : Type} [DecidableEq ι]

/-- The clock. -/
def clock (F : ContestSetup ι) (w : Contest ι) : UInt64 := UInt64.ofNat (F.origin + w.time)

/-- What an elector finds around it. The consumer of its events is
there. -/
def surroundings (F : ContestSetup ι) (w : Contest ι) (i : ι) (chance : Float) : Surroundings where
  time := w.time
  clock := w.clock F
  cancelled := w.cancelled i
  deaf := false
  chance := chance

/-- The same after a turn of an elector. -/
def afterTurn (w : Contest ι) (i : ι) (f : Flight) (done : Elector × List Action) : Contest ι :=
  { w with
    electors := Function.update w.electors i done.1
    flights := Function.update w.flights i (flown done.2 f)
    shown := Function.update w.shown i (published done.2 (w.shown i)) }

/-- The same with the call of one elector elsewhere. -/
def setFlight (w : Contest ι) (i : ι) (f : Flight) : Contest ι :=
  { w with flights := Function.update w.flights i f }

/-- What may arrive at an elector, and where its call is then. -/
inductive Arrives (w : Contest ι) (i : ι) : Input → Flight → Prop
  | start : Arrives w i .start (w.flights i)
  | readAnswered {answer : Store.ReadAnswer} (h : w.flights i = .read answer) :
    Arrives w i (.readAnswered answer) .idle
  | swapAnswered {answer : Store.WriteAnswer} (h : w.flights i = .swapped answer) :
    Arrives w i (.swapAnswered answer) .idle
  | timeUp {due : Nat} (h : (w.electors i).phase.due = some due) (hdue : due ≤ w.time) :
    Arrives w i .timeUp (w.flights i)
  | cancelled (h : w.cancelled i = true) : Arrives w i .cancelled (w.flights i)
  | stopped : Arrives w i .stopped (w.flights i)

/-- **One step.** -/
inductive Step (F : ContestSetup ι) : Contest ι → ContestLabel ι → Contest ι → Prop
  /-- Time passes, and the clock with it, which does not go back. -/
  | pass {w : Contest ι} {time : Nat} (hlater : w.time ≤ time)
      (hdue : ∀ i due, (w.electors i).phase.due = some due → time ≤ due)
      (hclock : F.origin + time ≤ Saturating.top) : Step F w .quiet { w with time }
  /-- Faults are armed or disarmed. -/
  | fault {w : Contest ι} (unavailable : Bool) (failingWrites : UInt32) :
      Step F w .quiet { w with
        store := (w.store.setUnavailable unavailable).failNextWrites failingWrites }
  /-- Another key is written. -/
  | elsewhere {w : Contest ι} {c : Store.Command} (h : F.key ≠ c.key) :
      Step F w .quiet { w with store := (w.store.write c).2 }
  /-- An elector is told to stop. -/
  | cancel {w : Contest ι} (i : ι) :
      Step F w .quiet { w with cancelled := Function.update w.cancelled i true }
  | turn {w : Contest ι} {i : ι} {input : Input} {f : Flight} {chance : Float}
      {done : Elector × List Action} (harrives : Arrives w i input f)
      (hstep : (F.candidates i).step (w.surroundings F i chance) (w.electors i) input
        = some done) :
      Step F w (.ofTurn i w.time (w.electors i).phase done.1.phase) (w.afterTurn i f done)
  /-- A read is carried out, or fails. -/
  | read {w : Contest ι} {i : ι} {answer : Store.ReadAnswer} (h : w.flights i = .reading)
      (hanswer : answer = w.store.read F.key ∨ ∃ e, answer = .error e) :
      Step F w .quiet (w.setFlight i (.read answer))
  /-- A swap is carried out, and answered or not. -/
  | swap {w : Contest ι} {i : ι} {expected : Option UInt64} {record : Record}
      {answer : Store.WriteAnswer} (h : w.flights i = .swapping expected record)
      (hanswer : answer = (w.store.write (Lock.swapCommand ⟨F.key, 0⟩ expected record)).1 ∨
        ∃ e, answer = .error e) :
      Step F w .written ({ w with
        store := (w.store.write (Lock.swapCommand ⟨F.key, 0⟩ expected record)).2 }.setFlight i
          (.swapped answer))
  /-- A swap fails without being carried out. -/
  | swapFails {w : Contest ι} {i : ι} {expected : Option UInt64} {record : Record}
      (e : Store.Error) (h : w.flights i = .swapping expected record) :
      Step F w .quiet (w.setFlight i (.swapped (.error e)))

/-- **Any number of steps**, with what is seen of them. -/
inductive Run (F : ContestSetup ι) : Contest ι → List (ContestLabel ι) → Contest ι → Prop
  | nil (w : Contest ι) : Run F w [] w
  | cons {w w₁ w₂ : Contest ι} {l : ContestLabel ι} {ls : List (ContestLabel ι)}
      (hstep : Step F w l w₁) (hrun : Run F w₁ ls w₂) : Run F w (l :: ls) w₂

/-- Nobody has begun, and the lease is absent or holds a record of this
layout that lasts. -/
structure Begins (F : ContestSetup ι) (w : Contest ι) : Prop where
  electors : ∀ i, w.electors i = {}
  flights : ∀ i, w.flights i = .idle
  shown : ∀ i, (w.shown i).isLeader = false
  clock : F.origin + w.time ≤ Saturating.top
  stored : ∀ record, Lease.recordAt F.key w.store = some record →
    record.schema = Lease.schemaVersion ∧ 0 < record.duration

end Contest

/-! ## Calls on the lease -/

/-- How far a call has come with the lease, the elector having got so far
with it and its flight being there. -/
def stageOf (op : Operation Outcome) : Progress → Flight → Option Stage
  | .reading now, .reading => some (.reading now)
  | .reading now, .read answer =>
    match (op.onRead now answer).1 with
    | .swap expected record => some (.swapping expected record)
    | .done _ => none
  | .swapping _, .swapping expected record => some (.swapping expected record)
  | _, _ => none

/-- The call of a candidate on the lease. -/
def Candidate.callOf (c : Candidate) (φ : Phase) (f : Flight) : Option Call :=
  φ.asked?.bind fun asked =>
    (stageOf (c.lock.serve c.identity asked.1) asked.2 f).map fun stage =>
      ⟨c.identity, c.lock.duration, asked.1, stage⟩

/-- Whether a flight is one of the call that the elector is waiting for. -/
def Flight.isOf : Flight → Option (Request × Progress) → Prop
  | .idle, none => True
  | .reading, some (_, .reading _) => True
  | .read _, some (_, .reading _) => True
  | .swapping _ record, some (_, .swapping record') => record = record'
  | .swapped _, some (_, .swapping _) => True
  | _, _ => False

section callOf

variable {c : Candidate} {s : Surroundings} {φ : Phase} {f : Flight}

theorem callOf_of_asked?_none (h : φ.asked? = none) (f : Flight) : c.callOf φ f = none := by
  rw [Candidate.callOf, h]
  rfl

theorem callOf_reading {request : Request} {now : UInt64}
    (h : φ.asked? = some (request, .reading now)) :
    c.callOf φ .reading = some ⟨c.identity, c.lock.duration, request, .reading now⟩ := by
  rw [Candidate.callOf, h]
  rfl

theorem callOf_read_swap {request : Request} {now : UInt64} {answer : Store.ReadAnswer}
    {expected : Option UInt64} {record : Record} (h : φ.asked? = some (request, .reading now))
    (hswap : ((c.lock.serve c.identity request).onRead now answer).1 = .swap expected record) :
    c.callOf φ (.read answer)
      = some ⟨c.identity, c.lock.duration, request, .swapping expected record⟩ := by
  rw [Candidate.callOf, h]
  simp only [Option.bind_some, stageOf, hswap, Option.map_some]

theorem callOf_read_done {request : Request} {now : UInt64} {answer : Store.ReadAnswer}
    {result : Except Lease.Error Outcome} (h : φ.asked? = some (request, .reading now))
    (hdone : ((c.lock.serve c.identity request).onRead now answer).1 = .done result) :
    c.callOf φ (.read answer) = none := by
  rw [Candidate.callOf, h]
  simp only [Option.bind_some, stageOf, hdone, Option.map_none]

theorem callOf_swapping {request : Request} {record record' : Record} {expected : Option UInt64}
    (h : φ.asked? = some (request, .swapping record')) :
    c.callOf φ (.swapping expected record)
      = some ⟨c.identity, c.lock.duration, request, .swapping expected record⟩ := by
  rw [Candidate.callOf, h]
  rfl

theorem callOf_swapped (φ : Phase) (answer : Store.WriteAnswer) :
    c.callOf φ (.swapped answer) = none := by
  unfold Candidate.callOf
  cases φ.asked? with
  | none => rfl
  | some asked =>
    obtain ⟨request, call⟩ := asked
    cases call <;> rfl

theorem callOf_idle (φ : Phase) : c.callOf φ .idle = none := by
  unfold Candidate.callOf
  cases φ.asked? with
  | none => rfl
  | some asked =>
    obtain ⟨request, call⟩ := asked
    cases call <;> rfl

theorem Phase.asked?_withCall {request : Request} {call : Progress}
    (h : φ.asked? = some (request, call)) (call' : Progress) :
    (φ.withCall call').asked? = some (request, call') := by
  cases φ <;> simp_all [Phase.asked?, Phase.withCall]

/-- What a turn does to the call on the lease: nothing, or it gives the call
up, and then perhaps begins another. -/
theorem Turn.callOf {φ' : Phase} {f₀ f' : Flight} {st st' : State} {input : Input}
    (h : Turn c s φ f st input φ' f' st') (hf₀ : f₀.isOf φ.asked?)
    (harrived : (∀ answer, input = .readAnswered answer → f₀ = .read answer) ∧
      (input = .stopped → f = f₀)) :
    f'.isOf φ'.asked? ∧
      (c.callOf φ' f' = c.callOf φ f₀ ∨ c.callOf φ' f' = none ∨
        ∃ request, c.callOf φ' f'
          = some ⟨c.identity, c.lock.duration, request, .reading s.clock⟩) := by
  cases h with
  | rests hcall hleads hshown =>
    rw [hcall]
    exact ⟨trivial, .inr (.inl (callOf_idle _))⟩
  | asks hcall hleads hshown =>
    rw [hcall]
    exact ⟨trivial, .inr (.inr ⟨_, callOf_reading hcall⟩)⟩
  | @resumes φ f st request now answer expected record hcall hswap =>
    have hcall' := Phase.asked?_withCall hcall (.swapping record)
    rw [hcall', harrived.1 _ rfl, callOf_read_swap hcall hswap, callOf_swapping hcall']
    exact ⟨rfl, .inl rfl⟩
  | hears =>
    obtain rfl := harrived.2 rfl
    exact ⟨hf₀, .inl rfl⟩
  | takes hacquired => exact ⟨trivial, .inr (.inl (callOf_idle _))⟩
  | ticks hbudget => exact ⟨trivial, .inr (.inr ⟨_, callOf_reading rfl⟩)⟩
  | renews hrenewed => exact ⟨trivial, .inr (.inl (callOf_idle _))⟩

end callOf

section isOf

variable {f : Flight} {asked? : Option (Request × Progress)}

theorem Flight.eq_idle_of_isOf (h : f.isOf none) : f = .idle := by
  cases f <;> first | rfl | contradiction

theorem Flight.eq_none_of_isOf_idle (h : Flight.idle.isOf asked?) : asked? = none := by
  cases asked? with
  | none => rfl
  | some asked =>
    obtain ⟨request, call⟩ := asked
    cases call <;> contradiction

/-- A read on its way is that of a call that is to read. -/
theorem Flight.of_isOf_reading (h : Flight.reading.isOf asked?) :
    ∃ request now, asked? = some (request, .reading now) := by
  cases asked? with
  | none => contradiction
  | some asked =>
    obtain ⟨request, call⟩ := asked
    cases call with
    | reading now => exact ⟨request, now, rfl⟩
    | swapping record => contradiction

/-- A swap on its way is that of a call that is to swap. -/
theorem Flight.of_isOf_swapping {expected : Option UInt64} {record : Record}
    (h : (Flight.swapping expected record).isOf asked?) :
    ∃ request, asked? = some (request, .swapping record) := by
  cases asked? with
  | none => contradiction
  | some asked =>
    obtain ⟨request, call⟩ := asked
    cases call with
    | reading now => contradiction
    | swapping record' =>
      obtain rfl : record = record' := h
      exact ⟨request, rfl⟩

end isOf

/-! ## A candidate among the callers

One of the callers of a contention is a candidate. What the store does for
it is a step of the contention, and what it does itself a run. -/

section Contending

open Lease.Contention (orderlyRules)

variable {κ : Type} [DecidableEq κ] {u : Contention κ} {i : κ} {c : Candidate} {s : Surroundings}
  {φ : Phase}

/-- The call on the lease carries out what the candidate has asked of its
lock. -/
theorem Candidate.operation_eq {key : String} (hkey : c.lock.key = key) (request : Request)
    (stage : Stage) :
    Call.operation ⟨c.identity, c.lock.duration, request, stage⟩ key
      = c.lock.serve c.identity request := by
  rw [Call.operation, ← hkey]

/-- The store reads for a candidate. -/
theorem read_contends (key : String) (rules : Lease.Rules κ) {request : Request} {now : UInt64}
    {answer : Store.ReadAnswer} (hkey : c.lock.key = key)
    (hasked : φ.asked? = some (request, .reading now))
    (hcall : u.calls i = c.callOf φ .reading)
    (hanswer : answer = u.store.read key ∨ ∃ e, answer = .error e) :
    ∃ m, Contention.Step key rules u m (u.setCall i (c.callOf φ (.read answer))) ∧
      m.stored? = none ∧ ∀ j term, ¬ m.risks j term := by
  rw [callOf_reading hasked] at hcall
  cases hdecision : ((c.lock.serve c.identity request).onRead now answer).1 with
  | swap expected record =>
    rw [callOf_read_swap hasked hdecision]
    rw [← Candidate.operation_eq hkey request (.reading now)] at hdecision
    exact ⟨_, .read hcall rfl hanswer hdecision, rfl, fun _ _ => id⟩
  | done result =>
    rw [callOf_read_done hasked hdecision]
    rw [← Candidate.operation_eq hkey request (.reading now)] at hdecision
    exact ⟨_, .readEnds hcall rfl hanswer hdecision, rfl, fun _ _ => id⟩

/-- The store swaps for a candidate. -/
theorem swap_contends (key : String) (rules : Lease.Rules κ) {request : Request}
    {expected : Option UInt64} {record : Record} {answer : Store.WriteAnswer}
    (hkey : c.lock.key = key)
    (hasked : φ.asked? = some (request, .swapping record))
    (hcall : u.calls i = c.callOf φ (.swapping expected record))
    (hanswer : answer = (u.carryOut key expected record).1 ∨ ∃ e, answer = .error e) :
    ∃ stored?, Contention.Step key rules u
      (.ends i c.identity request
        (some ((c.lock.serve c.identity request).onSwap record answer).1) stored?)
      ({ u with store := (u.carryOut key expected record).2 }.setCall i
        (c.callOf φ (.swapped answer))) := by
  rw [callOf_swapping hasked] at hcall
  have hanswer' : some answer = some (u.carryOut key expected record).1 ∨
      (∃ e, some answer = some (.error e)) ∨ some answer = none :=
    hanswer.imp (congrArg some) fun ⟨e, h⟩ => .inl ⟨e, congrArg some h⟩
  rw [callOf_swapped, ← Candidate.operation_eq hkey request (.swapping expected record)]
  exact ⟨_, .swap hcall rfl hanswer'⟩

/-- A turn of a candidate leaves its call on the lease as it is, or gives it
up and perhaps begins another. -/
theorem Turn.contends {φ' : Phase} {f f₀ f' : Flight} {st st' : State} {input : Input}
    (h : Turn c s φ f st input φ' f' st') (key : String) (name : κ → String)
    (hf₀ : f₀.isOf φ.asked?)
    (harrived : (∀ answer, input = .readAnswered answer → f₀ = .read answer) ∧
      (input = .stopped → f = f₀))
    (hcall : u.calls i = c.callOf φ f₀) (hclock : u.clock = s.clock) (hname : c.identity = name i)
    (hduration : 0 < c.lock.duration) :
    f'.isOf φ'.asked? ∧
      ∃ ls, Contention.Run key (orderlyRules name) u ls (u.setCall i (c.callOf φ' f')) ∧
        Lease.stored ls = [] ∧
        ∀ m ∈ ls, ∀ j term, m.risks j term → j = i ∧ ∃ call, c.callOf φ' f' = some call ∧
          (call.request = .acquire ∨ call.request = .release term) := by
  obtain ⟨hof, hsame | hnone | ⟨request, hbegun⟩⟩ := h.callOf hf₀ harrived
  · refine ⟨hof, [], ?_, rfl, fun m hm => by simp at hm⟩
    rw [hsame, ← hcall, Contention.setCall_self]
    exact .nil _
  · obtain ⟨ls, hrun, hstored, hrisks⟩ := Contention.Run.abandons u i
    rw [hnone]
    exact ⟨hof, ls, hrun, hstored, fun m hm j term hm' => absurd hm' (hrisks m hm j term)⟩
  · obtain ⟨ls, hrun, hstored, hrisks⟩ := Contention.Run.begins u hduration request
    rw [hbegun, hname, ← hclock]
    refine ⟨hof, ls, hrun, hstored, fun m hm j term hm' => ?_⟩
    obtain ⟨rfl, hrequest⟩ := hrisks m hm j term hm'
    exact ⟨rfl, _, rfl, hrequest⟩

end Contending

namespace Contest

open Lease.Contention (orderlyRules)

variable {ι : Type} {F : ContestSetup ι} {w w' : Contest ι} {l : ContestLabel ι}

/-- **A contest as a contention** for the lease. -/
def lease (F : ContestSetup ι) (w : Contest ι) : Contention ι where
  clock := w.clock F
  store := w.store
  calls i := (F.candidates i).callOf (w.electors i).phase (w.flights i)

/-- Every flight is one of the call that its elector is waiting for. -/
def InStep (w : Contest ι) : Prop := ∀ i, (w.flights i).isOf (w.electors i).phase.asked?

/-- What an elector does in a contest is such a turn. -/
theorem Arrives.turn {i : ι} {input : Input} {f : Flight} {chance : Float}
    {done : Elector × List Action} (harrives : Arrives w i input f) (hF : F.Fit) (hw : w.InStep)
    (hstep : (F.candidates i).step (w.surroundings F i chance) (w.electors i) input = some done) :
    Turn (F.candidates i) (w.surroundings F i chance) (w.electors i).phase f (w.shown i) input
      done.1.phase (flown done.2 f) (published done.2 (w.shown i)) := by
  refine Turn.of_step rfl ?_ ?_ ?_ _ hstep
  · intro hzero
    have hpos := (hF.interval i).1
    rw [hzero] at hpos
    contradiction
  · cases harrives <;> simp
  · intro hidle
    have hkeeps : (w.electors i).phase.asked? = none → w.flights i = .idle :=
      fun hnone => Flight.eq_idle_of_isOf (hnone ▸ hw i)
    cases harrives with
    | readAnswered h => rfl
    | swapAnswered h => rfl
    | _ => exact hkeeps (hidle.resolve_left (by simp [Input.isAnswer]))

theorem toNat_clock (h : F.origin + w.time ≤ Saturating.top) :
    (w.clock F).toNat = F.origin + w.time := Saturating.toNat_ofNat_of_le h

/-- The clock does not go back. -/
theorem clock_le_clock {time : Nat} (hlater : w.time ≤ time)
    (hclock : F.origin + time ≤ Saturating.top) : w.clock F ≤ clock F { w with time } := by
  have hbefore : F.origin + w.time ≤ F.origin + time := Nat.add_le_add_left hlater _
  rw [UInt64.le_iff_toNat_le, toNat_clock (Nat.le_trans hbefore hclock),
    toNat_clock (w := { w with time }) hclock]
  exact hbefore

/-- A swap on its way is that of a call that is to swap. -/
theorem InStep.of_swapping (hw : w.InStep) {i : ι} {expected : Option UInt64} {record : Record}
    (h : w.flights i = .swapping expected record) :
    ∃ request, (w.electors i).phase.asked? = some (request, .swapping record) ∧
      (w.lease F).calls i
        = some ⟨F.name i, (F.candidates i).lock.duration, request, .swapping expected record⟩ := by
  obtain ⟨request, hasked⟩ := Flight.of_isOf_swapping (h ▸ hw i)
  refine ⟨request, hasked, ?_⟩
  show (F.candidates i).callOf (w.electors i).phase (w.flights i) = _
  rw [h, callOf_swapping hasked]
  rfl

variable [DecidableEq ι]

theorem lease_afterTurn (F : ContestSetup ι) (w : Contest ι) (i : ι) (f : Flight)
    (done : Elector × List Action) :
    (w.afterTurn i f done).lease F = (w.lease F).setCall i
      ((F.candidates i).callOf done.1.phase (flown done.2 f)) := by
  unfold lease afterTurn Contention.setCall
  congr 1
  funext j
  by_cases hj : j = i
  · subst hj
    simp
  · simp [hj]

theorem lease_setFlight (F : ContestSetup ι) (w : Contest ι) (i : ι) (f : Flight) :
    (w.setFlight i f).lease F = (w.lease F).setCall i
      ((F.candidates i).callOf (w.electors i).phase f) := by
  unfold lease setFlight Contention.setCall
  congr 1
  funext j
  by_cases hj : j = i
  · subst hj
    simp
  · simp [hj]

theorem InStep.setFlight (hw : w.InStep) {i : ι} {f : Flight}
    (hf : f.isOf (w.electors i).phase.asked?) : (w.setFlight i f).InStep := by
  intro j
  by_cases hj : j = i
  · subst hj
    simpa [Contest.setFlight] using hf
  · simpa [Contest.setFlight, hj] using hw j

/-- One step of the contention, by which nobody begins to ask. -/
theorem contends_of_step {u u' : Contention ι} {m : Label ι} {n : Nat}
    (h : Contention.Step F.key (orderlyRules F.name) u m u') (hn : m.stored?.toList.length ≤ n)
    (hm : ∀ j term, ¬ m.risks j term) :
    ∃ ls, Contention.Run F.key (orderlyRules F.name) u ls u' ∧ (Lease.stored ls).length ≤ n ∧
      ∀ m ∈ ls, ∀ j term, m.risks j term → ∃ c, u'.calls j = some c ∧
        (c.request = .acquire ∨ c.request = .release term) := by
  refine ⟨[m], .cons h (.nil u'), ?_, fun m' hm' j term hrisks => ?_⟩
  · rw [Contention.stored_cons]
    simpa [Lease.stored] using hn
  · obtain rfl := List.mem_singleton.1 hm'
    exact absurd hrisks (hm j term)

/-- A swap that the store carries out is that of the call on the lease. -/
theorem swap_contends (hF : F.Fit) (hw : w.InStep) {i : ι} {expected : Option UInt64}
    {record : Record} {answer : Store.WriteAnswer} (h : w.flights i = .swapping expected record)
    (hanswer : answer = (w.store.write (Lock.swapCommand ⟨F.key, 0⟩ expected record)).1 ∨
      ∃ e, answer = .error e) :
    ∃ request stored?, (w.electors i).phase.asked? = some (request, .swapping record) ∧
      (w.lease F).calls i
        = some ⟨F.name i, (F.candidates i).lock.duration, request, .swapping expected record⟩ ∧
      Contention.Step F.key (orderlyRules F.name) (w.lease F)
        (.ends i (F.name i) request (some (((F.candidates i).lock.serve (F.candidates i).identity
          request).onSwap record answer).1) stored?)
        (({ w with
          store := (w.store.write (Lock.swapCommand ⟨F.key, 0⟩ expected record)).2 }.setFlight i
            (.swapped answer)).lease F) := by
  obtain ⟨request, hasked, hcall⟩ := hw.of_swapping (F := F) h
  obtain ⟨stored?, hswap⟩ := Election.swap_contends (u := w.lease F) (i := i) F.key
    (orderlyRules F.name) (hF.shared i) hasked (h ▸ rfl) hanswer
  refine ⟨request, stored?, hasked, hcall, ?_⟩
  rw [lease_setFlight]
  exact hswap

/-- A turn of an elector leaves its call on the lease as it is, or gives it up
and perhaps begins another. -/
theorem turn_contends (hF : F.Fit) (hw : w.InStep) {i : ι} {input : Input} {f : Flight}
    {chance : Float} {done : Elector × List Action} (harrives : Arrives w i input f)
    (hstep : (F.candidates i).step (w.surroundings F i chance) (w.electors i) input = some done) :
    (w.afterTurn i f done).InStep ∧
      ∃ ls, Contention.Run F.key (orderlyRules F.name) (w.lease F) ls
          ((w.afterTurn i f done).lease F) ∧ Lease.stored ls = [] ∧
        ∀ m ∈ ls, ∀ j term, m.risks j term →
          ∃ c, ((w.afterTurn i f done).lease F).calls j = some c ∧
            (c.request = .acquire ∨ c.request = .release term) := by
  have harrived : (∀ answer, input = .readAnswered answer → w.flights i = .read answer) ∧
      (input = .stopped → f = w.flights i) := by
    cases harrives <;> simp_all
  obtain ⟨hof, ls, hrun, hstored, hrisks⟩ := (harrives.turn hF hw hstep).contends
    (u := w.lease F) F.key F.name (hw i) harrived rfl rfl rfl (hF.duration_pos i)
  rw [lease_afterTurn]
  refine ⟨fun j => ?_, ls, hrun, hstored, fun m hm j term hm' => ?_⟩
  · by_cases hj : j = i
    · subst hj
      simpa [afterTurn] using hof
    · simpa [afterTurn, hj] using hw j
  · obtain ⟨rfl, call, hcall, hrequest⟩ := hrisks m hm j term hm'
    exact ⟨call, (Contention.setCall_calls_self _ _ _).trans hcall, hrequest⟩

/-- **Every step of a contest is a run of the contention.** It keeps every
flight in step with its elector, writes the store at most as often as is
seen of it, and puts a term at stake only by beginning to ask for it. -/
theorem Step.contends (h : Step F w l w') (hF : F.Fit) (hw : w.InStep) :
    w'.InStep ∧ ∃ ls, Contention.Run F.key (orderlyRules F.name) (w.lease F) ls (w'.lease F) ∧
      (Lease.stored ls).length ≤ l.writes ∧
      ∀ m ∈ ls, ∀ j term, m.risks j term → ∃ c, (w'.lease F).calls j = some c ∧
        (c.request = .acquire ∨ c.request = .release term) := by
  cases h with
  | pass hlater hdue hclock =>
    exact ⟨hw, contends_of_step (.clock (clock_le_clock hlater hclock)) (Nat.le_refl _)
      fun _ _ => id⟩
  | fault unavailable failingWrites =>
    exact ⟨hw, contends_of_step (.fault unavailable failingWrites) (Nat.le_refl _) fun _ _ => id⟩
  | elsewhere h => exact ⟨hw, contends_of_step (.elsewhere h) (Nat.le_refl _) fun _ _ => id⟩
  | cancel i => exact ⟨hw, [], .nil _, Nat.le_refl _, fun m hm => by simp at hm⟩
  | @turn i input f chance done harrives hstep =>
    obtain ⟨hinStep, ls, hrun, hstored, hrisks⟩ := turn_contends hF hw harrives hstep
    exact ⟨hinStep, ls, hrun, hstored ▸ Nat.zero_le _, hrisks⟩
  | @read i answer h hanswer =>
    obtain ⟨request, now, hasked⟩ := Flight.of_isOf_reading (h ▸ hw i)
    obtain ⟨m, hread, hstored, hrisks⟩ := read_contends (u := w.lease F) (i := i) F.key
      (orderlyRules F.name) (hF.shared i) hasked (h ▸ rfl) hanswer
    refine ⟨hw.setFlight (by rw [hasked]; trivial), ?_⟩
    rw [lease_setFlight]
    exact contends_of_step hread (by simp [hstored]) hrisks
  | @swap i expected record answer h hanswer =>
    obtain ⟨request, stored?, hasked, -, hswap⟩ := swap_contends hF hw h hanswer
    exact ⟨InStep.setFlight hw (by rw [hasked]; trivial),
      contends_of_step hswap Option.length_toList_le fun _ _ => id⟩
  | @swapFails i expected record e h =>
    obtain ⟨request, hasked, hcall⟩ := hw.of_swapping (F := F) h
    refine ⟨hw.setFlight (by rw [hasked]; trivial), ?_⟩
    rw [lease_setFlight, callOf_swapped]
    exact contends_of_step (.swapFails e hcall rfl) (Nat.le_refl _) fun _ _ => id

end Contest

/-! ## A run of one elector -/

namespace Candidate

variable {c : Candidate} {s : Surroundings} {record : Record} {giveUp : Nat}

theorem step_start (hcancelled : s.cancelled = false) (n : UInt32) :
    ∃ note, c.step s ⟨.created, n⟩ .start
      = some (⟨.acquiring (.reading s.clock) (pauseEnd s.time c.timing.leaseDuration.toNat), n⟩,
        [.note note, .publish .acquiring, .read]) := by
  simp [step, attempt, hcancelled]

theorem step_readAnswered {now : UInt64} {answer : Store.ReadAnswer} {expected : Option UInt64}
    (hswap : ((c.lock.acquire c.identity).onRead now answer).1 = .swap expected record)
    (n : UInt32) :
    ∃ ns, c.step s ⟨.acquiring (.reading now) giveUp, n⟩ (.readAnswered answer)
      = some (⟨.acquiring (.swapping record) giveUp, n⟩, notes ns ++ [.swap expected record]) := by
  cases hread : (c.lock.acquire c.identity).onRead now answer with
  | mk decision ns =>
    rw [hread] at hswap
    subst hswap
    refine ⟨ns, ?_⟩
    simp only [step, answered, hread]

theorem step_swapAnswered {a : Store.WriteResult} (hdeaf : s.deaf = false)
    (hinterval : c.timing.renewInterval ≠ 0) (hahead : c.isAhead s record.deadline = true)
    (n : UInt32) :
    ∃ ns note, c.step s ⟨.acquiring (.swapping record) giveUp, n⟩ (.swapAnswered (.ok a))
      = some (⟨.leading ⟨⟨record.term⟩, record.deadline,
          s.time + c.timing.renewInterval.toNat⟩, 0⟩,
        notes ns ++ [.note note, .publish (.leading ⟨record.term⟩),
          .announce (.becameLeader ⟨record.term⟩)]) := by
  have hlead : c.attempted s n (.ok (.acquired ⟨record.term⟩ record.deadline))
      = c.lead s ⟨record.term⟩ record.deadline := if_pos hahead
  refine ⟨((c.lock.acquire c.identity).onSwap record (.ok a)).2, ?_⟩
  show ∃ note, some ((c.attempted s n (.ok (.acquired ⟨record.term⟩ record.deadline))).1,
    notes _ ++ (c.attempted s n (.ok (.acquired ⟨record.term⟩ record.deadline))).2) = _
  rw [hlead]
  simp [lead, hdeaf, hinterval]

end Candidate

namespace Contest

variable {ι : Type} [DecidableEq ι] {F : ContestSetup ι} {w : Contest ι}

/-- Runs can be put one after the other. -/
theorem Run.append {w' w'' : Contest ι} {ls ms : List (ContestLabel ι)} (h : Run F w ls w')
    (h' : Run F w' ms w'') : Run F w (ls ++ ms) w'' := by
  induction h with
  | nil w => exact h'
  | cons hstep hrun ih => exact .cons hstep (ih h')

/-- An elector finds the lease free and acquires it, but has not heard of
it. -/
theorem Run.acquires {i : ι} {expected : Option UInt64} {record : Record} {a : Store.WriteResult}
    (hcreated : w.electors i = {}) (hcancelled : w.cancelled i = false)
    (hswap : (((F.candidates i).lock.acquire (F.candidates i).identity).onRead (w.clock F)
      (w.store.read F.key)).1 = .swap expected record)
    (hwritten : (w.store.write (Lock.swapCommand ⟨F.key, 0⟩ expected record)).1 = .ok a) :
    ∃ w', Run F w [.quiet, .quiet, .quiet, .written] w' ∧
      w'.time = w.time ∧ w'.cancelled = w.cancelled ∧
      w'.store = (w.store.write (Lock.swapCommand ⟨F.key, 0⟩ expected record)).2 ∧
      w'.electors i = ⟨.acquiring (.swapping record)
        (pauseEnd w.time (F.candidates i).timing.leaseDuration.toNat), 0⟩ ∧
      w'.flights i = .swapped (.ok a) ∧
      ∀ j, j ≠ i → w'.shown j = w.shown j ∧ w'.electors j = w.electors j := by
  let giveUp := pauseEnd w.time (F.candidates i).timing.leaseDuration.toNat
  -- It starts, and the lease is read, ...
  obtain ⟨note, hstart⟩ := @Candidate.step_start (F.candidates i) (w.surroundings F i 0)
    hcancelled 0
  let w₁ := w.afterTurn i (w.flights i) (⟨.acquiring (.reading (w.clock F)) giveUp, 0⟩,
    [.note note, .publish .acquiring, .read])
  have h₁ : Step F w .quiet w₁ := by
    have h := Step.turn (F := F) (w := w) .start (hcreated ▸ hstart)
    rwa [hcreated] at h
  let w₂ := w₁.setFlight i (.read (w.store.read F.key))
  have h₂ : Step F w₁ .quiet w₂ := .read (by simp [w₁, afterTurn, Flight.act]) (.inl rfl)
  -- ... and it goes on to its swap, which is carried out.
  have he₂ : w₂.electors i = ⟨.acquiring (.reading (w.clock F)) giveUp, 0⟩ := by
    simp [w₂, w₁, setFlight, afterTurn]
  obtain ⟨ns, hread⟩ := @Candidate.step_readAnswered (F.candidates i) (w₂.surroundings F i 0)
    record giveUp _ _ _ hswap 0
  let w₃ := w₂.afterTurn i .idle (⟨.acquiring (.swapping record) giveUp, 0⟩,
    Candidate.notes ns ++ [.swap expected record])
  have h₃ : Step F w₂ .quiet w₃ := by
    have h := Step.turn (F := F) (w := w₂) (.readAnswered (by simp [w₂, setFlight]))
      (he₂ ▸ hread)
    rwa [he₂] at h
  let w₄ := { w₃ with
    store := (w.store.write (Lock.swapCommand ⟨F.key, 0⟩ expected record)).2 }.setFlight i
      (.swapped (.ok a))
  have h₄ : Step F w₃ .written w₄ :=
    .swap (by simp [w₃, afterTurn, Flight.act]) (.inl hwritten.symm)
  refine ⟨w₄, .cons h₁ (.cons h₂ (.cons h₃ (.cons h₄ (.nil w₄)))), rfl, rfl, rfl, ?_, ?_,
    fun j hj => ?_⟩
  · simp [w₄, w₃, setFlight, afterTurn, giveUp]
  · simp [w₄, setFlight]
  · simp [w₄, w₃, w₂, w₁, setFlight, afterTurn, hj]

/-- An elector hears that it has acquired the lease, at some later moment
before the deadline. -/
theorem Run.hears (hF : F.Fit) {i : ι} {record : Record} {a : Store.WriteResult} {giveUp time : Nat}
    (helector : w.electors i = ⟨.acquiring (.swapping record) giveUp, 0⟩)
    (hflight : w.flights i = .swapped (.ok a)) (hlater : w.time ≤ time)
    (hclock : F.origin + time ≤ Saturating.top)
    (hdue : ∀ j due, (w.electors j).phase.due = some due → time ≤ due)
    (hahead : (Lease.renewBudget record.deadline (UInt64.ofNat (F.origin + time))
      (F.candidates i).timing.renewInterval).isSome = true) :
    ∃ w', Run F w
        [.quiet, .takes i time ⟨⟨record.term⟩, record.deadline,
          time + (F.candidates i).timing.renewInterval.toNat⟩] w' ∧
      w'.time = time ∧ w'.cancelled = w.cancelled ∧ w'.store = w.store ∧
      w'.shown i = .leading ⟨record.term⟩ ∧
      w'.electors i = ⟨.leading ⟨⟨record.term⟩, record.deadline,
        time + (F.candidates i).timing.renewInterval.toNat⟩, 0⟩ ∧
      ∀ j, j ≠ i → w'.shown j = w.shown j ∧ w'.electors j = w.electors j := by
  have hinterval : (F.candidates i).timing.renewInterval ≠ 0 :=
    (UInt64.ne_of_lt (hF.interval i).1).symm
  let w₁ : Contest ι := { w with time }
  have h₁ : Step F w .quiet w₁ := .pass hlater hdue hclock
  obtain ⟨ns, note, hlead⟩ := @Candidate.step_swapAnswered (F.candidates i)
    (w₁.surroundings F i 0) record giveUp a rfl hinterval hahead 0
  let period : Period := ⟨⟨record.term⟩, record.deadline,
    time + (F.candidates i).timing.renewInterval.toNat⟩
  let w₂ := w₁.afterTurn i .idle (⟨.leading period, 0⟩, Candidate.notes ns ++
    [.note note, .publish (.leading ⟨record.term⟩), .announce (.becameLeader ⟨record.term⟩)])
  have h₂ : Step F w₁ (.takes i time period) w₂ := by
    have h := Step.turn (F := F) (w := w₁) (.swapAnswered hflight) (helector ▸ hlead)
    rwa [show w₁.electors i = w.electors i from rfl, helector] at h
  refine ⟨w₂, .cons h₁ (.cons h₂ (.nil w₂)), rfl, rfl, rfl, ?_, ?_, fun j hj => ?_⟩
  · simp [w₂, afterTurn, State.act]
  · simp [w₂, afterTurn, period]
  · simp [w₂, w₁, afterTurn, hj]

end Contest

end Tenure.Election
