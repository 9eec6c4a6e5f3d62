import Tenure.Election.Elector
import Tenure.Proofs.Lease.Decision

/-!
# What a turn of an elector does

`Candidate.step` has a case for everything that may arrive in each phase.
What a leader relies on is the same in most of them, so they are sorted
here by what they mean for the call to the store and for leadership, once
and for all (`Turn.of_step`): the elector rests, it asks the store for
something that is no renewal of a leader, or it goes one of the few ways
into leadership and through it. Nothing else is said about a step by the
theorems on elections that share a lease.

The consumer of events is taken to be there, and nothing brings the elector
down.
-/

namespace Tenure.Election

open Lease (Decision Lock Operation Outcome Record Request)

/-- Where the call of an elector is. -/
inductive Flight where
  | idle
  /-- A read is on its way. -/
  | reading
  /-- And its answer. -/
  | read (answer : Store.ReadAnswer)
  /-- A swap is on its way. -/
  | swapping (expected : Option UInt64) (record : Record)
  /-- And its answer. -/
  | swapped (answer : Store.WriteAnswer)

/-- What an action of the elector does to its call. -/
def Flight.act (f : Flight) : Action → Flight
  | .read => .reading
  | .swap expected record => .swapping expected record
  | .abandon => .idle
  | _ => f

/-- What an action does to the published state. -/
def State.act (s : State) : Action → State
  | .publish s' => s'
  | _ => s

/-- Where the call is after these actions. -/
def flown (actions : List Action) (f : Flight) : Flight := actions.foldl Flight.act f

/-- What is published after these actions. -/
def published (actions : List Action) (s : State) : State := actions.foldl State.act s

@[simp] theorem flown_nil (f : Flight) : flown [] f = f := rfl

@[simp] theorem flown_cons (a : Action) (actions : List Action) (f : Flight) :
    flown (a :: actions) f = flown actions (f.act a) := rfl

@[simp] theorem flown_append (as bs : List Action) (f : Flight) :
    flown (as ++ bs) f = flown bs (flown as f) := List.foldl_append

@[simp] theorem flown_notes (ns : List Notice) (f : Flight) : flown (Candidate.notes ns) f = f := by
  induction ns with
  | nil => rfl
  | cons n ns ih => exact ih

@[simp] theorem published_nil (s : State) : published [] s = s := rfl

@[simp] theorem published_cons (a : Action) (actions : List Action) (s : State) :
    published (a :: actions) s = published actions (s.act a) := rfl

@[simp] theorem published_append (as bs : List Action) (s : State) :
    published (as ++ bs) s = published bs (published as s) := List.foldl_append

@[simp] theorem published_notes (ns : List Notice) (s : State) :
    published (Candidate.notes ns) s = s := by
  induction ns with
  | nil => rfl
  | cons n ns ih => exact ih

namespace Phase

/-- What the elector has asked of its lock, and how far that has come. -/
def asked? : Phase → Option (Request × Progress)
  | acquiring call _ => some (.acquire, call)
  | renewing period call _ _ => some (.renew period.term, call)
  | drainRenewing period call _ _ _ => some (.renew period.term, call)
  | releasing term call _ => some (.release term, call)
  | _ => none

/-- Whether the elector leads. -/
def leads : Phase → Bool
  | leading _ => true
  | renewing _ _ _ _ => true
  | _ => false

/-- The same with the call further on. -/
def withCall : Phase → Progress → Phase
  | acquiring _ giveUp, call => acquiring call giveUp
  | renewing period _ budget giveUp, call => renewing period call budget giveUp
  | drainRenewing period _ budget giveUp stopped, call =>
    drainRenewing period call budget giveUp stopped
  | releasing term _ giveUp, call => releasing term call giveUp
  | φ, _ => φ

end Phase

/-- Whether what arrives is an answer of the store. -/
def Input.isAnswer : Input → Bool
  | readAnswered _ => true
  | swapAnswered _ => true
  | _ => false

/-- **What an answer makes of a call.** What it has read ends it or lets it go
on to its swap, and what comes of the swap ends it. -/
inductive Answered {α : Type} (op : Operation α) (resume : Progress → Elector)
    (conclude : Except Lease.Error α → Elector × List Action) :
    Progress → Input → Elector × List Action → Prop
  | ends {now : UInt64} {answer : Store.ReadAnswer} {result : Except Lease.Error α}
    (ns : List Notice) (h : (op.onRead now answer).1 = .done result) :
    Answered op resume conclude (.reading now) (.readAnswered answer)
      ((conclude result).1, Candidate.notes ns ++ (conclude result).2)
  | goesOn {now : UInt64} {answer : Store.ReadAnswer} {expected : Option UInt64}
    {record : Record} (ns : List Notice)
    (h : (op.onRead now answer).1 = .swap expected record) :
    Answered op resume conclude (.reading now) (.readAnswered answer)
      (resume (.swapping record), Candidate.notes ns ++ [.swap expected record])
  | swapped {record : Record} {answer : Store.WriteAnswer} (ns : List Notice) :
    Answered op resume conclude (.swapping record) (.swapAnswered answer)
      ((conclude (op.onSwap record answer).1).1,
        Candidate.notes ns ++ (conclude (op.onSwap record answer).1).2)

theorem Candidate.of_answered {α : Type} {op : Operation α} {resume : Progress → Elector}
    {conclude : Except Lease.Error α → Elector × List Action} {call : Progress} {input : Input}
    {done : Elector × List Action} (h : answered op call input resume conclude = some done) :
    Answered op resume conclude call input done := by
  unfold answered at h
  split at h
  · rename_i now answer
    cases hread : op.onRead now answer with
    | mk decision ns =>
      rw [hread] at h
      cases decision with
      | done result =>
        obtain rfl := Option.some.inj h
        exact .ends ns (by rw [hread])
      | swap expected record =>
        obtain rfl := Option.some.inj h
        exact .goesOn ns (by rw [hread])
  · obtain rfl := Option.some.inj h
    exact .swapped _
  · contradiction

/-- **What a turn can do**, to the phase, to the call under way and to the
state that is published. -/
inductive Turn (c : Candidate) (s : Surroundings) :
    Phase → Flight → State → Input → Phase → Flight → State → Prop
  /-- It asks nothing of the store, and does not lead. -/
  | rests {φ φ' : Phase} {f : Flight} {st st' : State} {input : Input} (hcall : φ'.asked? = none)
      (hleads : φ'.leads = false)
      (hshown : st'.isLeader = true → φ.leads = false ∧ st' = st) :
      Turn c s φ f st input φ' .idle st'
  /-- It begins to ask for something, and does not lead. -/
  | asks {φ φ' : Phase} {f : Flight} {st st' : State} {input : Input} {request : Request}
      (hcall : φ'.asked? = some (request, .reading s.clock)) (hleads : φ'.leads = false)
      (hshown : st'.isLeader = true → φ.leads = false ∧ st' = st) :
      Turn c s φ f st input φ' .reading st'
  /-- What it has read lets it go on with what it asks for. -/
  | resumes {φ : Phase} {f : Flight} {st : State} {request : Request} {now : UInt64}
      {answer : Store.ReadAnswer} {expected : Option UInt64} {record : Record}
      (hcall : φ.asked? = some (request, .reading now))
      (hswap : ((c.lock.serve c.identity request).onRead now answer).1 = .swap expected record) :
      Turn c s φ f st (.readAnswered answer) (φ.withCall (.swapping record))
        (.swapping expected record) st
  /-- It hears that the work has stopped while it renews. -/
  | hears {period : Period} {call : Progress} {budget : UInt64} {giveUp : Nat} {stopped : Bool}
      {f : Flight} {st : State} :
      Turn c s (.drainRenewing period call budget giveUp stopped) f st .stopped
        (.drainRenewing period call budget giveUp true) f st
  /-- It has acquired the lease and begins to lead. -/
  | takes {record : Record} {giveUp : Nat} {f : Flight} {st st' : State}
      {answer : Store.WriteAnswer} {term : Term} {deadline : UInt64}
      (hacquired : ((c.lock.serve c.identity .acquire).onSwap record answer).1
        = .ok (.acquired (.acquired term deadline))) :
      Turn c s (.acquiring (.swapping record) giveUp) f st (.swapAnswered answer)
        (.leading ⟨term, deadline, s.time + c.timing.renewInterval.toNat⟩) .idle st'
  /-- It leads and begins to renew. -/
  | ticks {period : Period} {budget : UInt64} {f : Flight} {st : State}
      (hbudget : Lease.renewBudget period.deadline s.clock c.timing.renewInterval = some budget) :
      Turn c s (.leading period) f st .timeUp
        (.renewing { period with tick := c.nextTick s.time period.tick } (.reading s.clock) budget
          (pauseEnd s.time budget.toNat)) .reading st
  /-- It has renewed the lease and leads on. -/
  | renews {period : Period} {record : Record} {budget : UInt64} {giveUp : Nat} {f : Flight}
      {st : State} {answer : Store.WriteAnswer} {next : UInt64}
      (hrenewed : ((c.lock.serve c.identity (.renew period.term)).onSwap record answer).1
        = .ok (.renewed (.renewed next))) :
      Turn c s (.renewing period (.swapping record) budget giveUp) f st (.swapAnswered answer)
        (.leading { period with deadline := next }) .idle st

namespace Turn

variable {c : Candidate} {s : Surroundings} {φ : Phase} {f : Flight} {st : State} {input : Input}

/-- A turn that does this, once no call is under way any more. -/
def Leaves (c : Candidate) (s : Surroundings) (φ : Phase) (f : Flight) (st : State)
    (input : Input) (done : Elector × List Action) : Prop :=
  Turn c s φ f st input done.1.phase (flown done.2 .idle) (published done.2 st)

theorem attempt (hφ : φ.leads = false) (n : UInt32) : Leaves c s φ f st input (c.attempt s n) := by
  unfold Candidate.attempt
  split
  · exact .rests rfl rfl fun _ => ⟨hφ, rfl⟩
  · exact .asks rfl rfl fun h => absurd h Bool.false_ne_true

theorem giveBack (hφ : φ.leads = false) (n : UInt32) (term : Term) :
    Leaves c s φ f st input (c.giveBack s n term) :=
  .asks rfl rfl fun _ => ⟨hφ, rfl⟩

theorem lose (hdeaf : s.deaf = false) (n : UInt32) (period : Period) (reason : LossReason) :
    Leaves c s φ f st input (c.lose s n period reason) := by
  unfold Candidate.lose
  rw [hdeaf]
  cases reason with
  | superseded => exact .rests rfl rfl fun h => absurd h Bool.false_ne_true
  | renewFailed => exact .rests rfl rfl fun h => absurd h Bool.false_ne_true
  | shutdown => exact .rests rfl rfl fun h => absurd h Bool.false_ne_true

/-- An attempt has ended. -/
theorem attempted (hdeaf : s.deaf = false) (hinterval : c.timing.renewInterval ≠ 0)
    {result : Except Lease.Error Lease.AcquireOutcome} (n : UInt32)
    (htakes : ∀ term deadline, result = .ok (.acquired term deadline) →
      Turn c s φ f st input (.leading ⟨term, deadline, s.time + c.timing.renewInterval.toNat⟩) .idle
        (.leading term)) :
    Leaves c s φ f st input (c.attempted s n result) := by
  cases result with
  | error e => exact .rests rfl rfl fun h => absurd h Bool.false_ne_true
  | ok outcome =>
    cases outcome with
    | heldByOther holder deadline =>
      exact .rests rfl rfl fun h => absurd h Bool.false_ne_true
    | acquired term deadline =>
      by_cases hahead : c.isAhead s deadline = true
      · have hlead : c.attempted s n (.ok (.acquired term deadline)) = c.lead s term deadline :=
          if_pos hahead
        rw [hlead]
        unfold Candidate.lead
        simp only [hdeaf, Bool.false_eq_true, if_false, hinterval]
        exact htakes term deadline rfl
      · rw [show c.attempted s n (.ok (.acquired term deadline))
          = (Candidate.standBy s n (c.retryDelay s), _) from if_neg hahead]
        exact .rests rfl rfl fun h => absurd h Bool.false_ne_true

/-- A renewal of a leader has ended. -/
theorem renewed (hdeaf : s.deaf = false) {period : Period}
    {result : Except Lease.Error Lease.RenewOutcome} (n : UInt32)
    (hrenews : ∀ next, result = .ok (.renewed next) →
      Turn c s φ f st input (.leading { period with deadline := next }) .idle st) :
    Leaves c s φ f st input (c.renewed s n period result) := by
  cases result with
  | error e => exact lose hdeaf n period .renewFailed
  | ok outcome =>
    cases outcome with
    | lost holder => exact lose hdeaf n period .superseded
    | renewed next =>
      unfold Candidate.renewed
      by_cases hahead : c.isAhead s next = true
      · simp only [if_pos hahead]
        exact hrenews next rfl
      · simp only [if_neg hahead]
        exact lose hdeaf n period .renewFailed

/-- A renewal while work is drained has ended, well or not. -/
theorem drainRenewed (hφ : φ.leads = false) (n : UInt32) (period : Period) (stopped : Bool)
    (result : Except Lease.Error Lease.RenewOutcome) :
    Leaves c s φ f st input (c.drainRenewed s n period stopped result) := by
  have hfailed : ∀ note : Notice, Leaves c s φ f st input
      (if stopped then ((c.giveBack s n period.term).1,
          Action.note note :: (c.giveBack s n period.term).2)
        else (⟨.awaitingStop period.term, n⟩, [Action.note note])) := by
    intro note
    cases stopped with
    | true => exact giveBack hφ n period.term
    | false => exact .rests rfl rfl fun _ => ⟨hφ, rfl⟩
  unfold Candidate.drainRenewed
  cases result with
  | error e => exact hfailed _
  | ok outcome =>
    cases outcome with
    | lost holder => exact hfailed _
    | renewed next =>
      by_cases hahead : c.isAhead s next = true
      · simp only [if_pos hahead]
        cases stopped with
        | true => exact giveBack hφ n period.term
        | false => exact .rests rfl rfl fun _ => ⟨hφ, rfl⟩
      · simp only [if_neg hahead]
        exact hfailed _

theorem releaseEnded (n : UInt32) (term : Term)
    (result : Option (Except Lease.Error Lease.ReleaseOutcome)) :
    Leaves c s φ f st input (c.releaseEnded s n term result) :=
  .rests rfl rfl fun h => absurd h Bool.false_ne_true

/-- An answer lets a call go on, or ends it. -/
theorem answered {α : Type} {op : Operation α} {wrap : α → Outcome} {request : Request}
    {call : Progress} {resume : Progress → Elector}
    {conclude : Except Lease.Error α → Elector × List Action} {e' : Elector}
    {actions : List Action}
    (h : Candidate.answered op call input resume conclude = some (e', actions))
    (hop : c.lock.serve c.identity request = op.map wrap)
    (hcall : φ.asked? = some (request, call))
    (hresume : ∀ p, (resume p).phase = φ.withCall p)
    (hconclude : ∀ result,
      (∀ record, call = .swapping record → ∃ answer, input = .swapAnswered answer ∧
        (op.onSwap record answer).1 = result) →
      (∀ now, call = .reading now → ∃ answer, (op.onRead now answer).1 = .done result) →
      Leaves c s φ .idle st input (conclude result))
    (hf : input.isAnswer = true → f = .idle) :
    Turn c s φ f st input e'.phase (flown actions f) (published actions st) := by
  unfold Candidate.answered at h
  split at h
  · rename_i now answer
    obtain rfl := hf rfl
    cases hread : op.onRead now answer with
    | mk decision ns =>
      rw [hread] at h
      cases decision with
      | done result =>
        obtain ⟨rfl, rfl⟩ := Prod.mk.inj (Option.some.inj h)
        rw [flown_append, flown_notes, published_append, published_notes]
        refine hconclude result (fun record hr => by contradiction) fun now' hnow => ⟨answer, ?_⟩
        obtain rfl := Progress.reading.inj hnow
        rw [hread]
      | swap expected record =>
        obtain ⟨rfl, rfl⟩ := Prod.mk.inj (Option.some.inj h)
        rw [hresume, flown_append, flown_notes, published_append, published_notes]
        refine .resumes hcall ?_
        rw [hop]
        simp only [Operation.map, hread]
  · rename_i record answer
    obtain rfl := hf rfl
    obtain ⟨rfl, rfl⟩ := Prod.mk.inj (Option.some.inj h)
    rw [flown_append, flown_notes, published_append, published_notes]
    refine hconclude _ (fun record' hr => ⟨answer, rfl, ?_⟩) fun now hnow => by contradiction
    obtain rfl := Progress.swapping.inj hr
    rfl
  · contradiction

/-- An attempt that ends by its answer. -/
theorem acquired (hdeaf : s.deaf = false) (hinterval : c.timing.renewInterval ≠ 0) {n : UInt32}
    {call : Progress} {giveUp : Nat} {result : Except Lease.Error Lease.AcquireOutcome}
    (hswapped : ∀ record, call = .swapping record → ∃ answer, input = .swapAnswered answer ∧
      ((c.lock.acquire c.identity).onSwap record answer).1 = result)
    (hread : ∀ now, call = .reading now →
      ∃ answer, ((c.lock.acquire c.identity).onRead now answer).1 = .done result) :
    Leaves c s (.acquiring call giveUp) f st input (c.attempted s n result) := by
  refine attempted hdeaf hinterval n fun term deadline hresult => ?_
  subst hresult
  cases call with
  | reading now =>
    obtain ⟨answer, hdone⟩ := hread now rfl
    have hserved : ((c.lock.serve c.identity .acquire).onRead now answer).1
        = .done (.ok (.acquired (.acquired term deadline))) := Operation.onRead_map_eq_done hdone
    have hgrant := Lease.grant?_eq_none_of_onRead hserved
    contradiction
  | swapping record =>
    obtain ⟨answer, rfl, hresult⟩ := hswapped record rfl
    exact .takes (congrArg (Except.map Outcome.acquired) hresult)

/-- A renewal of a leader that ends by its answer. -/
theorem kept (hdeaf : s.deaf = false) {n : UInt32} {period : Period} {call : Progress}
    {budget : UInt64} {giveUp : Nat} {result : Except Lease.Error Lease.RenewOutcome}
    (hswapped : ∀ record, call = .swapping record → ∃ answer, input = .swapAnswered answer ∧
      ((c.lock.renew c.identity period.term).onSwap record answer).1 = result)
    (hread : ∀ now, call = .reading now →
      ∃ answer, ((c.lock.renew c.identity period.term).onRead now answer).1 = .done result) :
    Leaves c s (.renewing period call budget giveUp) f st input (c.renewed s n period result) := by
  refine renewed hdeaf n fun next hresult => ?_
  subst hresult
  cases call with
  | reading now =>
    obtain ⟨answer, hdone⟩ := hread now rfl
    have hserved : ((c.lock.serve c.identity (.renew period.term)).onRead now answer).1
        = .done (.ok (.renewed (.renewed next))) := Operation.onRead_map_eq_done hdone
    have hgrant := Lease.grant?_eq_none_of_onRead hserved
    contradiction
  | swapping record =>
    obtain ⟨answer, rfl, hresult⟩ := hswapped record rfl
    exact .renews (congrArg (Except.map Outcome.renewed) hresult)

section Phases

variable {n : UInt32} {e' : Elector} {actions : List Action}

/-- What a candidate does while it attempts to acquire the lease. -/
theorem of_acquiring {call : Progress} {giveUp : Nat} (hdeaf : s.deaf = false)
    (hinterval : c.timing.renewInterval ≠ 0) (hcrash : input ≠ .crash)
    (hf : input.isAnswer = true → f = .idle)
    (h : c.step s ⟨.acquiring call giveUp, n⟩ input = some (e', actions)) :
    Turn c s (.acquiring call giveUp) f st input e'.phase (flown actions f)
      (published actions st) := by
  cases input with
  | cancelled =>
    obtain ⟨rfl, rfl⟩ := Prod.mk.inj (Option.some.inj h)
    exact .rests rfl rfl fun _ => ⟨rfl, rfl⟩
  | timeUp =>
    obtain ⟨rfl, rfl⟩ := Prod.mk.inj (Option.some.inj h)
    exact .rests rfl rfl fun h => absurd h Bool.false_ne_true
  | crash => contradiction
  | _ =>
    simp only [Candidate.step] at h
    exact answered h rfl rfl (fun p => rfl) (fun result => acquired hdeaf hinterval) hf

/-- What a leader does between renewals. -/
theorem of_leading {period : Period} (hdeaf : s.deaf = false)
    (h : c.step s ⟨.leading period, n⟩ input = some (e', actions)) :
    Turn c s (.leading period) .idle st input e'.phase (flown actions .idle)
      (published actions st) := by
  cases input with
  | cancelled =>
    obtain ⟨rfl, rfl⟩ := Prod.mk.inj (Option.some.inj h)
    exact lose hdeaf n period .shutdown
  | timeUp =>
    simp only [Candidate.step, Candidate.onTick] at h
    cases hbudget : Lease.renewBudget period.deadline s.clock c.timing.renewInterval with
    | none =>
      rw [hbudget] at h
      obtain ⟨rfl, rfl⟩ := Prod.mk.inj (Option.some.inj h)
      exact lose hdeaf n { period with tick := _ } .renewFailed
    | some budget =>
      rw [hbudget] at h
      obtain ⟨rfl, rfl⟩ := Prod.mk.inj (Option.some.inj h)
      exact .ticks hbudget
  | _ => contradiction

/-- What a leader does during a renewal. -/
theorem of_renewing {period : Period} {call : Progress} {budget : UInt64} {giveUp : Nat}
    (hdeaf : s.deaf = false) (hcrash : input ≠ .crash) (hf : input.isAnswer = true → f = .idle)
    (h : c.step s ⟨.renewing period call budget giveUp, n⟩ input = some (e', actions)) :
    Turn c s (.renewing period call budget giveUp) f st input e'.phase (flown actions f)
      (published actions st) := by
  cases input with
  | cancelled =>
    obtain ⟨rfl, rfl⟩ := Prod.mk.inj (Option.some.inj h)
    exact lose hdeaf n period .shutdown
  | timeUp =>
    obtain ⟨rfl, rfl⟩ := Prod.mk.inj (Option.some.inj h)
    exact lose hdeaf n period .renewFailed
  | crash => contradiction
  | _ =>
    simp only [Candidate.step] at h
    exact answered h rfl rfl (fun p => rfl) (fun result => kept hdeaf) hf

/-- What is done while work is drained, between renewals. -/
theorem of_draining {period : Period}
    (h : c.step s ⟨.draining period, n⟩ input = some (e', actions)) :
    Turn c s (.draining period) .idle st input e'.phase (flown actions .idle)
      (published actions st) := by
  cases input with
  | stopped =>
    obtain ⟨rfl, rfl⟩ := Prod.mk.inj (Option.some.inj h)
    exact giveBack rfl n period.term
  | timeUp =>
    simp only [Candidate.step, Candidate.onTick] at h
    cases hbudget : Lease.renewBudget period.deadline s.clock c.timing.renewInterval with
    | none =>
      rw [hbudget] at h
      obtain ⟨rfl, rfl⟩ := Prod.mk.inj (Option.some.inj h)
      exact .rests rfl rfl fun _ => ⟨rfl, rfl⟩
    | some budget =>
      rw [hbudget] at h
      obtain ⟨rfl, rfl⟩ := Prod.mk.inj (Option.some.inj h)
      exact .asks rfl rfl fun _ => ⟨rfl, rfl⟩
  | _ => contradiction

/-- And during one. -/
theorem of_drainRenewing {period : Period} {call : Progress} {budget : UInt64} {giveUp : Nat}
    {stopped : Bool} (hcrash : input ≠ .crash) (hf : input.isAnswer = true → f = .idle)
    (h : c.step s ⟨.drainRenewing period call budget giveUp stopped, n⟩ input
      = some (e', actions)) :
    Turn c s (.drainRenewing period call budget giveUp stopped) f st input e'.phase
      (flown actions f) (published actions st) := by
  cases input with
  | stopped =>
    obtain ⟨rfl, rfl⟩ := Prod.mk.inj (Option.some.inj h)
    exact .hears
  | timeUp =>
    obtain ⟨rfl, rfl⟩ := Prod.mk.inj (Option.some.inj h)
    exact drainRenewed rfl n period stopped (c.tooLate budget)
  | crash => contradiction
  | _ =>
    simp only [Candidate.step] at h
    exact answered h rfl rfl (fun p => rfl)
      (fun result _ _ => drainRenewed rfl n period stopped result) hf

/-- What is done while the lease is given back. -/
theorem of_releasing {term : Term} {call : Progress} {giveUp : Nat} (hcrash : input ≠ .crash)
    (hf : input.isAnswer = true → f = .idle)
    (h : c.step s ⟨.releasing term call giveUp, n⟩ input = some (e', actions)) :
    Turn c s (.releasing term call giveUp) f st input e'.phase (flown actions f)
      (published actions st) := by
  cases input with
  | timeUp =>
    obtain ⟨rfl, rfl⟩ := Prod.mk.inj (Option.some.inj h)
    exact releaseEnded n term none
  | crash => contradiction
  | _ =>
    simp only [Candidate.step] at h
    exact answered h rfl rfl (fun p => rfl)
      (fun result _ _ => releaseEnded n term (some result)) hf

end Phases

/-- **Every step is such a turn.** -/
theorem of_step {e e' : Elector} {actions : List Action} (hdeaf : s.deaf = false)
    (hinterval : c.timing.renewInterval ≠ 0) (hcrash : input ≠ .crash)
    (hf : input.isAnswer = true ∨ e.phase.asked? = none → f = .idle) (st : State)
    (h : c.step s e input = some (e', actions)) :
    Turn c s e.phase f st input e'.phase (flown actions f) (published actions st) := by
  have hanswer : input.isAnswer = true → f = .idle := fun hinput => hf (.inl hinput)
  obtain ⟨φ, n⟩ := e
  cases φ with
  | created =>
    obtain rfl := hf (.inr rfl)
    cases input with
    | start =>
      obtain ⟨rfl, rfl⟩ := Prod.mk.inj (Option.some.inj h)
      exact attempt rfl n
    | _ => contradiction
  | acquiring call giveUp => exact of_acquiring hdeaf hinterval hcrash hanswer h
  | standingBy wake =>
    obtain rfl := hf (.inr rfl)
    cases input with
    | cancelled =>
      obtain ⟨rfl, rfl⟩ := Prod.mk.inj (Option.some.inj h)
      exact .rests rfl rfl fun _ => ⟨rfl, rfl⟩
    | timeUp =>
      obtain ⟨rfl, rfl⟩ := Prod.mk.inj (Option.some.inj h)
      exact attempt rfl n
    | _ => contradiction
  | leading period =>
    obtain rfl := hf (.inr rfl)
    exact of_leading hdeaf h
  | renewing period call budget giveUp => exact of_renewing hdeaf hcrash hanswer h
  | draining period =>
    obtain rfl := hf (.inr rfl)
    exact of_draining h
  | drainRenewing period call budget giveUp stopped => exact of_drainRenewing hcrash hanswer h
  | awaitingStop term =>
    obtain rfl := hf (.inr rfl)
    cases input with
    | stopped =>
      obtain ⟨rfl, rfl⟩ := Prod.mk.inj (Option.some.inj h)
      exact giveBack rfl n term
    | _ => contradiction
  | releasing term call giveUp => exact of_releasing hcrash hanswer h
  | finished => cases input <;> contradiction
  | crashed => cases input <;> contradiction

/-- **Whoever is seen to lead is leading**, after a turn if it was so
before. -/
theorem leads_of_isLeader {φ' : Phase} {f' : Flight} {st' : State}
    (h : Turn c s φ f st input φ' f' st') (hst : st.isLeader = true → φ.leads = true)
    (hst' : st'.isLeader = true) : φ'.leads = true := by
  cases h with
  | rests hcall hleads hshown =>
    obtain ⟨hφ, rfl⟩ := hshown hst'
    rw [hst hst'] at hφ
    contradiction
  | asks hcall hleads hshown =>
    obtain ⟨hφ, rfl⟩ := hshown hst'
    rw [hst hst'] at hφ
    contradiction
  | resumes hcall hswap =>
    have hφ := hst hst'
    cases φ <;> first | contradiction | rfl
  | hears => exact hst hst'
  | takes hacquired => rfl
  | ticks hbudget => rfl
  | renews hrenewed => rfl

end Turn

end Tenure.Election
