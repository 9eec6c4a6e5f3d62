import Tenure.Proofs.Election.Entitlement

/-!
# One leader at a time, and when there are two

Whoever claims the lease holds it up to the deadline
(`Lease.Contention.Secured`), and nobody else does. So there is one leader
at a time as long as no elector leads beyond its deadline, which a leader
that renews never does. `Kept` puts this together as an invariant of
contests.

An elector that was told of its lease with less than an interval of it left
does, though: it goes on to lead when its lease is over, until the first
renewal is due, and another one may acquire the lease meanwhile
(`two_electors_lead`). This is the only way for two electors to lead at
once (`one_leads_late`).
-/

namespace Tenure.Election

open Lease (Contention Lock Operation Outcome Record Request)

namespace Contest

variable {ι : Type} {F : ContestSetup ι} {w w' : Contest ι} {l : ContestLabel ι} {i : ι}

/-- **The lease is this elector's own** up to a deadline, unless that has
passed. -/
def Holds (F : ContestSetup ι) (w : Contest ι) (i : ι) (term : Term) (deadline : UInt64) : Prop :=
  w.clock F ≤ deadline → ∃ since, Contention.Secured F.key F.name (w.lease F) i term deadline
    since (F.candidates i).lock.duration

/-- **An elector does what it is entitled to.** If it is seen to lead it
does, what it claims it holds, and it is in time unless it was `taken` to
lead late. -/
structure Entitled (F : ContestSetup ι) (taken : Period → Prop) (w : Contest ι) (i : ι) : Prop where
  shown : (w.shown i).isLeader = true → (w.electors i).phase.leads = true
  holds : ∀ term deadline,
    Claim (F.candidates i) (w.electors i).phase (w.flights i) term deadline →
      w.Holds F i term deadline
  punctual : Punctual (F.candidates i) F.origin taken w.time (w.electors i).phase (w.flights i)

/-- **The invariant.** -/
structure Kept (F : ContestSetup ι) (taken : ι → Period → Prop) (w : Contest ι) : Prop where
  inStep : w.InStep
  clock : F.origin + w.time ≤ Saturating.top
  sound : Contention.Sound F.key (w.lease F)
  orderly : Contention.Orderly F.key F.name (w.lease F)
  entitled : ∀ i, Entitled F (taken i) w i

/-- A renewal is over before the deadline that it began with. -/
theorem Entitled.clock_le_of_renewing {taken : Period → Prop} (he : Entitled F taken w i)
    (hclock : F.origin + w.time ≤ Saturating.top) {period : Period} {call : Progress}
    {budget : UInt64} {giveUp : Nat}
    (h : (w.electors i).phase = .renewing period call budget giveUp) :
    w.clock F ≤ period.deadline := by
  have hpunctual := he.punctual
  rw [h] at hpunctual
  obtain ⟨hearly, -, hahead, -⟩ := hpunctual
  rw [UInt64.le_iff_toNat_le, toNat_clock hclock]
  omega

/-- What an elector still claims it still holds. -/
def Retains (F : ContestSetup ι) (w w' : Contest ι) (i : ι) : Prop :=
  ∀ term deadline, Claim (F.candidates i) (w'.electors i).phase (w'.flights i) term deadline →
    w.Holds F i term deadline → w'.Holds F i term deadline

section Entitled

variable {taken : Period → Prop}

/-- What does not concern an elector leaves it what it is entitled to. -/
theorem Entitled.of_same (he : Entitled F taken w i) (helector : w'.electors i = w.electors i)
    (hflight : w'.flights i = w.flights i) (hshown : w'.shown i = w.shown i)
    (htime : w'.time = w.time ∨
      ∀ due, (w.electors i).phase.due = some due → w'.time ≤ due)
    (hholds : Retains F w w' i) : Entitled F taken w' i := by
  refine ⟨?_, fun term deadline hc => hholds term deadline hc ?_, ?_⟩
  · rw [hshown, helector]
    exact he.shown
  · rw [helector, hflight] at hc
    exact he.holds term deadline hc
  · rw [helector, hflight]
    obtain hsame | hdue := htime
    · rw [hsame]
      exact he.punctual
    · exact he.punctual.pass hdue

/-- An answer that grants nothing leaves an elector what it is entitled to,
and so does one whose grant has been secured. -/
theorem Entitled.of_flight (he : Entitled F taken w i) (helector : w'.electors i = w.electors i)
    (hshown : w'.shown i = w.shown i) (htime : w'.time = w.time) (hholds : Retains F w w' i)
    (hgrants : ∀ answer record term deadline, w'.flights i = .swapped answer →
      Grants (F.candidates i) (w.electors i).phase answer record term deadline →
      deadline = Saturating.add record.renewedAt (F.candidates i).lock.duration ∧
        w'.Holds F i term deadline)
    (hF : F.Fit) : Entitled F taken w' i := by
  refine ⟨?_, fun term deadline hc => ?_, ?_⟩
  · rw [hshown, helector]
    exact he.shown
  · have hc' := hc
    rw [helector] at hc'
    obtain hc' | ⟨answer, record, hflight, hgrant⟩ := hc'.granted (w.flights i)
    · exact hholds term deadline hc (he.holds term deadline hc')
    · exact (hgrants answer record term deadline hflight hgrant).2
  · rw [helector, htime]
    refine he.punctual.setFlight
      fun period record budget giveUp answer next hphase hflight hgrant => ?_
    obtain ⟨rfl, -⟩ := hgrants answer record period.term next hflight hgrant
    have hpunctual := he.punctual
    rw [hphase] at hpunctual
    have hstamp := hpunctual.swapping record rfl
    have hinterval := UInt64.lt_iff_toNat_lt.1 (hF.interval i).2
    rw [← hF.lasts i] at hinterval
    show min (F.origin + period.tick) Saturating.top ≤ (Saturating.add _ _).toNat
    rw [Saturating.toNat_add]
    omega

/-- **A turn leaves an elector what it is entitled to**, or takes it to lead
late. -/
theorem Entitled.of_turn (he : Entitled F taken w i) {input : Input} {f : Flight} {chance : Float}
    (harrives : Arrives w i input f)
    (hturn : Turn (F.candidates i) (w.surroundings F i chance) (w.electors i).phase f (w.shown i)
      input (w'.electors i).phase (w'.flights i) (w'.shown i))
    (hclock : F.origin + w.time ≤ Saturating.top) (htime : w'.time = w.time)
    (hholds : Retains F w w' i)
    (htaken : ∀ call giveUp period, (w.electors i).phase = .acquiring call giveUp →
      (w'.electors i).phase = .leading period →
      period.tick = w.time + (F.candidates i).timing.renewInterval.toNat → taken period) :
    Entitled F taken w' i := by
  have harrived : ∀ answer, input = .swapAnswered answer → w.flights i = .swapped answer := by
    cases harrives <;> simp_all
  have hdue : input = .timeUp → ∀ due, (w.electors i).phase.due = some due → due ≤ w.time := by
    cases harrives <;> simp_all
  refine ⟨hturn.leads_of_isLeader he.shown, fun term deadline hc => ?_, ?_⟩
  · exact hholds term deadline hc (he.holds term deadline (hturn.claim harrived hc))
  · rw [htime]
    exact hturn.punctual (toNat_clock hclock) harrived hdue htaken he.punctual

end Entitled

variable {taken : ι → Period → Prop}

/-- Two electors do not hold the lease at the same time. -/
theorem eq_of_secured (hF : F.Fit) {j : ι} {term term' : Term}
    {deadline deadline' since since' duration duration' : UInt64}
    (hi : Contention.Secured F.key F.name (w.lease F) i term deadline since duration)
    (hj : Contention.Secured F.key F.name (w.lease F) j term' deadline' since' duration') :
    i = j := by
  obtain ⟨record, hrecord, hheld, -⟩ := hi.stands
  obtain ⟨record', hrecord', hheld', -⟩ := hj.stands
  rw [hrecord] at hrecord'
  obtain rfl := Option.some.inj hrecord'
  obtain ⟨-, -, hname, -⟩ := Lease.Record.isHeldBy_iff.1 hheld
  obtain ⟨-, -, hname', -⟩ := Lease.Record.isHeldBy_iff.1 hheld'
  exact hF.distinct (hname.symm.trans hname')

/-- **Whoever is seen to lead holds the lease**, unless it was taken to lead
late and its lease is over. -/
theorem Kept.leader (hk : Kept F taken w) (h : (w.shown i).isLeader = true) :
    (∃ term deadline since, Contention.Secured F.key F.name (w.lease F) i term deadline since
      (F.candidates i).lock.duration) ∨
    ∃ period, (w.electors i).phase = .leading period ∧ taken i period ∧
      period.deadline < w.clock F ∧ period.deadline.toNat < F.origin + period.tick := by
  have he := hk.entitled i
  have hleads := he.shown h
  cases hphase : (w.electors i).phase with
  | renewing period call budget giveUp =>
    obtain ⟨since, hs⟩ := he.holds period.term period.deadline (by rw [hphase]; exact .renewing)
      (he.clock_le_of_renewing hk.clock hphase)
    exact .inl ⟨_, _, since, hs⟩
  | leading period =>
    have hpunctual := he.punctual
    rw [hphase] at hpunctual
    obtain ⟨htick, hlasts⟩ := hpunctual
    have hclock := toNat_clock hk.clock
    by_cases hpast : period.deadline < w.clock F
    · have hover := UInt64.lt_iff_toNat_lt.1 hpast
      refine .inr ⟨period, rfl, hlasts.resolve_left fun hlasts => ?_, hpast, by omega⟩
      have hbound := hk.clock
      unfold Period.Lasts at hlasts
      omega
    · obtain ⟨since, hs⟩ := he.holds period.term period.deadline (by rw [hphase]; exact .leading)
        (UInt64.not_lt.1 hpast)
      exact .inl ⟨_, _, since, hs⟩
  | _ =>
    rw [hphase] at hleads
    contradiction

/-- What an elector stores to acquire the lease or to lead on lasts as long
as its lock says, for a renewal lasts as long as the term that it renews. -/
theorem Kept.duration_eq (hk : Kept F taken w) {request : Request} {record record' : Record}
    {identity : String} (hasked : (w.electors i).phase.asked? = some (request, .swapping record'))
    (hleads : request = .acquire ∨ (w.electors i).phase.leads = true)
    (hreplaces : Lease.Replaces identity (F.candidates i).lock.duration request
      (Lease.recordAt F.key w.store) record) :
    record.duration = (F.candidates i).lock.duration := by
  obtain ⟨-, hduration⟩ | ⟨hrequest, old, hold, hduration⟩ := hreplaces.duration_eq
  · exact hduration
  have hleads := hleads.resolve_left hrequest
  cases hphase : (w.electors i).phase with
  | renewing period call budget giveUp =>
    have he := hk.entitled i
    obtain ⟨since, ⟨old', hold', -, hduration', -⟩, -⟩ :=
      he.holds period.term period.deadline (by rw [hphase]; exact .renewing)
        (he.clock_le_of_renewing hk.clock hphase)
    obtain rfl := Option.some.inj (hold.symm.trans hold')
    exact hduration.trans hduration'
  | leading period =>
    rw [hphase] at hasked
    contradiction
  | _ =>
    rw [hphase] at hleads
    contradiction

variable [DecidableEq ι]

/-- Nothing that happens takes from an elector what it holds. -/
theorem Step.retains (h : Step F w l w') (hF : F.Fit) (hk : Kept F taken w)
    (hroom : Lease.versionAt F.key w.store + l.writes < UInt64.size) (i : ι) :
    Retains F w w' i := by
  obtain ⟨-, ls, hrun, hlength, hrisks⟩ := h.contends hF hk.inStep
  intro term deadline hc hholds htime
  obtain ⟨since, hs⟩ := hholds (UInt64.le_trans hrun.clock_le htime)
  have hroom' : Lease.versionAt F.key (w.lease F).store + (Lease.stored ls).length < UInt64.size :=
    Nat.lt_of_le_of_lt (Nat.add_le_add_left hlength _) hroom
  refine ⟨since, (hrun.secured hF.distinct hk.sound hk.orderly hroom' hs ?_ htime).1⟩
  intro m hm hm'
  obtain ⟨c, hcall, hrequest⟩ := hrisks m hm i term hm'
  obtain ⟨term', hrenew⟩ := hc.request hcall
  rw [hrenew] at hrequest
  obtain hrequest | hrequest := hrequest
  · contradiction
  · contradiction

/-- **What a swap grants, the elector holds.** -/
theorem Kept.holds_of_swap (hk : Kept F taken w) (hF : F.Fit) {expected : Option UInt64}
    {record record' : Record} {answer : Store.WriteAnswer} {term : Term} {deadline : UInt64}
    (h : w.flights i = .swapping expected record)
    (hanswer : answer = (w.store.write (Lock.swapCommand ⟨F.key, 0⟩ expected record)).1 ∨
      ∃ e, answer = .error e)
    (hgrants : Grants (F.candidates i) (w.electors i).phase answer record' term deadline) :
    deadline = Saturating.add record'.renewedAt (F.candidates i).lock.duration ∧
      ({ w with
        store := (w.store.write (Lock.swapCommand ⟨F.key, 0⟩ expected record)).2 }.setFlight i
          (.swapped answer)).Holds F i term deadline := by
  obtain ⟨request, outcome, hasked, hleads, hanswered, hgrant⟩ := hgrants
  obtain ⟨request', stored?, hasked', hcall, hswap⟩ := swap_contends hF hk.inStep h hanswer
  obtain ⟨rfl, hrecord⟩ := Prod.mk.inj (Option.some.inj (hasked.symm.trans hasked'))
  obtain rfl := Progress.swapping.inj hrecord
  rw [hanswered] at hswap
  obtain ⟨c, record, -, rfl, hstores, hdeadline, hs⟩ :=
    hswap.secured_of_grant hF.named hk.sound hk.orderly hgrant
  obtain rfl := Option.some.inj (hcall.symm.trans hstores.call)
  obtain ⟨_, hstage⟩ := hstores.decided
  obtain ⟨-, rfl⟩ := Lease.Stage.swapping.inj hstage
  rw [hk.duration_eq hasked hleads hstores.replaces] at hs hdeadline
  exact ⟨hdeadline, fun _ => ⟨_, hs⟩⟩

/-- What any step leaves an elector. -/
theorem Step.entitled (h : Step F w l w') (hF : F.Fit) (hk : Kept F taken w)
    (hroom : Lease.versionAt F.key w.store + l.writes < UInt64.size)
    (htaken : ∀ i moment period, l = .takes i moment period →
      period.tick = moment + (F.candidates i).timing.renewInterval.toNat → taken i period) (i : ι) :
    Entitled F (taken i) w' i := by
  have he := hk.entitled i
  have hholds : Retains F w w' i := h.retains hF hk hroom i
  cases h with
  | pass hlater hdue hclock => exact he.of_same rfl rfl rfl (.inr (hdue i)) hholds
  | fault unavailable failingWrites => exact he.of_same rfl rfl rfl (.inl rfl) hholds
  | elsewhere h => exact he.of_same rfl rfl rfl (.inl rfl) hholds
  | cancel j => exact he.of_same rfl rfl rfl (.inl rfl) hholds
  | @turn j input f chance done harrives hstep =>
    by_cases hi : i = j
    · subst hi
      refine he.of_turn harrives (by simpa [afterTurn] using harrives.turn hF hk.inStep hstep)
        hk.clock rfl hholds fun call giveUp period hφ hφ' htick => htaken i w.time period ?_ htick
      have hφ' : done.1.phase = .leading period := by simpa [afterTurn] using hφ'
      rw [hφ, hφ']
      rfl
    · exact he.of_same (by simp [afterTurn, hi]) (by simp [afterTurn, hi]) (by simp [afterTurn, hi])
        (.inl rfl) hholds
  | @read j answer h hanswer =>
    by_cases hi : i = j
    · subst hi
      refine he.of_flight rfl rfl rfl hholds (fun _ _ _ _ hflight => ?_) hF
      simp [setFlight] at hflight
    · exact he.of_same rfl (by simp [setFlight, hi]) rfl (.inl rfl) hholds
  | @swap j expected record answer h hanswer =>
    by_cases hi : i = j
    · subst hi
      refine he.of_flight rfl rfl rfl hholds (fun _ _ _ _ hflight => ?_) hF
      obtain rfl : answer = _ := by simpa [setFlight] using hflight
      exact hk.holds_of_swap hF h hanswer
    · exact he.of_same rfl (by simp [setFlight, hi]) rfl (.inl rfl) hholds
  | @swapFails j expected record e h =>
    by_cases hi : i = j
    · subst hi
      refine he.of_flight rfl rfl rfl hholds (fun answer _ _ _ hflight hgrants => ?_) hF
      obtain rfl : Except.error e = answer := by simpa [setFlight] using hflight
      obtain ⟨_, _, -, -, hanswered, hgrant⟩ := hgrants
      obtain ⟨⟨a, ha⟩, -⟩ := Lease.grant?_of_onSwap hanswered hgrant
      contradiction
    · exact he.of_same rfl (by simp [setFlight, hi]) rfl (.inl rfl) hholds

/-- **The invariant is kept by every step.** -/
theorem Step.keeps (h : Step F w l w') (hF : F.Fit) (hk : Kept F taken w)
    (hroom : Lease.versionAt F.key w.store + l.writes < UInt64.size)
    (htaken : ∀ i moment period, l = .takes i moment period →
      period.tick = moment + (F.candidates i).timing.renewInterval.toNat → taken i period) :
    Kept F taken w' ∧
      Lease.versionAt F.key w'.store ≤ Lease.versionAt F.key w.store + l.writes := by
  obtain ⟨hinStep, ls, hrun, hlength, -⟩ := h.contends hF hk.inStep
  have hroom' : Lease.versionAt F.key (w.lease F).store + (Lease.stored ls).length < UInt64.size :=
    Nat.lt_of_le_of_lt (Nat.add_le_add_left hlength _) hroom
  obtain ⟨hsound, hversion⟩ := hrun.sound hk.sound hroom'
  refine ⟨⟨hinStep, ?_, hsound, hrun.orderly hk.sound hk.orderly hroom',
    h.entitled hF hk hroom htaken⟩, ?_⟩
  · cases h with
    | pass hlater hdue hclock => exact hclock
    | _ => exact hk.clock
  · exact Nat.le_trans (Nat.le_of_eq hversion) (Nat.add_le_add_left hlength _)

/-- And so throughout. -/
theorem Run.keeps {ls : List (ContestLabel ι)} (h : Run F w ls w') (hF : F.Fit)
    (hk : Kept F taken w)
    (hroom : Lease.versionAt F.key w.store + ContestLabel.allWrites ls < UInt64.size)
    (htaken : ∀ i moment period, .takes i moment period ∈ ls →
      period.tick = moment + (F.candidates i).timing.renewInterval.toNat → taken i period) :
    Kept F taken w' := by
  induction h with
  | nil w => exact hk
  | @cons w w₁ w₂ l ls hstep hrun ih =>
    rw [ContestLabel.allWrites] at hroom
    obtain ⟨hk₁, hversion⟩ := hstep.keeps hF hk (by omega)
      fun i moment period hl => htaken i moment period (hl ▸ List.mem_cons_self)
    exact ih hk₁ (by omega) fun i moment period hl =>
      htaken i moment period (List.mem_cons_of_mem l hl)

omit [DecidableEq ι] in
/-- It holds at the start. -/
theorem Begins.kept (hw : Begins F w) : Kept F taken w := by
  have hasked : ∀ i, (w.electors i).phase.asked? = none := fun i => by rw [hw.electors i]; rfl
  have hidle : ∀ i, (w.lease F).calls i = none := fun i => callOf_of_asked?_none (hasked i) _
  refine ⟨fun i => ?_, hw.clock, ⟨fun i c hcall => ?_, fun record h => (hw.stored record h).1⟩,
    ⟨fun i c hcall => ?_, fun i c now hcall => ?_, fun record h => (hw.stored record h).2⟩,
    fun i => ⟨fun hshown => ?_, fun term deadline hc => ?_, ?_⟩⟩
  · rw [hasked, hw.flights]
    trivial
  · rw [hidle] at hcall
    contradiction
  · rw [hidle] at hcall
    contradiction
  · rw [hidle] at hcall
    contradiction
  · rw [hw.shown] at hshown
    contradiction
  · rw [hw.electors] at hc
    cases hc
  · rw [hw.electors]
    trivial

/-! ## Two at once -/

/-- Two candidates with the usual timings. -/
def rivals : ContestSetup Bool where
  key := "lease"
  origin := 0
  candidates second := ⟨if second then "b" else "a", ⟨"lease", 15000⟩, {}⟩

theorem rivals_fit : rivals.Fit where
  distinct i j := by
    revert i j
    decide
  named := by decide
  shared _ := rfl
  lasts _ := rfl
  safe _ := rfl

/-- Nobody has begun, and nothing is stored. -/
def emptyContest : Contest Bool where
  time := 0
  store := Store.empty
  electors _ := {}
  flights _ := .idle
  shown _ := .standby
  cancelled _ := false

theorem emptyContest_begins : Begins rivals emptyContest where
  electors _ := rfl
  flights _ := rfl
  shown _ := rfl
  clock := by decide
  stored record h := by contradiction

/-- The first of them is told a millisecond before the deadline that it has
the lease, and the second acquires it a millisecond after. -/
def overlap : List (ContestLabel Bool) :=
  [.quiet, .quiet, .quiet, .written, .quiet, .takes false 14999 ⟨⟨1⟩, 15000, 19999⟩, .quiet,
    .quiet, .quiet, .quiet, .written, .quiet, .takes true 15001 ⟨⟨2⟩, 30001, 20001⟩]

/-- What is stored for the first of them. -/
def firstRecord : Record := .acquired "a" 1 15000 0

theorem rivals_first : ∃ w, Run rivals emptyContest (overlap.take 6) w ∧ w.time = 14999 ∧
    w.cancelled true = false ∧
    w.store = (Store.empty.write (Lock.swapCommand ⟨"lease", 0⟩ none firstRecord)).2 ∧
    w.shown false = .leading ⟨1⟩ ∧ w.electors false = ⟨.leading ⟨⟨1⟩, 15000, 19999⟩, 0⟩ ∧
    w.electors true = {} := by
  obtain ⟨w₁, hrun₁, htime₁, hcancelled₁, hstore₁, helector₁, hflight₁, hothers₁⟩ :=
    @Run.acquires _ _ rivals emptyContest false none firstRecord ⟨some 1⟩ rfl rfl rfl
      (by decide +kernel)
  have hsecond : w₁.electors true = {} := (hothers₁ true (by decide)).2
  have hdue : ∀ j due, (w₁.electors j).phase.due = some due → 14999 ≤ due := by
    intro j due hdue
    cases j with
    | false =>
      rw [helector₁] at hdue
      exact Option.some.inj hdue ▸ by decide
    | true =>
      rw [hsecond] at hdue
      contradiction
  obtain ⟨w₂, hrun₂, htime₂, hcancelled₂, hstore₂, hshown₂, helector₂, hothers₂⟩ :=
    Run.hears rivals_fit helector₁ hflight₁ (by rw [htime₁]; decide) (by decide) hdue (by decide)
  refine ⟨w₂, hrun₁.append hrun₂, htime₂, ?_, hstore₂.trans hstore₁, hshown₂, helector₂, ?_⟩
  · rw [hcancelled₂, hcancelled₁]
    rfl
  · rw [(hothers₂ true (by decide)).2, hsecond]

theorem rivals_overlap : ∃ w, Run rivals emptyContest overlap w ∧ (w.shown false).isLeader = true ∧
    (w.shown true).isLeader = true := by
  obtain ⟨w₁, hrun₁, htime₁, hcancelled₁, hstore₁, hshown₁, hfirst₁, hsecond₁⟩ := rivals_first
  have hdue₁ : ∀ j due, (w₁.electors j).phase.due = some due → 15001 ≤ due := by
    intro j due hdue
    cases j with
    | false =>
      rw [hfirst₁] at hdue
      exact Option.some.inj hdue ▸ by decide
    | true =>
      rw [hsecond₁] at hdue
      contradiction
  let w₂ : Contest Bool := { w₁ with time := 15001 }
  have hpass : Step rivals w₁ .quiet w₂ := .pass (by rw [htime₁]; decide) hdue₁ (by decide)
  have hclock : w₂.clock rivals = 15001 := by
    show UInt64.ofNat (0 + 15001) = 15001
    rfl
  have hstore : w₂.store = (Store.empty.write (Lock.swapCommand ⟨"lease", 0⟩ none firstRecord)).2 :=
    hstore₁
  have hread : w₂.store.read "lease" = .ok ⟨some ⟨"lease", firstRecord.text, 1⟩⟩ := by
    rw [hstore]
    decide +kernel
  have hswap : ((Lock.acquire ⟨"lease", 15000⟩ "b").onRead (w₂.clock rivals)
      (w₂.store.read "lease")).1 = .swap (some 1) (.acquired "b" 2 15000 15001) := by
    have hcurrent : Lock.current ⟨"lease", 15000⟩ (w₂.store.read "lease")
        = .ok (some (firstRecord, 1)) := by
      rw [hread, Lock.current_text _ rfl]
    rw [hclock]
    refine Lock.onRead_acquire_of_free hcurrent fun old version hold => ?_
    obtain ⟨rfl, -⟩ := Prod.mk.inj (Option.some.inj hold)
    decide
  obtain ⟨w₃, hrun₃, htime₃, -, -, helector₃, hflight₃, hothers₃⟩ :=
    @Run.acquires _ _ rivals w₂ true (some 1) (.acquired "b" 2 15000 15001) ⟨some 2⟩ hsecond₁
      hcancelled₁ hswap (by rw [hstore]; decide +kernel)
  have hdue₃ : ∀ j due, (w₃.electors j).phase.due = some due → 15001 ≤ due := by
    intro j due hdue
    cases j with
    | false =>
      rw [(hothers₃ false (by decide)).2] at hdue
      exact hdue₁ false due hdue
    | true =>
      rw [helector₃] at hdue
      exact Option.some.inj hdue ▸ le_pauseEnd _ _
  obtain ⟨w₄, hrun₄, -, -, -, hshown₄, -, hothers₄⟩ :=
    @Run.hears _ _ rivals w₃ rivals_fit true (.acquired "b" 2 15000 15001) ⟨some 2⟩ _ 15001
      helector₃ hflight₃ (Nat.le_of_eq htime₃) (by decide) hdue₃ (by decide)
  refine ⟨w₄, hrun₁.append (.cons hpass (hrun₃.append hrun₄)), ?_, ?_⟩
  · rw [(hothers₄ false (by decide)).1, (hothers₃ false (by decide)).1]
    exact hshown₁ ▸ rfl
  · rw [hshown₄]
    rfl

/-- **Two electors can lead at the same time.** -/
theorem two_electors_lead :
    ∃ w, rivals.Fit ∧ Begins rivals emptyContest ∧ Run rivals emptyContest overlap w ∧
      (w.shown false).isLeader = true ∧ (w.shown true).isLeader = true := by
  obtain ⟨w, hrun, hfirst, hsecond⟩ := rivals_overlap
  exact ⟨w, rivals_fit, emptyContest_begins, hrun, hfirst, hsecond⟩

/-- **Two lead at once only if one of them leads late.** Let any number of
candidates that are fit to contend do so, beginning with a lease that is
absent or holds a record that lasts. Whatever the store does, if two of
them are ever seen to lead at the same time, then the deadline of one of
them has passed, and it has not renewed since it took the lease, which it
did with less than a renewal interval left to the deadline. -/
theorem one_leads_late (hF : F.Fit) (hw : Begins F w) {ls : List (ContestLabel ι)}
    (hrun : Run F w ls w')
    (hversions : Lease.versionAt F.key w.store + ContestLabel.allWrites ls < UInt64.size)
    {j : ι} (hij : i ≠ j) (hi : (w'.shown i).isLeader = true)
    (hj : (w'.shown j).isLeader = true) :
    ∃ k moment period, (k = i ∨ k = j) ∧ (w'.electors k).phase = .leading period ∧
      .takes k moment period ∈ ls ∧ period.deadline < w'.clock F ∧
      period.deadline.toNat
        < F.origin + moment + (F.candidates k).timing.renewInterval.toNat := by
  let taken : ι → Period → Prop := fun k period => ∃ moment, .takes k moment period ∈ ls ∧
    period.tick = moment + (F.candidates k).timing.renewInterval.toNat
  have hk : Kept F taken w' :=
    hrun.keeps hF hw.kept hversions fun _ moment _ hmem htick => ⟨moment, hmem, htick⟩
  obtain ⟨term, deadline, since, hs⟩ | ⟨period, hphase, ⟨moment, hmem, htick⟩, hpast, hshort⟩ :=
    hk.leader hi
  · obtain ⟨term', deadline', since', hs'⟩ |
      ⟨period, hphase, ⟨moment, hmem, htick⟩, hpast, hshort⟩ := hk.leader hj
    · exact absurd (eq_of_secured hF hs hs') hij
    · rw [htick, ← Nat.add_assoc] at hshort
      exact ⟨j, moment, period, .inr rfl, hphase, hmem, hpast, hshort⟩
  · rw [htick, ← Nat.add_assoc] at hshort
    exact ⟨i, moment, period, .inl rfl, hphase, hmem, hpast, hshort⟩

/-- The rivals are a case of it. -/
theorem one_leads_late_overlap :
    ∃ w : Contest Bool, (w.shown false).isLeader = true ∧ (w.shown true).isLeader = true ∧
      ∃ k moment period, (k = false ∨ k = true) ∧ (w.electors k).phase = .leading period ∧
        .takes k moment period ∈ overlap ∧ period.deadline < w.clock rivals ∧
        period.deadline.toNat
          < rivals.origin + moment + (rivals.candidates k).timing.renewInterval.toNat := by
  obtain ⟨w, hrun, hfirst, hsecond⟩ := rivals_overlap
  exact ⟨w, hfirst, hsecond, one_leads_late rivals_fit emptyContest_begins hrun (by decide)
    Bool.false_ne_true hfirst hsecond⟩

end Contest

end Tenure.Election
