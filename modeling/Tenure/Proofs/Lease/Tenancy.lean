import Tenure.Proofs.Lease.Contention

/-!
# A lease is kept up to its deadline

Whoever was told a term and a deadline has the lease until then: the stored
record stays that of this holder and this term, its deadline does not move
back, and nobody acquires the lease. This is what a deadline is for, since
the holder acts on the lease without asking again.

It is not enough that a lock looks before it writes, because the look is
old by the time of the write, and so is the clock reading that it was
judged by. Three things make up for that. The record that a swap replaces
is the one that was judged (`Contention.Step.stores`), so a call of another
identity could replace a record in force only if it had read the clock
after the deadline. The clock does not go back, so no call has read it
later than it is (`Orderly.read`). And the holder itself, which may renew,
has read the clock after it was told the deadline, so a renewal moves it
forward (`Secured.own`).

## What is asked of the callers

Each identity is used by one caller, and terms last longer than no time at
all. Without the first the claim is wrong for the plainest of reasons: a
lock lets an identity take its own lease over. Without the second a record
that is stored at the clock reading 0 would count as given back.
-/

namespace Tenure.Lease

/-! ## Records in force -/

/-- A record in force is free for its holder alone. -/
theorem Record.holder_eq_of_isFreeFor {r : Record} {identity holder : String} {term : Term}
    {now : UInt64} (hheld : r.isHeldBy holder term = true) (hfree : r.isFreeFor identity now)
    (hnow : now ≤ r.deadline) : holder = identity := by
  obtain ⟨hholder, hdeadline, rfl, -⟩ := isHeldBy_iff.1 hheld
  obtain hreleased | hexpired | hself := hfree
  · simp [isReleased, hholder, hdeadline] at hreleased
  · simp only [isExpiredAt, isExpired, hdeadline, decide_false, Bool.false_or,
      decide_eq_true_eq] at hexpired
    exact absurd hexpired (UInt64.not_lt.2 hnow)
  · exact hself

section Replaces

variable {identity : String} {duration : UInt64} {request : Request} {record : Record}

/-- A term is as long as the lock says by which it was acquired. -/
theorem Replaces.duration_eq {old? : Option Record}
    (h : Replaces identity duration request old? record) :
    (request = .acquire ∧ record.duration = duration) ∨
      (request ≠ .acquire ∧ ∃ old, old? = some old ∧ record.duration = old.duration) := by
  cases h with
  | first now => exact .inl ⟨rfl, rfl⟩
  | next now free => exact .inl ⟨rfl, rfl⟩
  | @renewed old term now held alive => exact .inr ⟨by simp, old, rfl, rfl⟩
  | @released old term held => exact .inr ⟨by simp, old, rfl, rfl⟩

/-- So terms last, if those of the locks do and that of the record that was
stored. -/
theorem Replaces.lasting {old? : Option Record} (h : Replaces identity duration request old? record)
    (hduration : 0 < duration) (hold : ∀ old, old? = some old → 0 < old.duration) :
    0 < record.duration := by
  obtain ⟨-, hrecord⟩ | ⟨-, old, hstored, hrecord⟩ := h.duration_eq
  · exact hrecord ▸ hduration
  · exact hrecord ▸ hold old hstored

/-- **What is stored for a term is in force**, from the clock reading that
it was judged by and for as long as it says. -/
theorem Replaces.inForce {old? : Option Record} (h : Replaces identity duration request old? record)
    (hidentity : identity ≠ "") (hlasting : 0 < record.duration) {term : Term}
    (hterm : request = .acquire ∧ term = ⟨record.term⟩ ∨ request = .renew term) :
    record.isHeldBy identity term = true ∧
      record.deadline = Saturating.add record.renewedAt record.duration := by
  cases h with
  | first now =>
    obtain ⟨-, rfl⟩ | hrenew := hterm
    · exact ⟨Record.isHeldBy_iff.2
        ⟨hidentity, Saturating.add_ne_zero now hlasting, rfl, rfl⟩, rfl⟩
    · contradiction
  | next now free =>
    obtain ⟨-, rfl⟩ | hrenew := hterm
    · exact ⟨Record.isHeldBy_iff.2
        ⟨hidentity, Saturating.add_ne_zero now hlasting, rfl, rfl⟩, rfl⟩
    · contradiction
  | renewed now held alive =>
    obtain ⟨hacquire, -⟩ | hrenew := hterm
    · contradiction
    · obtain rfl := Request.renew.inj hrenew
      obtain ⟨hholder, -, hsame, hterm⟩ := Record.isHeldBy_iff.1 held
      exact ⟨Record.isHeldBy_iff.2
        ⟨hholder, Saturating.add_ne_zero now hlasting, hsame, hterm⟩, rfl⟩
  | released held =>
    obtain ⟨hacquire, -⟩ | hrenew := hterm
    · contradiction
    · contradiction

/-- **What may take the place of a record in force.** Another identity
takes it over after its deadline, and its holder acquires it anew, renews
it or gives it back. -/
theorem Replaces.of_isHeldBy {old : Record} {holder : String} {term : Term}
    (h : Replaces identity duration request (some old) record)
    (hheld : old.isHeldBy holder term = true) :
    (identity ≠ holder ∧ request = .acquire ∧ old.deadline < record.renewedAt) ∨
    (identity = holder ∧ (request = .acquire ∨ request = .release term ∨
      request = .renew term ∧ record = old.renewed record.renewedAt)) := by
  have hsame : ∀ {term' : Term}, old.isHeldBy identity term' = true →
      identity = holder ∧ term' = term := by
    intro term' hheld'
    obtain ⟨-, -, rfl, hterm⟩ := Record.isHeldBy_iff.1 hheld
    obtain ⟨-, -, rfl, hterm'⟩ := Record.isHeldBy_iff.1 hheld'
    exact ⟨rfl, congrArg Term.mk (hterm'.symm.trans hterm)⟩
  cases h with
  | next now free =>
    by_cases hne : identity = holder
    · exact .inr ⟨hne, .inl rfl⟩
    · refine .inl ⟨hne, rfl, UInt64.not_le.1 fun hnow => ?_⟩
      exact hne (Record.holder_eq_of_isFreeFor hheld free hnow).symm
  | renewed now held alive =>
    obtain ⟨hidentity, rfl⟩ := hsame held
    exact .inr ⟨hidentity, .inr (.inr ⟨rfl, rfl⟩)⟩
  | released held =>
    obtain ⟨hidentity, rfl⟩ := hsame held
    exact .inr ⟨hidentity, .inr (.inl rfl)⟩

end Replaces

/-! ## Calls and their clock readings -/

/-- The clock reading that a call judges the lease by and is about to
write. A release writes none once it has read the record. -/
def Call.moment? (c : Call) : Option UInt64 :=
  match c.stage, c.request with
  | .reading now, _ => some now
  | .swapping _ _, .release _ => none
  | .swapping _ record, _ => some record.renewedAt

/-- What a call reads of the record leaves its clock reading as it was. -/
theorem Call.moment?_of_stamps {c : Call} {now moment : UInt64} {expected : Option UInt64}
    {record : Record} (hstage : c.stage = .swapping expected record)
    (hstamps : c.request.stamps record now) (h : c.moment? = some moment) : moment = now := by
  obtain ⟨identity, duration, request, stage⟩ := c
  subst hstage
  cases request with
  | acquire => exact (Option.some.inj h).symm.trans hstamps
  | renew term => exact (Option.some.inj h).symm.trans hstamps
  | release term => contradiction

/-- A call that stores anything but a release stamps it with its clock
reading. -/
theorem Call.moment?_of_swapping {c : Call} {expected : Option UInt64} {record : Record}
    (hstage : c.stage = .swapping expected record)
    (hrequest : c.request = .acquire ∨ ∃ term, c.request = .renew term) :
    c.moment? = some record.renewedAt := by
  obtain ⟨identity, duration, request, stage⟩ := c
  subst hstage
  obtain rfl | ⟨term, rfl⟩ := hrequest
  · rfl
  · rfl

/-- A caller puts its own term at stake: it begins to give it back, or to
acquire another. -/
def Label.risks {ι : Type} (i : ι) (term : Term) : Label ι → Prop
  | .begins j _ request => j = i ∧ (request = .acquire ∨ request = .release term)
  | _ => False

namespace Contention

variable {ι : Type} [DecidableEq ι]

/-- The clock does not go back, each caller has its own identity, and no
term is over as soon as it begins. -/
def orderlyRules (name : ι → String) : Rules ι where
  clock now later := now ≤ later
  caller i identity duration := identity = name i ∧ 0 < duration

/-- **What these rules keep up**: calls are made under their caller's
identity and have read the clock before now, and what is stored lasts. -/
structure Orderly (key : String) (name : ι → String) (w : Contention ι) : Prop where
  named : ∀ i c, w.calls i = some c → c.identity = name i ∧ 0 < c.duration
  read : ∀ i c now, w.calls i = some c → c.moment? = some now → now ≤ w.clock
  lasting : ∀ record, recordAt key w.store = some record → 0 < record.duration

variable {key : String} {name : ι → String} {w w' : Contention ι} {l : Label ι}
  {ls : List (Label ι)}

theorem Step.clock_le (h : Step key (orderlyRules name) w l w') : w.clock ≤ w'.clock := by
  cases h with
  | clock h => exact h
  | fault unavailable failingWrites => exact UInt64.le_refl _
  | elsewhere h => exact UInt64.le_refl _
  | call request hidle hcaller => exact UInt64.le_refl _
  | read hcall hstage hanswer hswap => exact UInt64.le_refl _
  | readEnds hcall hstage hanswer hdone => exact UInt64.le_refl _
  | swap hcall hstage hanswer => exact UInt64.le_refl _
  | swapFails e hcall hstage => exact UInt64.le_refl _
  | abandon hcall => exact UInt64.le_refl _

theorem Step.orderly (h : Step key (orderlyRules name) w l w') (hsound : Sound key w)
    (hw : Orderly key name w) : Orderly key name w' := by
  refine ⟨fun j c hcall => ?_, fun j c moment hcall hmoment => ?_, fun record hrecord => ?_⟩
  · obtain hcall | ⟨identity, duration, request, -, hcaller, rfl⟩ |
      ⟨now, expected, record, hcall, -⟩ := h.origin hcall
    · exact hw.named j c hcall
    · exact hcaller
    · exact hw.named j { c with stage := .reading now } hcall
  · obtain hcall | ⟨identity, duration, request, -, -, rfl⟩ |
      ⟨now, expected, record, hcall, hstage, hstamps, -⟩ := h.origin hcall
    · exact UInt64.le_trans (hw.read j c moment hcall hmoment) h.clock_le
    · exact Option.some.inj hmoment ▸ UInt64.le_refl _
    · obtain rfl := Call.moment?_of_stamps hstage hstamps hmoment
      exact UInt64.le_trans (hw.read j _ moment hcall rfl) h.clock_le
  · cases hl : l.stored? with
    | none =>
      rw [h.recordAt hl] at hrecord
      exact hw.lasting record hrecord
    | some p =>
      obtain ⟨i, c, answer, -, -, hstores⟩ := h.stores hsound hl
      rw [hstores.recordAt] at hrecord
      obtain rfl := Option.some.inj hrecord
      exact hstores.replaces.lasting (hw.named i c hstores.call).2 hw.lasting

/-! ## A term that was granted -/

/-- **A term is secured up to a deadline** for a caller that last read the
clock at `since` or later: the stored record is its own, and whatever it
still has under way can only renew it, for this duration again. -/
structure Secured (key : String) (name : ι → String) (w : Contention ι) (i : ι) (term : Term)
    (deadline since duration : UInt64) : Prop where
  stands : ∃ record, recordAt key w.store = some record ∧
    record.isHeldBy (name i) term = true ∧ record.duration = duration ∧
    deadline ≤ record.deadline
  ahead : deadline ≤ Saturating.add since duration
  own : ∀ c, w.calls i = some c → c.request ≠ .acquire ∧ c.request ≠ .release term ∧
    ∀ now, c.moment? = some now → since ≤ now
  past : since ≤ w.clock

variable {i : ι} {rules : Rules ι} {term : Term} {deadline since duration : UInt64}

/-- What the caller has under way after a step can still only renew. -/
theorem Step.own (h : Step key (orderlyRules name) w l w')
    (hs : Secured key name w i term deadline since duration)
    (hl : ¬ l.risks i term) {c : Call} (hcall : w'.calls i = some c) :
    c.request ≠ .acquire ∧ c.request ≠ .release term ∧
      ∀ now, c.moment? = some now → since ≤ now := by
  obtain hcall | ⟨identity, duration, request, rfl, -, rfl⟩ |
    ⟨now, expected, record, hcall, hstage, hstamps, -⟩ := h.origin hcall
  · exact hs.own c hcall
  · refine ⟨fun hr => hl ⟨rfl, .inl hr⟩, fun hr => hl ⟨rfl, .inr hr⟩, fun now hnow => ?_⟩
    exact Option.some.inj hnow ▸ UInt64.le_trans hs.past h.clock_le
  · obtain ⟨hacquire, hrelease, hsince⟩ := hs.own _ hcall
    refine ⟨hacquire, hrelease, fun moment hmoment => ?_⟩
    obtain rfl := Call.moment?_of_stamps hstage hstamps hmoment
    exact hsince moment rfl

/-- **Only its holder writes over a secured term**, up to its deadline, and
only to renew it. -/
theorem Step.renews_of_secured (h : Step key (orderlyRules name) w l w')
    (halone : ∀ j, name j = name i → j = i) (hsound : Sound key w) (hw : Orderly key name w)
    (hs : Secured key name w i term deadline since duration) (htime : w.clock ≤ deadline)
    {request : Request} {record : Record} (hstored : l.stored? = some (request, record)) :
    ∃ c old, Stores key w i c record w' ∧ c.request = request ∧ request = .renew term ∧
      Lease.recordAt key w.store = some old ∧ record = old.renewed record.renewedAt := by
  obtain ⟨old, hold, hheld, hduration, hdeadline⟩ := hs.stands
  obtain ⟨j, c, answer, -, rfl, hstores⟩ := h.stores hsound hstored
  obtain ⟨expected, hstage⟩ := hstores.decided
  have hreplaces := hstores.replaces
  rw [hold, (hw.named j c hstores.call).1] at hreplaces
  obtain ⟨-, hacquire, hlate⟩ | ⟨hsame, hrequest⟩ := hreplaces.of_isHeldBy hheld
  · -- Another identity would have read the clock after the deadline.
    have hread := hw.read j c _ hstores.call (Call.moment?_of_swapping hstage (.inl hacquire))
    have hlate := UInt64.lt_of_lt_of_le hlate
      (UInt64.le_trans hread (UInt64.le_trans htime hdeadline))
    exact absurd hlate (UInt64.lt_irrefl _)
  · obtain rfl := halone j hsame
    obtain ⟨hacquire, hrelease, -⟩ := hs.own c hstores.call
    obtain hr | hr | ⟨hrenew, hrecord⟩ := hrequest
    · contradiction
    · contradiction
    · exact ⟨c, old, hstores, rfl, hrenew, hold, hrecord⟩

/-- **A secured term stays secured** up to its deadline, and nobody
acquires the lease meanwhile. -/
theorem Step.secured (h : Step key (orderlyRules name) w l w')
    (halone : ∀ j, name j = name i → j = i) (hsound : Sound key w) (hw : Orderly key name w)
    (hs : Secured key name w i term deadline since duration) (hl : ¬ l.risks i term)
    (htime : w.clock ≤ deadline) :
    Secured key name w' i term deadline since duration ∧
      ∀ record, l.stored? ≠ some (.acquire, record) := by
  have hown : ∀ c, w'.calls i = some c → _ := fun c hcall => h.own hs hl hcall
  have hpast := UInt64.le_trans hs.past h.clock_le
  obtain ⟨old, hold, hheld, hduration, hdeadline⟩ := hs.stands
  cases hstored : l.stored? with
  | none =>
    refine ⟨⟨⟨old, ?_, hheld, hduration, hdeadline⟩, hs.ahead, hown, hpast⟩, fun record => by simp⟩
    rw [h.recordAt hstored, hold]
  | some p =>
    obtain ⟨request, record⟩ := p
    obtain ⟨c, old', hstores, rfl, hrenew, hold', hrecord⟩ :=
      h.renews_of_secured halone hsound hw hs htime hstored
    obtain rfl := Option.some.inj (hold.symm.trans hold')
    obtain ⟨expected, hstage⟩ := hstores.decided
    obtain ⟨-, -, hsince⟩ := hs.own c hstores.call
    have hmoment := hsince _ (Call.moment?_of_swapping hstage (.inr ⟨term, hrenew⟩))
    have hlasting := hw.lasting old hold
    obtain ⟨hholder, -, hidentity, hterm⟩ := Record.isHeldBy_iff.1 hheld
    have hlater := UInt64.le_trans hs.ahead (Saturating.add_le_add hmoment duration)
    refine ⟨⟨⟨record, hstores.recordAt, ?_, ?_, ?_⟩, hs.ahead, hown, hpast⟩, fun r hr => ?_⟩
    · rw [hrecord]
      exact Record.isHeldBy_iff.2
        ⟨hholder, Saturating.add_ne_zero _ hlasting, hidentity, hterm⟩
    · rw [hrecord]
      exact hduration
    · rw [hrecord]
      show deadline ≤ Saturating.add record.renewedAt old.duration
      rw [hduration]
      exact hlater
    · have hacquire := (Prod.mk.inj (Option.some.inj hr)).1
      rw [hrenew] at hacquire
      contradiction

/-- Others put nothing at stake. -/
theorem Step.not_risks (h : Step key rules w l w') (hcall : w'.calls i = w.calls i)
    (term : Term) : ¬ l.risks i term := by
  intro hrisks
  cases h with
  | @call j identity duration request hidle hcaller =>
    obtain ⟨rfl, -⟩ := hrisks
    rw [setCall_calls_self, hidle] at hcall
    contradiction
  | _ => exact hrisks

/-- What others do leaves the entry of a secured term as it is, up to its
deadline. -/
theorem Step.find?_of_secured (h : Step key (orderlyRules name) w l w')
    (halone : ∀ j, name j = name i → j = i) (hsound : Sound key w) (hw : Orderly key name w)
    (hs : Secured key name w i term deadline since duration) (htime : w.clock ≤ deadline)
    (hcall : w'.calls i = w.calls i) : w'.store.find? key = w.store.find? key := by
  obtain ⟨-, hfind⟩ | ⟨j, c, expected, record, answer, -, -, rfl, -⟩ := h.entry
  · exact hfind
  · obtain ⟨c', old, hstores, -⟩ :=
      h.renews_of_secured halone hsound hw hs htime (rfl : Label.stored? _ = some _)
    rw [hstores.ended, hstores.call] at hcall
    contradiction

/-- **A granted term is secured** up to the deadline that was told. -/
theorem Step.secured_of_answer {identity : String} {request : Request} {outcome : Outcome}
    {stored? : Option Record}
    (h : Step key (orderlyRules name) w (.ends i identity request (some (.ok outcome)) stored?) w')
    (hnamed : name i ≠ "") (hsound : Sound key w) (hw : Orderly key name w)
    (hgrant : outcome.grant? request = some (term, deadline)) :
    ∃ c record, c.request = request ∧ deadline = record.deadline ∧ Stores key w i c record w' ∧
      record.deadline = Saturating.add record.renewedAt record.duration ∧
      Secured key name w' i term deadline record.renewedAt record.duration := by
  obtain ⟨record, rfl, rfl, hterm⟩ := h.granted hgrant
  obtain ⟨j, c, answer, hl, -, hstores⟩ := h.stores hsound (rfl : Label.stored? _ = some _)
  obtain ⟨rfl, rfl, rfl, -, -⟩ := Label.ends.inj hl
  obtain ⟨hidentity, hduration⟩ := hw.named i c hstores.call
  have hreplaces := hstores.replaces
  have hlasting := hreplaces.lasting hduration hw.lasting
  rw [hidentity] at hreplaces
  obtain ⟨hheld, hdeadline⟩ := hreplaces.inForce hnamed hlasting hterm
  obtain ⟨expected, hstage⟩ := hstores.decided
  refine ⟨c, record, rfl, rfl, hstores, hdeadline,
    ⟨record, hstores.recordAt, hheld, rfl, UInt64.le_refl _⟩, ?_, ?_, ?_⟩
  · exact hdeadline ▸ UInt64.le_refl _
  · intro c' hcall
    rw [hstores.ended] at hcall
    contradiction
  · rw [hstores.clock]
    refine hw.read i c _ hstores.call (Call.moment?_of_swapping hstage ?_)
    exact hterm.imp And.left fun hrenew => ⟨term, hrenew⟩

/-- So it is where every caller has a name. -/
theorem Step.secured_of_grant {identity : String} {request : Request} {outcome : Outcome}
    {stored? : Option Record}
    (h : Step key (orderlyRules name) w (.ends i identity request (some (.ok outcome)) stored?) w')
    (hnamed : ∀ i, name i ≠ "") (hsound : Sound key w) (hw : Orderly key name w)
    (hgrant : outcome.grant? request = some (term, deadline)) :
    ∃ c record, c.request = request ∧ deadline = record.deadline ∧ Stores key w i c record w' ∧
      record.deadline = Saturating.add record.renewedAt record.duration ∧
      Secured key name w' i term deadline record.renewedAt record.duration :=
  h.secured_of_answer (hnamed i) hsound hw hgrant

/-! ## Runs -/

theorem Run.clock_le (h : Run key (orderlyRules name) w ls w') : w.clock ≤ w'.clock := by
  induction h with
  | nil w => exact UInt64.le_refl _
  | cons hstep hrun ih => exact UInt64.le_trans hstep.clock_le ih

theorem Run.orderly (h : Run key (orderlyRules name) w ls w') (hsound : Sound key w)
    (hw : Orderly key name w) (hroom : versionAt key w.store + (stored ls).length < UInt64.size) :
    Orderly key name w' := by
  induction h with
  | nil w => exact hw
  | @cons w w₁ w₂ l ls hstep hrun ih =>
    rw [stored_cons, List.length_append] at hroom
    have hfirst : versionAt key w.store + l.stored?.toList.length < UInt64.size := by omega
    have hnext := hstep.versionAt hfirst
    exact ih (hstep.sound hsound hfirst) (hstep.orderly hsound hw) (by omega)

/-- A secured term stays secured throughout a run that ends by the
deadline. -/
theorem Run.secured_of_alone (h : Run key (orderlyRules name) w ls w')
    (halone : ∀ j, name j = name i → j = i) (hsound : Sound key w) (hw : Orderly key name w)
    (hroom : versionAt key w.store + (stored ls).length < UInt64.size)
    (hs : Secured key name w i term deadline since duration) (hls : ∀ l ∈ ls, ¬ l.risks i term)
    (htime : w'.clock ≤ deadline) :
    Secured key name w' i term deadline since duration ∧
      ∀ record, (.acquire, record) ∉ stored ls := by
  induction h with
  | nil w => exact ⟨hs, fun record => by simp [stored]⟩
  | @cons w w₁ w₂ l ls hstep hrun ih =>
    rw [stored_cons] at hroom ⊢
    rw [List.length_append] at hroom
    have hfirst : versionAt key w.store + l.stored?.toList.length < UInt64.size := by omega
    have hnext := hstep.versionAt hfirst
    have hbefore := UInt64.le_trans (UInt64.le_trans hstep.clock_le hrun.clock_le) htime
    obtain ⟨hs₁, hacquires⟩ :=
      hstep.secured halone hsound hw hs (hls l List.mem_cons_self) hbefore
    obtain ⟨hs₂, hlater⟩ := ih (hstep.sound hsound hfirst) (hstep.orderly hsound hw) (by omega) hs₁
      (fun m hm => hls m (List.mem_cons_of_mem l hm)) htime
    refine ⟨hs₂, fun record hmem => ?_⟩
    obtain hmem | hmem := List.mem_append.1 hmem
    · exact hacquires record (Option.mem_toList.1 hmem)
    · exact hlater record hmem

/-- And so it does where no two callers have one name. -/
theorem Run.secured (h : Run key (orderlyRules name) w ls w') (hname : Function.Injective name)
    (hsound : Sound key w) (hw : Orderly key name w)
    (hroom : versionAt key w.store + (stored ls).length < UInt64.size)
    (hs : Secured key name w i term deadline since duration) (hls : ∀ l ∈ ls, ¬ l.risks i term)
    (htime : w'.clock ≤ deadline) :
    Secured key name w' i term deadline since duration ∧
      ∀ record, (.acquire, record) ∉ stored ls :=
  h.secured_of_alone (fun _ hj => hname hj) hsound hw hroom hs hls htime

/-- A caller can give up what it has under way. -/
theorem Run.abandons (w : Contention ι) (i : ι) :
    ∃ ls, Run key (orderlyRules name) w ls (w.setCall i none) ∧ stored ls = [] ∧
      ∀ l ∈ ls, ∀ j term, ¬ l.risks j term := by
  cases hcall : w.calls i with
  | none =>
    refine ⟨[], ?_, rfl, fun l hl => by simp at hl⟩
    rw [← hcall, setCall_self]
    exact .nil w
  | some c =>
    refine ⟨_, .cons (.abandon hcall) (.nil _), rfl, fun l hl j term => ?_⟩
    obtain rfl := List.mem_singleton.1 hl
    exact id

/-- And then ask for something else. -/
theorem Run.begins (w : Contention ι) {i : ι} {duration : UInt64} (hduration : 0 < duration)
    (request : Request) :
    ∃ ls, Run key (orderlyRules name) w ls
        (w.setCall i (some ⟨name i, duration, request, .reading w.clock⟩)) ∧ stored ls = [] ∧
      ∀ l ∈ ls, ∀ j term, l.risks j term →
        j = i ∧ (request = .acquire ∨ request = .release term) := by
  obtain ⟨ls, hrun, hstored, hrisks⟩ := @Run.abandons _ _ key name w i
  have hcall : Step key (orderlyRules name) (w.setCall i none) (.begins i (name i) request)
      ((w.setCall i none).setCall i (some ⟨name i, duration, request, .reading w.clock⟩)) :=
    .call request (setCall_calls_self _ _ _) ⟨rfl, hduration⟩
  rw [setCall_setCall] at hcall
  refine ⟨_, hrun.append (.cons hcall (.nil _)), ?_, fun l hl j term hl' => ?_⟩
  · rw [stored_append, hstored]
    rfl
  · obtain hl | hl := List.mem_append.1 hl
    · exact absurd hl' (hrisks l hl j term)
    · obtain rfl := List.mem_singleton.1 hl
      exact ⟨hl'.1.symm, hl'.2⟩

/-- **A granted lease stands up to its deadline.** Let callers with
identities of their own work on a lease that is absent or holds a record of
this layout that lasts, while the clock does not go back. Once a caller was
told a term and a deadline, then as long as the clock has not passed the
deadline, and the caller has begun neither to give the term back nor to
acquire another, the stored record is the caller's own, of this term and
with no earlier deadline, and nobody has acquired the lease meanwhile. -/
theorem grant_stands (hname : Function.Injective name) (hnamed : ∀ i, name i ≠ "")
    (hidle : ∀ i, w.calls i = none)
    (hstored : ∀ record, recordAt key w.store = some record →
      record.schema = schemaVersion ∧ 0 < record.duration)
    {earlier later : List (Label ι)} {identity : String} {request : Request} {outcome : Outcome}
    {stored? : Option Record}
    (hrun : Run key (orderlyRules name) w
      (earlier ++ .ends i identity request (some (.ok outcome)) stored? :: later) w')
    (hversions : versionAt key w.store +
      (stored (earlier ++ .ends i identity request (some (.ok outcome)) stored? :: later)).length
        < UInt64.size)
    (hgrant : outcome.grant? request = some (term, deadline))
    (hlater : ∀ l ∈ later, ¬ l.risks i term) (htime : w'.clock ≤ deadline) :
    (∃ record, recordAt key w'.store = some record ∧ record.isHeldBy (name i) term = true ∧
      deadline ≤ record.deadline) ∧
    ∀ record, (.acquire, record) ∉ stored later := by
  obtain ⟨u, hearlier, hrest⟩ := hrun.split
  rw [stored_append, List.length_append, stored_cons, List.length_append] at hversions
  -- The invariants hold when the term is granted, ...
  have hsound₀ : Sound key w :=
    ⟨fun j c hcall => by simp [hidle j] at hcall, fun record h => (hstored record h).1⟩
  have horderly₀ : Orderly key name w :=
    ⟨fun j c hcall => by simp [hidle j] at hcall, fun j c now hcall => by simp [hidle j] at hcall,
      fun record h => (hstored record h).2⟩
  obtain ⟨hsound, hcount⟩ := hearlier.sound hsound₀ (by omega)
  have horderly := hearlier.orderly hsound₀ horderly₀ (by omega)
  -- ... and what follows keeps the term secured.
  cases hrest with
  | @cons _ u₁ _ _ _ hgranted hrest =>
    have hfirst := hgranted.versionAt (by omega)
    obtain ⟨c, told, -, -, -, -, hs⟩ := hgranted.secured_of_grant hnamed hsound horderly hgrant
    obtain ⟨⟨⟨record, hrecord, hheld, -, hdeadline⟩, -, -, -⟩, hacquires⟩ :=
      hrest.secured hname (hgranted.sound hsound (by omega)) (hgranted.orderly hsound horderly)
        (by omega) hs hlater htime
    exact ⟨⟨record, hrecord, hheld, hdeadline⟩, hacquires⟩

/-- Among these runs is the one in which a caller acquires the absent lease
for ten milliseconds, another is refused it after five, and the others
pass. -/
theorem grant_stands_contended :
    let name : Bool → String := fun i => if i then "b" else "a"
    ∃ (ls : List (Label Bool)) (w' : Contention Bool),
      Run "lease" (orderlyRules name) ⟨0, .empty, fun _ => none⟩ ls w' ∧ w'.clock = 10 ∧
      .ends true "b" .acquire (some (.ok (.acquired (.heldByOther "a" 10)))) none ∈ ls ∧
      ∃ record, recordAt "lease" w'.store = some record ∧ record.isHeldBy "a" ⟨1⟩ = true ∧
        10 ≤ record.deadline := by
  intro name
  let w : Contention Bool := ⟨0, .empty, fun _ => none⟩
  let taken : Record := .acquired "a" 1 10 0
  have habsent : Lock.current ⟨"lease", 10⟩ (w.store.read "lease") = .ok none := rfl
  have hwritten : (w.carryOut "lease" none taken).1 = .ok ⟨some 1⟩ := by decide +kernel
  have hcaller : ∀ i, (orderlyRules name).caller i (name i) 10 := fun i => ⟨rfl, by decide⟩
  let w₁ : Contention Bool := { w with store := (w.carryOut "lease" none taken).2 }
  let w₂ : Contention Bool := { w₁ with clock := 5 }
  let w₃ : Contention Bool := { w₂ with clock := 10 }
  have hacquired : Run "lease" (orderlyRules name) w
      [.begins false "a" .acquire, .quiet,
        .ends false "a" .acquire (some (.ok (.acquired (.acquired ⟨1⟩ 10)))) (some taken)] w₁ :=
    Run.acquires rfl (hcaller false) habsent (fun _ _ h => by contradiction) rfl hwritten
  have hcurrent : Lock.current ⟨"lease", 10⟩ (w₂.store.read "lease") = .ok (some (taken, 1)) :=
    current_carryOut hwritten rfl 10
  have hother : ¬ taken.isFreeFor "b" 5 := by decide
  have hrefused : Run "lease" (orderlyRules name) w₂
      [.begins true "b" .acquire,
        .ends true "b" .acquire (some (.ok (.acquired (.heldByOther "a" 10)))) none] w₂ :=
    Run.heldByOther rfl (hcaller true) hcurrent hother
  let later : List (Label Bool) := [.quiet, .begins true "b" .acquire,
    .ends true "b" .acquire (some (.ok (.acquired (.heldByOther "a" 10)))) none, .quiet]
  have hlater : Run "lease" (orderlyRules name) w₁ later w₃ :=
    .cons (.clock (by decide : (0 : UInt64) ≤ 5))
      (hrefused.append (.cons (.clock (by decide : (5 : UInt64) ≤ 10)) (.nil w₃)))
  have hrun : Run "lease" (orderlyRules name) w
      ([.begins false "a" .acquire, .quiet] ++
        .ends false "a" .acquire (some (.ok (.acquired (.acquired ⟨1⟩ 10)))) (some taken) :: later)
      w₃ := hacquired.append hlater
  have hname : Function.Injective name := by
    show ∀ i j : Bool, (if i then "b" else "a") = (if j then "b" else "a") → i = j
    decide
  have hnamed : ∀ i, name i ≠ "" := by
    show ∀ i : Bool, (if i then "b" else "a") ≠ ""
    decide
  have hstands := grant_stands hname hnamed (fun _ => rfl)
    (fun record h => by simp [w, recordAt] at h) hrun (by decide) rfl
    (by simp [later, Label.risks]) (UInt64.le_refl _)
  exact ⟨_, w₃, hrun, rfl, by simp [later], hstands.1⟩

end Contention

end Tenure.Lease
