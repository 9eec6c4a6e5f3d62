import Mathlib.Order.Bounds.Basic
import Tenure.Simulation.BarrierTrial

/-!
# How a wait for the caches ends

A wait looks at the caches only when something happens, and it may begin when
much has happened already. What it comes to can still be said without it: by
the marks that the feeds have set by each moment (`Timeline.sourcesAt`). The
first moment at which none is missing, the first at which it is cancelled and
the moment at which time is up are three points of the timeline, and the
earliest of them is how the wait ends, and when (`Timeline.Ends`). Nothing else
about the timeline matters, so waits that follow each other agree, and a wait
is not touched by the cancellation of another that has another token.

Where two of these points are one, what comes first is nobody's promise
(`Timeline.Untied`).
-/

namespace Tenure

/-- A feed that has not ended marks its cache. -/
theorem CacheSource.markSynced_eq (c : CacheSource) :
    c.markSynced.1.name = c.name ∧ c.markSynced.1.synced = (c.synced || !c.ended) ∧
      c.markSynced.1.ended = c.ended := by
  unfold markSynced
  cases hended : c.ended <;> cases hsynced : c.synced <;> exact ⟨rfl, by simp [*], by simp [*]⟩

namespace Barrier

/-! ## Marks -/

section Marks

variable {sources : List CacheSource} {events : List Event} {i : Nat} {c : CacheSource}

/-- **A feed marks its cache** before it ends. -/
def Marks (i : Nat) (events : List Event) : Prop :=
  ∃ before after, events = before ++ .mark i :: after ∧ .finish i ∉ before

theorem not_marks_nil : ¬Marks i [] := by
  rintro ⟨before, after, h, -⟩
  exact List.append_ne_nil_of_right_ne_nil before (List.cons_ne_nil _ after) h.symm

theorem marks_cons {event : Event} :
    Marks i (event :: events) ↔ event = .mark i ∨ event ≠ .finish i ∧ Marks i events := by
  constructor
  · rintro ⟨before, after, h, hopen⟩
    cases before with
    | nil => exact .inl (List.cons.inj h).1
    | cons first before =>
      obtain ⟨rfl, rfl⟩ := List.cons.inj h
      rw [List.mem_cons, not_or] at hopen
      exact .inr ⟨Ne.symm hopen.1, before, after, rfl, hopen.2⟩
  · rintro (rfl | ⟨hevent, before, after, rfl, hopen⟩)
    · exact ⟨[], events, rfl, List.not_mem_nil⟩
    · exact ⟨event :: before, after, rfl, List.not_mem_cons_of_ne_of_not_mem hevent.symm hopen⟩

/-- What an event does to one of the caches. -/
theorem getElem?_applyEvent (hc : sources[i]? = some c) (event : Event) :
    ∃ c', (applyEvent sources event).1[i]? = some c' ∧ c'.name = c.name ∧
      (c'.synced = true ↔ c.synced = true ∨ c.ended = false ∧ event = .mark i) ∧
      (c'.ended = true ↔ c.ended = true ∨ event = .finish i) := by
  obtain ⟨hi, -⟩ := List.getElem?_eq_some_iff.1 hc
  -- an event of another cache leaves this one alone
  have other : ∀ {j : Nat} (d : CacheSource), j ≠ i → (sources.set j d)[i]? = some c :=
    fun d hj => (List.getElem?_set_ne hj).trans hc
  cases event with
  | cancel token => exact ⟨c, hc, rfl, by simp, by simp⟩
  | mark j =>
    dsimp only [applyEvent]
    by_cases hj : j = i
    · subst hj
      rw [hc]
      obtain ⟨hname, hsynced, hended⟩ := c.markSynced_eq
      refine ⟨c.markSynced.1, List.getElem?_set_self hi, hname, ?_, ?_⟩
      · simp [hsynced]
      · simp [hended]
    · refine ⟨c, ?_, rfl, by simp [hj], by simp⟩
      split
      · exact other _ hj
      · exact hc
  | finish j =>
    dsimp only [applyEvent]
    by_cases hj : j = i
    · subst hj
      rw [hc]
      exact ⟨c.endFeed, List.getElem?_set_self hi, rfl, by simp [CacheSource.endFeed],
        by simp [CacheSource.endFeed]⟩
    · refine ⟨c, ?_, rfl, by simp, by simp [hj]⟩
      split
      · exact other _ hj
      · exact hc

/-- **What events do to one of the caches**: it is marked if it was, or if its
feed marks it before it ends. -/
theorem getElem?_applyAll (hc : sources[i]? = some c) (events : List Event) :
    ∃ c', (applyAll sources events).1[i]? = some c' ∧ c'.name = c.name ∧
      (c'.synced = true ↔ c.synced = true ∨ c.ended = false ∧ Marks i events) ∧
      (c'.ended = true ↔ c.ended = true ∨ .finish i ∈ events) := by
  induction events generalizing sources c with
  | nil => exact ⟨c, hc, rfl, by simp [not_marks_nil], by simp⟩
  | cons event events ih =>
    obtain ⟨c₁, hc₁, hname₁, hsynced₁, hended₁⟩ := getElem?_applyEvent hc event
    obtain ⟨c', hc', hname, hsynced, hended⟩ := ih hc₁
    refine ⟨c', hc', hname.trans hname₁, ?_, ?_⟩
    · have hopen : c₁.ended = false ↔ c.ended = false ∧ event ≠ .finish i := by
        rw [← Bool.not_eq_true, hended₁, not_or, Bool.not_eq_true]
      rw [hsynced, hsynced₁, hopen, marks_cons, and_or_left, and_assoc, or_assoc]
    · rw [hended, hended₁, List.mem_cons, or_assoc, @eq_comm _ event]

theorem length_applyEvent (sources : List CacheSource) (event : Event) :
    (applyEvent sources event).1.length = sources.length := by
  cases event with
  | cancel token => rfl
  | mark i =>
    dsimp only [applyEvent]
    split
    · exact List.length_set
    · rfl
  | finish i =>
    dsimp only [applyEvent]
    split
    · exact List.length_set
    · rfl

theorem length_applyAll (sources : List CacheSource) (events : List Event) :
    (applyAll sources events).1.length = sources.length := by
  induction events generalizing sources with
  | nil => rfl
  | cons event events ih => exact (ih _).trans (length_applyEvent sources event)

theorem applyAll_append (sources : List CacheSource) (as bs : List Event) :
    (applyAll sources (as ++ bs)).1 = (applyAll (applyAll sources as).1 bs).1 := by
  induction as generalizing sources with
  | nil => rfl
  | cons event as ih => exact ih _

/-- What is complete stays complete. -/
theorem synced_applyAll (h : ∀ c ∈ sources, c.synced = true) (events : List Event) :
    ∀ c ∈ (applyAll sources events).1, c.synced = true := by
  intro c' hmem
  obtain ⟨i, hi, hget⟩ := List.mem_iff_getElem.1 hmem
  have hlt : i < sources.length := length_applyAll sources events ▸ hi
  obtain ⟨d, hd, -, hsynced, -⟩ := getElem?_applyAll (List.getElem?_eq_getElem hlt) events
  obtain rfl : c' = d := Option.some.inj
    ((List.getElem?_eq_some_iff.2 ⟨hi, hget⟩).symm.trans hd)
  exact hsynced.2 (.inl (h _ (List.getElem_mem hlt)))

/-- None is missing iff all are marked. -/
theorem unsynced_eq_nil_iff : unsynced sources = [] ↔ ∀ c ∈ sources, c.synced = true := by
  simp [unsynced]

/-- Whether an event means anything to a wait under a token. -/
def Event.Concerns (token : Nat) : Event → Prop
  | .cancel other => other = token
  | _ => True

/-- The cancellation of other tokens changes nothing about the caches. -/
theorem applyAll_of_not_concerns {token : Nat}
    (h : ∀ event ∈ events, ¬event.Concerns token) : (applyAll sources events).1 = sources := by
  induction events with
  | nil => rfl
  | cons event events ih =>
    have hrest := ih fun other hother => h other (List.mem_cons_of_mem event hother)
    have hfirst := h event List.mem_cons_self
    cases event with
    | cancel other => exact hrest
    | mark i => exact absurd trivial hfirst
    | finish i => exact absurd trivial hfirst

/-- A token is among those that events cancel iff one of them cancels it. -/
theorem mem_cancels?_iff {token : Nat} :
    token ∈ events.filterMap Event.cancels? ↔ .cancel token ∈ events := by
  rw [List.mem_filterMap]
  constructor
  · rintro ⟨event, hmem, hcancels⟩
    cases event with
    | cancel other => exact Option.some.inj hcancels ▸ hmem
    | mark i => contradiction
    | finish i => contradiction
  · exact fun hmem => ⟨.cancel token, hmem, rfl⟩

end Marks

/-! ## What has happened by a moment -/

namespace Timeline

/-- What has happened by a moment, that moment included. -/
def happened (c : Timeline) (t : Nat) : List Event := (c.moments.filter (·.1 ≤ t)).flatMap (·.2)

/-- The caches at a moment. -/
def sourcesAt (c : Timeline) (t : Nat) : List CacheSource := (applyAll c.sources (c.happened t)).1

/-- None is missing. -/
def CompleteAt (c : Timeline) (t : Nat) : Prop := ∀ s ∈ c.sourcesAt t, s.synced = true

/-- Whoever waits under a token has been told to stop. -/
def CancelledAt (c : Timeline) (token t : Nat) : Prop :=
  token ∈ c.cancelled ∨ .cancel token ∈ c.happened t

/-- The moments of a timeline come in order. -/
def Ordered (c : Timeline) : Prop := c.moments.Pairwise fun a b => a.1 ≤ b.1

/-- **No two of the points that may end a wait are one**, and nothing happens
to the caches just when time is up. A wait may begin when the caches are
complete, even if it is given no time. -/
structure Untied (c : Timeline) (token start deadline : Nat) : Prop where
  quiet : ∀ moment ∈ c.moments, moment.1 = deadline → ∀ event ∈ moment.2, ¬event.Concerns token
  cancelled : ∀ t, IsLeast {t | start ≤ t ∧ c.CancelledAt token t} t → t ≠ deadline
  complete : ∀ t, IsLeast {t | start ≤ t ∧ c.CompleteAt t} t →
    ¬IsLeast {t | start ≤ t ∧ c.CancelledAt token t} t

/-- **How a wait under a token ends, and when.** -/
inductive Ends (c : Timeline) (token start deadline : Nat) : Outcome → Nat → Prop
  /-- The last missing mark is set, or none was missing from the start. -/
  | allSynced {t : Nat} (h : IsLeast {t | start ≤ t ∧ c.CompleteAt t} t) (htime : t ≤ deadline)
      (hgoes : ¬c.CancelledAt token t) : Ends c token start deadline .allSynced t
  | cancelled {t : Nat} (h : IsLeast {t | start ≤ t ∧ c.CancelledAt token t} t)
      (htime : t < deadline)
      (hmissing : ¬c.CompleteAt t) : Ends c token start deadline .cancelled t
  /-- Time is up; the names are those of the caches that are missing then. -/
  | partialTimeout {names : List String}
      (hnames : names = ((c.sourcesAt deadline).filter (!·.synced)).map (·.name))
      (hmissing : names ≠ []) (hgoes : ¬c.CancelledAt token deadline) :
      Ends c token start deadline (.partialTimeout names) deadline

variable {c : Timeline} {token t t' start deadline : Nat}

/-- What has happened by a moment has happened in the same order later. -/
theorem Ordered.happened_prefix (h : c.Ordered) (htime : t ≤ t') :
    c.happened t <+: c.happened t' := by
  unfold happened
  unfold Ordered at h
  generalize c.moments = moments at h
  induction moments with
  | nil => exact List.prefix_rfl
  | cons moment rest ih =>
    obtain ⟨hfirst, hrest⟩ := List.pairwise_cons.1 h
    by_cases hmoment : moment.1 ≤ t
    · have hmoment' : moment.1 ≤ t' := hmoment.trans htime
      rw [List.filter_cons_of_pos (by simpa using hmoment),
        List.filter_cons_of_pos (by simpa using hmoment'), List.flatMap_cons, List.flatMap_cons,
        List.prefix_append_right_inj]
      exact ih hrest
    · have hnone : (moment :: rest).filter (·.1 ≤ t) = [] := by
        refine List.filter_eq_nil_iff.2 fun other hother => ?_
        rcases List.mem_cons.1 hother with rfl | hother
        · simpa using hmoment
        · have := hfirst other hother
          simp only [decide_eq_true_eq]
          omega
      rw [hnone]
      exact List.nil_prefix

theorem Ordered.sourcesAt_eq (h : c.Ordered) (htime : t ≤ t') :
    ∃ events, c.happened t' = c.happened t ++ events ∧
      c.sourcesAt t' = (applyAll (c.sourcesAt t) events).1 := by
  obtain ⟨events, hevents⟩ := h.happened_prefix htime
  refine ⟨events, hevents.symm, ?_⟩
  unfold sourcesAt
  rw [← hevents, applyAll_append]

theorem Ordered.completeAt_mono (h : c.Ordered) (htime : t ≤ t') (hcomplete : c.CompleteAt t) :
    c.CompleteAt t' := by
  obtain ⟨events, -, hsources⟩ := h.sourcesAt_eq htime
  unfold CompleteAt
  rw [hsources]
  exact synced_applyAll hcomplete events

theorem Ordered.cancelledAt_mono (h : c.Ordered) (htime : t ≤ t')
    (hcancelled : c.CancelledAt token t) : c.CancelledAt token t' :=
  hcancelled.imp_right fun hmem => (h.happened_prefix htime).subset hmem

theorem missing_iff :
    ((c.sourcesAt t).filter (!·.synced)).map (·.name) ≠ [] ↔ ¬c.CompleteAt t :=
  not_congr unsynced_eq_nil_iff

/-- **A wait ends in one way.** -/
theorem Ends.unique {o o' : Outcome} (horder : c.Ordered) (h : c.Ends token start deadline o t)
    (h' : c.Ends token start deadline o' t') : o = o' ∧ t = t' := by
  have clash : ∀ {u v : Nat}, c.CompleteAt u → ¬c.CancelledAt token u → c.CancelledAt token v →
      ¬c.CompleteAt v → False := by
    intro u v hcomplete hgoes hcancelled hmissing
    rcases Nat.le_total u v with huv | hvu
    · exact hmissing (horder.completeAt_mono huv hcomplete)
    · exact hgoes (horder.cancelledAt_mono hvu hcancelled)
  have late : ∀ {u : Nat}, c.CompleteAt u → u ≤ deadline →
      ((c.sourcesAt deadline).filter (!·.synced)).map (·.name) ≠ [] → False :=
    fun hcomplete htime hmissing =>
      missing_iff.1 hmissing (horder.completeAt_mono htime hcomplete)
  cases h with
  | allSynced h htime hgoes =>
    cases h' with
    | allSynced h' _ _ => exact ⟨rfl, h.unique h'⟩
    | cancelled h' _ hmissing => exact (clash h.1.2 hgoes h'.1.2 hmissing).elim
    | partialTimeout hnames hmissing _ => exact (late h.1.2 htime (hnames ▸ hmissing)).elim
  | cancelled h htime hmissing =>
    cases h' with
    | allSynced h' _ hgoes => exact (clash h'.1.2 hgoes h.1.2 hmissing).elim
    | cancelled h' _ _ => exact ⟨rfl, h.unique h'⟩
    | partialTimeout _ _ hgoes => exact (hgoes (horder.cancelledAt_mono htime.le h.1.2)).elim
  | partialTimeout hnames hmissing hgoes =>
    cases h' with
    | allSynced h' htime _ => exact (late h'.1.2 htime (hnames ▸ hmissing)).elim
    | cancelled h' htime _ => exact (hgoes (horder.cancelledAt_mono htime.le h'.1.2)).elim
    | partialTimeout hnames' _ _ => exact ⟨by rw [hnames, hnames'], rfl⟩

/-! ## What a wait finds -/

/-- **What is left of a timeline**, by who looks at it at a moment. Of what
happens just then some may be done and some not. -/
structure LeftAt (c : Timeline) (now : Nat) (sources : List CacheSource) (cancelled : List Nat)
    (moments : List (Nat × List Event)) : Prop where
  past : ∃ done, c.moments = done ++ moments ∧ (∀ moment ∈ done, moment.1 ≤ now) ∧
    sources = (applyAll c.sources (done.flatMap (·.2))).1 ∧
    cancelled = c.cancelled ++ (done.flatMap (·.2)).filterMap Event.cancels?
  later : ∀ moment ∈ moments, now ≤ moment.1

namespace LeftAt

variable {now : Nat} {sources : List CacheSource} {cancelled : List Nat}
  {moments : List (Nat × List Event)} {events : List Event}

theorem of_le (h : c.LeftAt now sources cancelled moments) (hnow : now ≤ t)
    (hlater : ∀ moment ∈ moments, t ≤ moment.1) : c.LeftAt t sources cancelled moments where
  past := by
    obtain ⟨done, hmoments, hpast, hrest⟩ := h.past
    exact ⟨done, hmoments, fun moment hmem => (hpast moment hmem).trans hnow, hrest⟩
  later := hlater

/-- The next moment comes. -/
theorem next (h : c.LeftAt now sources cancelled ((t, events) :: moments)) (horder : c.Ordered) :
    c.LeftAt t (applyAll sources events).1 (cancelled ++ events.filterMap Event.cancels?)
      moments where
  past := by
    obtain ⟨done, hmoments, hpast, rfl, rfl⟩ := h.past
    have hnow : now ≤ t := h.later _ List.mem_cons_self
    refine ⟨done ++ [(t, events)], ?_, fun moment hmem => ?_, ?_, ?_⟩
    · rw [hmoments, List.append_assoc]
      rfl
    · rcases List.mem_append.1 hmem with hmem | hmem
      · exact (hpast moment hmem).trans hnow
      · rw [List.mem_singleton.1 hmem]
    · rw [List.flatMap_append, applyAll_append, List.flatMap_singleton]
    · rw [List.flatMap_append, List.flatMap_singleton, List.filterMap_append, List.append_assoc]
  later := by
    obtain ⟨done, hmoments, -⟩ := h.past
    unfold Ordered at horder
    rw [hmoments] at horder
    exact (List.pairwise_cons.1 (List.pairwise_append.1 horder).2.1).1

/-- What has happened by a later moment is what is done, and some of what is
left. -/
theorem happened_eq (h : c.LeftAt now sources cancelled moments) (hnow : now ≤ t) :
    ∃ done, c.happened t = done ++ (moments.filter (·.1 ≤ t)).flatMap (·.2) ∧
      sources = (applyAll c.sources done).1 ∧
      cancelled = c.cancelled ++ done.filterMap Event.cancels? := by
  obtain ⟨done, hmoments, hpast, hsources, hcancelled⟩ := h.past
  refine ⟨done.flatMap (·.2), ?_, hsources, hcancelled⟩
  have hdone : done.filter (·.1 ≤ t) = done :=
    List.filter_eq_self.2 fun moment hmem => by simpa using (hpast moment hmem).trans hnow
  unfold happened
  rw [hmoments, List.filter_append, List.flatMap_append, hdone]

/-- While nothing happens that means anything to a wait, all is as it was
left. -/
theorem of_not_concerns (h : c.LeftAt now sources cancelled moments) (hnow : now ≤ t)
    (hnext : ∀ moment ∈ moments, moment.1 ≤ t → ∀ event ∈ moment.2, ¬event.Concerns token) :
    c.sourcesAt t = sources ∧ (c.CancelledAt token t ↔ token ∈ cancelled) := by
  obtain ⟨done, hhappened, rfl, rfl⟩ := h.happened_eq hnow
  have hforeign : ∀ event ∈ (moments.filter (·.1 ≤ t)).flatMap (·.2), ¬event.Concerns token := by
    intro event hmem
    obtain ⟨moment, hmoment, hevent⟩ := List.mem_flatMap.1 hmem
    obtain ⟨hmoment, htime⟩ := List.mem_filter.1 hmoment
    exact hnext moment hmoment (by simpa using htime) event hevent
  have hgoes : .cancel token ∉ (moments.filter (·.1 ≤ t)).flatMap (·.2) := fun hmem =>
    hforeign _ hmem rfl
  unfold sourcesAt CancelledAt
  rw [hhappened, applyAll_append, applyAll_of_not_concerns hforeign, List.mem_append,
    List.mem_append, mem_cancels?_iff, or_iff_left hgoes]
  exact ⟨rfl, Iff.rfl⟩

theorem completeAt (h : c.LeftAt now sources cancelled moments)
    (hsources : ∀ s ∈ sources, s.synced = true) : c.CompleteAt now := by
  obtain ⟨done, hhappened, rfl, -⟩ := h.happened_eq le_rfl
  unfold CompleteAt sourcesAt
  rw [hhappened, applyAll_append]
  exact synced_applyAll hsources _

theorem cancelledAt (h : c.LeftAt now sources cancelled moments)
    (hcancelled : token ∈ cancelled) : c.CancelledAt token now := by
  obtain ⟨done, hhappened, -, rfl⟩ := h.happened_eq le_rfl
  unfold CancelledAt
  rw [hhappened]
  rw [List.mem_append, mem_cancels?_iff] at hcancelled
  exact hcancelled.imp_right (List.mem_append_left _)

/-- The first moment of some kind, if there was none before. -/
theorem isLeast_now {P : Nat → Prop} {now : Nat} (hstart : start ≤ now) (hnow : P now)
    (hbefore : ∀ u, start ≤ u → u < now → ¬P u) : IsLeast {t | start ≤ t ∧ P t} now :=
  ⟨⟨hstart, hnow⟩, fun u hu => Nat.le_of_not_lt fun hlt => hbefore u hu.1 hlt hu.2⟩

/-- Nothing more happens until time is up. -/
theorem ends_timeout (h : c.LeftAt now sources cancelled moments) (hnow : now ≤ deadline)
    (hmissing : unsynced sources ≠ []) (hgoes : token ∉ cancelled)
    (hnext : ∀ moment ∈ moments, deadline ≤ moment.1) (huntied : c.Untied token start deadline) :
    c.Ends token start deadline (.partialTimeout (unsynced sources)) deadline := by
  have hquiet : ∀ moment ∈ moments, moment.1 ≤ deadline →
      ∀ event ∈ moment.2, ¬event.Concerns token := by
    intro moment hmem htime
    obtain ⟨done, hmoments, -⟩ := h.past
    exact huntied.quiet moment (hmoments ▸ List.mem_append_right _ hmem)
      (Nat.le_antisymm htime (hnext moment hmem))
  obtain ⟨hsources, hcancelled⟩ := h.of_not_concerns hnow hquiet
  refine .partialTimeout (by rw [hsources]; rfl) hmissing ?_
  rwa [hcancelled]

end LeftAt

end Timeline

/-! ## One wait -/

/-- What a look finds. -/
theorem look_cases (sources : List CacheSource) (cancelled timeUp : Bool) :
    cancelled = true ∧ look sources cancelled timeUp = some .cancelled ∨
    cancelled = false ∧ unsynced sources = [] ∧
      look sources cancelled timeUp = some .allSynced ∨
    cancelled = false ∧ unsynced sources ≠ [] ∧ look sources cancelled timeUp
      = if timeUp then some (.partialTimeout (unsynced sources)) else none := by
  unfold look
  cases cancelled with
  | true => exact .inl ⟨rfl, rfl⟩
  | false =>
    by_cases hall : sources.all (·.synced) = true
    · have hnone : unsynced sources = [] := unsynced_eq_nil_iff.2 (List.all_eq_true.1 hall)
      exact .inr (.inl ⟨rfl, hnone, by rw [if_neg Bool.false_ne_true, if_pos hall]⟩)
    · have hsome : unsynced sources ≠ [] := fun hnone =>
        hall (List.all_eq_true.2 (unsynced_eq_nil_iff.1 hnone))
      exact .inr (.inr ⟨rfl, hsome, by rw [if_neg Bool.false_ne_true, if_neg hall]⟩)

theorem of_look_eq_none {sources : List CacheSource} {cancelled : List Nat} {token : Nat}
    {timeUp : Bool} (h : look sources (cancelled.contains token) timeUp = none) :
    token ∉ cancelled ∧ unsynced sources ≠ [] := by
  rcases look_cases sources (cancelled.contains token) timeUp with
    ⟨-, heq⟩ | ⟨-, -, heq⟩ | ⟨hgoes, hmissing, -⟩
  · rw [h] at heq
    contradiction
  · rw [h] at heq
    contradiction
  · exact ⟨by simpa using hgoes, hmissing⟩

section Wait

variable {token : Nat} {timeout : UInt64} {deadline now t : Nat} {known : List Nat}
  {sources : List CacheSource} {cancelled : List Nat} {moments : List (Nat × List Event)}
  {events : List Event}

/-- A look ends the wait. -/
theorem wait_of_look {outcome : Outcome}
    (h : look sources (cancelled.contains token) (deadline ≤ now) = some outcome) :
    ∃ notices, wait token timeout deadline now known sources cancelled moments
      = (outcome, now, ⟨sources, cancelled, moments, notices⟩) := by
  cases moments with
  | nil =>
    simp only [wait, h]
    exact ⟨_, rfl⟩
  | cons moment rest =>
    simp only [wait, h]
    exact ⟨_, rfl⟩

/-- Nothing happens until time is up. -/
theorem wait_of_giveUp (h : look sources (cancelled.contains token) (deadline ≤ now) = none)
    (hnext : ∀ moment ∈ moments, deadline ≤ moment.1) :
    ∃ notices, wait token timeout deadline now known sources cancelled moments
      = (.partialTimeout (unsynced sources), deadline, ⟨sources, cancelled, moments, notices⟩) := by
  cases moments with
  | nil =>
    simp only [wait, h]
    exact ⟨_, rfl⟩
  | cons moment rest =>
    have hlate : ¬moment.1 < deadline := Nat.not_lt.2 (hnext moment List.mem_cons_self)
    simp only [wait, h, if_neg hlate]
    exact ⟨_, rfl⟩

/-- The wait goes on with the next moment. -/
theorem wait_of_next (h : look sources (cancelled.contains token) (deadline ≤ now) = none)
    (ht : t < deadline) :
    ∃ known' notices,
      wait token timeout deadline now known sources cancelled ((t, events) :: moments)
        = let rest := wait token timeout deadline (max now t) known' (applyAll sources events).1
            (cancelled ++ events.filterMap Event.cancels?) moments
          (rest.1, rest.2.1, { rest.2.2 with notices }) := by
  simp only [wait, h, if_pos ht]
  exact ⟨_, _, rfl⟩

end Wait

namespace Timeline

variable {c : Timeline} {token start deadline now t : Nat} {sources : List CacheSource}
  {cancelled : List Nat} {moments : List (Nat × List Event)} {events : List Event}

namespace LeftAt

/-- **A look that ends a wait ends it as it should**, if nothing that would
have ended it has happened before. -/
theorem ends_of_look {outcome : Outcome} (h : c.LeftAt now sources cancelled moments)
    (hlook : look sources (cancelled.contains token) (deadline ≤ now) = some outcome)
    (hstart : start ≤ now) (hnow : now ≤ deadline)
    (hbefore : ∀ u, start ≤ u → u < now → ¬c.CompleteAt u ∧ ¬c.CancelledAt token u)
    (huntied : c.Untied token start deadline) : c.Ends token start deadline outcome now := by
  have hcomplete : c.CompleteAt now → IsLeast {t | start ≤ t ∧ c.CompleteAt t} now := fun h =>
    isLeast_now hstart h fun u hu hlt => (hbefore u hu hlt).1
  have hcancelled : c.CancelledAt token now →
      IsLeast {t | start ≤ t ∧ c.CancelledAt token t} now := fun h =>
    isLeast_now hstart h fun u hu hlt => (hbefore u hu hlt).2
  rcases look_cases sources (cancelled.contains token) (deadline ≤ now) with
    ⟨htold, heq⟩ | ⟨hgoes, hnone, heq⟩ | ⟨hgoes, hmissing, heq⟩
  · obtain rfl := Option.some.inj (hlook.symm.trans heq)
    have hfirst := hcancelled (h.cancelledAt (by simpa using htold))
    exact .cancelled hfirst (lt_of_le_of_ne hnow (huntied.cancelled now hfirst))
      fun hall => huntied.complete now (hcomplete hall) hfirst
  · obtain rfl := Option.some.inj (hlook.symm.trans heq)
    have hfirst := hcomplete (h.completeAt (unsynced_eq_nil_iff.1 hnone))
    exact .allSynced hfirst hnow fun htold => huntied.complete now hfirst (hcancelled htold)
  · rw [hlook] at heq
    split at heq
    case isTrue htime =>
      obtain rfl := Option.some.inj heq
      obtain rfl : now = deadline := Nat.le_antisymm hnow (by simpa using htime)
      exact h.ends_timeout le_rfl hmissing (by simpa using hgoes) h.later huntied
    case isFalse => contradiction

/-- Until the next moment nothing happens that would end a wait. -/
theorem goes_on (h : c.LeftAt now sources cancelled ((t, events) :: moments))
    (horder : c.Ordered) (hgoes : token ∉ cancelled) (hmissing : unsynced sources ≠ []) :
    ∀ u, now ≤ u → u < t → ¬c.CompleteAt u ∧ ¬c.CancelledAt token u := by
  intro u hu hlt
  have hlater := (h.next horder).later
  have hnext : ∀ moment ∈ (t, events) :: moments, u < moment.1 := by
    intro moment hmem
    rcases List.mem_cons.1 hmem with rfl | hmem
    · exact hlt
    · exact hlt.trans_le (hlater moment hmem)
  obtain ⟨hsources, hcancelled⟩ := h.of_not_concerns hu fun moment hmem hle =>
    absurd (hnext moment hmem) (Nat.not_lt.2 hle)
  refine ⟨fun hcomplete => ?_, ?_⟩
  · unfold CompleteAt at hcomplete
    rw [hsources] at hcomplete
    exact hmissing (unsynced_eq_nil_iff.2 hcomplete)
  · rwa [hcancelled]

end LeftAt

/-- A wait has ended as it should, and the timeline is left as it is then. -/
structure Concludes (c : Timeline) (token start deadline : Nat)
    (result : Outcome × Nat × Timeline) :
    Prop where
  left : c.LeftAt result.2.1 result.2.2.sources result.2.2.cancelled result.2.2.moments
  ends : c.Untied token start deadline → c.Ends token start deadline result.1 result.2.1

/-- **A wait ends as it should**, by induction on what is still to come: before
now nothing has happened that would have ended it. -/
theorem LeftAt.wait_concludes (horder : c.Ordered) (h : c.LeftAt now sources cancelled moments)
    (token : Nat) (timeout : UInt64) (known : List Nat) (hstart : start ≤ now)
    (hnow : now ≤ deadline)
    (hbefore : ∀ u, start ≤ u → u < now → ¬c.CompleteAt u ∧ ¬c.CancelledAt token u) :
    c.Concludes token start deadline
      (wait token timeout deadline now known sources cancelled moments) := by
  have ends : ∀ {outcome known sources cancelled moments now},
      c.LeftAt now sources cancelled moments →
      look sources (cancelled.contains token) (deadline ≤ now) = some outcome → start ≤ now →
        now ≤ deadline →
      (∀ u, start ≤ u → u < now → ¬c.CompleteAt u ∧ ¬c.CancelledAt token u) →
      c.Concludes token start deadline
        (wait token timeout deadline now known sources cancelled moments) := by
    intro outcome known sources cancelled moments now h hlook hstart hnow hbefore
    obtain ⟨notices, hwait⟩ := wait_of_look hlook
    rw [hwait]
    exact ⟨h, h.ends_of_look hlook hstart hnow hbefore⟩
  have timesOut : ∀ {known sources cancelled moments now},
      c.LeftAt now sources cancelled moments → now ≤ deadline →
      look sources (cancelled.contains token) (deadline ≤ now) = none →
      (∀ moment ∈ moments, deadline ≤ moment.1) →
      c.Concludes token start deadline
        (wait token timeout deadline now known sources cancelled moments) := by
    intro known sources cancelled moments now h hnow hlook hnext
    obtain ⟨notices, hwait⟩ := wait_of_giveUp hlook hnext
    obtain ⟨hgoes, hmissing⟩ := of_look_eq_none hlook
    rw [hwait]
    exact ⟨h.of_le hnow hnext, h.ends_timeout hnow hmissing hgoes hnext⟩
  induction moments generalizing now known sources cancelled with
  | nil =>
    cases hlook : look sources (cancelled.contains token) (deadline ≤ now) with
    | some outcome => exact ends h hlook hstart hnow hbefore
    | none => exact timesOut h hnow hlook fun _ h => absurd h List.not_mem_nil
  | cons moment rest ih =>
    obtain ⟨t, events⟩ := moment
    cases hlook : look sources (cancelled.contains token) (deadline ≤ now) with
    | some outcome => exact ends h hlook hstart hnow hbefore
    | none =>
      obtain ⟨hgoes, hmissing⟩ := of_look_eq_none hlook
      have hnext : now ≤ t := h.later _ List.mem_cons_self
      have hafter := h.next horder
      by_cases ht : t < deadline
      · obtain ⟨known', notices, hwait⟩ := wait_of_next hlook ht
        rw [hwait, Nat.max_eq_right hnext]
        have hconcludes := ih hafter known' (hstart.trans hnext) ht.le fun u hu hlt => by
          rcases Nat.lt_or_ge u now with hearly | hlate
          · exact hbefore u hu hearly
          · exact h.goes_on horder hgoes hmissing u hlate hlt
        exact ⟨hconcludes.left, hconcludes.ends⟩
      · have hlate : deadline ≤ t := Nat.le_of_not_lt ht
        refine timesOut h hnow hlook fun moment hmem => ?_
        rcases List.mem_cons.1 hmem with rfl | hmem
        · exact hlate
        · exact hlate.trans (hafter.later moment hmem)

/-! ## Waits one after the other -/

/-- While nobody waits the timeline goes on. -/
theorem LeftAt.advance (horder : c.Ordered) (h : c.LeftAt now sources cancelled moments)
    (hnow : now ≤ t) :
    c.LeftAt t (advance t sources cancelled moments).sources
      (advance t sources cancelled moments).cancelled
      (advance t sources cancelled moments).moments := by
  induction moments generalizing now sources cancelled with
  | nil => exact h.of_le hnow fun _ h => absurd h List.not_mem_nil
  | cons moment rest ih =>
    obtain ⟨u, events⟩ := moment
    have hafter := h.next horder
    by_cases hu : u < t
    · simp only [Barrier.advance, if_pos hu]
      exact ih hafter hu.le
    · simp only [Barrier.advance, if_neg hu]
      refine h.of_le hnow fun moment hmem => ?_
      rcases List.mem_cons.1 hmem with rfl | hmem
      · exact Nat.le_of_not_lt hu
      · exact (Nat.le_of_not_lt hu).trans (hafter.later moment hmem)

open Simulation (TokenWait EndedWait waitAll)

/-- **Waits that follow each other**: each begins when the one before it has
ended, and not before it was to begin, and has so much time. It ends as the
timeline says, and in no other way. -/
inductive Ended (c : Timeline) : Nat → List TokenWait → List EndedWait → Prop
  | nil {now : Nat} : Ended c now [] []
  | cons {now deadline : Nat} {w : TokenWait} {e : EndedWait} {waits : List TokenWait}
      {ended : List EndedWait} (hstart : e.start = max now w.notBefore)
      (hdeadline : deadline = pauseEnd e.start w.timeout.toNat)
      (hends : c.Untied w.token e.start deadline → ∀ outcome finish,
        (e.outcome = outcome ∧ e.finish = finish) ↔
          c.Ends w.token e.start deadline outcome finish)
      (h : Ended c e.finish waits ended) : Ended c now (w :: waits) (e :: ended)

theorem ended_waitAll (horder : c.Ordered) {d : Timeline}
    (h : c.LeftAt now d.sources d.cancelled d.moments) (waits : List TokenWait) :
    c.Ended now waits (waitAll now d waits).1 := by
  induction waits generalizing now d with
  | nil => exact .nil
  | cons w waits ih =>
    have hleft := h.advance horder (Nat.le_max_left now w.notBefore)
    have hconcludes := hleft.wait_concludes horder w.token w.timeout [] le_rfl
      (le_pauseEnd _ w.timeout.toNat) fun u hu hlt => absurd hlt (Nat.not_lt.2 hu)
    refine .cons rfl rfl (fun huntied outcome finish => ?_) (ih hconcludes.left)
    have hends := hconcludes.ends huntied
    constructor
    · rintro ⟨rfl, rfl⟩
      exact hends
    · exact hends.unique horder

/-- **What a timeline does to the marks.** -/
structure Marked (c : Timeline) : Prop where
  /-- A cache is marked at a moment if it was, or if its feed has marked it by
  then before it ended. -/
  marks : ∀ t (i : Nat) s, c.sources[i]? = some s →
    ∃ s', (c.sourcesAt t)[i]? = some s' ∧ s'.name = s.name ∧
      (s'.synced = true ↔ s.synced = true ∨ s.ended = false ∧ Marks i (c.happened t))
  /-- A mark is never taken back, -/
  stays : ∀ t t', t ≤ t' → ∀ (i : Nat) (s : CacheSource), (c.sourcesAt t)[i]? = some s →
    s.synced = true → ∃ s' : CacheSource, (c.sourcesAt t')[i]? = some s' ∧ s'.synced = true
  /-- and when the feed has ended nothing changes any more. -/
  ends : ∀ t t', t ≤ t' → ∀ (i : Nat) (s : CacheSource), (c.sourcesAt t)[i]? = some s →
    s.ended = true → ∃ s' : CacheSource, (c.sourcesAt t')[i]? = some s' ∧ s'.synced = s.synced

theorem Ordered.marked (horder : c.Ordered) : c.Marked where
  marks t i s hs := by
    obtain ⟨s', hs', hname, hsynced, -⟩ := getElem?_applyAll hs (c.happened t)
    exact ⟨s', hs', hname, hsynced⟩
  stays t t' htime i s hs hsynced := by
    obtain ⟨events, -, hsources⟩ := horder.sourcesAt_eq htime
    obtain ⟨s', hs', -, hsynced', -⟩ := getElem?_applyAll hs events
    exact ⟨s', hsources ▸ hs', hsynced'.2 (.inl hsynced)⟩
  ends t t' htime i s hs hended := by
    obtain ⟨events, -, hsources⟩ := horder.sourcesAt_eq htime
    obtain ⟨s', hs', -, hsynced', -⟩ := getElem?_applyAll hs events
    refine ⟨s', hsources ▸ hs', Bool.eq_iff_iff.2 ?_⟩
    rw [hsynced', hended]
    simp

/-- **Every wait ends as the marks say**, whatever the feeds do and however
often somebody waits. -/
theorem Ordered.waits_agree (horder : c.Ordered) (waits : List TokenWait) :
    c.Marked ∧ c.Ended 0 waits (waitAll 0 c waits).1 :=
  ⟨horder.marked, ended_waitAll horder
    ⟨⟨[], rfl, fun _ h => absurd h List.not_mem_nil, rfl, by simp⟩, fun _ _ => Nat.zero_le _⟩
    waits⟩

/-! ## Three waits -/

/-- Two caches of one name: the feed of one ends after its mark, and the other
is marked twice, long after. One token is cancelled before that, and two
after. -/
def twins : Timeline where
  sources := [{ name := "a" }, { name := "a" }]
  cancelled := []
  moments := [(10, [.mark 0]), (12, [.finish 0]), (40, [.cancel 1]), (50, [.mark 1, .mark 1]),
    (90, [.cancel 0, .cancel 2])]

theorem twins_ordered : twins.Ordered := by
  unfold Ordered
  decide

/-- What lasts once it is so is so first where it was not just before. -/
theorem isLeast_succ {P : Nat → Prop} (hlasts : ∀ u v, u ≤ v → P u → P v)
    (hstart : start ≤ t + 1) (hbefore : ¬P t) (hnow : P (t + 1)) :
    IsLeast {u | start ≤ u ∧ P u} (t + 1) :=
  ⟨⟨hstart, hnow⟩, fun u hu => Nat.lt_of_not_le fun hle => hbefore (hlasts u t hle hu.2)⟩

theorem twins_untied (hstart : start ≤ t + 1 ∧ start ≤ 50) (hbefore : ¬twins.CancelledAt token t)
    (hcancelled : twins.CancelledAt token (t + 1)) (htime : t + 1 ≠ deadline) (hne : t + 1 ≠ 50)
    (hquiet : ∀ moment ∈ twins.moments, moment.1 ≠ deadline) :
    twins.Untied token start deadline := by
  have hfirst : IsLeast {u | start ≤ u ∧ twins.CancelledAt token u} (t + 1) :=
    isLeast_succ (fun _ _ => twins_ordered.cancelledAt_mono) hstart.1 hbefore hcancelled
  have hcomplete : IsLeast {u | start ≤ u ∧ twins.CompleteAt u} 50 :=
    isLeast_succ (t := 49) (fun _ _ => twins_ordered.completeAt_mono) hstart.2
      (by unfold CompleteAt; decide) (by unfold CompleteAt; decide)
  refine ⟨fun moment hmem hat => absurd hat (hquiet moment hmem), fun u hu => ?_,
    fun u hu hu' => ?_⟩
  · rw [hu.unique hfirst]
    exact htime
  · exact hne (hfirst.unique hu' |>.trans (hu.unique hcomplete))

/-- The first wait gives up on the other cache, the second one is cancelled,
and that does not keep the third one from going on until the mark. -/
theorem waits_agree_twins :
    let waits : List TokenWait := [⟨⟨30, 0⟩, 0⟩, ⟨⟨100, 0⟩, 1⟩, ⟨⟨100, 0⟩, 2⟩]
    twins.Ordered ∧ twins.Untied 0 0 30 ∧ twins.Untied 1 30 130 ∧ twins.Untied 2 40 140 ∧
      (waitAll 0 twins waits).1.map (fun e => (e.outcome, e.finish))
        = [(.partialTimeout ["a"], 30), (.cancelled, 40), (.allSynced, 50)] ∧
      twins.Marked ∧ twins.Ended 0 waits (waitAll 0 twins waits).1 := by
  intro waits
  have hafter : ∀ token ∈ [0, 2], ¬twins.CancelledAt token 89 ∧ twins.CancelledAt token 90 := by
    unfold CancelledAt
    decide
  have hbetween : ¬twins.CancelledAt 1 39 ∧ twins.CancelledAt 1 40 := by
    unfold CancelledAt
    decide
  have hzero := hafter 0 (by decide)
  have htwo := hafter 2 (by decide)
  exact ⟨twins_ordered,
    twins_untied (by decide) hzero.1 hzero.2 (by decide) (by decide) (by decide),
    twins_untied (by decide) hbetween.1 hbetween.2 (by decide) (by decide) (by decide),
    twins_untied (by decide) htwo.1 htwo.2 (by decide) (by decide) (by decide), rfl,
    twins_ordered.waits_agree waits⟩

end Timeline

end Barrier

end Tenure
