import Tenure.Proofs.Coordination.Failing

/-!
# What a run returns

A run that no call to the store brings down returns for one of three
reasons: its configuration was refused, the caches of a period were not
complete in time, or the caller told it to stop. The result says which
(`TimedExecution.concludes`).

A `TimedExecution` is a run with all that its steps find beside what is seen of
them, since the result depends on both: on the caches as a wait finds them
when its time is up, and on whether the caller has told the run to stop. At
every moment of such a run either nothing has failed (`Clean`), or one wait
has timed out and nothing has begun since (`Overdue`); the return shows
which of the two it is.
-/

namespace Tenure.Coordinator

open Work (Queue)

/-! ## Timed executions -/

/-- What a run comes by: what it finds around a step, and what is seen of
it. -/
inductive TimedObservation where
  | found (s : Surroundings)
  | seen (x : Observation)

/-- What is seen. -/
def TimedObservation.observation? : TimedObservation → Option Observation
  | seen x => some x
  | _ => none

/-- All that is seen in a history. -/
def observations (history : List TimedObservation) : List Observation :=
  history.filterMap TimedObservation.observation?

/-- **A run with its surroundings**, which no call to the store brings down:
what each step finds, and what is seen of it. -/
inductive TimedExecution (c : Coordinator) : List TimedObservation → Run → Prop
  | begins : c.TimedExecution ((Observation.ofBegin c).map .seen) c.begin.1
  | step {history : List TimedObservation} {r : Run} {done : Run × Queue × List Action}
      (s : Surroundings)
      (q : Queue) (input : Input) (h : c.TimedExecution history r) (hcalm : input ≠ .elector .crash)
      (hstep : Run.step c s r q input = some done) :
      c.TimedExecution
        (history ++ .found s :: (Observation.ofStep c s r done.1 input done.2.2).map .seen) done.1

section TimedExecution

variable {c : Coordinator} {history : List TimedObservation} {r : Run}

@[simp] theorem observations_map_seen (seen : List Observation) :
    observations (seen.map .seen) = seen := by
  unfold observations
  rw [List.filterMap_map]
  exact List.filterMap_some

@[simp] theorem observations_append (history more : List TimedObservation) :
    observations (history ++ more) = observations history ++ observations more :=
  List.filterMap_append

@[simp] theorem observations_seen (x : Observation) (history : List TimedObservation) :
    observations (.seen x :: history) = x :: observations history := rfl

@[simp] theorem observations_found (s : Surroundings) (history : List TimedObservation) :
    observations (.found s :: history) = observations history := rfl

theorem TimedExecution.execution (h : c.TimedExecution history r) :
    c.Execution (observations history) r := by
  induction h with
  | begins =>
    rw [observations_map_seen]
    exact .begins
  | step s q input _ _ hstep ih =>
    rw [observations_append, observations_found, observations_map_seen]
    exact ih.step s q input hstep

/-- With a refused configuration nothing is done. -/
theorem TimedExecution.of_refused (h : c.TimedExecution history r) {e : Config.Error}
    (he : c.config.validate = .error e) :
    history = [.seen (.returns (.error (.config e)) 0)] ∧
      r = { consumer := .finished (.error (.config e)) } := by
  have hbegin : c.begin.1 = { consumer := .finished (.error (.config e)) } := by
    unfold Coordinator.begin
    rw [he]
  induction h with
  | begins =>
    unfold Observation.ofBegin
    rw [hbegin]
    exact ⟨rfl, rfl⟩
  | step s q input h _ hstep ih =>
    obtain ⟨p, -, hfits⟩ := h.execution.trail
    obtain ⟨-, rfl⟩ := ih
    exact absurd (Moves.of_step hstep) (hfits.not_moves rfl (by simp))

/-- The elector is not brought down. -/
theorem TimedExecution.upright (h : c.TimedExecution history r) : r.elector.phase ≠ .crashed := by
  induction h with
  | begins =>
    unfold Coordinator.begin
    cases c.config.validate <;> simp
  | step s q input h hcalm hstep ih =>
    cases hvalid : c.config.validate with
    | error e =>
      obtain ⟨p, -, hfits⟩ := h.execution.trail
      obtain ⟨-, rfl⟩ := h.of_refused hvalid
      exact absurd (Moves.of_step hstep) (hfits.not_moves rfl (by simp))
    | ok _ =>
      refine (Moves.of_step hstep).upright hcalm ?_ ih
      intro hzero
      have hsafe := (Config.of_validate hvalid).2
      rw [hzero] at hsafe
      contradiction

end TimedExecution

/-! ## What has come of a run so far -/

/-- The wait for the caches of a period has timed out. -/
def TimedObservation.IsTimeout (m : TimedObservation) : Prop :=
  ∃ t names, m = .seen (.waited t (.partialTimeout names))

/-- The caller has told the run to stop. -/
def Told (history : List TimedObservation) : Prop := ∃ s, .found s ∈ history ∧ s.stopped = true

theorem Told.append {history : List TimedObservation} (h : Told history)
    (more : List TimedObservation) :
    Told (history ++ more) := by
  obtain ⟨s, hs, hstopped⟩ := h
  exact ⟨s, List.mem_append_left more hs, hstopped⟩

/-- **Nothing has failed** so far. -/
structure Clean (history : List TimedObservation) (r : Run) : Prop where
  halted : r.halted = false
  inTime : ∀ m ∈ history, ¬ m.IsTimeout
  ended : r.elector.phase = .finished → Told history
  returned : ∀ result, r.consumer = .finished result → result = .ok () ∧ Told history

/-- **The caches were not complete in time**, once, and nothing has begun
since. -/
structure Overdue (c : Coordinator) (history : List TimedObservation) (r : Run)
    (past : List TimedObservation) (s : Surroundings) (t : Term)
    (later : List TimedObservation) : Prop where
  split : history = past ++ .found s ::
    .seen (.waited t (.partialTimeout (Barrier.unsynced s.caches))) :: later
  inTime : ∀ m ∈ past, ¬ m.IsTimeout
  begins : ∀ x, .seen x ∈ later → x.begins = false
  fails : r.Fails (.cacheSyncTimeout (Barrier.unsynced s.caches) c.config.cacheSyncTimeout)

section Step

variable {c : Coordinator} {s : Surroundings} {r r' : Run} {p : RunStage} {input : Input}
  {seen : List Observation} {history : List TimedObservation}

/-- What a step leaves as it is if nothing fails in it. -/
theorem Clean.step (h : Clean history r) (hhalted : r'.halted = r.halted)
    (hinTime : ∀ t names, .waited t (.partialTimeout names) ∉ seen)
    (hended : r'.elector.phase = .finished → r.elector.phase = .finished ∨ s.stopped = true)
    (hreturned : ∀ result, r'.consumer = .finished result →
      r.consumer = .finished result ∨ result = .ok () ∧ r.elector.phase = .finished) :
    Clean (history ++ .found s :: seen.map .seen) r' where
  halted := hhalted.trans h.halted
  inTime m hm := by
    rcases List.mem_append.1 hm with hm | hm
    · exact h.inTime m hm
    · rintro ⟨t, names, rfl⟩
      exact hinTime t names (by simpa using hm)
  ended hfinished := by
    rcases hended hfinished with hfinished | hstopped
    · exact (h.ended hfinished).append _
    · exact ⟨s, by simp, hstopped⟩
  returned result hresult := by
    rcases hreturned result hresult with hresult | ⟨rfl, hfinished⟩
    · exact ⟨(h.returned result hresult).1, (h.returned result hresult).2.append _⟩
    · exact ⟨rfl, (h.ended hfinished).append _⟩

/-- **A step of a run in which nothing has failed**: either nothing fails in
it, or the caches are not complete in time. -/
theorem Clean.moves (h : Clean history r) (hfits : r.Fits p) (hup : r.elector.phase ≠ .crashed)
    (hm : Moves c s r input r' seen) :
    Clean (history ++ .found s :: seen.map .seen) r' ∨
      ∃ t, Overdue c (history ++ .found s :: seen.map .seen) r' history s t [] := by
  cases hm with
  | @turns i done hturn hadmits =>
    obtain ⟨helector, -, hconsumer, -, hhalted⟩ := @Run.foldl_heedObservation_rest
      { r with elector := done.1 } (Election.Observation.ofDone false done)
    refine .inl (h.step hhalted (by simp) (fun hfinished => .inr ?_) fun result hresult => .inl ?_)
    · rw [helector] at hfinished
      have hcancelled : r.isCancelled s = true := by
        rcases (c.candidate.step_ends hturn).told hfinished with hcancelled | rfl
        · exact hcancelled
        · exact hadmits
      unfold Run.isCancelled at hcancelled
      rw [h.halted, Bool.or_false] at hcancelled
      exact hcancelled
    · rw [hconsumer] at hresult
      exact hresult
  | returns hlistening hinbox hended hfatal hok =>
    have hfinished : r.elector.phase = .finished := by
      unfold Run.electorEnded at hended
      split at hended
      · assumption
      · contradiction
      · contradiction
    have hnone : r.fatal = none := by
      cases hfatal : r.fatal with
      | none => rfl
      | some e =>
        have := (hfits.fatal (Option.isSome_iff_exists.2 ⟨e, hfatal⟩)).1
        rw [h.halted] at this
        contradiction
    refine .inl (h.step rfl (by simp) .inl fun result hresult => .inr ?_)
    obtain rfl := Consumer.finished.inj hresult
    exact ⟨hok hnone hfinished, hfinished⟩
  | @timesOut work overFirst hwork hgoes =>
    exact .inr ⟨work.term, rfl, h.inTime, by simp, .of_timesOut hfits hup h.halted hwork rfl⟩
  | works hi hwork hgoes hfailed hseen =>
    refine .inl (h.step rfl (fun t names hmem => ?_) .inl fun _ => .inl)
    rcases hseen _ hmem with ⟨_, _, hpool⟩ | ⟨_, outcome, hwaited, houtcome⟩
    · contradiction
    · exact houtcome names (Observation.waited.inj hwaited).2.symm
  | _ => exact .inl (h.step rfl (by simp) .inl fun _ h => by contradiction)

/-- And of one in which they were not. -/
theorem Overdue.moves {past later : List TimedObservation} {s₀ : Surroundings} {t : Term}
    (h : Overdue c history r past s₀ t later) (hfits : r.Fits p) (hup : r.elector.phase ≠ .crashed)
    (hm : Moves c s r input r' seen) :
    Overdue c (history ++ .found s :: seen.map .seen) r' past s₀ t
      (later ++ .found s :: seen.map .seen) := by
  obtain ⟨hsplit, hinTime, hbegins, hfails⟩ := h
  obtain ⟨hfails', hseen⟩ := hfails.moves hfits hup hm
  refine ⟨?_, hinTime, fun x hx => ?_, hfails'⟩
  · rw [hsplit, List.append_assoc, List.cons_append, List.cons_append]
  · rcases List.mem_append.1 hx with hx | hx
    · exact hbegins x hx
    · exact hseen x (by simpa using hx)

/-- What is seen of the return of a run is nothing else. -/
theorem Moves.of_mem_returns {result : Except RunError Unit} {n : Nat}
    (hm : Moves c s r input r' seen) (h : .returns result n ∈ seen) :
    seen = [.returns result n] ∧ r'.consumer = .finished result := by
  cases hm with
  | returns =>
    obtain ⟨rfl, rfl⟩ := Observation.returns.inj (List.mem_singleton.1 h)
    exact ⟨rfl, rfl⟩
  | works hi hwork hgoes hfailed hseen =>
    rcases hseen _ h with ⟨_, _, hpool⟩ | ⟨_, _, hwaited, -⟩ <;> contradiction
  | _ => simp at h

end Step

section TimedExecution

variable {c : Coordinator} {history : List TimedObservation} {r : Run}

/-- **What has come of a run**: nothing has failed, or the caches were not
complete in time. -/
theorem TimedExecution.clean_or_overdue (h : c.TimedExecution history r)
    (hvalid : c.config.validate = .ok ()) :
    Clean history r ∨ ∃ past s t later, Overdue c history r past s t later := by
  induction h with
  | begins =>
    unfold Observation.ofBegin Coordinator.begin
    rw [hvalid]
    exact .inl ⟨rfl, by simp, by simp, by simp⟩
  | step s q input h _ hstep ih =>
    obtain ⟨p, -, hfits⟩ := h.execution.trail
    have hm := Moves.of_step hstep
    rcases ih with hclean | ⟨past, s₀, t, later, hoverdue⟩
    · refine (hclean.moves hfits h.upright hm).imp_right ?_
      rintro ⟨t, hoverdue⟩
      exact ⟨_, s, t, [], hoverdue⟩
    · exact .inr ⟨past, s₀, t, _, hoverdue.moves hfits h.upright hm⟩

/-- A run that has returned does nothing more. -/
theorem TimedExecution.of_returns (h : c.TimedExecution history r)
    {before after : List TimedObservation} {result : Except RunError Unit} {n : Nat}
    (hhistory : history = before ++ .seen (.returns result n) :: after) :
    after = [] ∧ r.consumer = .finished result := by
  -- where one return is all that is seen, it is the last entry
  have alone : ∀ {before after : List TimedObservation} {result' : Except RunError Unit} {n' : Nat},
      [.seen (.returns result' n')] = before ++ .seen (.returns result n) :: after →
        after = [] ∧ result' = result := by
    intro before after result' n' hhistory
    rcases List.append_eq_singleton_iff.1 hhistory.symm with ⟨-, hrest⟩ | ⟨-, hrest⟩
    · obtain ⟨hx, rfl⟩ := List.cons.inj hrest
      exact ⟨rfl, (Observation.returns.inj (TimedObservation.seen.inj hx)).1.symm⟩
    · contradiction
  induction h generalizing after with
  | begins =>
    unfold Observation.ofBegin at hhistory
    split at hhistory
    · rename_i result' hconsumer
      obtain ⟨hafter, rfl⟩ := alone hhistory
      exact ⟨hafter, hconsumer⟩
    · simp at hhistory
  | @step history r done s q input h _ hstep ih =>
    have hm := Moves.of_step hstep
    rcases List.append_eq_append_iff.1 hhistory with ⟨more, -, hrest⟩ | ⟨more, hhistory, hrest⟩
    · cases more with
      | nil => cases (List.cons.inj hrest).1
      | cons m more =>
        -- it is seen in this step
        have hseen := (List.cons.inj hrest).2
        have hmem : TimedObservation.seen (.returns result n) ∈
            List.map TimedObservation.seen (Observation.ofStep c s r done.1 input done.2.2) := by
          rw [hseen]
          exact List.mem_append_right more List.mem_cons_self
        obtain ⟨hobservations, hconsumer⟩ := hm.of_mem_returns (by simpa using hmem)
        rw [hobservations] at hseen
        exact ⟨(alone hseen).1, hconsumer⟩
    · cases more with
      | nil => cases (List.cons.inj hrest).1
      | cons m more =>
        -- it was seen before, and there is no step
        obtain ⟨rfl, -⟩ := List.cons.inj hrest
        obtain ⟨p, -, hfits⟩ := h.execution.trail
        have hover : r.isOver = true := by
          unfold Run.isOver
          rw [(ih hhistory).2]
        exact absurd hm (hfits.not_moves hover h.upright)

/-- Since the observer was told of the term that is waited for, no worker
has started. -/
theorem welcomed_of_trail {p : RunStage} {seen : List Observation} (t : Trail Next .start seen p)
    {term : Term} (h : p.rest = .waiting term) :
    ∃ earlier n during, seen = earlier ++ .calls (.becameLeader term) n :: during ∧
      ∀ t x, .pool t x ∉ during := by
  refine t.history (fun p seen => p.rest = .waiting term ∨ p.rest = .welcoming term →
    ∃ earlier n during, seen = earlier ++ .calls (.becameLeader term) n :: during ∧
      ∀ t x, .pool t x ∉ during) (fun p x p' seen hx hseen h => ?_) (fun h => ?_) (.inl h)
  · have on : (∀ t y, x ≠ .pool t y) → (p.rest = .waiting term ∨ p.rest = .welcoming term) →
        ∃ earlier n during, seen ++ [x] = earlier ++ .calls (.becameLeader term) n :: during ∧
          ∀ t x, .pool t x ∉ during := by
      intro hpool hrest
      obtain ⟨earlier, n, during, rfl, hduring⟩ := hseen hrest
      refine ⟨earlier, n, during ++ [x], by simp, fun t y hmem => ?_⟩
      rcases List.mem_append.1 hmem with hmem | hmem
      · exact hduring t y hmem
      · exact hpool t y (List.mem_singleton.1 hmem).symm
    cases hx with
    | elector hx hrelease => exact on (by simp) h
    | welcomes =>
      obtain rfl := by simpa using h
      exact ⟨seen, _, [], rfl, by simp⟩
    | welcomed =>
      obtain rfl := by simpa using h
      exact on (by simp) (.inr rfl)
    | leaves hduring =>
      exact on (by simp) h
    | _ => simp at h
  · simp [RunStage.start] at h

end TimedExecution

/-! ## The result -/

/-- **The result of a run** of which this is the history before it
returns. -/
structure Concludes (c : Coordinator) (before : List TimedObservation)
    (result : Except RunError Unit) :
    Prop where
  /-- It returns an error in the configuration exactly if that is
  refused, -/
  refused (e : Config.Error) : result = .error (.config e) ↔ c.config.validate = .error e
  /-- and then neither the store nor the observer has been called, nor
  anything else been done. -/
  untouched {e : Config.Error} (he : c.config.validate = .error e) : before = []
  /-- It returns the caches that were not complete in time exactly if the
  wait for them timed out in some period, -/
  overdue (names : List String) (timeout : UInt64) :
    result = .error (.cacheSyncTimeout names timeout) ↔
      timeout = c.config.cacheSyncTimeout ∧
        ∃ t, .seen (.waited t (.partialTimeout names)) ∈ before
  /-- which names those without a mark at that moment, in their order; no
  worker had started in that period, and nothing of another began. -/
  period {past later : List TimedObservation} {t : Term} {names : List String}
    (h : before = past ++ .seen (.waited t (.partialTimeout names)) :: later) :
    (∃ s, past.getLast? = some (.found s) ∧ names = Barrier.unsynced s.caches) ∧
      (∃ earlier n during, observations past = earlier ++ .calls (.becameLeader t) n :: during ∧
        ∀ t x, .pool t x ∉ during) ∧
      ∀ x, .seen x ∈ later → x.begins = false
  /-- In every other case it returns well, and only after the caller has
  told it to stop. -/
  otherwise (hvalid : c.config.validate = .ok ())
    (hinTime : ∀ t names, .seen (.waited t (.partialTimeout names)) ∉ before) :
    result = .ok () ∧ ∃ s, .found s ∈ before ∧ s.stopped = true

section Concludes

variable {c : Coordinator} {before : List TimedObservation} {r : Run}
  {result : Except RunError Unit} {n : Nat}

/-- Where nothing has failed. -/
theorem concludes_of_clean (h : Clean (before ++ [.seen (.returns result n)]) r)
    (hresult : r.consumer = .finished result) (hvalid : c.config.validate = .ok ()) :
    c.Concludes before result := by
  obtain ⟨rfl, s, hs, hstopped⟩ := h.returned result hresult
  have hinTime : ∀ t names, .seen (.waited t (.partialTimeout names)) ∉ before :=
    fun t names hmem => h.inTime _ (List.mem_append_left _ hmem) ⟨t, names, rfl⟩
  refine ⟨fun e => ?_, fun he => ?_, fun names timeout => ?_, fun hbefore => ?_, fun _ _ => ?_⟩
  · rw [hvalid]
    simp
  · rw [hvalid] at he
    contradiction
  · refine ⟨fun h => by contradiction, fun ⟨_, t, hmem⟩ => absurd hmem (hinTime t names)⟩
  · rw [hbefore] at hinTime
    exact absurd (List.mem_append_right _ List.mem_cons_self) (hinTime _ _)
  · exact ⟨rfl, s, by simpa using hs, hstopped⟩

/-- Where the caches were not complete in time. -/
theorem concludes_of_overdue {past later : List TimedObservation} {s : Surroundings} {t : Term}
    (h : Overdue c (before ++ [.seen (.returns result n)]) r past s t later)
    (htimed : c.TimedExecution (before ++ [.seen (.returns result n)]) r)
    (hresult : r.consumer = .finished result) (hvalid : c.config.validate = .ok ()) :
    c.Concludes before result := by
  obtain ⟨hsplit, hpast, hlater, hfails⟩ := h
  obtain rfl := hfails.returned result hresult
  have hwaited : .seen (.waited t (.partialTimeout (Barrier.unsynced s.caches))) ∈ before := by
    have hmem : TimedObservation.seen (.waited t (.partialTimeout (Barrier.unsynced s.caches))) ∈
        before ++ [.seen (.returns (.error (.cacheSyncTimeout (Barrier.unsynced s.caches)
          c.config.cacheSyncTimeout)) n)] := by
      rw [hsplit]
      simp
    simpa using hmem
  -- no other wait has timed out
  have once : ∀ {past' later' : List TimedObservation} {t' : Term} {names : List String},
      before = past' ++ .seen (.waited t' (.partialTimeout names)) :: later' →
        past' = past ++ [.found s] ∧ t' = t ∧ names = Barrier.unsynced s.caches ∧
          ∀ m ∈ later', m ∈ later := by
    intro past' later' t' names hbefore
    rw [hbefore, List.append_assoc, List.cons_append, List.append_cons past] at hsplit
    have hnotPast : .seen (.waited t' (.partialTimeout names)) ∉ past ++ [.found s] := by
      intro hmem
      exact hpast _ (by simpa using hmem) ⟨t', names, rfl⟩
    have hnotLater : .seen (.waited t' (.partialTimeout names)) ∉ later :=
      fun hmem => Bool.false_ne_true (hlater _ hmem).symm
    obtain ⟨hpast', hx, hlater'⟩ :=
      (List.append_cons_inj_of_notMem hnotPast hnotLater).1 hsplit.symm
    obtain ⟨ht, houtcome⟩ := Observation.waited.inj (TimedObservation.seen.inj hx)
    refine ⟨hpast'.symm, ht.symm, (Barrier.Outcome.partialTimeout.inj houtcome).symm, ?_⟩
    rw [hlater']
    exact fun m hm => List.mem_append_left _ hm
  refine ⟨fun e => ?_, fun he => ?_, fun names timeout => ⟨fun h => ?_, ?_⟩, fun hbefore => ?_,
    fun _ hinTime => absurd hwaited (hinTime _ _)⟩
  · rw [hvalid]
    simp
  · rw [hvalid] at he
    contradiction
  · obtain ⟨rfl, rfl⟩ := RunError.cacheSyncTimeout.inj (Except.error.inj h)
    exact ⟨rfl, t, hwaited⟩
  · rintro ⟨rfl, t', hmem⟩
    obtain ⟨past', later', hbefore⟩ := List.append_of_mem hmem
    obtain ⟨-, -, rfl, -⟩ := once hbefore
    rfl
  · obtain ⟨rfl, rfl, rfl, hlater'⟩ := once hbefore
    refine ⟨⟨s, by simp, rfl⟩, ?_, fun x hx => hlater x (hlater' _ hx)⟩
    obtain ⟨p, ht, -⟩ := htimed.execution.trail
    rw [hbefore, List.append_assoc, List.cons_append, observations_append, observations_seen] at ht
    obtain ⟨p₁, p₂, hp₁, hx, -⟩ := ht.met rfl
    cases hx with
    | givesUp => exact welcomed_of_trail hp₁ rfl

/-- **Every run that returns has the right result**, and does nothing
afterwards. -/
theorem TimedExecution.concludes {after : List TimedObservation}
    (h : c.TimedExecution (before ++ .seen (.returns result n) :: after) r) :
    c.Concludes before result ∧ after = [] := by
  obtain ⟨rfl, hresult⟩ := h.of_returns rfl
  refine ⟨?_, rfl⟩
  cases hvalid : c.config.validate with
  | error e =>
    obtain ⟨hhistory, -⟩ := h.of_refused hvalid
    rcases List.append_eq_singleton_iff.1 hhistory with ⟨rfl, hx⟩ | ⟨-, hx⟩
    · obtain ⟨rfl, -⟩ := Observation.returns.inj (TimedObservation.seen.inj (List.cons.inj hx).1)
      refine ⟨fun e' => ?_, fun _ => rfl, fun names timeout => ?_, fun hbefore => ?_,
        fun hok => ?_⟩
      · rw [hvalid]
        simp
      · simp
      · simp at hbefore
      · rw [hvalid] at hok
        contradiction
    · contradiction
  | ok _ =>
    rcases h.clean_or_overdue hvalid with hclean | ⟨past, s, t, later, hoverdue⟩
    · exact concludes_of_clean hclean hresult hvalid
    · exact concludes_of_overdue hoverdue h hresult hvalid

end Concludes

/-- A replica that waits three seconds for its caches. -/
def impatient : Coordinator :=
  { lone with config := { lone.config with cacheSyncTimeout := 3000 } }

/-- What is found while one of two caches is not complete. -/
def incomplete (time : Nat) : Surroundings :=
  { quietly time with caches := [{ name := "nodes", synced := true }, { name := "pods" }] }

/-- A term in which that cache is waited for in vain. -/
def timedOutTerm : List TimedObservation :=
  [.found (incomplete 0), .seen (.elector (.shows .acquiring)), .seen (.elector (.calls .acquire)),
    .found (incomplete 1),
    .found (incomplete 2), .seen (.elector (.shows (.leading ⟨1⟩))),
    .seen (.elector (.announces (.becameLeader ⟨1⟩) true)),
    .found (incomplete 3), .seen (.calls (.becameLeader ⟨1⟩) 0),
    .found (incomplete 4), .seen (.returned (.becameLeader ⟨1⟩)),
    .found (incomplete 5),
    .found (incomplete 3005), .seen (.waited ⟨1⟩ (.partialTimeout ["pods"])),
    .found (incomplete 3006), .seen (.elector (.shows .released)), .seen (.elector (.revokes ⟨1⟩)),
    .seen (.elector (.announces (.lostLeadership ⟨1⟩ .shutdown) true)),
    .found (incomplete 3007),
    .found (incomplete 3008), .seen (.calls (.lostLeadership ⟨1⟩) 0),
    .found (incomplete 3009), .seen (.returned (.lostLeadership ⟨1⟩)),
    .found (incomplete 3010), .seen (.elector (.hears ⟨1⟩)),
    .seen (.elector (.calls (.release ⟨1⟩))),
    .found (incomplete 3011), .seen (.elector (.shows .standby)),
    .found (incomplete 3012), .seen (.elector .returns),
    .found (incomplete 3013)]

/-- Nobody tells it to stop, and it returns the cache. -/
theorem impatient_timedExecution : ∃ r, impatient.TimedExecution
    (timedOutTerm ++ [.seen (.returns (.error (.cacheSyncTimeout ["pods"] 3000)) 0)]) r := by
  have h₁ : impatient.TimedExecution _ _ :=
    .step (incomplete 0) {} (.elector .start) .begins (by simp) rfl
  have h₂ := h₁.step (incomplete 1) {} (.elector (.readAnswered (.error (.notFound "lease"))))
    (by simp) rfl
  have h₃ := h₂.step (incomplete 2) {} (.elector (.swapAnswered (.ok ⟨some 1⟩))) (by simp) rfl
  have h₄ := h₃.step (incomplete 3) {} .receive (by simp) rfl
  have h₅ := h₄.step (incomplete 4) {} .hookReturned (by simp) rfl
  have h₆ := h₅.step (incomplete 5) {} (.work false) (by simp) rfl
  have h₇ := h₆.step (incomplete 3005) {} (.work false) (by simp) rfl
  have h₈ := h₇.step (incomplete 3006) {} (.elector .cancelled) (by simp) rfl
  have h₉ := h₈.step (incomplete 3007) {} .receive (by simp) rfl
  have h₁₀ := h₉.step (incomplete 3008) {} .join (by simp) rfl
  have h₁₁ := h₁₀.step (incomplete 3009) {} .hookReturned (by simp) rfl
  have h₁₂ := h₁₁.step (incomplete 3010) {} (.elector .stopped) (by simp) rfl
  have h₁₃ := h₁₂.step (incomplete 3011) {}
    (.elector (.readAnswered (.error (.unavailable "outage")))) (by simp) rfl
  have h₁₄ := h₁₃.step (incomplete 3012) {} (.elector .cancelled) (by simp) rfl
  exact ⟨_, h₁₄.step (incomplete 3013) {} .receive (by simp) rfl⟩

/-- Its result is the one that is right. -/
theorem concludes_after_timeout :
    (∃ r, impatient.TimedExecution
      (timedOutTerm ++ [.seen (.returns (.error (.cacheSyncTimeout ["pods"] 3000)) 0)]) r) ∧
      impatient.Concludes timedOutTerm (.error (.cacheSyncTimeout ["pods"] 3000)) := by
  obtain ⟨r, h⟩ := impatient_timedExecution
  exact ⟨⟨r, h⟩, h.concludes.1⟩

end Tenure.Coordinator
