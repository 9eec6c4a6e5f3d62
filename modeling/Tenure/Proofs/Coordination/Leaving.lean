import Tenure.Proofs.Coordination.Handover

/-!
# What a run leaves behind

A run returns once its elector has ended. As a rule that is between terms or
after the hook for a loss, when all workers and timers have ended, and
nothing is done any more. The one other case is a failure that brings the
elector down while it leads: its end of the term is never announced, so
nobody waits for the work, and nobody tells it to stop. The run returns the
failure, and the workers go on (`leaves_workers_behind`).
-/

namespace Tenure

/-- **The elector was brought down while it led**: between the announcement
of a term and that of its end. -/
def Election.BroughtDownLeading (seen : List Election.Observation) : Prop :=
  ∃ before after t, seen = before ++ .falls :: after ∧
    latest Observation.isTurn before = some (.announces (.becameLeader t) true)

theorem Election.broughtDownLeading_of_trail {seen : List Election.Observation} {term : Term}
    (t : Trail (Next false) .idle seen (.down (some term))) : BroughtDownLeading seen := by
  rcases List.eq_nil_or_concat seen with rfl | ⟨before, x, rfl⟩
  · cases t
  · rw [List.concat_eq_append] at t ⊢
    obtain ⟨a, b, hbefore, hx, hafter⟩ := t.met rfl
    cases hafter
    cases hx with
    | fallsLeading =>
      exact ⟨before, [], term, rfl, (announced_of_trail hbefore rfl term).2 rfl⟩

namespace Coordinator

/-- When a run has returned, only its elector is still seen. -/
theorem closed_of_trail {p p' : RunStage} {seen : List Observation} (t : Trail Next p seen p')
    (h : p.rest = .closed) : p'.rest = .closed ∧ ∀ term x, .pool term x ∉ seen := by
  induction t with
  | nil => exact ⟨h, fun _ _ => List.not_mem_nil⟩
  | cons hx _ ih =>
    cases hx with
    | elector hx hrelease =>
      obtain ⟨hclosed, hseen⟩ := ih h
      exact ⟨hclosed, fun term x hmem => (List.mem_cons.1 hmem).elim (by simp) (hseen term x)⟩
    | parts hdone => cases hdone <;> contradiction
    | leaves hduring => cases hduring <;> contradiction
    | _ => contradiction

/-- **A run that has returned has left nobody behind**, unless its elector
was brought down while it led: all its workers and timers have ended, nobody
counts as live, and nothing is done any more. Only the failure of the elector
is ever returned otherwise. -/
theorem Execution.allEnded_of_returns {c : Coordinator} {before after : List Observation} {r : Run}
    {result : Except RunError Unit} {n : Nat}
    (h : c.Execution (before ++ .returns result n :: after) r)
    (hdown : result = .error .electorTask →
      ¬ Election.BroughtDownLeading (before.filterMap Observation.elector?)) :
    AllEnded before ∧ n = 0 ∧ r.active = 0 ∧ ∀ term x, .pool term x ∉ after := by
  obtain ⟨z, t, hfits⟩ := h.trail
  obtain ⟨p, p', hbefore, hx, hafter⟩ := t.met rfl
  have hleft : ∀ p' : RunStage, p'.rest = .closed → Trail Next p' after z →
      r.active = 0 ∧ ∀ term x, .pool term x ∉ after := by
    intro p' hclosed hafter
    obtain ⟨hz, hseen⟩ := closed_of_trail hafter hclosed
    refine ⟨?_, hseen⟩
    have hagree := hfits.agree
    rw [hz] at hagree
    unfold Run.active
    rw [hagree.work_eq_none]
  cases hx with
  | returns => exact ⟨allEnded_of_trail hbefore rfl, rfl, hleft _ rfl hafter⟩
  | returnsParted => exact ⟨allEnded_of_trail hbefore rfl, rfl, hleft _ rfl hafter⟩
  | leaves hduring =>
    exact absurd (Election.broughtDownLeading_of_trail (elector_trail hbefore)) (hdown rfl)

/-- The end of a run after that term. -/
def oneEnd : List Observation := [.elector (.shows .standby), .elector .returns]

theorem lone_execution_to_end :
    ∃ r, lone.Execution (oneRound ++ oneEnd ++ [.returns (.ok ()) 0]) r := by
  have h₁ := lone_execution.step (quietly 10012) {} (.elector .timeUp) rfl
  have h₂ := h₁.step { quietly 10013 with stopped := true } {} (.elector .cancelled) rfl
  exact ⟨_, h₂.step { quietly 10014 with stopped := true } {} .receive rfl⟩

/-- It leaves nobody behind. -/
theorem allEnded_after_term :
    ∃ r, lone.Execution (oneRound ++ oneEnd ++ [.returns (.ok ()) 0]) r ∧
      AllEnded (oneRound ++ oneEnd) ∧ r.active = 0 := by
  obtain ⟨r, h⟩ := lone_execution_to_end
  obtain ⟨hended, -, hactive, -⟩ := h.allEnded_of_returns (fun h => by contradiction)
  exact ⟨r, h, hended, hactive⟩

/-- A failure during the first renewal of the term. -/
def oneFall : List Observation := [.elector (.calls (.renew ⟨1⟩)), .elector .falls]

/-- **A run may return and leave its workers behind**, when a failure brings
its elector down in a renewal: a worker counts as live, and takes a key
afterwards. -/
theorem leaves_workers_behind :
    ∃ r, lone.Execution (oneRound.take 8 ++ oneFall ++ [.returns (.error .electorTask) 1,
      .pool ⟨1⟩ (.reconciles 0 "key")]) r ∧ r.active = 1 := by
  have h₁ := lone_execution_to_work.step (quietly 5002) {} (.elector .timeUp) rfl
  have h₂ := h₁.step (quietly 5003) {} (.elector .crash) rfl
  have h₃ := h₂.step (quietly 5004) {} .receive rfl
  have h₄ := h₃.step (quietly 5005) {} (.pool (.begin 0)) rfl
  have h₅ := h₄.step (quietly 5006) { items := ["key"], queued := ["key"] }
    (.pool (.seek 0 false)) rfl
  exact ⟨_, h₅, rfl⟩

end Coordinator

end Tenure
