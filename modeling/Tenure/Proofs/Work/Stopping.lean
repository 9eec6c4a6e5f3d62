import Mathlib.Algebra.Ring.Nat
import Tenure.Proofs.Work.QueueWithPools

/-!
# The end of a pool

When the `stop` of a pool is called some of its timers may not have been
started yet: a worker that is still at a key can fail with it and start one,
told to stop or not. The tracker is closed by then, but that keeps nobody
out, and so it is not the closing on which the end of a pool rests. It rests
on who can enter. A timer enters the tracker before its worker goes on, while
the worker is still in it. So the tracker cannot be left by the last and
entered again, and once `stop` has seen it empty there is nobody who could do
anything.
-/

namespace Tenure.Work

/-- A sum after one of its items has changed. -/
theorem sum_map_set {α : Type} (f : α → Nat) {l : List α} {i : Nat} {a : α} (b : α)
    (h : l[i]? = some a) : ((l.set i b).map f).sum + f a = (l.map f).sum + f b := by
  induction l generalizing i with
  | nil => contradiction
  | cons c l ih =>
    cases i with
    | zero =>
      obtain rfl := Option.some.inj h
      simp only [List.set_cons_zero, List.map_cons, List.sum_cons]
      omega
    | succ i =>
      have hl := ih h
      simp only [List.set_cons_succ, List.map_cons, List.sum_cons]
      omega

namespace QueueWithPools

variable {w w' : QueueWithPools} {n : UInt64} {x : Event} {seen : List Event} {i : Nat}
  {s s' : StartedPool}

/-- How many workers count as live. -/
def live (w : QueueWithPools) : Nat := (w.pools.map (·.pool.active)).sum

theorem live_setPool (hs : w.pools[i]? = some s) (s' : StartedPool) :
    (w.setPool i s').live + s.pool.active = w.live + s'.pool.active :=
  sum_map_set (·.pool.active) s' hs

/-- **The counter is where it started, and the live workers beyond.** -/
theorem Step.counter (h : Step w x w') (hw : w.Sound)
    (hcounter : w.counter = n + UInt64.ofNat w.live) :
    w'.counter = n + UInt64.ofNat w'.live := by
  have same : ∀ {j : Nat} {r r' : StartedPool}, w.pools[j]? = some r → r'.pool = r.pool →
      w.counter = n + UInt64.ofNat (w.setPool j r').live := by
    intro j r r' hr hpool
    have hlive := live_setPool hr r'
    rw [hpool] at hlive
    rwa [Nat.add_right_cancel hlive]
  cases h with
  | pass htime => exact hcounter
  | add key => exact hcounter
  | start base requeueDelay m =>
    show w.counter + UInt64.ofNat m = _
    unfold live
    rw [List.map_append, List.sum_append, hcounter, UInt64.add_assoc, ← UInt64.ofNat_add]
    rfl
  | tell hs => exact same hs rfl
  | @work i s told input q p actions hs htold hinput hstep =>
    have hsound := (hw.get hs).pool
    have hactive := (Pool.does_of_step hstep hsound.wanting).active_eq hsound.sound
    let s' : StartedPool :=
      { s with pool := p, tracked := s.tracked + actions.countP PoolAction.enters }
    have hlive : (w.setPool i s').live + s.pool.active = w.live + p.active := live_setPool hs s'
    have hsum : w.live = (w.setPool i s').live + actions.countP PoolAction.retires := by omega
    show w.counter - UInt64.ofNat _ = n + UInt64.ofNat (w.setPool i s').live
    rw [hcounter, hsum, UInt64.ofNat_add, ← UInt64.add_assoc, UInt64.add_sub_cancel]
  | release hs hended => exact same hs rfl
  | stop hs hstop => exact same hs rfl
  | returned hs hstop htracked => exact same hs rfl

/-- The `stop` of a pool has returned. -/
def StopReturned (w : QueueWithPools) (i : Nat) : Prop :=
  ∃ s, w.pools[i]? = some s ∧ s.stop = .returned

/-- **A pool whose `stop` has returned** does nothing, and stays so. -/
theorem Step.stopReturned (h : Step w x w') (hw : w.Sound) (hstopped : w.StopReturned i) :
    w'.StopReturned i ∧ ∀ d, x ≠ .does i d := by
  obtain ⟨s, hs, hreturned⟩ := hstopped
  have silent : ∀ d, x ≠ .does i d := by
    obtain ⟨s', -, heffect, -⟩ := h.poolEffect hw hs
    cases heffect with
    | rests hpool hx => exact hx
    | does hx htold hinput hdoes => exact absurd hdoes ((hw.get hs).silent hreturned hinput)
  refine ⟨?_, silent⟩
  have set : ∀ {j : Nat} {r r' : StartedPool}, w.pools[j]? = some r →
      (r.stop = .returned → r'.stop = .returned) → (w.setPool j r').StopReturned i := by
    intro j r r' hr hstop
    refine exists_setPool hr hs ?_ fun _ => hreturned
    rintro rfl rfl
    exact hstop hreturned
  cases h with
  | pass htime => exact ⟨s, hs, hreturned⟩
  | add key => exact ⟨s, hs, hreturned⟩
  | start base requeueDelay m =>
    obtain ⟨hi, -⟩ := List.getElem?_eq_some_iff.1 hs
    exact ⟨s, (List.getElem?_append_left hi).trans hs, hreturned⟩
  | tell hr => exact set hr fun h => h
  | work hr htold hinput hstep => exact set hr fun h => h
  | release hr hended => exact set hr fun h => h
  | stop hr hstop => exact set hr fun h => by rw [hstop] at h; contradiction
  | returned hr hstop htracked => exact set hr fun _ => rfl

theorem Step.stopReturned_of_returns (h : Step w (.returns i) w') : w'.StopReturned i := by
  cases h with
  | @returned i s hs hstop htracked =>
    exact ⟨{ s with stop := .returned }, (getElem?_setPool hs i).trans (if_pos rfl), rfl⟩

/-- Nothing is seen of a pool after its end. -/
theorem stopReturned_of_trail (t : Trail Step w seen w') (hw : w.Sound)
    (hstopped : w.StopReturned i) :
    w'.StopReturned i ∧ ∀ d, .does i d ∉ seen := by
  let remembers : QueueWithPools → List Event → Prop := fun w seen =>
    w.Sound ∧ w.StopReturned i ∧ ∀ d, .does i d ∉ seen
  refine (t.history remembers (fun w x w' seen h hw => ?_) ⟨hw, hstopped, by simp⟩).2
  obtain ⟨hw, hstopped, hseen⟩ := hw
  obtain ⟨hstopped', hx⟩ := h.stopReturned hw hstopped
  refine ⟨h.sound hw, hstopped', fun d hd => ?_⟩
  rcases List.mem_append.1 hd with hd | hd
  · exact hseen d hd
  · exact hx d (List.mem_singleton.1 hd).symm

/-- Nobody is left in such a pool. -/
theorem empty_of_returned (h : s.Sound) (hreturned : s.stop = .returned) :
    (∀ v ∈ s.pool.workers, v = .ended) ∧ s.pool.requeues = [] ∧ s.pool.active = 0 := by
  have hcount : s.pool.memberCount = 0 :=
    Nat.le_zero.1 (h.returned hreturned ▸ h.tracked)
  obtain ⟨hworkers, hrequeues⟩ := Nat.add_eq_zero_iff.1 hcount
  refine ⟨fun v hv => ?_, List.length_eq_zero_iff.1 hrequeues,
    h.pool.sound.active.trans hworkers⟩
  simpa using List.countP_eq_zero.1 hworkers v hv

/-- **How a pool ends.** -/
structure StopsCompletely (n : UInt64) (seen : List Event) (w : QueueWithPools) : Prop where
  /-- A pool counts its workers that have not ended, -/
  share : ∀ s ∈ w.pools, s.pool.active = s.pool.workers.countP (· ≠ .ended)
  /-- and the counter counts those of all pools. -/
  counter : w.counter = n + UInt64.ofNat (w.pools.map (·.pool.active)).sum
  /-- When `stop` has returned no worker is left and no timer, -/
  empty : ∀ i before after, seen = before ++ .returns i :: after → ∃ s, w.pools[i]? = some s ∧
    (∀ v ∈ s.pool.workers, v = .ended) ∧ s.pool.requeues = [] ∧ s.pool.active = 0
  /-- and from then on the pool does nothing. -/
  silent : ∀ i before after, seen = before ++ .returns i :: after → ∀ d, .does i d ∉ after

/-- **Every pool is counted right and ends completely**, whatever its
reconciles come to, whatever is added, and whenever it is told to stop. -/
theorem stops_completely (t : Trail Step (initial n) seen w) : StopsCompletely n seen w := by
  have hsound := sound_of_trail t
  have hstopped : ∀ i before after, seen = before ++ .returns i :: after →
      w.StopReturned i ∧ ∀ d, .does i d ∉ after := by
    intro i before after hseen
    obtain ⟨u, u', hbefore, hreturns, hafter⟩ := t.met hseen
    have hu := sound_of_trail hbefore
    exact stopReturned_of_trail hafter (hreturns.sound hu) hreturns.stopReturned_of_returns
  refine ⟨fun s hs => (hsound s hs).pool.sound.active, ?_, fun i before after hseen => ?_,
    fun i before after hseen => (hstopped i before after hseen).2⟩
  · let counts : QueueWithPools → Prop := fun w => w.Sound ∧ w.counter = n + UInt64.ofNat w.live
    have hcounts : counts w := by
      refine t.preserves counts (fun _ _ _ h hw => ⟨h.sound hw.1, h.counter hw.1 hw.2⟩) ?_
      exact ⟨sound_of_trail .nil, (UInt64.add_zero n).symm⟩
    exact hcounts.2
  · obtain ⟨⟨s, hs, hreturned⟩, -⟩ := hstopped i before after hseen
    exact ⟨s, hs, empty_of_returned (hsound.get hs) hreturned⟩

/-- The counter is back where it was before the pool was started. -/
theorem stops_completely_twoFailures :
    ∃ w, Trail Step (initial 5) twoFailures w ∧ w.counter = 5 ∧
      StopsCompletely 5 twoFailures w := by
  obtain ⟨w, t, hcounter, -⟩ := trail_twoFailures
  exact ⟨w, t, hcounter, stops_completely t⟩

end QueueWithPools

end Tenure.Work
