import Mathlib.Data.Set.Insert
import Mathlib.Data.List.Range
import Tenure.Proofs.Trail
import Tenure.Work.Pool

/-!
# The members of a pool

The workers of a pool that have not ended, and the timers that are still
running, are its `Members`. Whatever a pool does, its members change one at
a time: a worker is started or ends, a timer is started or ends, and only a
member of the pool reconciles anything (`Pool.step_trail`). The number that
a pool gives as live is the number of its workers that have not ended
(`Pool.Sound`), so it is zero when the pool is empty.
-/

namespace Tenure.Work

/-- What is seen of a pool. -/
inductive Observation where
  | starts (worker : Nat)
  | reconciles (worker : Nat) (key : String)
  /-- A worker ends, however it does. -/
  | ends (worker : Nat)
  /-- A timer begins to run. -/
  | arms (id : Nat)
  /-- A timer ends. -/
  | disarms (id : Nat)
  deriving DecidableEq

namespace Observation

def ofAction : PoolAction → List Observation
  | .reconcile worker key => [.reconciles worker key]
  | .startRequeue id => [.arms id]
  | .retire worker => [.ends worker]
  | .note _ => []

def ofInput : PoolInput → List Observation
  | .requeueDue id => [.disarms id]
  | .requeueStopped id => [.disarms id]
  | _ => []

/-- **What is seen of a step.** -/
def ofStep (input : PoolInput) (actions : List PoolAction) : List Observation :=
  ofInput input ++ actions.flatMap ofAction

/-- No step starts a worker. -/
theorem starts_notMem_ofStep (input : PoolInput) (actions : List PoolAction) (i : Nat) :
    .starts i ∉ ofStep input actions := by
  intro h
  rcases List.mem_append.1 h with h | h
  · cases input <;> simp [ofInput] at h
  · obtain ⟨a, -, ha⟩ := List.mem_flatMap.1 h
    cases a <;> simp [ofAction] at ha

/-- What is seen of the start of a pool. -/
def ofStart (workerCount : Nat) : List Observation := (List.range workerCount).map .starts

end Observation

/-- The workers and the timers of a pool that have not ended. -/
structure Members where
  workers : Set Nat
  timers : Set Nat

namespace Members

/-- Nobody. -/
def none : Members := ⟨∅, ∅⟩

/-- **How members come and go.** -/
inductive Next : Members → Observation → Members → Prop
  | starts {m : Members} {i : Nat} (h : i ∉ m.workers) :
    Next m (.starts i) { m with workers := insert i m.workers }
  | reconciles {m : Members} {i : Nat} {key : String} (h : i ∈ m.workers) :
    Next m (.reconciles i key) m
  | ends {m : Members} {i : Nat} (h : i ∈ m.workers) :
    Next m (.ends i) { m with workers := m.workers \ {i} }
  | arms {m : Members} {id : Nat} (hworkers : m.workers.Nonempty) (h : id ∉ m.timers) :
    Next m (.arms id) { m with timers := insert id m.timers }
  | disarms {m : Members} {id : Nat} (h : id ∈ m.timers) :
    Next m (.disarms id) { m with timers := m.timers \ {id} }

/-- The workers below a number are started in order. -/
theorem trail_ofStart (n : Nat) : Trail Next none (Observation.ofStart n) ⟨{i | i < n}, ∅⟩ := by
  induction n with
  | zero =>
    have h : ({i | i < 0} : Set Nat) = ∅ := by ext i; simp
    rw [h]
    exact .nil
  | succ n ih =>
    have h : ({i | i < n + 1} : Set Nat) = insert n {i | i < n} := by
      ext i
      simp only [Set.mem_ofPred_eq, Set.mem_insert_iff]
      omega
    unfold Observation.ofStart at ih ⊢
    rw [List.range_succ, List.map_append, h]
    exact ih.append (.single (.starts (Nat.lt_irrefl n)))

/-- Without members nothing happens but that a worker is started. -/
theorem Next.of_none {x : Observation} {m : Members} (h : Next none x m) : ∃ i, x = .starts i := by
  cases h with
  | starts h => exact ⟨_, rfl⟩
  | reconciles h => exact absurd h (Set.notMem_empty _)
  | ends h => exact absurd h (Set.notMem_empty _)
  | arms hworkers h => exact absurd hworkers Set.not_nonempty_empty
  | disarms h => exact absurd h (Set.notMem_empty _)

end Members

namespace Pool

/-- The members of a pool. -/
def members (p : Pool) : Members where
  workers := {i | ∃ w, p.workers[i]? = some w ∧ w ≠ .ended}
  timers := {id | ∃ r ∈ p.requeues, r.id = id}

/-- **A pool counts its live workers**, and gives each timer a number of
its own. -/
structure Sound (p : Pool) : Prop where
  active : p.active = p.workers.countP (· ≠ .ended)
  numbered : ∀ r ∈ p.requeues, r.id < p.nextRequeue

/-- A pool begins with all its workers. -/
theorem members_start (base requeueDelay n : Nat) :
    (Pool.start base requeueDelay n).members = ⟨{i | i < n}, ∅⟩ := by
  have hworkers : {i | ∃ w, (List.replicate n Worker.created)[i]? = some w ∧ w ≠ .ended}
      = {i | i < n} := by
    ext i
    simp [List.getElem?_replicate]
  have htimers : {id | ∃ r ∈ ([] : List Requeue), r.id = id} = ∅ := by
    ext id
    simp
  unfold members start
  rw [hworkers, htimers]

theorem sound_start (base requeueDelay n : Nat) : (Pool.start base requeueDelay n).Sound where
  active := by simp [start, List.countP_replicate]
  numbered r h := by contradiction

/-- A pool is empty when it has no members. -/
theorem isEmpty_iff (p : Pool) : p.isEmpty = true ↔ p.members = Members.none := by
  have hworkers : {i : Nat | ∃ w, p.workers[i]? = some w ∧ w ≠ .ended} = ∅ ↔
      ∀ w ∈ p.workers, w = .ended := by
    rw [Set.eq_empty_iff_forall_notMem]
    constructor
    · intro h w hw
      obtain ⟨i, hi, rfl⟩ := List.getElem_of_mem hw
      by_contra hended
      exact h i ⟨_, List.getElem?_eq_getElem hi, hended⟩
    · rintro h i ⟨w, hw, hended⟩
      exact hended (h w (List.mem_of_getElem? hw))
  have htimers : {id | ∃ r ∈ p.requeues, r.id = id} = ∅ ↔ p.requeues = [] := by
    rw [Set.eq_empty_iff_forall_notMem]
    constructor
    · intro h
      exact List.eq_nil_iff_forall_not_mem.2 fun r hr => h r.id ⟨r, hr, rfl⟩
    · rintro h id ⟨r, hr, -⟩
      rw [h] at hr
      contradiction
  unfold isEmpty members Members.none
  rw [Members.mk.injEq, hworkers, htimers, Bool.and_eq_true, List.isEmpty_iff, List.all_eq_true]
  simp only [decide_eq_true_eq]
  exact And.comm

/-- Then nobody counts as live. -/
theorem Sound.active_eq_zero {p : Pool} (hp : p.Sound) (h : p.members = Members.none) :
    p.active = 0 := by
  rw [hp.active, List.countP_eq_zero]
  intro w hw
  rw [← isEmpty_iff] at h
  unfold isEmpty at h
  rw [Bool.and_eq_true, List.all_eq_true] at h
  simpa using h.2 w hw

/-! ## Steps -/

section Workers

variable {p : Pool} {i : Nat} {w w' : Worker}

theorem mem_workers (hw : p.workers[i]? = some w) (hlive : w ≠ .ended) : i ∈ p.members.workers :=
  ⟨w, hw, hlive⟩

/-- Who is live once a worker has got to somewhere else. -/
theorem exists_live_set (hw : p.workers[i]? = some w) (j : Nat) :
    (∃ v, (p.workers.set i w')[j]? = some v ∧ v ≠ .ended) ↔
      if i = j then w' ≠ .ended else ∃ v, p.workers[j]? = some v ∧ v ≠ .ended := by
  obtain ⟨hi, -⟩ := List.getElem?_eq_some_iff.1 hw
  rw [List.getElem?_set]
  by_cases hij : i = j
  · rw [if_pos hij, if_pos hij, if_pos hi]
    simp
  · rw [if_neg hij, if_neg hij]

/-- A live worker goes on to something else. -/
theorem members_set (hw : p.workers[i]? = some w) (hlive : w ≠ .ended) (hlive' : w' ≠ .ended) :
    { p with workers := p.workers.set i w' }.members = p.members := by
  refine congrArg (Members.mk · _) (Set.ext fun j => (exists_live_set hw j).trans ?_)
  by_cases hij : i = j
  · subst hij
    rw [if_pos rfl]
    exact ⟨fun _ => mem_workers hw hlive, fun _ => hlive'⟩
  · rw [if_neg hij]
    rfl

theorem members_endWorker (hw : p.workers[i]? = some w) :
    (p.endWorker i).members = { p.members with workers := p.members.workers \ {i} } := by
  refine congrArg (Members.mk · _) (Set.ext fun j => (exists_live_set hw j).trans ?_)
  rw [Set.mem_sdiff, Set.mem_singleton_iff]
  by_cases hij : i = j
  · subst hij
    simp
  · rw [if_neg hij]
    exact ⟨fun h => ⟨h, fun h' => hij h'.symm⟩, fun h => h.1⟩

/-- How many count as live then. -/
theorem countP_set (hw : p.workers[i]? = some w) (hlive : w ≠ .ended) :
    (p.workers.set i w').countP (· ≠ .ended)
      = p.workers.countP (· ≠ .ended) - 1 + if w' ≠ .ended then 1 else 0 := by
  obtain ⟨hi, hwi⟩ := List.getElem?_eq_some_iff.1 hw
  rw [List.countP_set hi]
  simp [hwi, hlive]

theorem Sound.set (hp : p.Sound) (hw : p.workers[i]? = some w) (hlive : w ≠ .ended)
    (hlive' : w' ≠ .ended) : { p with workers := p.workers.set i w' }.Sound where
  active := by
    have hpos : 0 < p.workers.countP (· ≠ .ended) :=
      List.countP_pos_iff.2 ⟨w, List.mem_of_getElem? hw, by simpa using hlive⟩
    rw [countP_set hw hlive, if_pos hlive', Nat.sub_add_cancel hpos]
    exact hp.active
  numbered := hp.numbered

theorem Sound.endWorker (hp : p.Sound) (hw : p.workers[i]? = some w) (hlive : w ≠ .ended) :
    (p.endWorker i).Sound where
  active := by
    show p.active - 1 = (p.workers.set i .ended).countP (· ≠ .ended)
    rw [countP_set hw hlive, hp.active]
    rfl
  numbered := hp.numbered

/-- **A worker after its step at the queue.** -/
theorem sought_trail (hp : p.Sound) {k : Seeker} (hw : p.workers[i]? = some (.seeking k))
    (k' : Seeker) :
    Trail Members.Next p.members ((p.sought i k').2.flatMap Observation.ofAction)
      (p.sought i k').1.members ∧ (p.sought i k').1.Sound := by
  have hlive : Worker.seeking k ≠ .ended := by simp
  have goesOn : ∀ k' : Seeker, Trail Members.Next p.members []
      { p with workers := p.workers.set i (.seeking k') }.members ∧
      { p with workers := p.workers.set i (.seeking k') }.Sound := by
    intro k'
    rw [members_set hw hlive (by simp)]
    exact ⟨.nil, hp.set hw hlive (by simp)⟩
  cases k' with
  | looking => exact goesOn .looking
  | enlisting => exact goesOn .enlisting
  | listening => exact goesOn .listening
  | found key =>
    refine ⟨?_, hp.set hw hlive (by simp)⟩
    rw [show (p.sought i (.found key)).1.members = p.members from
      members_set hw hlive (by simp)]
    exact .single (.reconciles (mem_workers hw hlive))
  | gone =>
    refine ⟨?_, hp.endWorker hw hlive⟩
    rw [show (p.sought i .gone).1.members = _ from members_endWorker hw]
    exact .single (.ends (mem_workers hw hlive))

end Workers

section Timers

variable {p : Pool}

/-- A timer ends. -/
theorem members_filter (p : Pool) (id : Nat) :
    { p with requeues := p.requeues.filter (·.id ≠ id) }.members
      = { p.members with timers := p.members.timers \ {id} } := by
  refine congrArg (Members.mk p.members.workers ·) (Set.ext fun id' => ?_)
  rw [Set.mem_sdiff, Set.mem_singleton_iff]
  constructor
  · rintro ⟨r, hr, rfl⟩
    obtain ⟨hr, hne⟩ := List.mem_filter.1 hr
    exact ⟨⟨r, hr, rfl⟩, by simpa using hne⟩
  · rintro ⟨⟨r, hr, rfl⟩, hne⟩
    exact ⟨r, List.mem_filter.2 ⟨hr, by simpa using hne⟩, rfl⟩

theorem Sound.filter (hp : p.Sound) (id : Nat) :
    { p with requeues := p.requeues.filter (·.id ≠ id) }.Sound where
  active := hp.active
  numbered r hr := hp.numbered r (List.mem_of_mem_filter hr)

/-- A timer begins to run. -/
theorem members_append (p : Pool) (timer : Requeue) (n : Nat) :
    { p with requeues := p.requeues ++ [timer], nextRequeue := n }.members
      = { p.members with timers := insert timer.id p.members.timers } := by
  refine congrArg (Members.mk p.members.workers ·) (Set.ext fun id => ?_)
  rw [Set.mem_insert_iff]
  constructor
  · rintro ⟨r, hr, rfl⟩
    rcases List.mem_append.1 hr with hr | hr
    · exact .inr ⟨r, hr, rfl⟩
    · exact .inl (congrArg Requeue.id (List.mem_singleton.1 hr))
  · rintro (rfl | ⟨r, hr, rfl⟩)
    · exact ⟨timer, List.mem_append.2 (.inr (List.mem_singleton.2 rfl)), rfl⟩
    · exact ⟨r, List.mem_append.2 (.inl hr), rfl⟩

theorem Sound.append (hp : p.Sound) (key : String) (due : Nat) :
    { p with
      requeues := p.requeues ++ [(⟨p.nextRequeue, key, due⟩ : Requeue)]
      nextRequeue := p.nextRequeue + 1 }.Sound where
  active := hp.active
  numbered r hr := by
    rcases List.mem_append.1 hr with hr | hr
    · exact Nat.lt_succ_of_lt (hp.numbered r hr)
    · obtain rfl := List.mem_singleton.1 hr
      exact Nat.lt_succ_self _

end Timers

/-- The reconcile of a worker has ended. -/
theorem returned_trail {q q' : Queue} {time : Nat} {told : Bool} {p p' : Pool} {i : Nat}
    {result : Reconciled} {actions : List PoolAction}
    (h : Pool.step q time told p (.returned i result) = some (q', p', actions)) (hp : p.Sound) :
    Trail Members.Next p.members (Observation.ofStep (.returned i result) actions) p'.members ∧
      p'.Sound := by
  simp only [step] at h
  split at h
  · rename_i key hw
    have hlive : Worker.reconciling key ≠ .ended := by simp
    have hset := @members_set p i _ (.seeking .looking) hw hlive (by simp)
    have hsound := @Sound.set p i _ (.seeking .looking) hp hw hlive (by simp)
    cases result with
    | ok =>
      simp only [Option.some.injEq, Prod.mk.injEq] at h
      obtain ⟨rfl, rfl, rfl⟩ := h
      rw [hset]
      exact ⟨.nil, hsound⟩
    | failed message =>
      simp only [Option.some.injEq, Prod.mk.injEq] at h
      obtain ⟨rfl, rfl, rfl⟩ := h
      refine ⟨?_, hsound.append key _⟩
      rw [show _ = _ from members_append { p with workers := p.workers.set i (.seeking .looking) }
        ⟨p.nextRequeue, key, pauseEnd time p.requeueDelay⟩ (p.nextRequeue + 1), hset]
      refine .single (.arms ⟨i, mem_workers hw hlive⟩ ?_)
      rintro ⟨r, hr, hid⟩
      exact Nat.ne_of_lt (hp.numbered r hr) hid
    | crashed =>
      simp only [Option.some.injEq, Prod.mk.injEq] at h
      obtain ⟨rfl, rfl, rfl⟩ := h
      rw [members_endWorker hw]
      exact ⟨.single (.ends (mem_workers hw hlive)), hp.endWorker hw hlive⟩
  · contradiction

/-- **Whatever a pool does, its members come and go one at a time.** -/
theorem step_trail {q q' : Queue} {time : Nat} {told : Bool} {p p' : Pool} {input : PoolInput}
    {actions : List PoolAction} (h : Pool.step q time told p input = some (q', p', actions))
    (hp : p.Sound) :
    Trail Members.Next p.members (Observation.ofStep input actions) p'.members ∧ p'.Sound := by
  cases input with
  | «begin» i =>
    simp only [step] at h
    split at h
    · rename_i hw
      simp only [Option.some.injEq, Prod.mk.injEq] at h
      obtain ⟨rfl, rfl, rfl⟩ := h
      rw [members_set hw (by simp) (by simp)]
      exact ⟨.nil, hp.set hw (by simp) (by simp)⟩
    · contradiction
  | seek i wakeFirst =>
    simp only [step] at h
    split at h
    · rename_i k hw
      simp only [Option.some.injEq, Prod.mk.injEq] at h
      obtain ⟨rfl, rfl, rfl⟩ := h
      exact sought_trail hp hw _
    · contradiction
  | returned i result => exact returned_trail h hp
  | requeueDue id =>
    simp only [step] at h
    split at h
    · rename_i timer hfind
      simp only [Option.some.injEq, Prod.mk.injEq] at h
      obtain ⟨rfl, rfl, rfl⟩ := h
      have hfound := List.find?_some hfind
      rw [Bool.and_eq_true, decide_eq_true_eq] at hfound
      refine ⟨?_, hp.filter id⟩
      rw [members_filter]
      exact .single (.disarms ⟨timer, List.mem_of_find?_eq_some hfind, hfound.1⟩)
    · contradiction
  | requeueStopped id =>
    simp only [step] at h
    split at h
    · rename_i hany
      simp only [Option.some.injEq, Prod.mk.injEq] at h
      obtain ⟨rfl, rfl, rfl⟩ := h
      obtain ⟨timer, htimer, hid⟩ := List.any_eq_true.1 (Bool.and_eq_true_iff.1 hany).2
      refine ⟨?_, hp.filter id⟩
      rw [members_filter]
      exact .single (.disarms ⟨timer, htimer, by simpa using hid⟩)
    · contradiction
  | cancel =>
    simp only [step, Option.some.injEq, Prod.mk.injEq] at h
    obtain ⟨rfl, rfl, rfl⟩ := h
    exact ⟨.nil, hp.active, hp.numbered⟩

/-- A pool without members gets none. -/
theorem step_empty {q q' : Queue} {time : Nat} {told : Bool} {p p' : Pool} {input : PoolInput}
    {actions : List PoolAction} (h : Pool.step q time told p input = some (q', p', actions))
    (hp : p.Sound) (hempty : p.members = .none) :
    Observation.ofStep input actions = [] ∧ p'.members = .none := by
  have t := (step_trail h hp).1
  rw [hempty] at t
  generalize p'.members = m at t ⊢
  cases hseen : Observation.ofStep input actions with
  | nil =>
    rw [hseen] at t
    cases t
    exact ⟨rfl, rfl⟩
  | cons x seen =>
    rw [hseen] at t
    cases t with
    | cons hx _ =>
      obtain ⟨i, rfl⟩ := hx.of_none
      exact absurd (hseen ▸ List.mem_cons_self) (Observation.starts_notMem_ofStep input actions i)

end Pool

end Tenure.Work
