import Tenure.Proofs.Work.Doing

/-!
# Pools on one queue

Any number of pools work on one queue and count their live workers in one
counter. Each is a `StartedPool`: it is started, it is told to stop at some
moment, by its own `stop` or by whoever started it, and `stop` returns when
nobody is left. To know that, it does not look at the workers and the timers
but at a tracker, which every member enters before it begins to run and leaves
some time after it has ended.

When a member takes its next step, how long a reconcile takes and how it
ends, and when keys are added from outside is open, and so is how late a
member learns that its pool was told to stop.
-/

namespace Tenure.Work

/-- How far the `stop` of a pool is. -/
inductive Stop where
  | uncalled
  | waiting
  | returned
  deriving DecidableEq

/-- A pool that was started. -/
structure StartedPool where
  pool : Pool
  /-- Whether it was told to stop. -/
  told : Bool := false
  stop : Stop := .uncalled
  /-- How many have entered the tracker and not left it. -/
  tracked : Nat

/-- **Pools on one queue**, in the order of their starts, and the counter of
their live workers. -/
structure QueueWithPools where
  time : Nat := 0
  queue : Queue := {}
  counter : UInt64
  pools : List StartedPool := []

/-- What is seen of it. -/
inductive Event where
  | passes
  /-- A key is added from outside, and accepted or not. -/
  | adds (key : String) (accepted : Bool)
  | starts (workers : Nat)
  | tells (pool : Nat)
  | does (pool : Nat) (d : Doing)
  /-- A member leaves the tracker. -/
  | releases (pool : Nat)
  | stops (pool : Nat)
  /-- The `stop` of a pool returns. -/
  | returns (pool : Nat)
  deriving DecidableEq

/-- A pool that begins; its workers have entered the tracker. -/
def StartedPool.initial (base requeueDelay n : Nat) : StartedPool where
  pool := .start base requeueDelay n
  tracked := n

/-- **A pool is in order**: all its members are in the tracker, and nobody is
if its `stop` has returned. -/
structure StartedPool.Sound (s : StartedPool) : Prop where
  pool : s.pool.Regular
  stopping : s.stop ≠ .uncalled → s.told = true
  cancelled : s.pool.cancelled = true → s.told = true
  tracked : s.pool.memberCount ≤ s.tracked
  returned : s.stop = .returned → s.tracked = 0

/-- **A pool whose `stop` has returned does nothing.** -/
theorem StartedPool.Sound.silent {s : StartedPool} (h : s.Sound) (hreturned : s.stop = .returned)
    {q q' : Queue} {time : Nat} {told : Bool} {p' : Pool} {input : PoolInput} {d : Doing}
    {actions : List PoolAction} (hinput : input = .cancel → s.stop = .waiting) :
    ¬Pool.Does q time told s.pool input d q' p' actions := by
  intro hdoes
  have hsome : 0 < s.pool.memberCount := by
    refine hdoes.memberCount_pos fun hcancel => ?_
    have hwaiting := hinput hcancel
    rw [hreturned] at hwaiting
    contradiction
  have hempty := h.returned hreturned
  have htracked := h.tracked
  omega

theorem StartedPool.sound_initial (base requeueDelay n : Nat) :
    (StartedPool.initial base requeueDelay n).Sound where
  pool := Pool.regular_start base requeueDelay n
  stopping h := absurd rfl h
  cancelled h := by contradiction
  tracked := Nat.le_of_eq (Pool.memberCount_start base requeueDelay n)
  returned h := by contradiction

namespace QueueWithPools

/-- Nothing has been started. -/
def initial (counter : UInt64) : QueueWithPools where
  counter := counter

/-- The same with one pool changed. -/
def setPool (w : QueueWithPools) (i : Nat) (s : StartedPool) : QueueWithPools :=
  { w with pools := w.pools.set i s }

/-- **One step.** Time passes, a key comes from outside, a
pool is started, is told to stop, takes a step, or is stopped. -/
inductive Step : QueueWithPools → Event → QueueWithPools → Prop
  | pass {w : QueueWithPools} {time : Nat} (h : w.time ≤ time) : Step w .passes { w with time }
  | add {w : QueueWithPools} (key : String) :
    Step w (.adds key (w.queue.add key).2) { w with queue := (w.queue.add key).1 }
  | start {w : QueueWithPools} (base requeueDelay n : Nat) :
    Step w (.starts n) { w with
      counter := w.counter + UInt64.ofNat n
      pools := w.pools ++ [.initial base requeueDelay n] }
  | tell {w : QueueWithPools} {i : Nat} {s : StartedPool} (hs : w.pools[i]? = some s) :
    Step w (.tells i) (w.setPool i { s with told := true })
  -- A pool may learn late that it was told to stop, but not before it was.
  | work {w : QueueWithPools} {i : Nat} {s : StartedPool} {told : Bool} {input : PoolInput}
      {q : Queue}
      {p : Pool} {actions : List PoolAction} (hs : w.pools[i]? = some s)
      (htold : told = true → s.told = true) (hinput : input = .cancel → s.stop = .waiting)
      (hstep : Pool.step w.queue w.time told s.pool input = some (q, p, actions)) :
    Step w (.does i (s.pool.doing w.queue w.time input actions))
      ({ w with
        queue := q
        counter := w.counter - UInt64.ofNat (actions.countP PoolAction.retires) }.setPool i
          { s with pool := p, tracked := s.tracked + actions.countP PoolAction.enters })
  | release {w : QueueWithPools} {i : Nat} {s : StartedPool} (hs : w.pools[i]? = some s)
      (hended : s.pool.memberCount < s.tracked) :
    Step w (.releases i) (w.setPool i { s with tracked := s.tracked - 1 })
  | stop {w : QueueWithPools} {i : Nat} {s : StartedPool} (hs : w.pools[i]? = some s)
      (hstop : s.stop = .uncalled) :
    Step w (.stops i) (w.setPool i { s with told := true, stop := .waiting })
  | returned {w : QueueWithPools} {i : Nat} {s : StartedPool} (hs : w.pools[i]? = some s)
      (hstop : s.stop = .waiting) (htracked : s.tracked = 0) :
    Step w (.returns i) (w.setPool i { s with stop := .returned })

variable {w w' : QueueWithPools} {x : Event} {i j : Nat} {s s' : StartedPool}

theorem getElem?_setPool (hs : w.pools[i]? = some s) (j : Nat) :
    (w.setPool i s').pools[j]? = if i = j then some s' else w.pools[j]? := by
  obtain ⟨hi, -⟩ := List.getElem?_eq_some_iff.1 hs
  show (w.pools.set i s')[j]? = _
  rw [List.getElem?_set, if_pos hi]

/-- One of the pools after another one has changed, or it itself. -/
theorem exists_setPool {P : StartedPool → Prop} {r r' : StartedPool} (hr : w.pools[j]? = some r)
    (hs : w.pools[i]? = some s) (hself : j = i → r = s → P r') (hother : j ≠ i → P s) :
    ∃ s', (w.setPool j r').pools[i]? = some s' ∧ P s' := by
  rw [getElem?_setPool hr]
  by_cases hj : j = i
  · subst hj
    exact ⟨r', if_pos rfl, hself rfl (Option.some.inj (hr.symm.trans hs))⟩
  · exact ⟨s, (if_neg hj).trans hs, hother hj⟩

/-! ## What a step keeps -/

/-- All pools are in order. -/
def Sound (w : QueueWithPools) : Prop := ∀ s ∈ w.pools, s.Sound

theorem Sound.get (hw : w.Sound) (hs : w.pools[i]? = some s) : s.Sound :=
  hw s (List.mem_of_getElem? hs)

theorem Sound.set (hw : w.Sound) (hs' : s'.Sound) : (w.setPool i s').Sound := by
  intro s hs
  rcases List.mem_or_eq_of_mem_set hs with hs | rfl
  · exact hw s hs
  · exact hs'

theorem Step.sound (h : Step w x w') (hw : w.Sound) : w'.Sound := by
  cases h with
  | pass htime => exact hw
  | add key => exact hw
  | start base requeueDelay n =>
    intro s hs
    rcases List.mem_append.1 hs with hs | hs
    · exact hw s hs
    · obtain rfl := List.mem_singleton.1 hs
      exact StartedPool.sound_initial base requeueDelay n
  | tell hs =>
    have hsound := hw.get hs
    exact hw.set ⟨hsound.pool, fun _ => rfl, fun _ => rfl, hsound.tracked, hsound.returned⟩
  | @work i s told input q p actions hs htold hinput hstep =>
    have hsound := hw.get hs
    have hdoes := Pool.does_of_step hstep hsound.pool.wanting
    refine Sound.set hw ⟨hsound.pool.of_step hstep, hsound.stopping, fun hcancelled => ?_, ?_,
      fun hreturned => ?_⟩
    · rcases hdoes.cancelled hcancelled with hcancelled | hcancel
      · exact hsound.cancelled hcancelled
      · exact hsound.stopping (by rw [hinput hcancel]; simp)
    · exact Nat.le_trans hdoes.memberCount_le (Nat.add_le_add_right hsound.tracked _)
    · exact absurd hdoes (hsound.silent hreturned hinput)
  | release hs hended =>
    have hsound := hw.get hs
    exact hw.set ⟨hsound.pool, hsound.stopping, hsound.cancelled, Nat.le_sub_one_of_lt hended,
      fun hreturned => by rw [hsound.returned hreturned]⟩
  | stop hs hstop =>
    have hsound := hw.get hs
    exact hw.set ⟨hsound.pool, fun _ => rfl, fun _ => rfl, hsound.tracked,
      fun hreturned => by contradiction⟩
  | returned hs hstop htracked =>
    have hsound := hw.get hs
    have htold := hsound.stopping (by rw [hstop]; simp)
    exact hw.set ⟨hsound.pool, fun _ => htold, fun _ => htold, hsound.tracked, fun _ => htracked⟩

theorem sound_of_trail {n : UInt64} {seen : List Event} (t : Trail Step (initial n) seen w) :
    w.Sound :=
  t.preserves Sound (fun _ _ _ h hw => h.sound hw) (fun s hs => by contradiction)

/-! ## What a step does to one pool -/

/-- **A pool after a step**: another step, or one that it took itself. -/
inductive PoolEffect (w : QueueWithPools) (i : Nat) (s : StartedPool) (x : Event)
    (w' : QueueWithPools) (s' : StartedPool) : Prop
  | rests (hpool : s'.pool = s.pool) (hx : ∀ d, x ≠ .does i d)
  | does {told : Bool} {input : PoolInput} {d : Doing} {actions : List PoolAction}
      (hx : x = .does i d) (htold : told = true → s.told = true)
      (hinput : input = .cancel → s.stop = .waiting)
      (hdoes : Pool.Does w.queue w.time told s.pool input d w'.queue s'.pool actions)

/-- No pool is lost, and none forgets that it was told to stop. -/
theorem Step.poolEffect (h : Step w x w') (hw : w.Sound) (hs : w.pools[i]? = some s) :
    ∃ s', w'.pools[i]? = some s' ∧ PoolEffect w i s x w' s' ∧ (s.told = true → s'.told = true) := by
  -- Whatever changes nothing about the members of a pool.
  have same : ∀ {j : Nat} {r r' : StartedPool}, w.pools[j]? = some r → r'.pool = r.pool →
      (r.told = true → r'.told = true) → (∀ d, x ≠ .does i d) →
      ∃ s', (w.setPool j r').pools[i]? = some s' ∧ PoolEffect w i s x w' s' ∧
        (s.told = true → s'.told = true) := by
    intro j r r' hr hpool htold hx
    refine exists_setPool hr hs ?_ fun _ => ⟨.rests rfl hx, fun h => h⟩
    rintro rfl rfl
    exact ⟨.rests hpool hx, htold⟩
  cases h with
  | pass htime => exact ⟨s, hs, .rests rfl (by simp), fun h => h⟩
  | add key => exact ⟨s, hs, .rests rfl (by simp), fun h => h⟩
  | start base requeueDelay n =>
    obtain ⟨hi, -⟩ := List.getElem?_eq_some_iff.1 hs
    exact ⟨s, (List.getElem?_append_left hi).trans hs, .rests rfl (by simp), fun h => h⟩
  | tell hr => exact same hr rfl (fun _ => rfl) (by simp)
  | @work j r told input q p actions hr htold hinput hstep =>
    refine exists_setPool (w := { w with queue := q, counter := _ }) hr hs ?_ fun hj =>
      ⟨.rests rfl (by simp [hj]), fun h => h⟩
    rintro rfl rfl
    have hdoes := Pool.does_of_step hstep (hw.get hs).pool.wanting
    exact ⟨.does rfl htold hinput hdoes, fun h => h⟩
  | release hr hended => exact same hr rfl (fun h => h) (by simp)
  | stop hr hstop => exact same hr rfl (fun _ => rfl) (by simp)
  | returned hr hstop htracked => exact same hr rfl (fun h => h) (by simp)

/-- No pool comes to be but by being started. -/
theorem Step.exists_before (h : Step w x w') (hs' : w'.pools[i]? = some s') :
    (∃ s, w.pools[i]? = some s) ∨ ∃ base requeueDelay n, s' = .initial base requeueDelay n := by
  have same : ∀ {j : Nat} {r r' : StartedPool}, w.pools[j]? = some r →
      (w.setPool j r').pools[i]? = some s' → ∃ s, w.pools[i]? = some s := by
    intro j r r' hr hs'
    rw [getElem?_setPool hr] at hs'
    by_cases hj : j = i
    · exact ⟨r, hj ▸ hr⟩
    · exact ⟨s', (if_neg hj).symm.trans hs'⟩
  cases h with
  | pass htime => exact .inl ⟨s', hs'⟩
  | add key => exact .inl ⟨s', hs'⟩
  | start base requeueDelay n =>
    rw [List.getElem?_append] at hs'
    split at hs'
    · exact .inl ⟨s', hs'⟩
    · exact .inr ⟨base, requeueDelay, n, List.mem_singleton.1 (List.mem_of_getElem? hs')⟩
  | tell hr => exact .inl (same hr hs')
  | work hr htold hinput hstep => exact .inl (same hr hs')
  | release hr hended => exact .inl (same hr hs')
  | stop hr hstop => exact .inl (same hr hs')
  | returned hr hstop htracked => exact .inl (same hr hs')

/-! ## A key that fails twice -/

/-- A worker fails with a key, and when the key has been added again it fails
once more. Then the key is added from outside, and the pool is stopped. -/
def twoFailures : List Event :=
  [.starts 1, .adds "k" true, .does 0 .nothing,
    .does 0 (.begins 0 "k"), .does 0 (.ends 0 "k" (.failed "e")),
    .passes, .does 0 (.requeues ⟨0, "k", 1000⟩ true),
    .does 0 (.begins 0 "k"), .does 0 (.ends 0 "k" (.failed "e")), .adds "k" true,
    .stops 0, .does 0 (.drops ⟨1, "k", 2000⟩), .does 0 .nothing,
    .releases 0, .releases 0, .releases 0, .returns 0, .adds "k" false]

theorem trail_twoFailures :
    ∃ w, Trail Step (initial 5) twoFailures w ∧ w.counter = 5 ∧ w.queue.items = ["k"] := by
  let Ends (w : QueueWithPools) (xs : List Event) : Prop :=
    ∃ v, Trail Step w xs v ∧ v.counter = 5 ∧ v.queue.items = ["k"]
  have next {w u : QueueWithPools} {x : Event} {xs : List Event} (h : Step w x u) (t : Ends u xs) :
      Ends w (x :: xs) := by
    obtain ⟨v, t, hv⟩ := t
    exact ⟨v, .cons h t, hv⟩
  have work {w : QueueWithPools} {s : StartedPool} {q : Queue} {p : Pool}
    {actions : List PoolAction}
      {d : Doing} {xs : List Event} (input : PoolInput) (hs : w.pools[0]? = some s)
      (hinput : input = .cancel → s.stop = .waiting)
      (hstep : Pool.step w.queue w.time s.told s.pool input = some (q, p, actions))
      (hd : s.pool.doing w.queue w.time input actions = d)
      (t : Ends (({ w with
        queue := q
        counter := w.counter - UInt64.ofNat (actions.countP PoolAction.retires) }).setPool 0
          { s with pool := p, tracked := s.tracked + actions.countP PoolAction.enters }) xs) :
      Ends w (.does 0 d :: xs) := by
    subst hd
    exact next (.work hs (fun h => h) hinput hstep) t
  refine next (.start 0 1000 1) <| next (.add "k") ?_
  refine work (.begin 0) rfl (by simp) rfl rfl ?_
  refine work (.seek 0 false) rfl (by simp) rfl rfl ?_
  refine work (.returned 0 (.failed "e")) rfl (by simp) rfl rfl ?_
  refine next (.pass (Nat.zero_le 1000)) ?_
  refine work (.requeueDue 0) rfl (by simp) rfl rfl ?_
  refine work (.seek 0 false) rfl (by simp) rfl rfl ?_
  refine work (.returned 0 (.failed "e")) rfl (by simp) rfl rfl ?_
  refine next (.add "k") <| next (.stop rfl rfl) ?_
  refine work (.requeueStopped 1) rfl (by simp) rfl rfl ?_
  refine work (.seek 0 false) rfl (by simp) rfl rfl ?_
  refine next (.release rfl (by decide)) <| next (.release rfl (by decide)) ?_
  refine next (.release rfl (by decide)) <| next (.returned rfl rfl rfl) ?_
  exact ⟨_, .single (.add "k"), rfl, rfl⟩

end QueueWithPools

end Tenure.Work
