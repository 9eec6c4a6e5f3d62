import Tenure.Proofs.Work.QueueWithPools

/-!
# No key is lost, and none is made up

A key goes round between three places, the queue, the hands of a worker and
a timer, and each of them may have it at the same time: it may be added while
it is reconciled, and fail while it waits. So it does not help to count a
key. What can be counted are additions and calls. The queue accepts an
addition only of a key that does not wait, and the calls take the accepted
ones in their order, so what was accepted is what was begun followed by what
waits (`Keeps.given`).

A reconcile that fails hands its key to a timer, and a timer that ends hands
it to the queue, unless its pool was told to stop. What is lost to view by
that is only whether the queue accepted it; that the key waits is certain
either way.
-/

namespace Tenure.Work

/-- The keys that the queue accepts. -/
def Doing.accepted : Doing → List String
  | requeues timer true => [timer.key]
  | _ => []

/-- The keys that a worker begins to reconcile. -/
def Doing.begun : Doing → List String
  | begins _ key => [key]
  | _ => []

namespace Pool

variable {q q' : Queue} {time : Nat} {told : Bool} {p p' : Pool} {input : PoolInput} {d : Doing}
  {actions : List PoolAction} {i : Nat} {key : String}

/-- **What is accepted comes to the end of the queue, and what is begun goes
from its front.** -/
theorem Does.items (h : Does q time told p input d q' p' actions) :
    q.items ++ d.accepted = d.begun ++ q'.items := by
  cases h with
  | finds hw hitems =>
    rw [Queue.items_tryNext, hitems]
    exact List.append_nil _
  | searches hw hs hq => exact (List.append_nil _).trans hq.items.symm
  | leaves hw hstop hq => exact (List.append_nil _).trans hq.items.symm
  | @fires timer htimer hdue =>
    rw [Queue.items_add_eq]
    cases (q.add timer.key).2 <;> rfl
  | _ => exact List.append_nil _

theorem Does.tidy (h : Does q time told p input d q' p' actions) (hq : q.Tidy) : q'.Tidy := by
  cases h with
  | finds hw hitems => exact hq.tryNext
  | searches hw hs hsame => exact hq.of_sameKeys hsame
  | leaves hw hstop hsame => exact hq.of_sameKeys hsame
  | fires htimer hdue => exact hq.add _
  | _ => exact hq

/-- **What becomes of the timers**: a reconcile that fails starts one, and a
step starts none else. -/
theorem Does.requeues_eq {message : String}
    (h : Does q time told p input (.ends i key (.failed message)) q' p' actions) :
    p'.requeues = p.requeues ++ [⟨p.nextRequeue, key, pauseEnd time p.requeueDelay⟩] := by
  cases h with
  | fails hw => rfl

theorem Does.requeues_sublist (h : Does q time told p input d q' p' actions)
    (hd : ∀ i key message, d ≠ .ends i key (.failed message)) :
    p'.requeues.Sublist p.requeues := by
  cases h with
  | @fails i key message n hw => exact absurd rfl (hd i key message)
  | fires htimer hdue => exact List.filter_sublist
  | drops htimer htold => exact List.filter_sublist
  | _ => exact .refl _

/-- A timer with the number of another is the other. -/
theorem Regular.eq_of_id (hp : p.Regular) {r r' : Requeue} (hr : r ∈ p.requeues)
    (hr' : r' ∈ p.requeues) (h : r.id = r'.id) : r = r' :=
  List.inj_on_of_nodup_map hp.once hr hr' h

/-- **How a timer ends**: it adds its key when it is due, or the pool was told
to stop. -/
theorem Does.of_notMem {timer : Requeue} (h : Does q time told p input d q' p' actions)
    (hp : p.Regular) (hq : q.Tidy)
    (htimer : timer ∈ p.requeues) (hended : timer ∉ p'.requeues) :
    (∃ accepted, d = .requeues timer accepted) ∧ timer.due ≤ time ∧ timer.key ∈ q'.items ∨
      d = .drops timer ∧ (p.cancelled || told) = true := by
  have isEnded : ∀ {other : Requeue}, other ∈ p.requeues →
      timer ∉ (p.endTimer other.id).requeues → timer = other := by
    intro other hother hnot
    refine hp.eq_of_id htimer hother ?_
    by_contra hne
    exact hnot (List.mem_filter.2 ⟨htimer, by simpa using hne⟩)
  cases h with
  | fires hother hdue =>
    obtain rfl := isEnded hother hended
    exact .inl ⟨⟨_, rfl⟩, hdue, hq.mem_add _⟩
  | drops hother htold =>
    obtain rfl := isEnded hother hended
    exact .inr ⟨rfl, htold⟩
  | fails hw => exact absurd (List.mem_append_left _ htimer) hended
  | _ => contradiction

/-- **A timer that is due can end.** -/
theorem step_requeueDue {timer : Requeue} (q : Queue) (told : Bool) (hp : p.Regular)
    (htimer : timer ∈ p.requeues) (hdue : timer.due ≤ time) :
    Pool.step q time told p (.requeueDue timer.id)
        = some ((q.add timer.key).1, p.endTimer timer.id, []) ∧
      p.doing q time (.requeueDue timer.id) [] = .requeues timer (q.add timer.key).2 := by
  have hfind : p.requeues.find? (fun r => r.id = timer.id && r.due ≤ time) = some timer := by
    have hsome : (p.requeues.find? (fun r => r.id = timer.id && r.due ≤ time)).isSome := by
      rw [List.find?_isSome]
      exact ⟨timer, htimer, by simpa using hdue⟩
    obtain ⟨r, hr⟩ := Option.isSome_iff_exists.1 hsome
    have hid := List.find?_some hr
    rw [Bool.and_eq_true, decide_eq_true_eq] at hid
    rw [hr, hp.eq_of_id (List.mem_of_find?_eq_some hr) htimer hid.1]
  constructor
  · simp only [step, hfind]
    rfl
  · simp only [doing, hfind]

/-- **A worker keeps its key until its reconcile has ended.** -/
theorem Does.reconciling {k : Nat} (h : Does q time told p input d q' p' actions)
    (hk : p.workers[k]? = some (.reconciling key)) :
    p'.workers[k]? = some (.reconciling key) ∨ ∃ result, d = .ends k key result := by
  have other : ∀ {i : Nat} {v : Worker} (w : Worker), p.workers[i]? = some v →
      v ≠ .reconciling key → (p.workers.set i w)[k]? = some (.reconciling key) := by
    intro i v w hv hne
    have hik : i ≠ k := by
      rintro rfl
      exact hne (Option.some.inj (hv.symm.trans hk))
    rwa [List.getElem?_set_ne hik]
  have own : ∀ {i : Nat} {key' : String} (w : Worker), p.workers[i]? = some (.reconciling key') →
      (p.workers.set i w)[k]? = some (.reconciling key) ∨ i = k ∧ key' = key := by
    intro i key' w hv
    by_cases hik : i = k
    · subst hik
      exact .inr ⟨rfl, Worker.reconciling.inj (Option.some.inj (hv.symm.trans hk))⟩
    · exact .inl ((List.getElem?_set_ne hik).trans hk)
  cases h with
  | starts hw => exact .inl (other _ hw (by simp))
  | finds hw hitems => exact .inl (other _ hw (by simp))
  | searches hw hs hq => exact .inl (other _ hw (by simp))
  | leaves hw hstop hq => exact .inl (other _ hw (by simp))
  | succeeds hw => exact (own _ hw).imp_right fun ⟨hi, hkey⟩ => ⟨.ok, by rw [hi, hkey]⟩
  | @fails i key message n hw =>
    exact (own _ hw).imp_right fun ⟨hi, hkey⟩ => ⟨.failed message, by rw [hi, hkey]⟩
  | crashes hw => exact (own _ hw).imp_right fun ⟨hi, hkey⟩ => ⟨.crashed, by rw [hi, hkey]⟩
  | _ => exact .inl hk

/-- A pool has a key in the hands of a worker or in a timer. -/
def Holds (p : Pool) (key : String) : Prop :=
  (∃ timer ∈ p.requeues, timer.key = key) ∨ .reconciling key ∈ p.workers

/-- A worker that goes elsewhere gives the pool no key but the one it has
then. -/
theorem holds_of_setWorker {w : Worker} (h : (p.setWorker i w).Holds key) :
    p.Holds key ∨ w = .reconciling key := by
  rcases h with htimer | hreconciling
  · exact .inl (.inl htimer)
  · exact (List.mem_or_eq_of_mem_set hreconciling).imp .inr Eq.symm

/-- **A key is handed on and never made up**: a pool has it from the queue. -/
theorem Does.holds (h : Does q time told p input d q' p' actions) (hkey : p'.Holds key) :
    p.Holds key ∨ key ∈ q.items := by
  cases h with
  | starts hw => exact .inl ((holds_of_setWorker hkey).resolve_right (by simp))
  | finds hw hitems =>
    rcases holds_of_setWorker hkey with hkey | hkey
    · exact .inl hkey
    · obtain rfl := Worker.reconciling.inj hkey
      exact .inr (hitems ▸ List.mem_cons_self)
  | searches hw hs hq => exact .inl ((holds_of_setWorker hkey).resolve_right (by simp))
  | leaves hw hstop hq => exact .inl ((holds_of_setWorker hkey).resolve_right (by simp))
  | succeeds hw => exact .inl ((holds_of_setWorker hkey).resolve_right (by simp))
  | @fails i key' message n hw =>
    rcases hkey with ⟨timer, htimer, rfl⟩ | hreconciling
    · rcases List.mem_append.1 htimer with htimer | hnew
      · exact .inl (.inl ⟨timer, htimer, rfl⟩)
      · obtain rfl := List.mem_singleton.1 hnew
        exact .inl (.inr (List.mem_of_getElem? hw))
    · have hkey : (p.setWorker i (.seeking .looking)).Holds key := .inr hreconciling
      exact .inl ((holds_of_setWorker hkey).resolve_right (by simp))
  | crashes hw => exact .inl ((holds_of_setWorker hkey).resolve_right (by simp))
  | fires htimer hdue =>
    exact .inl (hkey.imp_left fun ⟨r, hr, hrkey⟩ => ⟨r, List.mem_of_mem_filter hr, hrkey⟩)
  | drops htimer htold =>
    exact .inl (hkey.imp_left fun ⟨r, hr, hrkey⟩ => ⟨r, List.mem_of_mem_filter hr, hrkey⟩)
  | cancels => exact .inl hkey

/-- The queue has it from a timer. -/
theorem Does.mem_items (h : Does q time told p input d q' p' actions) (hkey : key ∈ q'.items) :
    key ∈ q.items ∨ p.Holds key := by
  have hmem : key ∈ q.items ++ d.accepted := h.items ▸ List.mem_append_right _ hkey
  refine (List.mem_append.1 hmem).imp_right fun haccepted => ?_
  cases h with
  | @fires timer htimer hdue =>
    refine .inl ⟨timer, htimer, ?_⟩
    cases haccepts : (q.add timer.key).2 with
    | true =>
      rw [haccepts] at haccepted
      exact (List.mem_singleton.1 haccepted).symm
    | false =>
      rw [haccepts] at haccepted
      contradiction
  | _ => contradiction

end Pool

/-- The keys that the queue accepts. -/
def Event.accepted : Event → List String
  | adds key true => [key]
  | does _ d => d.accepted
  | _ => []

/-- The reconciles that begin: the pool, the worker and the key. -/
def Event.begun : Event → List (Nat × Nat × String)
  | does pool (.begins worker key) => [(pool, worker, key)]
  | _ => []

theorem Event.eq_of_mem_begun {x : Event} {i k : Nat} {key : String}
    (h : (i, k, key) ∈ x.begun) : x = .does i (.begins k key) := by
  unfold begun at h
  split at h
  · obtain ⟨rfl, rfl, rfl⟩ := by simpa using h
    rfl
  · contradiction

theorem Event.begun_does (i : Nat) (d : Doing) :
    (does i d).begun.map (·.2.2) = d.begun := by
  cases d <;> rfl

namespace QueueWithPools

variable {w w' : QueueWithPools} {n : UInt64} {x : Event} {seen : List Event} {i : Nat}
  {s s' : StartedPool}
  {key : String}

/-- The timers of a pool. -/
def timers (w : QueueWithPools) (i : Nat) : List Requeue :=
  (w.pools[i]?.map (·.pool.requeues)).getD []

theorem timers_eq (hs : w.pools[i]? = some s) : w.timers i = s.pool.requeues := by
  unfold timers
  rw [hs]
  rfl

/-- A pool was told to stop. -/
def Told (w : QueueWithPools) (i : Nat) : Prop := ∃ s, w.pools[i]? = some s ∧ s.told = true

/-- A key is in the hands of some worker. -/
def BeingReconciled (w : QueueWithPools) (key : String) : Prop :=
  ∃ (j : Nat) (s : StartedPool) (k : Nat),
    w.pools[j]? = some s ∧ s.pool.workers[k]? = some (.reconciling key)

/-! ## The queue -/

/-- Keys come in at the end and go out at the front. -/
theorem Step.items (h : Step w x w') (hw : w.Sound) :
    w.queue.items ++ x.accepted = x.begun.map (·.2.2) ++ w'.queue.items := by
  cases h with
  | add key =>
    show _ = (w.queue.add key).1.items
    rw [Queue.items_add_eq]
    cases (w.queue.add key).2 <;> rfl
  | work hs htold hinput hstep =>
    rw [Event.begun_does]
    exact (Pool.does_of_step hstep (hw.get hs).pool.wanting).items
  | _ => exact List.append_nil _

theorem Step.tidy (h : Step w x w') (hw : w.Sound) (hq : w.queue.Tidy) : w'.queue.Tidy := by
  cases h with
  | add key => exact hq.add key
  | work hs htold hinput hstep =>
    exact (Pool.does_of_step hstep (hw.get hs).pool.wanting).tidy hq
  | _ => exact hq

/-- **The queue and its pools are in order.** -/
def InOrder (w : QueueWithPools) : Prop := w.Sound ∧ w.queue.Tidy

theorem Step.inOrder (h : Step w x w') (hw : w.InOrder) : w'.InOrder :=
  ⟨h.sound hw.1, h.tidy hw.1 hw.2⟩

theorem inOrder_of_trail (t : Trail Step (initial n) seen w) : w.InOrder :=
  t.preserves InOrder (fun _ _ _ h hw => h.inOrder hw) ⟨sound_of_trail .nil, Queue.tidy_empty⟩

/-- **What was accepted was begun in its order, or waits.** -/
theorem accepted_eq (t : Trail Step (initial n) seen w) :
    seen.flatMap Event.accepted = (seen.flatMap Event.begun).map (·.2.2) ++ w.queue.items := by
  rw [List.map_flatMap]
  exact t.conserves Sound (·.queue.items) (fun _ _ _ h hw => ⟨h.sound hw, h.items hw⟩)
    (sound_of_trail .nil)

/-! ## Timers -/

/-- Only a pool that was started does anything. -/
theorem Step.exists_of_does {d : Doing} (h : Step w (.does i d) w') :
    ∃ s, w.pools[i]? = some s := by
  cases h with
  | work hs htold hinput hstep => exact ⟨_, hs⟩

/-- **A reconcile that fails starts one timer** for its key. -/
theorem Step.timers_of_fails {k : Nat} {message : String}
    (h : Step w (.does i (.ends k key (.failed message))) w') (hw : w.Sound) :
    ∃ s, w.pools[i]? = some s ∧ w'.timers i = w.timers i ++
      [⟨s.pool.nextRequeue, key, pauseEnd w.time s.pool.requeueDelay⟩] := by
  obtain ⟨s, hs⟩ := h.exists_of_does
  obtain ⟨s', hs', heffect, -⟩ := h.poolEffect hw hs
  rw [timers_eq hs, timers_eq hs']
  cases heffect with
  | rests hpool hx => exact absurd rfl (hx _)
  | does hx htold hinput hdoes =>
    cases hx
    exact ⟨s, hs, hdoes.requeues_eq⟩

/-- **Nothing else starts one.** -/
theorem Step.timers_sublist (h : Step w x w') (hw : w.Sound)
    (hx : ∀ k key message, x ≠ .does i (.ends k key (.failed message))) :
    (w'.timers i).Sublist (w.timers i) := by
  cases hs' : w'.pools[i]? with
  | none =>
    unfold timers
    rw [hs']
    exact List.nil_sublist _
  | some s' =>
    rcases h.exists_before hs' with ⟨s, hs⟩ | ⟨base, requeueDelay, m, rfl⟩
    · obtain ⟨u, hu, heffect, -⟩ := h.poolEffect hw hs
      obtain rfl := Option.some.inj (hs'.symm.trans hu)
      rw [timers_eq hs, timers_eq hs']
      cases heffect with
      | rests hpool hx => rw [hpool]
      | does hdoing htold hinput hdoes =>
        refine hdoes.requeues_sublist fun k key message hd => ?_
        exact hx k key message (hd ▸ hdoing)
    · rw [timers_eq hs']
      exact List.nil_sublist _

/-- **How a timer ends.** -/
theorem Step.of_timer_ended {timer : Requeue} (h : Step w x w') (hw : w.InOrder)
    (htimer : timer ∈ w.timers i) (hended : timer ∉ w'.timers i) :
    (∃ accepted, x = .does i (.requeues timer accepted)) ∧ timer.due ≤ w.time ∧
        timer.key ∈ w'.queue.items ∨
      x = .does i (.drops timer) ∧ w.Told i := by
  cases hs : w.pools[i]? with
  | none =>
    unfold timers at htimer
    rw [hs] at htimer
    contradiction
  | some s =>
    obtain ⟨s', hs', heffect, -⟩ := h.poolEffect hw.1 hs
    have hsound := hw.1.get hs
    rw [timers_eq hs] at htimer
    rw [timers_eq hs'] at hended
    cases heffect with
    | rests hpool hx =>
      rw [hpool] at hended
      contradiction
    | does hx htold hinput hdoes =>
      rcases hdoes.of_notMem hsound.pool hw.2 htimer hended with
        ⟨⟨accepted, rfl⟩, hdue, hkey⟩ | ⟨rfl, hstopped⟩
      · exact .inl ⟨⟨accepted, hx⟩, hdue, hkey⟩
      · rw [Bool.or_eq_true] at hstopped
        exact .inr ⟨hx, s, hs, hstopped.elim hsound.cancelled htold⟩

/-- **A timer that is due can end.** -/
theorem Sound.can_requeue {timer : Requeue} (hw : w.Sound) (htimer : timer ∈ w.timers i)
    (hdue : timer.due ≤ w.time) :
    ∃ accepted w', Step w (.does i (.requeues timer accepted)) w' ∧ timer ∉ w'.timers i := by
  cases hs : w.pools[i]? with
  | none =>
    unfold timers at htimer
    rw [hs] at htimer
    contradiction
  | some s =>
    rw [timers_eq hs] at htimer
    obtain ⟨hstep, hd⟩ := Pool.step_requeueDue w.queue false (hw.get hs).pool htimer hdue
    have h := Step.work hs (fun h => by contradiction) (fun h => by contradiction) hstep
    rw [hd] at h
    refine ⟨_, _, h, fun hmem => ?_⟩
    obtain ⟨hi, -⟩ := List.getElem?_eq_some_iff.1 hs
    simp only [timers, setPool, List.getElem?_set_self hi, Option.map_some, Option.getD_some]
      at hmem
    simpa using (List.mem_filter.1 hmem).2

/-! ## After a failure -/

/-- **Where a key is** once its reconcile has failed: what was seen since is
remembered as far as it concerns the calls of its reconcile. -/
inductive Kept (w : QueueWithPools) (i : Nat) (key : String) (after : List Event) : Prop
  | told (h : w.Told i)
  | rests {timer : Requeue} (h : timer ∈ w.timers i) (hkey : timer.key = key)
  | waits (h : key ∈ w.queue.items)
  | beingReconciled {j k : Nat} {s : StartedPool} (hs : w.pools[j]? = some s)
      (hk : s.pool.workers[k]? = some (.reconciling key))
      (hbegun : .does j (.begins k key) ∈ after)
  | done {j k : Nat} {result : Reconciled}
      (h : [.does j (.begins k key), .does j (.ends k key result)].Sublist after)

theorem Step.told (h : Step w x w') (hw : w.Sound) (htold : w.Told i) : w'.Told i := by
  obtain ⟨s, hs, htold⟩ := htold
  obtain ⟨s', hs', -, htold'⟩ := h.poolEffect hw hs
  exact ⟨s', hs', htold' htold⟩

/-- A worker that begins has its key in its hands. -/
theorem Step.beingReconciled_of_begins {j k : Nat} (h : Step w (.does j (.begins k key)) w')
    (hw : w.Sound) :
    ∃ s', w'.pools[j]? = some s' ∧ s'.pool.workers[k]? = some (.reconciling key) := by
  obtain ⟨s, hs⟩ := h.exists_of_does
  obtain ⟨s', hs', heffect, -⟩ := h.poolEffect hw hs
  refine ⟨s', hs', ?_⟩
  cases heffect with
  | rests hpool hx => exact absurd rfl (hx _)
  | does hx htold hinput hdoes =>
    cases hx
    generalize w'.queue = q' at hdoes
    generalize s'.pool = p' at hdoes ⊢
    cases hdoes with
    | finds hk hitems => exact List.getElem?_set_self (List.getElem?_eq_some_iff.1 hk).1

/-- **A key that is kept stays so.** -/
theorem Step.kept {after : List Event} (h : Step w x w') (hw : w.InOrder)
    (hkept : Kept w i key after) : Kept w' i key (after ++ [x]) := by
  cases hkept with
  | told htold => exact .told (h.told hw.1 htold)
  | @rests timer htimer hkey =>
    by_cases hended : timer ∈ w'.timers i
    · exact .rests hended hkey
    · rcases h.of_timer_ended hw htimer hended with ⟨-, -, hwaits⟩ | ⟨-, htold⟩
      · exact .waits (hkey ▸ hwaits)
      · exact .told (h.told hw.1 htold)
  | waits hwaits =>
    have hmem : key ∈ x.begun.map (·.2.2) ++ w'.queue.items :=
      h.items hw.1 ▸ List.mem_append_left _ hwaits
    rcases List.mem_append.1 hmem with htaken | hwaits
    · obtain ⟨⟨j, k, key⟩, hbegun, rfl⟩ := List.mem_map.1 htaken
      obtain rfl := Event.eq_of_mem_begun hbegun
      obtain ⟨s', hs', hk⟩ := h.beingReconciled_of_begins hw.1
      exact .beingReconciled hs' hk (List.mem_append_right _ List.mem_cons_self)
    · exact .waits hwaits
  | @beingReconciled j k s hs hk hbegun =>
    obtain ⟨s', hs', heffect, -⟩ := h.poolEffect hw.1 hs
    cases heffect with
    | rests hpool hx => exact .beingReconciled hs' (hpool ▸ hk) (List.mem_append_left _ hbegun)
    | does hx htold hinput hdoes =>
      rcases hdoes.reconciling hk with hk | ⟨result, rfl⟩
      · exact .beingReconciled hs' hk (List.mem_append_left _ hbegun)
      · subst hx
        exact .done ((List.singleton_sublist.2 hbegun).append (.refl [_]))
  | done hdone => exact .done (hdone.trans (List.sublist_append_left _ _))

/-- **A key whose reconcile has failed is kept.** -/
theorem kept_of_fails {k : Nat} {message : String} {before after : List Event}
    (t : Trail Step (initial n) seen w)
    (hseen : seen = before ++ .does i (.ends k key (.failed message)) :: after) :
    Kept w i key after := by
  obtain ⟨u, u', hbefore, hfails, hafter⟩ := t.met hseen
  have hu := inOrder_of_trail hbefore
  obtain ⟨s, -, htimers⟩ := hfails.timers_of_fails hu.1
  let remembers : QueueWithPools → List Event → Prop := fun w after =>
    w.InOrder ∧ Kept w i key after
  refine (hafter.history remembers (fun w x w' after h hw => ?_) ⟨hfails.inOrder hu, ?_⟩).2
  · exact ⟨h.inOrder hw.1, h.kept hw.1 hw.2⟩
  · exact .rests (htimers ▸ List.mem_append_right _ List.mem_cons_self) rfl

/-! ## Where keys come from -/

/-- A key is somewhere. -/
def Has (w : QueueWithPools) (key : String) : Prop :=
  key ∈ w.queue.items ∨ ∃ s ∈ w.pools, s.pool.Holds key

/-- **A key comes from outside.** -/
theorem Step.has (h : Step w x w') (hw : w.Sound) (hkey : w'.Has key) :
    w.Has key ∨ x = .adds key true := by
  have same : ∀ {j : Nat} {r r' : StartedPool}, w.pools[j]? = some r →
      (w.setPool j r').Has key → r'.pool = r.pool → w.Has key := by
    intro j r r' hr hkey hpool
    refine hkey.imp_right fun ⟨s, hs, hholds⟩ => ?_
    rcases List.mem_or_eq_of_mem_set hs with hs | rfl
    · exact ⟨s, hs, hholds⟩
    · exact ⟨r, List.mem_of_getElem? hr, hpool ▸ hholds⟩
  cases h with
  | pass htime => exact .inl hkey
  | add added =>
    rcases hkey with hwaits | hholds
    · change key ∈ (w.queue.add added).1.items at hwaits
      rw [Queue.items_add_eq, List.mem_append] at hwaits
      rcases hwaits with hwaits | hnew
      · exact .inl (.inl hwaits)
      · split at hnew
        case isTrue haccepted =>
          obtain rfl := List.mem_singleton.1 hnew
          exact .inr (by rw [haccepted])
        · contradiction
    · exact .inl (.inr hholds)
  | start base requeueDelay m =>
    rcases hkey with hwaits | ⟨s, hs, hholds⟩
    · exact .inl (.inl hwaits)
    · rcases List.mem_append.1 hs with hs | hs
      · exact .inl (.inr ⟨s, hs, hholds⟩)
      · obtain rfl := List.mem_singleton.1 hs
        rcases hholds with ⟨timer, htimer, -⟩ | hreconciling
        · contradiction
        · have hcreated := List.eq_of_mem_replicate hreconciling
          contradiction
  | tell hr => exact .inl (same hr hkey rfl)
  | @work j r told input q p actions hr htold hinput hstep =>
    have hdoes := Pool.does_of_step hstep (hw.get hr).pool.wanting
    have hr' := List.mem_of_getElem? hr
    rcases hkey with hwaits | ⟨s, hs, hholds⟩
    · exact .inl ((hdoes.mem_items hwaits).imp_right fun hholds => ⟨r, hr', hholds⟩)
    · rcases List.mem_or_eq_of_mem_set hs with hs | rfl
      · exact .inl (.inr ⟨s, hs, hholds⟩)
      · exact .inl ((hdoes.holds hholds).symm.imp_right fun hholds => ⟨r, hr', hholds⟩)
  | release hr hended => exact .inl (same hr hkey rfl)
  | stop hr hstop => exact .inl (same hr hkey rfl)
  | returned hr hstop htracked => exact .inl (same hr hkey rfl)

theorem added_of_has (t : Trail Step (initial n) seen w) (hkey : w.Has key) :
    .adds key true ∈ seen := by
  let remembers : QueueWithPools → List Event → Prop := fun w seen =>
    w.Sound ∧ ∀ key, w.Has key → .adds key true ∈ seen
  have hstart : remembers (initial n) [] := by
    refine ⟨sound_of_trail .nil, fun key hkey => ?_⟩
    rcases hkey with hwaits | ⟨s, hs, -⟩ <;> contradiction
  refine (t.history remembers (fun w x w' seen h hw => ?_) hstart).2 key hkey
  refine ⟨h.sound hw.1, fun key hkey => ?_⟩
  rcases h.has hw.1 hkey with hkey | rfl
  · exact List.mem_append_left _ (hw.2 key hkey)
  · exact List.mem_append_right _ List.mem_cons_self

/-- What begins to be reconciled was waiting. -/
theorem Step.has_of_begins {k : Nat} (h : Step w (.does i (.begins k key)) w') (hw : w.Sound) :
    w.Has key := by
  have hitems : w.queue.items ++ [] = [key] ++ w'.queue.items := h.items hw
  refine .inl ?_
  rw [← List.append_nil w.queue.items, hitems]
  exact List.mem_cons_self

/-- **No key is lost, and none is made up.** -/
structure Keeps (seen : List Event) (w : QueueWithPools) : Prop where
  /-- No key waits twice, -/
  once : w.queue.items.Nodup
  /-- and what was accepted has been given to one reconcile of one worker each,
  in its order, or waits. -/
  given : seen.flatMap Event.accepted = (seen.flatMap Event.begun).map (·.2.2) ++ w.queue.items
  /-- A reconcile that fails starts one timer for its key, -/
  starts : ∀ i k key message w', Step w (.does i (.ends k key (.failed message))) w' →
    ∃ s timer, w.pools[i]? = some s ∧ w'.timers i = w.timers i ++ [timer] ∧
      timer.key = key ∧ timer.due = pauseEnd w.time s.pool.requeueDelay
  /-- and nothing else starts one. -/
  only : ∀ x w', Step w x w' → ∀ i,
    (∀ k key message, x ≠ .does i (.ends k key (.failed message))) →
    (w'.timers i).Sublist (w.timers i)
  /-- A timer ends when it is due, with its key in the queue, or when its pool
  was told to stop, -/
  ends : ∀ x w', Step w x w' → ∀ i timer, timer ∈ w.timers i → timer ∉ w'.timers i →
    (∃ accepted, x = .does i (.requeues timer accepted)) ∧ timer.due ≤ w.time ∧
        timer.key ∈ w'.queue.items ∨
      x = .does i (.drops timer) ∧ w.Told i
  /-- and when it is due nothing keeps it from ending. -/
  due : ∀ i timer, timer ∈ w.timers i → timer.due ≤ w.time →
    ∃ accepted w', Step w (.does i (.requeues timer accepted)) w' ∧ timer ∉ w'.timers i
  /-- Since a reconcile has failed its key has always been in a timer of its
  pool, waiting, or in the hands of a worker, unless its pool was told to stop
  or it has been reconciled again from beginning to end. -/
  keeps : ∀ i k key message before after,
    seen = before ++ .does i (.ends k key (.failed message)) :: after → ¬w.Told i →
    (∃ timer ∈ w.timers i, timer.key = key) ∨ key ∈ w.queue.items ∨ w.BeingReconciled key ∨
      ∃ j k result, [.does j (.begins k key), .does j (.ends k key result)].Sublist after
  /-- Nothing is reconciled that was not added from outside before. -/
  added : ∀ i k key before after, seen = before ++ .does i (.begins k key) :: after →
    .adds key true ∈ before

/-- **Whatever the workers do** and whatever is added, and however long a
reconcile takes and whatever it comes to, no key is lost and none is made
up. -/
theorem keeps_keys (t : Trail Step (initial n) seen w) : Keeps seen w := by
  have hw := inOrder_of_trail t
  refine ⟨hw.2.once, accepted_eq t, fun i k key message w' h => ?_,
    fun x w' h i hx => h.timers_sublist hw.1 hx,
    fun x w' h i timer htimer hended => h.of_timer_ended hw htimer hended,
    fun i timer htimer hdue => hw.1.can_requeue htimer hdue,
    fun i k key message before after hseen hnot => ?_, fun i k key before after hseen => ?_⟩
  · obtain ⟨s, hs, htimers⟩ := h.timers_of_fails hw.1
    exact ⟨s, _, hs, htimers, rfl, rfl⟩
  · cases kept_of_fails t hseen with
    | told htold => exact absurd htold hnot
    | rests htimer hkey => exact .inl ⟨_, htimer, hkey⟩
    | waits hwaits => exact .inr (.inl hwaits)
    | beingReconciled hs hk hbegun => exact .inr (.inr (.inl ⟨_, _, _, hs, hk⟩))
    | done hdone => exact .inr (.inr (.inr ⟨_, _, _, hdone⟩))
  · obtain ⟨u, u', hbefore, hbegins, -⟩ := t.met hseen
    exact added_of_has hbefore (hbegins.has_of_begins (sound_of_trail hbefore))

/-- A key that has failed twice waits for another pool. -/
theorem keeps_keys_twoFailures :
    ∃ w, Trail Step (initial 5) twoFailures w ∧ w.queue.items = ["k"] ∧ Keeps twoFailures w := by
  obtain ⟨w, t, -, hitems⟩ := trail_twoFailures
  exact ⟨w, t, hitems, keeps_keys t⟩

end QueueWithPools

end Tenure.Work
