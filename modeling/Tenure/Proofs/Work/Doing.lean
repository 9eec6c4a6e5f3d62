import Mathlib.Data.List.Nodup
import Tenure.Proofs.Work.Members
import Tenure.Proofs.Work.Seeking

/-!
# What becomes of keys in a pool

A key that a worker takes from the queue is in the hands of that worker
until its reconcile ends. If it fails, the key rests in a timer, and the
timer puts it back into the queue. Each step of a pool moves at most one
key, and `Does` says for every step which one (`does_of_step`): the key that
a worker takes is the one that waited longest and the one that it
reconciles, a timer is started by a reconcile that failed and by nothing
else, and a timer ends with its key in the queue unless the pool was told to
stop.
-/

namespace Tenure.Work

namespace PoolAction

/-- Whether somebody enters the tracker. -/
def enters : PoolAction → Bool
  | startRequeue _ => true
  | _ => false

/-- Whether a worker ceases to count as live. -/
def retires : PoolAction → Bool
  | retire _ => true
  | _ => false

end PoolAction

/-- What a step of a pool comes to. -/
inductive Doing where
  /-- A worker takes a key and begins to reconcile it. -/
  | begins (worker : Nat) (key : String)
  | ends (worker : Nat) (key : String) (result : Reconciled)
  /-- A timer ends and adds its key, which is accepted or not. -/
  | requeues (timer : Requeue) (accepted : Bool)
  /-- A timer ends and does not. -/
  | drops (timer : Requeue)
  | nothing
  deriving DecidableEq

namespace Pool

/-- **What a step comes to**, by what the pool was given and what it did. -/
def doing (q : Queue) (time : Nat) (p : Pool) (input : PoolInput) (actions : List PoolAction) :
    Doing :=
  match input, actions with
  | .seek _ _, [.reconcile worker key] => .begins worker key
  | .returned worker result, _ =>
    match p.workers[worker]? with
    | some (.reconciling key) => .ends worker key result
    | _ => .nothing
  | .requeueDue id, _ =>
    match p.requeues.find? (fun r => r.id = id && r.due ≤ time) with
    | some timer => .requeues timer (q.add timer.key).2
    | none => .nothing
  | .requeueStopped id, _ =>
    match p.requeues.find? (·.id = id) with
    | some timer => .drops timer
    | none => .nothing
  | _, _ => .nothing

/-- A pool with a worker elsewhere. -/
def setWorker (p : Pool) (i : Nat) (w : Worker) : Pool := { p with workers := p.workers.set i w }

/-- A pool without a timer. -/
def endTimer (p : Pool) (id : Nat) : Pool :=
  { p with requeues := p.requeues.filter (·.id ≠ id) }

/-- The timer that is started when the reconcile of a key fails. -/
def failedTimer (p : Pool) (time : Nat) (key : String) : Requeue :=
  ⟨p.nextRequeue, key, pauseEnd time p.requeueDelay⟩

/-- A pool with one timer more. -/
def startTimer (p : Pool) (time : Nat) (key : String) : Pool :=
  { p with requeues := p.requeues ++ [p.failedTimer time key], nextRequeue := p.nextRequeue + 1 }

/-- **The ways a step can go**, with what it comes to. -/
inductive Does (q : Queue) (time : Nat) (told : Bool) (p : Pool) :
    PoolInput → Doing → Queue → Pool → List PoolAction → Prop
  | starts {i : Nat} {n : Notice} (hw : p.workers[i]? = some .created) :
    Does q time told p (.begin i) .nothing q (p.setWorker i (.seeking .looking)) [.note n]
  | finds {i : Nat} {s : Seeker} {wakeFirst : Bool} {key : String} {rest : List String}
      (hw : p.workers[i]? = some (.seeking s)) (hitems : q.items = key :: rest) :
    Does q time told p (.seek i wakeFirst) (.begins i key) q.tryNext.1
      (p.setWorker i (.reconciling key)) [.reconcile i key]
  | searches {i : Nat} {s s' : Seeker} {wakeFirst : Bool} {q' : Queue}
      (hw : p.workers[i]? = some (.seeking s)) (hs : s'.isDone = false) (hq : q.SameKeys q') :
    Does q time told p (.seek i wakeFirst) .nothing q' (p.setWorker i (.seeking s')) []
  | leaves {i : Nat} {s : Seeker} {wakeFirst : Bool} {q' : Queue} {n : Notice}
      (hw : p.workers[i]? = some (.seeking s)) (hstop : (p.cancelled || told) = true)
      (hq : q.SameKeys q') :
    Does q time told p (.seek i wakeFirst) .nothing q' (p.endWorker i) [.note n, .retire i]
  | succeeds {i : Nat} {key : String} {n : Notice} (hw : p.workers[i]? = some (.reconciling key)) :
    Does q time told p (.returned i .ok) (.ends i key .ok) q (p.setWorker i (.seeking .looking))
      [.note n]
  | fails {i : Nat} {key message : String} {n : Notice}
      (hw : p.workers[i]? = some (.reconciling key)) :
    Does q time told p (.returned i (.failed message)) (.ends i key (.failed message)) q
      ((p.setWorker i (.seeking .looking)).startTimer time key)
      [.note n, .startRequeue p.nextRequeue]
  | crashes {i : Nat} {key : String} (hw : p.workers[i]? = some (.reconciling key)) :
    Does q time told p (.returned i .crashed) (.ends i key .crashed) q (p.endWorker i) [.retire i]
  | fires {timer : Requeue} (htimer : timer ∈ p.requeues) (hdue : timer.due ≤ time) :
    Does q time told p (.requeueDue timer.id) (.requeues timer (q.add timer.key).2)
      (q.add timer.key).1 (p.endTimer timer.id) []
  | drops {timer : Requeue} (htimer : timer ∈ p.requeues)
      (htold : (p.cancelled || told) = true) :
    Does q time told p (.requeueStopped timer.id) (.drops timer) q (p.endTimer timer.id) []
  | cancels : Does q time told p .cancel .nothing q { p with cancelled := true } []

/-- A worker that wants a key has not got one yet. -/
def Wanting (p : Pool) : Prop :=
  ∀ (i : Nat) (s : Seeker), p.workers[i]? = some (.seeking s) → s.isDone = false

variable {q q' : Queue} {time : Nat} {told : Bool} {p p' : Pool} {input : PoolInput}
  {actions : List PoolAction} {d : Doing} {i : Nat}

/-- The step of a worker at the queue. -/
theorem does_of_seek {s : Seeker} (wakeFirst : Bool) (hp : p.Wanting)
    (hw : p.workers[i]? = some (.seeking s)) :
    let done := q.seek (p.caller i) (p.cancelled || told) wakeFirst s
    Does q time told p (.seek i wakeFirst)
      (p.doing q time (.seek i wakeFirst) (p.sought i done.2).2) done.1
      (p.sought i done.2).1 (p.sought i done.2).2 := by
  intro done
  have hs : s.isDone = false := hp i s hw
  have hseeks := Queue.seeks_seek q (p.caller i) (p.cancelled || told) wakeFirst s
  show Does q time told p _ _ done.1 _ _
  change Seeks q _ _ s done.1 done.2 at hseeks
  generalize done = done at hseeks ⊢
  obtain ⟨q', s'⟩ := done
  dsimp only at hseeks ⊢
  have hkeys := hseeks.sameKeys
  cases hseeks with
  | finds hitems => exact .finds hw hitems
  | done hdone =>
    rw [hs] at hdone
    contradiction
  | stops hstop => exact .leaves hw hstop (hkeys (.inr (by simp)))
  | turnsBack hstop => exact .leaves hw hstop (hkeys (.inr (by simp)))
  | leaves hstop => exact .leaves hw hstop (hkeys (.inr (by simp)))
  | _ => exact .searches hw rfl (hkeys (.inr (by simp)))

/-- **Every step of a pool goes in one of these ways.** -/
theorem does_of_step (h : Pool.step q time told p input = some (q', p', actions))
    (hp : p.Wanting) : Does q time told p input (p.doing q time input actions) q' p' actions := by
  cases input with
  | «begin» i =>
    simp only [step] at h
    split at h
    · rename_i hw
      simp only [Option.some.injEq, Prod.mk.injEq] at h
      obtain ⟨rfl, rfl, rfl⟩ := h
      exact .starts hw
    · contradiction
  | seek i wakeFirst =>
    simp only [step] at h
    split at h
    · rename_i s hw
      simp only [Option.some.injEq, Prod.mk.injEq] at h
      obtain ⟨rfl, rfl, rfl⟩ := h
      exact does_of_seek wakeFirst hp hw
    · contradiction
  | returned i result =>
    simp only [step] at h
    split at h
    · rename_i key hw
      cases result <;> simp only [Option.some.injEq, Prod.mk.injEq] at h <;>
        obtain ⟨rfl, rfl, rfl⟩ := h <;> simp only [doing, hw]
      case ok => exact .succeeds hw
      case failed message => exact .fails hw
      case crashed => exact .crashes hw
    · contradiction
  | requeueDue id =>
    simp only [step] at h
    split at h
    · rename_i timer hfind
      simp only [Option.some.injEq, Prod.mk.injEq] at h
      obtain ⟨rfl, rfl, rfl⟩ := h
      have hfound := List.find?_some hfind
      rw [Bool.and_eq_true, decide_eq_true_eq, decide_eq_true_eq] at hfound
      obtain ⟨rfl, hdue⟩ := hfound
      simp only [doing, hfind]
      exact .fires (List.mem_of_find?_eq_some hfind) hdue
    · contradiction
  | requeueStopped id =>
    simp only [step] at h
    split at h
    · rename_i hany
      simp only [Option.some.injEq, Prod.mk.injEq] at h
      obtain ⟨rfl, rfl, rfl⟩ := h
      rw [Bool.and_eq_true, List.any_eq_true, ← List.find?_isSome] at hany
      obtain ⟨htold, hsome⟩ := hany
      obtain ⟨timer, hfind⟩ := Option.isSome_iff_exists.1 hsome
      have hfound := List.find?_some hfind
      rw [decide_eq_true_eq] at hfound
      subst hfound
      simp only [doing, hfind]
      exact .drops (List.mem_of_find?_eq_some hfind) htold
    · contradiction
  | cancel =>
    simp only [step, Option.some.injEq, Prod.mk.injEq] at h
    obtain ⟨rfl, rfl, rfl⟩ := h
    exact .cancels

/-! ## Regular use -/

/-- **A pool in regular use**: nobody has a key without reconciling it, and no
two timers have the same number. -/
structure Regular (p : Pool) : Prop where
  sound : p.Sound
  wanting : p.Wanting
  once : (p.requeues.map (·.id)).Nodup

theorem regular_start (base requeueDelay n : Nat) : (start base requeueDelay n).Regular where
  sound := sound_start base requeueDelay n
  wanting i s h := by
    have hmem := List.eq_of_mem_replicate (List.mem_of_getElem? h)
    contradiction
  once := List.nodup_nil

theorem Wanting.set {w : Worker} (hp : p.Wanting) (hw : ∀ s, w = .seeking s → s.isDone = false)
    (hworkers : p'.workers = p.workers.set i w) : p'.Wanting := by
  intro j s hs
  rw [hworkers, List.getElem?_set] at hs
  by_cases hj : i = j
  · rw [if_pos hj] at hs
    split at hs
    · exact hw s (Option.some.inj hs)
    · contradiction
  · rw [if_neg hj] at hs
    exact hp j s hs

theorem once_endTimer (h : (p.requeues.map (·.id)).Nodup) (id : Nat) :
    ((p.endTimer id).requeues.map (·.id)).Nodup :=
  h.sublist (List.filter_sublist.map _)

/-- A timer that is started has a number of its own. -/
theorem Sound.notMem_failedTimer (hp : p.Sound) (key : String) :
    (p.failedTimer time key).id ∉ p.requeues.map (·.id) := by
  intro h
  obtain ⟨r, hr, hid⟩ := List.mem_map.1 h
  exact Nat.ne_of_lt (hp.numbered r hr) hid

theorem once_startTimer (hp : p.Sound) (h : (p.requeues.map (·.id)).Nodup) (key : String) :
    ((p.startTimer time key).requeues.map (·.id)).Nodup := by
  show ((p.requeues ++ [p.failedTimer time key]).map (·.id)).Nodup
  rw [List.map_append, List.map_singleton]
  exact h.append (List.nodup_singleton _) (by simpa using hp.notMem_failedTimer key)

theorem Does.wanting (h : Does q time told p input d q' p' actions) (hp : p.Wanting) :
    p'.Wanting := by
  cases h with
  | starts hw => exact hp.set (by simp [Seeker.isDone]) rfl
  | finds hw hitems => exact hp.set (by simp) rfl
  | searches hw hs hq => exact hp.set (by simpa using hs) rfl
  | leaves hw hstop hq => exact hp.set (by simp) rfl
  | succeeds hw => exact hp.set (by simp [Seeker.isDone]) rfl
  | fails hw => exact hp.set (by simp [Seeker.isDone]) rfl
  | crashes hw => exact hp.set (by simp) rfl
  | fires htimer hdue => exact hp
  | drops htimer htold => exact hp
  | cancels => exact hp

theorem Does.once (h : Does q time told p input d q' p' actions) (hp : p.Regular) :
    (p'.requeues.map (·.id)).Nodup := by
  cases h with
  | fails hw => exact once_startTimer hp.sound hp.once _
  | fires htimer hdue => exact once_endTimer hp.once _
  | drops htimer htold => exact once_endTimer hp.once _
  | _ => exact hp.once

/-- A pool in regular use stays so. -/
theorem Regular.of_step (h : Pool.step q time told p input = some (q', p', actions))
    (hp : p.Regular) : p'.Regular where
  sound := (step_trail h hp.sound).2
  wanting := (does_of_step h hp.wanting).wanting hp.wanting
  once := (does_of_step h hp.wanting).once hp

/-! ## Members and live workers -/

/-- How many members a pool has. -/
def memberCount (p : Pool) : Nat := p.workers.countP (· ≠ .ended) + p.requeues.length

theorem memberCount_start (base requeueDelay n : Nat) :
    (start base requeueDelay n).memberCount = n := by
  simp [memberCount, start, List.countP_replicate]

/-- A worker goes on or ends. -/
theorem memberCount_set_le {v : Worker} (w : Worker) (hv : p.workers[i]? = some v)
    (hlive : v ≠ .ended) (hworkers : p'.workers = p.workers.set i w)
    (hrequeues : p'.requeues = p.requeues) : p'.memberCount ≤ p.memberCount := by
  have hpos : 0 < p.workers.countP (· ≠ .ended) :=
    List.countP_pos_iff.2 ⟨v, List.mem_of_getElem? hv, by simpa using hlive⟩
  unfold memberCount
  rw [hworkers, hrequeues, countP_set hv hlive]
  split <;> omega

theorem memberCount_endTimer_le (p : Pool) (id : Nat) :
    (p.endTimer id).memberCount ≤ p.memberCount :=
  Nat.add_le_add_left (List.length_filter_le _ _) _

/-- **Nobody joins a pool without entering the tracker.** -/
theorem Does.memberCount_le (h : Does q time told p input d q' p' actions) :
    p'.memberCount ≤ p.memberCount + actions.countP PoolAction.enters := by
  cases h with
  | starts hw => exact memberCount_set_le _ hw (by simp) rfl rfl
  | finds hw hitems => exact memberCount_set_le _ hw (by simp) rfl rfl
  | searches hw hs hq => exact memberCount_set_le _ hw (by simp) rfl rfl
  | leaves hw hstop hq => exact memberCount_set_le _ hw (by simp) rfl rfl
  | succeeds hw => exact memberCount_set_le _ hw (by simp) rfl rfl
  | @fails i key message n hw =>
    have hle : (p.setWorker i (.seeking .looking)).memberCount ≤ p.memberCount :=
      memberCount_set_le _ hw (by simp) rfl rfl
    have hone : ((p.setWorker i (.seeking .looking)).startTimer time key).memberCount
        = (p.setWorker i (.seeking .looking)).memberCount + 1 := by
      simp [memberCount, startTimer, Nat.add_assoc]
    rw [hone]
    exact Nat.add_le_add_right hle 1
  | crashes hw => exact memberCount_set_le _ hw (by simp) rfl rfl
  | fires htimer hdue => exact memberCount_endTimer_le p _
  | drops htimer htold => exact memberCount_endTimer_le p _
  | cancels => exact Nat.le_refl _

/-- **Nothing is done but by a member.** -/
theorem Does.memberCount_pos (h : Does q time told p input d q' p' actions)
    (hinput : input ≠ .cancel) : 0 < p.memberCount := by
  have ofWorker : ∀ {i : Nat} {w : Worker}, p.workers[i]? = some w → w ≠ .ended →
      0 < p.memberCount := fun hw hlive =>
    Nat.add_pos_left (List.countP_pos_iff.2 ⟨_, List.mem_of_getElem? hw, by simpa using hlive⟩) _
  have ofTimer : ∀ {timer : Requeue}, timer ∈ p.requeues → 0 < p.memberCount := fun htimer =>
    Nat.add_pos_right _ (List.length_pos_of_mem htimer)
  cases h with
  | starts hw => exact ofWorker hw (by simp)
  | finds hw hitems => exact ofWorker hw (by simp)
  | searches hw hs hq => exact ofWorker hw (by simp)
  | leaves hw hstop hq => exact ofWorker hw (by simp)
  | succeeds hw => exact ofWorker hw (by simp)
  | fails hw => exact ofWorker hw (by simp)
  | crashes hw => exact ofWorker hw (by simp)
  | fires htimer hdue => exact ofTimer htimer
  | drops htimer htold => exact ofTimer htimer
  | cancels => contradiction

theorem Does.cancelled (h : Does q time told p input d q' p' actions)
    (hp' : p'.cancelled = true) : p.cancelled = true ∨ input = .cancel := by
  cases h with
  | cancels => exact .inr rfl
  | _ => exact .inl hp'

/-- **The counter of a pool follows its workers.** -/
theorem Does.active_eq (h : Does q time told p input d q' p' actions) (hp : p.Sound) :
    p'.active + actions.countP PoolAction.retires = p.active := by
  have ofEnd : ∀ {i : Nat} {w : Worker}, p.workers[i]? = some w → w ≠ .ended →
      (p.endWorker i).active + 1 = p.active := by
    intro i w hw hlive
    have hpos : 0 < p.active := by
      rw [hp.active]
      exact List.countP_pos_iff.2 ⟨_, List.mem_of_getElem? hw, by simpa using hlive⟩
    exact Nat.sub_add_cancel hpos
  cases h with
  | leaves hw hstop hq => exact ofEnd hw (by simp)
  | crashes hw => exact ofEnd hw (by simp)
  | _ => rfl

end Pool

end Tenure.Work
