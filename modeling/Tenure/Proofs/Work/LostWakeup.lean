import Tenure.Proofs.Trail
import Tenure.Proofs.Work.Seeking

/-!
# A wake-up that is lost

Wake-ups are handed on with care: whoever takes a key and sees another one
wakes the next caller, and a caller that is told to stop while it holds a
wake-up passes it on. So it seems that a key never waits beside a caller
that nobody wakes. But a caller that has been woken and told to stop may
notice the wake-up first. It then takes it, and when it looks again it looks
whether it was told to stop before it looks for a key. It leaves, and the
wake-up goes with it.

The others, who have not been told to stop, sleep on until another key is
added. This is the one way in which a key can wait beside a blocked caller
when nobody can go on (`QueueWithCallers.latest_eq_lost_of_quiescent`): as
long as the last wake-up has not gone with a caller, such a key has a wake-up
under way.
-/

namespace Tenure.Work

/-! ## Whom a queue knows -/

namespace Queue

variable {q : Queue} {id : Nat}

/-- The callers that are enlisted or woken. -/
def enlisted (q : Queue) : List Nat := q.listening ++ q.woken

/-- **A wake-up is there**, to be taken by who comes or by who was woken. -/
def HasWakeup (q : Queue) : Prop := q.permit = true ∨ q.woken ≠ []

/-- **A queue is in order**: a wake-up is kept only if nobody is there to take
it, and nobody is enlisted twice. -/
structure InOrder (q : Queue) : Prop where
  permit : q.permit = true → q.listening = []
  once : q.enlisted.Nodup

theorem hasWakeup_wake (q : Queue) : q.wake.HasWakeup := by
  unfold wake
  split
  · exact .inl rfl
  · exact .inr (List.append_ne_nil_of_right_ne_nil _ (List.cons_ne_nil _ _))

theorem enlisted_wake (q : Queue) : q.wake.enlisted.Perm q.enlisted := by
  unfold wake enlisted
  split
  · rfl
  · rename_i first rest h
    rw [h, ← List.append_assoc]
    exact List.perm_append_singleton first (rest ++ q.woken)

theorem InOrder.wake (h : q.InOrder) : q.wake.InOrder where
  permit := by
    have hpermit := h.permit
    unfold Queue.wake
    split
    · exact fun _ => by assumption
    · rename_i first rest hlistening
      intro hkept
      rw [hpermit hkept] at hlistening
      contradiction
  once := (enlisted_wake q).nodup_iff.2 h.once

/-- Keys do not matter to it. -/
theorem InOrder.of_eq {q' : Queue} (h : q.InOrder) (hpermit : q'.permit = q.permit)
    (hlistening : q'.listening = q.listening) (hwoken : q'.woken = q.woken) : q'.InOrder where
  permit hkept := hlistening ▸ h.permit (hpermit ▸ hkept)
  once := by
    unfold enlisted
    rw [hlistening, hwoken]
    exact h.once

theorem enlisted_insert (q : Queue) (key : String) : (q.insert key).1.enlisted = q.enlisted := by
  unfold insert
  split <;> rfl

theorem InOrder.insert (h : q.InOrder) (key : String) : (q.insert key).1.InOrder := by
  unfold Queue.insert
  split
  · exact h
  · exact h.of_eq rfl rfl rfl

theorem enlisted_tryNext (q : Queue) : q.tryNext.1.enlisted.Perm q.enlisted := by
  unfold tryNext
  split
  · rfl
  · dsimp only
    split
    · rfl
    · exact enlisted_wake _

theorem InOrder.tryNext (h : q.InOrder) : q.tryNext.1.InOrder := by
  unfold Queue.tryNext
  split
  · exact h
  · rename_i key rest hitems
    have hrest : { q with items := rest, queued := q.queued.erase key }.InOrder :=
      h.of_eq rfl rfl rfl
    dsimp only
    split
    · exact hrest
    · exact hrest.wake

/-- Whoever takes a key wakes somebody for the others. -/
theorem hasWakeup_tryNext {key : String} {rest : List String} (h : q.items = key :: rest)
    (hrest : rest ≠ []) : q.tryNext.1.HasWakeup := by
  unfold tryNext
  rw [h]
  simp only [List.isEmpty_iff, if_neg hrest]
  exact hasWakeup_wake _

/-- Who has been woken and is not any more. -/
theorem enlisted_erase_woken (h : id ∈ q.woken) :
    { q with woken := q.woken.erase id }.enlisted.Perm (q.enlisted.erase id) := by
  unfold enlisted
  refine List.perm_append_comm.trans ?_
  rw [← List.erase_append_left _ h]
  exact List.perm_append_comm.erase id

theorem leave_of_mem (h : id ∈ q.woken) :
    q.leave id = { q with woken := q.woken.erase id }.wake :=
  if_pos (List.contains_iff_mem.2 h)

theorem leave_of_notMem (h : id ∉ q.woken) :
    q.leave id = { q with listening := q.listening.erase id } :=
  if_neg fun hcontains => h (List.contains_iff_mem.1 hcontains)

theorem enlisted_leave (q : Queue) (id : Nat) :
    (q.leave id).enlisted.Perm (q.enlisted.erase id) := by
  by_cases hwoken : id ∈ q.woken
  · rw [leave_of_mem hwoken]
    exact (enlisted_wake _).trans (enlisted_erase_woken hwoken)
  · rw [leave_of_notMem hwoken]
    unfold enlisted
    by_cases hlistening : id ∈ q.listening
    · rw [List.erase_append_left _ hlistening]
    · rw [List.erase_append_right _ hlistening, List.erase_of_not_mem hlistening,
        List.erase_of_not_mem hwoken]

theorem InOrder.eraseWoken (h : q.InOrder) (hid : id ∈ q.woken) :
    { q with woken := q.woken.erase id }.InOrder where
  permit := h.permit
  once := (enlisted_erase_woken hid).nodup_iff.2 (h.once.erase id)

theorem InOrder.leave (h : q.InOrder) (id : Nat) : (q.leave id).InOrder := by
  refine ⟨fun hkept => ?_, (enlisted_leave q id).nodup_iff.2 (h.once.erase id)⟩
  by_cases hwoken : id ∈ q.woken
  · rw [leave_of_mem hwoken] at hkept ⊢
    exact (h.eraseWoken hwoken).wake.permit hkept
  · rw [leave_of_notMem hwoken] at hkept ⊢
    show q.listening.erase id = []
    rw [h.permit hkept]
    rfl

end Queue

/-! ## The queue and its callers -/

/-- What becomes of wake-ups. -/
inductive WakeupEffect where
  /-- One is given. -/
  | given
  /-- One has gone with the caller that had taken it. -/
  | lost (caller : Nat)
  | none
  deriving DecidableEq

/-- Whether something does. -/
def WakeupEffect.matters (x : WakeupEffect) : Bool := x ≠ .none

/-- A caller that wants a key, and the token by which it is told to stop. -/
structure Caller where
  token : Nat
  seeker : Seeker := .looking
  /-- It has taken a wake-up, and has not looked since. -/
  carries : Bool := false

/-- It has missed a key, and waits or is about to. -/
def Caller.Waits (c : Caller) : Prop := c.seeker = .enlisting ∨ c.seeker = .listening

/-- A queue, its callers by their numbers, the tokens that are cancelled, and
how many keys have been put there whose wake-ups are not given yet. -/
structure QueueWithCallers where
  queue : Queue := {}
  callers : List Caller := []
  cancelled : List Nat := []
  owed : Nat := 0

namespace QueueWithCallers

/-- What becomes of wake-ups when a key is taken. -/
def effectOfTake (r : QueueWithCallers) : WakeupEffect :=
  if 1 < r.queue.items.length then .given else .none

/-- What becomes of them in a caller's step. -/
def effectOfSeek (r : QueueWithCallers) (id : Nat) (c : Caller) (stopped wakeFirst : Bool) :
    WakeupEffect :=
  match c.seeker with
  | .looking => if stopped then (if c.carries then .lost id else .none) else r.effectOfTake
  | .listening =>
    if stopped && r.queue.woken.contains id && !wakeFirst then .given else .none
  | _ => .none

/-- A caller's step. It takes a wake-up if it looks afterwards, for it did not
before. -/
def seek (r : QueueWithCallers) (id : Nat) (c : Caller) (stopped wakeFirst : Bool) :
    QueueWithCallers :=
  let (queue, seeker) := r.queue.seek id stopped wakeFirst c.seeker
  { r with queue, callers := r.callers.set id ⟨c.token, seeker, seeker = .looking⟩ }

/-- **One step**, and what becomes of wake-ups by it. To put a
key there and to give the wake-up for it are two steps, and others may come in
between. To take a key and to wake somebody for the next is one, for until then
nobody else can look at the keys. A caller may notice late that its token is
cancelled, and if it has been woken too it may notice either first. -/
inductive Step : QueueWithCallers → WakeupEffect → QueueWithCallers → Prop
  | insert {r : QueueWithCallers} (key : String) :
    Step r .none { r with
      queue := (r.queue.insert key).1
      owed := r.owed + (r.queue.insert key).2.toNat }
  | wake {r : QueueWithCallers} {n : Nat} (h : r.owed = n + 1) :
    Step r .given { r with queue := r.queue.wake, owed := n }
  | take {r : QueueWithCallers} : Step r r.effectOfTake { r with queue := r.queue.tryNext.1 }
  | come {r : QueueWithCallers} (token : Nat) :
    Step r .none { r with callers := r.callers ++ [⟨token, .looking, false⟩] }
  | seek {r : QueueWithCallers} {id : Nat} {c : Caller} (stopped wakeFirst : Bool)
      (hc : r.callers[id]? = some c) (hstopped : stopped = true → c.token ∈ r.cancelled) :
    Step r (r.effectOfSeek id c stopped wakeFirst) (r.seek id c stopped wakeFirst)
  | cancel {r : QueueWithCallers} (token : Nat) :
      Step r .none { r with cancelled := token :: r.cancelled }

/-- **Nobody can go on**: every wake-up for a key has been given, and each
caller is done, or sleeps and has not been told to stop. -/
def Quiescent (r : QueueWithCallers) : Prop :=
  r.owed = 0 ∧ ∀ id c, r.callers[id]? = some c → c.seeker.isDone = true ∨
    c.seeker = .listening ∧ id ∉ r.queue.woken ∧ c.token ∉ r.cancelled

/-- Somebody sleeps who has not been told to stop. -/
def HasBlockedCaller (r : QueueWithCallers) : Prop :=
  ∃ id c, r.callers[id]? = some c ∧
    c.seeker = .listening ∧ id ∉ r.queue.woken ∧ c.token ∉ r.cancelled

/-! ## Who is enlisted -/

/-- A caller is enlisted, or was and has been woken. -/
def Listens (callers : List Caller) (id : Nat) : Prop :=
  ∃ c, callers[id]? = some c ∧ c.seeker = .listening

variable {r r' : QueueWithCallers} {x : WakeupEffect} {id : Nat} {c c' : Caller}

theorem listens_iff (hc : r.callers[id]? = some c) :
    Listens r.callers id ↔ c.seeker = .listening := by
  unfold Listens
  rw [hc]
  exact ⟨fun ⟨_, h, hs⟩ => Option.some.inj h ▸ hs, fun hs => ⟨c, rfl, hs⟩⟩

theorem listens_set (hc : r.callers[id]? = some c) (j : Nat) :
    Listens (r.callers.set id c') j ↔
      if j = id then c'.seeker = .listening else Listens r.callers j := by
  obtain ⟨hid, -⟩ := List.getElem?_eq_some_iff.1 hc
  unfold Listens
  by_cases hj : j = id
  · subst hj
    rw [if_pos rfl, List.getElem?_set_self hid]
    exact ⟨fun ⟨_, h, hs⟩ => Option.some.inj h ▸ hs, fun hs => ⟨c', rfl, hs⟩⟩
  · rw [if_neg hj, List.getElem?_set_ne (Ne.symm hj)]

theorem listens_append (callers : List Caller) (token j : Nat) :
    Listens (callers ++ [⟨token, .looking, false⟩]) j ↔ Listens callers j := by
  unfold Listens
  rw [List.getElem?_append]
  split
  · rfl
  case isFalse hj =>
    rw [List.getElem?_eq_none (Nat.le_of_not_lt hj)]
    refine ⟨fun ⟨c, h, hs⟩ => ?_, fun ⟨c, h, _⟩ => by contradiction⟩
    obtain rfl := List.mem_singleton.1 (List.mem_of_getElem? h)
    contradiction

/-- **The queue lossExplained the callers that listen**, and no others. -/
structure InOrder (r : QueueWithCallers) : Prop where
  queue : r.queue.InOrder
  enlisted : ∀ j, j ∈ r.queue.enlisted ↔ Listens r.callers j

/-- A caller steps, and the queue keeps up with it. -/
theorem InOrder.set {q : Queue} (h : r.InOrder) (hc : r.callers[id]? = some c) (hq : q.InOrder)
    (henlisted : ∀ j, j ∈ q.enlisted ↔
      if j = id then c'.seeker = .listening else j ∈ r.queue.enlisted) :
    ({ r with queue := q, callers := r.callers.set id c' } : QueueWithCallers).InOrder where
  queue := hq
  enlisted j := by
    show j ∈ q.enlisted ↔ Listens (r.callers.set id c') j
    rw [henlisted, listens_set hc]
    split
    · rfl
    · exact h.enlisted j

/-- A caller steps and listens as much as before. -/
theorem InOrder.set_of_perm {q : Queue} (h : r.InOrder) (hc : r.callers[id]? = some c)
    (hq : q.InOrder) (hqueue : q.enlisted.Perm r.queue.enlisted)
    (hs : c'.seeker = .listening ↔ c.seeker = .listening) :
    ({ r with queue := q, callers := r.callers.set id c' } : QueueWithCallers).InOrder := by
  refine h.set hc hq fun j => ?_
  rw [hqueue.mem_iff]
  split
  case isTrue hj =>
    subst hj
    rw [h.enlisted, listens_iff hc, hs]
  · rfl

/-- A caller that listened does not any more, and has been struck off the
queue. -/
theorem InOrder.set_of_erase {q : Queue} (h : r.InOrder) (hc : r.callers[id]? = some c)
    (hq : q.InOrder) (hqueue : q.enlisted.Perm (r.queue.enlisted.erase id))
    (hs' : c'.seeker ≠ .listening) :
    ({ r with queue := q, callers := r.callers.set id c' } : QueueWithCallers).InOrder := by
  refine h.set hc hq fun j => ?_
  rw [hqueue.mem_iff, h.queue.once.mem_erase_iff]
  split
  case isTrue hj => exact ⟨fun hne => absurd hj hne.1, fun h => absurd h hs'⟩
  case isFalse hj => exact ⟨fun hmem => hmem.2, fun hmem => ⟨hj, hmem⟩⟩

/-- A caller enlists. -/
theorem InOrder.set_of_append (h : r.InOrder) (hc : r.callers[id]? = some c)
    (hs : c.seeker ≠ .listening) (hpermit : r.queue.permit = false)
    (hs' : c'.seeker = .listening) :
    ({ r with
      queue := { r.queue with listening := r.queue.listening ++ [id] }
      callers := r.callers.set id c' } : QueueWithCallers).InOrder := by
  have hperm : { r.queue with listening := r.queue.listening ++ [id] }.enlisted.Perm
      (id :: r.queue.enlisted) :=
    (List.perm_append_singleton id r.queue.listening).append_right r.queue.woken
  have hnew : id ∉ r.queue.enlisted := by rwa [h.enlisted, listens_iff hc]
  refine h.set hc ⟨fun hkept => ?_, ?_⟩ fun j => ?_
  · rw [hpermit] at hkept
    contradiction
  · exact hperm.nodup_iff.2 (List.nodup_cons.2 ⟨hnew, h.queue.once⟩)
  · rw [hperm.mem_iff, List.mem_cons]
    split
    case isTrue hj => exact ⟨fun _ => hs', fun _ => .inl hj⟩
    case isFalse hj => exact ⟨fun hmem => hmem.resolve_left hj, .inr⟩

theorem InOrder.seek (h : r.InOrder) (hc : r.callers[id]? = some c) (stopped wakeFirst : Bool) :
    (r.seek id c stopped wakeFirst).InOrder := by
  unfold QueueWithCallers.seek
  have hseeks := Queue.seeks_seek r.queue id stopped wakeFirst c.seeker
  generalize r.queue.seek id stopped wakeFirst c.seeker = done at hseeks ⊢
  obtain ⟨q, s⟩ := done
  dsimp only at hseeks ⊢
  generalize hseeker : c.seeker = before at hseeks
  cases hseeks with
  | stops hstopped => exact h.set_of_perm hc h.queue (.refl _) (by simp [hseeker])
  | finds hitems =>
    exact h.set_of_perm hc h.queue.tryNext (Queue.enlisted_tryNext _) (by simp [hseeker])
  | misses hitems => exact h.set_of_perm hc h.queue (.refl _) (by simp [hseeker])
  | turnsBack hstopped => exact h.set_of_perm hc h.queue (.refl _) (by simp [hseeker])
  | takesPermit hpermit =>
    have hq : { r.queue with permit := false }.InOrder := ⟨fun h => by contradiction, h.queue.once⟩
    exact h.set_of_perm hc hq (.refl _) (by simp [hseeker])
  | enlists hpermit => exact h.set_of_append hc (by simp [hseeker]) hpermit rfl
  | leaves hstopped =>
    exact h.set_of_erase hc (h.queue.leave id) (Queue.enlisted_leave _ _) (by simp)
  | wakesUp hwoken =>
    exact h.set_of_erase hc (h.queue.eraseWoken hwoken) (Queue.enlisted_erase_woken hwoken)
      (by simp)
  | sleeps hwoken => exact h.set_of_perm hc h.queue (.refl _) (by simp [hseeker])
  | done hdone => exact h.set_of_perm hc h.queue (.refl _) (by simp [hseeker])

theorem Step.inOrder (h : Step r x r') (hr : r.InOrder) : r'.InOrder := by
  cases h with
  | insert key =>
    refine ⟨hr.queue.insert key, fun j => ?_⟩
    show j ∈ (r.queue.insert key).1.enlisted ↔ _
    rw [Queue.enlisted_insert]
    exact hr.enlisted j
  | wake howed =>
    exact ⟨hr.queue.wake, fun j => (Queue.enlisted_wake _).mem_iff.trans (hr.enlisted j)⟩
  | take =>
    exact ⟨hr.queue.tryNext, fun j => (Queue.enlisted_tryNext _).mem_iff.trans (hr.enlisted j)⟩
  | come token =>
    exact ⟨hr.queue, fun j => (hr.enlisted j).trans (listens_append r.callers token j).symm⟩
  | seek stopped wakeFirst hc hstopped => exact hr.seek hc stopped wakeFirst
  | cancel token => exact ⟨hr.queue, hr.enlisted⟩

/-! ## Where a wake-up is -/

/-- **No wake-up is lost**: no key waits beside callers that wait, or a wake-up
is there, or one is still to be given, or somebody has taken one and is going
to look. -/
inductive NoLostWakeup (r : QueueWithCallers) : Prop
  | noKey (h : r.queue.items = [])
  | nobody (h : ∀ c ∈ r.callers, ¬Caller.Waits c)
  | wakeup (h : r.queue.HasWakeup)
  | owed (h : 0 < r.owed)
  | carried {id : Nat} {c : Caller} (hc : r.callers[id]? = some c) (hlooks : c.seeker = .looking)
    (h : c.carries = true)

/-- A caller steps that has taken no wake-up, and no wake-up is taken away. -/
theorem NoLostWakeup.set {q : Queue} (h : r.NoLostWakeup) (hc : r.callers[id]? = some c)
    (hitems : q.items = r.queue.items) (hwakeup : r.queue.HasWakeup → q.HasWakeup)
    (hcarries : c.seeker = .looking → c.carries = false) (hwaits : c'.Waits → c.Waits) :
    ({ r with queue := q, callers := r.callers.set id c' } : QueueWithCallers).NoLostWakeup := by
  cases h with
  | noKey h => exact .noKey (hitems.trans h)
  | nobody h =>
    refine .nobody fun d hd => ?_
    rcases List.mem_or_eq_of_mem_set hd with hd | rfl
    · exact h d hd
    · exact fun hw => h c (List.mem_of_getElem? hc) (hwaits hw)
  | wakeup h => exact .wakeup (hwakeup h)
  | owed h => exact .owed h
  | @carried j d hd hlooks h =>
    have hj : id ≠ j := by
      rintro rfl
      obtain rfl := Option.some.inj (hc.symm.trans hd)
      rw [hcarries hlooks] at h
      contradiction
    exact .carried ((List.getElem?_set_ne hj).trans hd) hlooks h

/-- A caller takes a wake-up. -/
theorem noLostWakeup_of_taken {q : Queue} (hc : r.callers[id]? = some c) :
    ({ r with queue := q, callers := r.callers.set id ⟨c.token, .looking, true⟩ } :
      QueueWithCallers).NoLostWakeup :=
  .carried (List.getElem?_set_self (List.getElem?_eq_some_iff.1 hc).1) rfl rfl

/-- A key is taken. -/
theorem noLostWakeup_of_tryNext (callers : List Caller) (h : r.queue.items ≠ []) :
    ({ r with queue := r.queue.tryNext.1, callers } : QueueWithCallers).NoLostWakeup := by
  obtain ⟨key, rest, hitems⟩ := List.exists_cons_of_ne_nil h
  by_cases hrest : rest = []
  · refine .noKey ?_
    show r.queue.tryNext.1.items = []
    rw [Queue.items_tryNext, hitems]
    exact hrest
  · exact .wakeup (Queue.hasWakeup_tryNext hitems hrest)

/-- **No step of a caller loses a wake-up**, but that of a caller that has
taken one and leaves. If a wake-up is given, none is lost whether or not one
was before. -/
theorem noLostWakeup_seek (hc : r.callers[id]? = some c) {stopped wakeFirst : Bool}
    (hr : r.effectOfSeek id c stopped wakeFirst = .given ∨ r.NoLostWakeup) :
    (r.seek id c stopped wakeFirst).NoLostWakeup ∨
      r.effectOfSeek id c stopped wakeFirst = .lost id := by
  unfold QueueWithCallers.seek QueueWithCallers.effectOfSeek at *
  have hseeks := Queue.seeks_seek r.queue id stopped wakeFirst c.seeker
  generalize r.queue.seek id stopped wakeFirst c.seeker = done at hseeks ⊢
  obtain ⟨q, s⟩ := done
  dsimp only at hseeks ⊢
  generalize hseeker : c.seeker = before at hseeks hr
  cases hseeks with
  | stops hstopped =>
    cases hcarries : c.carries with
    | true => exact .inr (by simp [hstopped])
    | false =>
      have hr : r.NoLostWakeup := by simpa [hstopped, hcarries] using hr
      exact .inl (hr.set hc rfl (fun h => h) (fun _ => hcarries) (by simp [Caller.Waits]))
  | finds hitems => exact .inl (noLostWakeup_of_tryNext _ (by simp [hitems]))
  | misses hitems => exact .inl (.noKey hitems)
  | turnsBack hstopped =>
    have hr : r.NoLostWakeup := by simpa using hr
    exact .inl (hr.set hc rfl (fun h => h) (by simp [hseeker]) (by simp [Caller.Waits]))
  | takesPermit hpermit => exact .inl (noLostWakeup_of_taken hc)
  | enlists hpermit =>
    have hr : r.NoLostWakeup := by simpa using hr
    exact .inl (hr.set hc rfl (fun h => h) (by simp [hseeker]) (by simp [Caller.Waits, hseeker]))
  | leaves hstopped =>
    by_cases hwoken : id ∈ r.queue.woken
    · rw [Queue.leave_of_mem hwoken]
      exact .inl (.wakeup (Queue.hasWakeup_wake _))
    · have hr : r.NoLostWakeup := by simpa [hwoken] using hr
      rw [Queue.leave_of_notMem hwoken]
      exact .inl (hr.set hc rfl (fun h => h) (by simp [hseeker]) (by simp [Caller.Waits]))
  | wakesUp hwoken => exact .inl (noLostWakeup_of_taken hc)
  | sleeps hwoken =>
    have hr : r.NoLostWakeup := by simpa [hwoken] using hr
    exact .inl (hr.set hc rfl (fun h => h) (by simp [hseeker]) (by simp [Caller.Waits, hseeker]))
  | done hdone =>
    have hr : r.NoLostWakeup := by cases s <;> first | contradiction | simpa using hr
    refine .inl (hr.set hc rfl (fun h => h) ?_ ?_)
    · rw [hseeker]
      rintro rfl
      contradiction
    · rintro (rfl | rfl) <;> contradiction

theorem Step.noLostWakeup (h : Step r x r') (hr : x = .given ∨ r.NoLostWakeup) :
    r'.NoLostWakeup ∨ ∃ id, x = .lost id := by
  cases h with
  | insert key =>
    have hr : r.NoLostWakeup := hr.resolve_left (by simp)
    refine .inl ?_
    unfold Queue.insert
    split
    · exact hr
    · exact .owed (Nat.succ_pos _)
  | wake howed => exact .inl (.wakeup (Queue.hasWakeup_wake _))
  | take =>
    by_cases hitems : r.queue.items = []
    · refine .inl (.noKey ?_)
      rw [Queue.tryNext_of_nil hitems]
      exact hitems
    · exact .inl (noLostWakeup_of_tryNext r.callers hitems)
  | come token =>
    have hr : r.NoLostWakeup := hr.resolve_left (by simp)
    refine .inl ?_
    cases hr with
    | noKey h => exact .noKey h
    | nobody h =>
      refine .nobody fun d hd => ?_
      rcases List.mem_append.1 hd with hd | hd
      · exact h d hd
      · obtain rfl := List.mem_singleton.1 hd
        simp [Caller.Waits]
    | wakeup h => exact .wakeup h
    | owed h => exact .owed h
    | carried hc hlooks h =>
      obtain ⟨hid, -⟩ := List.getElem?_eq_some_iff.1 hc
      exact .carried ((List.getElem?_append_left hid).trans hc) hlooks h
  | @seek id c stopped wakeFirst hc hstopped =>
    exact (noLostWakeup_seek hc hr).imp_right fun h => ⟨id, h⟩
  | cancel token =>
    have hr : r.NoLostWakeup := hr.resolve_left (by simp)
    cases hr with
    | noKey h => exact .inl (.noKey h)
    | nobody h => exact .inl (.nobody h)
    | wakeup h => exact .inl (.wakeup h)
    | owed h => exact .inl (.owed h)
    | carried hc hlooks h => exact .inl (.carried hc hlooks h)

/-! ## The wake-up that was lost -/

/-- A caller has left that had been told to stop. -/
def LeftCancelled (r : QueueWithCallers) (id : Nat) : Prop :=
  ∃ c, r.callers[id]? = some c ∧ c.seeker = .gone ∧ c.token ∈ r.cancelled

/-- It stays away. -/
theorem Step.leftCancelled (h : Step r x r') (hr : r.LeftCancelled id) : r'.LeftCancelled id := by
  obtain ⟨c, hc, hgone, hcancelled⟩ := hr
  cases h with
  | insert key => exact ⟨c, hc, hgone, hcancelled⟩
  | wake howed => exact ⟨c, hc, hgone, hcancelled⟩
  | take => exact ⟨c, hc, hgone, hcancelled⟩
  | come token =>
    obtain ⟨hid, -⟩ := List.getElem?_eq_some_iff.1 hc
    exact ⟨c, (List.getElem?_append_left hid).trans hc, hgone, hcancelled⟩
  | @seek j d stopped wakeFirst hd hstopped =>
    by_cases hj : j = id
    · subst hj
      obtain rfl := Option.some.inj (hc.symm.trans hd)
      refine ⟨⟨c.token, .gone, false⟩, ?_, rfl, hcancelled⟩
      unfold QueueWithCallers.seek
      rw [hgone]
      exact List.getElem?_set_self (List.getElem?_eq_some_iff.1 hc).1
    · exact ⟨c, (List.getElem?_set_ne hj).trans hc, hgone, hcancelled⟩
  | cancel token => exact ⟨c, hc, hgone, List.mem_cons_of_mem _ hcancelled⟩

/-- Whoever has taken a wake-up along had been told to stop. -/
theorem Step.leftCancelled_of_lost (h : Step r (.lost id) r') : r'.LeftCancelled id := by
  generalize hx : WakeupEffect.lost id = x at h
  cases h with
  | @seek j c stopped wakeFirst hc hstopped =>
    obtain ⟨hj, hlooks, hstop⟩ : j = id ∧ c.seeker = .looking ∧ stopped = true := by
      unfold effectOfSeek effectOfTake at hx
      split at hx <;> grind
    subst hj hstop
    refine ⟨⟨c.token, .gone, false⟩, ?_, rfl, hstopped rfl⟩
    unfold QueueWithCallers.seek
    rw [hlooks]
    exact List.getElem?_set_self (List.getElem?_eq_some_iff.1 hc).1
  | take =>
    unfold effectOfTake at hx
    split at hx <;> contradiction
  | _ => contradiction

/-- **If a wake-up is lost it is the last one** that anything became of, and
somebody has left with it. -/
def LossExplained (r : QueueWithCallers) (last : Option WakeupEffect) : Prop :=
  r.NoLostWakeup ∨ ∃ id, last = some (.lost id) ∧ r.LeftCancelled id

theorem Step.lossExplained {last : Option WakeupEffect} (h : Step r x r')
    (hr : r.LossExplained last) :
    r'.LossExplained (if x.matters then some x else last) := by
  cases x with
  | given => exact .inl ((h.noLostWakeup (.inl rfl)).resolve_right (by simp))
  | lost id => exact .inr ⟨id, rfl, h.leftCancelled_of_lost⟩
  | none =>
    rcases hr with hr | ⟨id, hlast, hleft⟩
    · exact .inl ((h.noLostWakeup (.inr hr)).resolve_right (by simp))
    · exact .inr ⟨id, hlast, h.leftCancelled hleft⟩

theorem inOrder_empty : ({} : QueueWithCallers).InOrder where
  queue := ⟨fun h => by contradiction, List.nodup_nil⟩
  enlisted j := ⟨fun h => by contradiction, fun ⟨c, h, _⟩ => by contradiction⟩

/-- A key beside a blocked caller where nobody can go on: a wake-up is lost. -/
theorem not_noLostWakeup_of_quiescent (hr : r.InOrder) (hquiescent : r.Quiescent)
    (hkey : r.queue.items ≠ []) (hblocked : r.HasBlockedCaller) : ¬r.NoLostWakeup := by
  obtain ⟨howed, hall⟩ := hquiescent
  obtain ⟨id, c, hc, hlistens, hwoken, -⟩ := hblocked
  intro h
  cases h with
  | noKey h => exact hkey h
  | nobody h => exact h c (List.mem_of_getElem? hc) (.inr hlistens)
  | wakeup h =>
    rcases h with hpermit | hsome
    · have henlisted := (hr.enlisted id).2 ⟨c, hc, hlistens⟩
      unfold Queue.enlisted at henlisted
      rw [hr.queue.permit hpermit] at henlisted
      exact hwoken henlisted
    · obtain ⟨j, hj⟩ := List.exists_mem_of_ne_nil _ hsome
      obtain ⟨d, hd, hdlistens⟩ := (hr.enlisted j).1 (List.mem_append_right _ hj)
      rcases hall j d hd with hdone | ⟨-, hnot, -⟩
      · rw [hdlistens] at hdone
        contradiction
      · exact hnot hj
  | owed h => omega
  | @carried j d hd hlooks h =>
    rcases hall j d hd with hdone | ⟨hlistens, -⟩
    · rw [hlooks] at hdone
      contradiction
    · rw [hlooks] at hlistens
      contradiction

/-- **How a wake-up is lost.** If nobody can go on and a key waits beside a
caller that has not been told to stop, then the last wake-up that anything
became of has gone with a caller that had been told to stop. -/
theorem latest_eq_lost_of_quiescent {seen : List WakeupEffect} (t : Trail Step {} seen r)
    (hquiescent : r.Quiescent) (hkey : r.queue.items ≠ []) (hblocked : r.HasBlockedCaller) :
    ∃ id, latest WakeupEffect.matters seen = some (.lost id) ∧ r.LeftCancelled id := by
  have horder : r.InOrder := t.preserves InOrder (fun _ _ _ h hr => h.inOrder hr) inOrder_empty
  have hexplained : r.LossExplained (latest WakeupEffect.matters seen) :=
    t.latest LossExplained (fun _ _ _ _ h hr => h.lossExplained hr) (.inl (.noKey rfl))
  exact hexplained.resolve_left (not_noLostWakeup_of_quiescent horder hquiescent hkey hblocked)

/-! ## A key beside a blocked caller -/

/-- A key waits, a caller has left and another one sleeps. -/
def stranded : QueueWithCallers where
  queue := { items := ["k"], queued := ["k"], listening := [1] }
  callers := [⟨0, .gone, false⟩, ⟨1, .listening, false⟩]
  cancelled := [0]

/-- What becomes of wake-ups until then. -/
def strandedEffects : List WakeupEffect :=
  [.none, .none, .none, .none, .none, .none, .none, .given, .none, .none, .lost 0]

/-- Two callers enlist. The first is woken for a key and told to stop at
once. -/
theorem trail_stranded : Trail Step {} strandedEffects stranded := by
  have look (r : QueueWithCallers) (id : Nat) (c : Caller) (hc : r.callers[id]? = some c) :
      Step r (r.effectOfSeek id c false false) (r.seek id c false false) :=
    .seek false false hc (by simp)
  have stop (r : QueueWithCallers) (id : Nat) (c : Caller) (hc : r.callers[id]? = some c)
      (h : c.token ∈ r.cancelled) :
      Step r (r.effectOfSeek id c true true) (r.seek id c true true) :=
    .seek true true hc fun _ => h
  refine .cons (.come 0) <| .cons (.come 1) <|
    .cons (look _ 0 ⟨0, .looking, false⟩ rfl) <| .cons (look _ 0 ⟨0, .enlisting, false⟩ rfl) <|
    .cons (look _ 1 ⟨1, .looking, false⟩ rfl) <| .cons (look _ 1 ⟨1, .enlisting, false⟩ rfl) <|
    .cons (.insert "k") <| .cons (.wake (n := 0) rfl) <| .cons (.cancel 0) <|
    .cons (stop _ 0 ⟨0, .listening, false⟩ rfl (by decide)) <|
    .single (stop _ 0 ⟨0, .looking, true⟩ rfl (by decide))

/-- Nobody can go on. -/
theorem quiescent_stranded : stranded.Quiescent := by
  refine ⟨rfl, fun id c hc => ?_⟩
  match id, hc with
  | 0, hc =>
    obtain rfl := Option.some.inj hc
    exact .inl rfl
  | 1, hc =>
    obtain rfl := Option.some.inj hc
    exact .inr (by decide)

theorem hasBlockedCaller_stranded : stranded.HasBlockedCaller :=
  ⟨1, ⟨1, .listening, false⟩, rfl, by decide⟩

/-- The wake-up went with the caller that left. -/
theorem latest_eq_lost_stranded :
    ∃ id, latest WakeupEffect.matters strandedEffects = some (.lost id) ∧
      stranded.LeftCancelled id :=
  latest_eq_lost_of_quiescent trail_stranded quiescent_stranded
    (by decide) hasBlockedCaller_stranded

/-- **A key waits and nobody comes for it**, though somebody sleeps who has
not been told to stop. -/
theorem exists_key_beside_blocked_caller :
    ∃ seen r, Trail Step {} seen r ∧ r.Quiescent ∧ r.queue.items ≠ [] ∧ r.HasBlockedCaller :=
  ⟨strandedEffects, stranded, trail_stranded, quiescent_stranded, by decide,
    hasBlockedCaller_stranded⟩

end QueueWithCallers

end Tenure.Work
