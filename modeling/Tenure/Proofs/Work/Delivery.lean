import Tenure.Proofs.Trail
import Tenure.Proofs.Work.Seeking

/-!
# First in, first out

A key may be added any number of times, and is taken much less often: what
comes while the key waits is refused. So it is not the additions that are
delivered but the accepted ones, each once and in their order. In every state
the accepted keys are those that were taken followed by those that wait
(`Queue.Delivers.order`), and since a key never waits twice, it is accepted
again only after it was taken.

Callers may take keys at once or wait for them, and their single steps may
come in any order.
-/

namespace Tenure.Work

/-- What is done at a queue, with what comes of it. -/
inductive Use where
  | adds (key : String) (accepted : Bool)
  /-- Somebody takes a key if there is one, and does not wait. -/
  | takes (key : Option String)
  /-- A step of somebody who is prepared to wait. -/
  | seeks (before after : Seeker)

namespace Use

/-- The keys that are accepted. -/
def accepted : Use → List String
  | adds key true => [key]
  | _ => []

/-- The keys that are taken. -/
def taken : Use → List String
  | takes key => key.toList
  | seeks .looking (.found key) => [key]
  | _ => []

end Use

namespace Queue

/-- **A queue is used.** Whoever steps may stand anywhere, may have been told
to stop or not, and may notice that or a wake-up first. -/
inductive Used : Queue → Use → Queue → Prop
  | adds {q : Queue} (key : String) : Used q (.adds key (q.add key).2) (q.add key).1
  | takes {q : Queue} : Used q (.takes q.tryNext.2) q.tryNext.1
  | seeks {q : Queue} (id : Nat) (cancelled wakeFirst : Bool) (s : Seeker) :
    Used q (.seeks s (q.seek id cancelled wakeFirst s).2) (q.seek id cancelled wakeFirst s).1

variable {q q' : Queue} {x : Use} {seen : List Use}

/-- A caller that finds a key takes the first one. -/
theorem items_of_seeks {id : Nat} {cancelled : Bool} {s s' : Seeker}
    (h : Seeks q id cancelled s q' s') : q.items = (Use.seeks s s').taken ++ q'.items := by
  cases h with
  | finds hitems =>
    rw [items_tryNext, hitems]
    rfl
  | leaves hstopped => exact (sameKeys_leave q id).items.symm
  | done hdone => cases s <;> first | contradiction | rfl
  | _ => rfl

/-- **What is accepted comes to the end, and what is taken goes from the
front.** -/
theorem Used.items (h : Used q x q') : q.items ++ x.accepted = x.taken ++ q'.items := by
  cases h with
  | adds key =>
    rw [items_add_eq]
    cases (q.add key).2 <;> rfl
  | takes =>
    rw [tryNext_eq_head?, items_tryNext]
    cases q.items <;> exact List.append_nil _
  | seeks id cancelled wakeFirst s =>
    exact (List.append_nil _).trans (items_of_seeks (seeks_seek q id cancelled wakeFirst s))

theorem Tidy.of_seeks {id : Nat} {cancelled : Bool} {s s' : Seeker} (hq : q.Tidy)
    (h : Seeks q id cancelled s q' s') : q'.Tidy := by
  cases h with
  | finds hitems => exact hq.tryNext
  | leaves hstopped => exact hq.of_sameKeys (sameKeys_leave q id)
  | _ => exact hq.of_sameKeys ⟨rfl, rfl⟩

theorem Used.tidy (h : Used q x q') (hq : q.Tidy) : q'.Tidy := by
  cases h with
  | adds key => exact hq.add key
  | takes => exact hq.tryNext
  | seeks id cancelled wakeFirst s => exact hq.of_seeks (seeks_seek q id cancelled wakeFirst s)

theorem tidy_of_trail (t : Trail Used q seen q') (hq : q.Tidy) : q'.Tidy :=
  t.preserves Tidy (fun _ _ _ h hq => h.tidy hq) hq

/-- **What a queue holds and what it accepts is what is taken and what it
holds then.** -/
theorem items_of_trail (t : Trail Used q seen q') (hq : q.Tidy) :
    q.items ++ seen.flatMap Use.accepted = seen.flatMap Use.taken ++ q'.items :=
  t.conserves Tidy Queue.items (fun _ _ _ h hq => ⟨h.tidy hq, h.items⟩) hq

/-- A key is accepted iff it does not wait. -/
theorem Tidy.add_eq_true_iff (hq : q.Tidy) (key : String) :
    (q.add key).2 = true ↔ key ∉ q.items := by
  rw [Queue.add_eq_true_iff, ← hq.contains_iff, Bool.not_eq_true]

/-- **A key that waits is not accepted before it is taken.** -/
theorem mem_taken_of_accepted {key : String} (t : Trail Used q seen q') (hq : q.Tidy)
    (hwaits : key ∈ q.items) (haccepted : (q'.add key).2 = true) :
    key ∈ seen.flatMap Use.taken := by
  have hgone : key ∉ q'.items := ((tidy_of_trail t hq).add_eq_true_iff key).1 haccepted
  have hmem : key ∈ seen.flatMap Use.taken ++ q'.items :=
    items_of_trail t hq ▸ List.mem_append_left _ hwaits
  exact (List.mem_append.1 hmem).resolve_right hgone

/-- An addition is nothing else. -/
theorem Used.eq_add {key : String} {accepted : Bool} (h : Used q (.adds key accepted) q') :
    q.add key = (q', accepted) := by
  cases h
  rfl

/-- **A queue keeps its promises**, after all that has been done at it. -/
structure Delivers (seen : List Use) (q : Queue) : Prop where
  /-- No key waits twice, -/
  once : q.items.Nodup
  /-- and the keys that can be looked up are those that wait. -/
  lookup : q.queued.Nodup ∧ ∀ key, key ∈ q.queued ↔ key ∈ q.items
  /-- A key is accepted iff it does not wait, -/
  accepts : ∀ key, (q.add key).2 = true ↔ key ∉ q.items
  /-- and then it waits in any case. -/
  waits : ∀ key, key ∈ (q.add key).1.items
  /-- The keys that were taken and those that wait are the accepted ones in
  their order. -/
  order : seen.flatMap Use.taken ++ q.items = seen.flatMap Use.accepted
  /-- Between two times that a key is accepted it is taken. -/
  again : ∀ key before between after,
    seen = before ++ .adds key true :: (between ++ .adds key true :: after) →
    key ∈ between.flatMap Use.taken

/-- **Every accepted key is delivered once, in its turn**, whatever is done at
a queue. -/
theorem delivers_in_order (t : Trail Used {} seen q) : Delivers seen q := by
  have hq : q.Tidy := tidy_of_trail t tidy_empty
  refine ⟨hq.once, ⟨hq.agrees.nodup_iff.2 hq.once, fun key => hq.agrees.mem_iff⟩,
    hq.add_eq_true_iff, hq.mem_add, (items_of_trail t tidy_empty).symm, ?_⟩
  intro key before between after hseen
  obtain ⟨u, u', hbefore, hfirst, hrest⟩ := t.met hseen
  obtain ⟨v, v', hbetween, hsecond, -⟩ := hrest.met rfl
  have hu : u.Tidy := tidy_of_trail hbefore tidy_empty
  have hwaits : key ∈ u'.items := by
    have hmem := hu.mem_add key
    rwa [hfirst.eq_add] at hmem
  exact mem_taken_of_accepted hbetween (hfirst.tidy hu) hwaits (by rw [hsecond.eq_add])

/-- Some are refused, some are taken at once and some by a caller that
waits. -/
def someUses : List Use :=
  [.adds "a" true, .adds "b" true, .adds "a" false, .takes (some "a"),
    .seeks .looking (.found "b"), .adds "a" true]

theorem trail_someUses : ∃ q, Trail Used {} someUses q := by
  refine ⟨_, .cons (.adds "a") <| .cons (.adds "b") <| .cons (.adds "a") <| .cons .takes <|
    .cons (.seeks 0 false false .looking) <| .single (.adds "a")⟩

/-- A key waits again that was taken before. -/
theorem delivers_in_order_again : ∃ q, Trail Used {} someUses q ∧ Delivers someUses q := by
  obtain ⟨q, t⟩ := trail_someUses
  exact ⟨q, t, delivers_in_order t⟩

end Queue

end Tenure.Work
