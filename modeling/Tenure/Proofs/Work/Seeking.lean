import Mathlib.Data.List.Nodup
import Tenure.Work.Queue

/-!
# Steps at a queue

A caller that wants a key goes about it in small steps, and what it does in
one depends on where it stands, on what is in the queue, and on whether it
was told to stop (`Seeks`). Of all that it does only one step touches the
keys, and that is the one in which it finds a key: every other leaves them
as they are (`Seeks.sameKeys`).

The waiting keys are kept twice, in order and for looking up. Both agree
(`Queue.Tidy`), whatever is done: so a key is refused exactly when it waits
already.
-/

namespace Tenure.Work

/-- **A step of a caller**, from where it stood to where it stands. -/
inductive Seeks (q : Queue) (id : Nat) (cancelled : Bool) : Seeker → Queue → Seeker → Prop
  | stops (h : cancelled = true) : Seeks q id cancelled .looking q .gone
  | finds {key : String} {rest : List String} (h : q.items = key :: rest) :
    Seeks q id cancelled .looking q.tryNext.1 (.found key)
  | misses (h : q.items = []) : Seeks q id cancelled .looking q .enlisting
  | turnsBack (h : cancelled = true) : Seeks q id cancelled .enlisting q .gone
  | takesPermit (h : q.permit = true) :
    Seeks q id cancelled .enlisting { q with permit := false } .looking
  | enlists (h : q.permit = false) :
    Seeks q id cancelled .enlisting { q with listening := q.listening ++ [id] } .listening
  | leaves (h : cancelled = true) : Seeks q id cancelled .listening (q.leave id) .gone
  | wakesUp (h : id ∈ q.woken) :
    Seeks q id cancelled .listening { q with woken := q.woken.erase id } .looking
  | sleeps (h : id ∉ q.woken) : Seeks q id cancelled .listening q .listening
  | done {s : Seeker} (h : s.isDone = true) : Seeks q id cancelled s q s

namespace Queue

variable {q : Queue} {id : Nat}

theorem tryNext_of_nil (h : q.items = []) : q.tryNext = (q, none) := by
  unfold tryNext
  rw [h]

theorem tryNext_of_cons {key : String} {rest : List String} (h : q.items = key :: rest) :
    q.tryNext.2 = some key := by
  rw [tryNext_eq_head?, h]
  rfl

/-- Every step of a caller is one of these. -/
theorem seeks_seek (q : Queue) (id : Nat) (cancelled wakeFirst : Bool) (s : Seeker) :
    Seeks q id cancelled s (q.seek id cancelled wakeFirst s).1
      (q.seek id cancelled wakeFirst s).2 := by
  cases s with
  | looking =>
    unfold seek
    cases hcancelled : cancelled with
    | true => exact .stops rfl
    | false =>
      cases hitems : q.items with
      | nil => simpa [tryNext_of_nil hitems] using Seeks.misses hitems
      | cons key rest =>
        have hkey := tryNext_of_cons hitems
        generalize htaken : q.tryNext = taken at hkey ⊢
        obtain ⟨after, _⟩ := taken
        obtain rfl := hkey
        have hfinds : Seeks q id false .looking q.tryNext.1 (.found key) := .finds hitems
        rwa [htaken] at hfinds
  | enlisting =>
    simp only [seek]
    split
    case isTrue h => exact .turnsBack (Bool.and_eq_true_iff.1 h).1
    case isFalse =>
      split
      case isTrue h => exact .takesPermit h
      case isFalse h => exact .enlists (by simpa using h)
  | listening =>
    simp only [seek]
    split
    case isTrue h => exact .leaves (Bool.and_eq_true_iff.1 h).1
    case isFalse =>
      split
      case isTrue h => exact .wakesUp (List.contains_iff_mem.1 h)
      case isFalse h => exact .sleeps fun hmem => h (List.contains_iff_mem.2 hmem)
  | found key => exact .done rfl
  | gone => exact .done rfl

/-! ## Keys -/

/-- The same keys wait in two queues. -/
structure SameKeys (q q' : Queue) : Prop where
  items : q'.items = q.items
  queued : q'.queued = q.queued

theorem sameKeys_wake (q : Queue) : q.SameKeys q.wake := ⟨items_wake q, queued_wake q⟩

theorem sameKeys_leave (q : Queue) (id : Nat) : q.SameKeys (q.leave id) := by
  unfold leave
  split
  · exact ⟨items_wake _, queued_wake _⟩
  · exact ⟨rfl, rfl⟩

/-- **Each key waits once**, and is looked up where it waits. -/
structure Tidy (q : Queue) : Prop where
  agrees : q.queued.Perm q.items
  once : q.items.Nodup

theorem tidy_empty : ({} : Queue).Tidy := ⟨.nil, List.nodup_nil⟩

theorem Tidy.of_sameKeys {q' : Queue} (h : q.Tidy) (hsame : q.SameKeys q') : q'.Tidy where
  agrees := by
    rw [hsame.items, hsame.queued]
    exact h.agrees
  once := hsame.items ▸ h.once

/-- A key is looked up iff it waits. -/
theorem Tidy.contains_iff (h : q.Tidy) (key : String) :
    q.queued.contains key = true ↔ key ∈ q.items := by
  rw [List.contains_iff_mem, h.agrees.mem_iff]

/-- What an addition puts there. -/
theorem items_add_eq (q : Queue) (key : String) :
    (q.add key).1.items = q.items ++ if (q.add key).2 then [key] else [] := by
  rw [items_add]
  cases hcontains : q.queued.contains key with
  | true =>
    have hrefused : (q.add key).2 = false := by
      rw [← Bool.not_eq_true, add_eq_true_iff, hcontains]
      simp
    simp [hrefused]
  | false =>
    have hadded : (q.add key).2 = true := (add_eq_true_iff q key).2 hcontains
    simp [hadded]

/-- **After an addition the key waits**, accepted or not. -/
theorem Tidy.mem_add (h : q.Tidy) (key : String) : key ∈ (q.add key).1.items := by
  rw [items_add]
  split
  case isTrue hcontains => exact (h.contains_iff key).1 hcontains
  case isFalse => exact List.mem_append_right _ List.mem_cons_self

theorem Tidy.add (h : q.Tidy) (key : String) : (q.add key).1.Tidy := by
  unfold Queue.add Queue.insert
  cases hcontains : q.queued.contains key with
  | true => simpa using h
  | false =>
    have hnew : key ∉ q.items := by
      rw [← h.contains_iff, hcontains]
      simp
    have hinserted : { q with items := q.items ++ [key], queued := key :: q.queued }.Tidy :=
      ⟨(h.agrees.cons key).trans (List.perm_append_singleton key q.items).symm,
        h.once.append (List.nodup_singleton key) (by simpa using hnew)⟩
    simpa using hinserted.of_sameKeys (sameKeys_wake _)

theorem Tidy.tryNext (h : q.Tidy) : q.tryNext.1.Tidy := by
  cases hitems : q.items with
  | nil => rwa [tryNext_of_nil hitems]
  | cons key rest =>
    have hagrees : (q.queued.erase key).Perm rest := by
      have herase := h.agrees.erase key
      rwa [hitems, List.erase_cons_head] at herase
    have htaken : { q with items := rest, queued := q.queued.erase key }.Tidy :=
      ⟨hagrees, (hitems ▸ h.once).of_cons⟩
    unfold Queue.tryNext
    rw [hitems]
    dsimp only
    split
    · exact htaken
    · exact htaken.of_sameKeys (sameKeys_wake _)

end Queue

/-- A caller that finds no key leaves the keys as they are. -/
theorem Seeks.sameKeys {q q' : Queue} {id : Nat} {cancelled : Bool} {s s' : Seeker}
    (h : Seeks q id cancelled s q' s') (hnone : s.isDone = true ∨ ∀ key, s' ≠ .found key) :
    q.SameKeys q' := by
  cases h with
  | finds hitems => exact absurd rfl (hnone.resolve_left (by simp [Seeker.isDone]) _)
  | leaves hstopped => exact Queue.sameKeys_leave q id
  | _ => exact ⟨rfl, rfl⟩

end Tenure.Work
