/-!
# The work queue

Keys that wait to be worked on, first in, first out, and each at most once
at a time: whoever works on a key looks at its latest state, so one waiting
entry is enough.

Callers that find the queue empty enlist and are woken one by one. A
**wake-up** goes to the caller enlisted longest, or is kept as a permit for
the next one to enlist; at most one is kept. A caller that leaves without
using its wake-up hands it on.

Taking a key is a little program (`Seeker`) of single steps – look, enlist,
listen – between which other callers come and go. `Queue.seek` is one step,
and `Queue.poll` all steps up to where the caller has to wait, which is how
it runs where nobody else can come in between.
-/

namespace Tenure.Work

/-- The waiting keys, and the callers that wait for one. Callers are known
by numbers. -/
structure Queue where
  /-- The waiting keys in order. -/
  items : List String := []
  /-- The waiting keys, for looking up. -/
  queued : List String := []
  /-- A wake-up that nobody was there to take. -/
  permit : Bool := false
  /-- Callers that are enlisted, the longest first. -/
  listening : List Nat := []
  /-- Callers that hold a wake-up they have not used yet. -/
  woken : List Nat := []
  deriving DecidableEq, Repr, Inhabited

namespace Queue

/-- Gives one wake-up. -/
def wake (q : Queue) : Queue :=
  match q.listening with
  | [] => { q with permit := true }
  | first :: rest => { q with listening := rest, woken := q.woken ++ [first] }

/-- Puts a key at the end unless it is waiting already; says whether it was
put there. -/
def insert (q : Queue) (key : String) : Queue × Bool :=
  if q.queued.contains key then (q, false)
  else ({ q with items := q.items ++ [key], queued := key :: q.queued }, true)

/-- **Adds a key** and wakes a caller for it, unless it is waiting
already. -/
def add (q : Queue) (key : String) : Queue × Bool :=
  match q.insert key with
  | (q, true) => (q.wake, true)
  | (q, false) => (q, false)

/-- **Takes the first key**, if there is one, and wakes another caller if
more keys wait. -/
def tryNext (q : Queue) : Queue × Option String :=
  match q.items with
  | [] => (q, none)
  | key :: rest =>
    let q := { q with items := rest, queued := q.queued.erase key }
    (if rest.isEmpty then q else q.wake, some key)

/-! A wake-up moves callers and no keys. -/

@[simp] theorem items_wake (q : Queue) : q.wake.items = q.items := by
  unfold wake
  split <;> rfl

@[simp] theorem queued_wake (q : Queue) : q.wake.queued = q.queued := by
  unfold wake
  split <;> rfl

/-- The waiting keys after an addition. -/
theorem items_add (q : Queue) (key : String) :
    (q.add key).1.items = if q.queued.contains key then q.items else q.items ++ [key] := by
  unfold add insert
  cases h : q.queued.contains key
  · simp only [Bool.false_eq_true, ↓reduceIte, items_wake]
  · simp only [↓reduceIte]

/-- A key is refused iff it is waiting. -/
theorem add_eq_true_iff (q : Queue) (key : String) :
    (q.add key).2 = true ↔ q.queued.contains key = false := by
  unfold add insert
  cases h : q.queued.contains key
  · simp only [Bool.false_eq_true, ↓reduceIte]
  · simp only [↓reduceIte, Bool.false_eq_true, Bool.true_eq_false]

/-- The key that is taken is the first one. -/
theorem tryNext_eq_head? (q : Queue) : q.tryNext.2 = q.items.head? := by
  unfold tryNext
  split <;> simp [*]

theorem items_tryNext (q : Queue) : q.tryNext.1.items = q.items.tail := by
  unfold tryNext
  split
  · simp [*]
  · rename_i key rest h
    split <;> simp [h]

/-- How many keys wait. -/
def length (q : Queue) : Nat := q.items.length

/-- A caller leaves. If it held a wake-up, the next one gets it. -/
def leave (q : Queue) (id : Nat) : Queue :=
  if q.woken.contains id then { q with woken := q.woken.erase id }.wake
  else { q with listening := q.listening.erase id }

end Queue

/-- Where a caller stands who wants a key. -/
inductive Seeker where
  /-- About to look whether it was told to stop, and for a key. -/
  | looking
  /-- Has found no key and is about to enlist. -/
  | enlisting
  /-- Enlisted, or already woken. -/
  | listening
  | found (key : String)
  /-- Told to stop. -/
  | gone
  deriving DecidableEq, Repr, Inhabited

/-- Whether the caller has what it came for. -/
def Seeker.isDone : Seeker → Bool
  | found _ => true
  | gone => true
  | _ => false

namespace Queue

/-- **One step of a caller.** `wakeFirst` says which of two things it
notices first if it was both woken and told to stop. -/
def seek (q : Queue) (id : Nat) (cancelled wakeFirst : Bool) : Seeker → Queue × Seeker
  | .looking =>
    if cancelled then (q, .gone)
    else match q.tryNext with
      | (q, some key) => (q, .found key)
      | (q, none) => (q, .enlisting)
  | .enlisting =>
    if cancelled && !(q.permit && wakeFirst) then (q, .gone)
    else if q.permit then ({ q with permit := false }, .looking)
    else ({ q with listening := q.listening ++ [id] }, .listening)
  | .listening =>
    let woken := q.woken.contains id
    if cancelled && !(woken && wakeFirst) then (q.leave id, .gone)
    else if woken then ({ q with woken := q.woken.erase id }, .looking)
    else (q, .listening)
  | s => (q, s)

/-- All steps of a caller up to where it has to wait or is done. A wake-up
that was kept lets it look a second time, and no third time, so five steps
are enough. -/
def poll (q : Queue) (id : Nat) (cancelled : Bool) (s : Seeker) : Queue × Seeker :=
  go 6 q s
where
  go : Nat → Queue → Seeker → Queue × Seeker
    | 0, q, s => (q, s)
    | fuel + 1, q, s =>
      match q.seek id cancelled false s with
      | (q, .listening) => (q, .listening)
      | (q, s) => if s.isDone then (q, s) else go fuel q s

end Queue

end Tenure.Work
