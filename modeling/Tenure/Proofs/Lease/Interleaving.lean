import Mathlib.Logic.Function.Basic
import Tenure.Proofs.Lease.Rule

/-!
# Calls on one store

Any number of calls share a store, each on a lease of its own choice. `ι`
names the calls. A call reads and then swaps, and others may read and swap in
between, so what happens is a list of acts: which call reads at which clock
reading, which one swaps, and when faults are armed.

This is not `Contention`, where answers get lost and calls are abandoned. Here
the store answers each act for what it is, so the acts alone say what each
call is told (`Interleaving.answers`) and what is stored in the end
(`Interleaving.after`), and two lists of acts can be compared. A call whose
acts are next to each other is one that nobody disturbs
(`Interleaving.answers_call`).
-/

namespace Tenure.Lease

/-- The full name of a lease. -/
structure Address where
  namespaceName : String
  name : String
  deriving DecidableEq, Repr

/-- The key that the lease is stored under. -/
def Address.key (a : Address) : String := Lease.key a.namespaceName a.name

/-- A call: on which lease, under which identity, and for what. -/
structure Caller where
  address : Address
  duration : UInt64
  identity : String
  request : Request

namespace Caller

/-- The handle that the caller works with. -/
def lock (c : Caller) : Lock := .of c.address.namespaceName c.address.name c.duration

/-- The operation that is called. -/
def operation (c : Caller) : Operation Outcome := c.lock.serve c.identity c.request

@[simp] theorem key_lock (c : Caller) : c.lock.key = c.address.key := rfl

theorem follows_of_acquire {c : Caller} (h : c.request = .acquire) (now : UInt64) :
    c.operation.Follows c.lock now ((c.lock.acquireRule c.identity now).map .acquired) := by
  rw [operation, h]
  exact c.lock.serve_follows c.identity .acquire now

end Caller

/-- One act. -/
inductive Act (ι : Type) where
  /-- Faults are armed or disarmed. -/
  | arm (unavailable : Bool) (failingWrites : UInt32)
  /-- A call reads the clock and the record. -/
  | read (i : ι) (now : UInt64)
  /-- A call swaps the record, if it has decided on that. -/
  | swap (i : ι)

/-- The store that all share, and the swaps that are decided on. -/
structure Interleaving (ι : Type) where
  store : Store
  pending : ι → Option (Option UInt64 × Record)

namespace Interleaving

variable {ι : Type} [DecidableEq ι] {caller : ι → Caller} {w : Interleaving ι} {i : ι}
  {now : UInt64}

/-- The same with another swap, or none, of one call. -/
def setPending (w : Interleaving ι) (i : ι) (swap : Option (Option UInt64 × Record)) :
    Interleaving ι :=
  { w with pending := Function.update w.pending i swap }

@[simp] theorem pending_setPending_self (w : Interleaving ι) (i : ι)
    (swap : Option (Option UInt64 × Record)) : (w.setPending i swap).pending i = swap := by
  simp [setPending]

theorem pending_setPending_of_ne (w : Interleaving ι) {j : ι} (h : j ≠ i)
    (swap : Option (Option UInt64 × Record)) :
    (w.setPending i swap).pending j = w.pending j := by
  simp [setPending, h]

/-- **One act**: what it answers to whom, and what it leaves behind. -/
def step (caller : ι → Caller) (w : Interleaving ι) :
    Act ι → Option (ι × Except Error Outcome) × Interleaving ι
  | .arm unavailable failingWrites =>
    (none, { w with store := (w.store.setUnavailable unavailable).failNextWrites failingWrites })
  | .read i now =>
    match ((caller i).operation.onRead now (w.store.read (caller i).lock.key)).1 with
    | .done result => (some (i, result), w.setPending i none)
    | .swap expected record => (none, w.setPending i (some (expected, record)))
  | .swap i =>
    match w.pending i with
    | none => (none, w)
    | some (expected, record) =>
      let (answer, after) := w.store.write ((caller i).lock.swapCommand expected record)
      (some (i, ((caller i).operation.onSwap record answer).1),
        { w with store := after }.setPending i none)

/-- What the acts leave behind. -/
def after (caller : ι → Caller) (w : Interleaving ι) (acts : List (Act ι)) : Interleaving ι :=
  acts.foldl (fun w act => (w.step caller act).2) w

/-- What the calls are told, in order. -/
def answers (caller : ι → Caller) (w : Interleaving ι) :
    List (Act ι) → List (ι × Except Error Outcome)
  | [] => []
  | act :: acts => (w.step caller act).1.toList ++ answers caller (w.step caller act).2 acts

@[simp] theorem after_nil (w : Interleaving ι) : w.after caller [] = w := rfl

@[simp] theorem after_cons (w : Interleaving ι) (act : Act ι) (acts : List (Act ι)) :
    w.after caller (act :: acts) = (w.step caller act).2.after caller acts := rfl

@[simp] theorem answers_nil (w : Interleaving ι) : w.answers caller [] = [] := rfl

theorem answers_cons (w : Interleaving ι) (act : Act ι) (acts : List (Act ι)) :
    w.answers caller (act :: acts)
      = (w.step caller act).1.toList ++ (w.step caller act).2.answers caller acts := rfl

theorem after_append (w : Interleaving ι) (acts later : List (Act ι)) :
    w.after caller (acts ++ later) = (w.after caller acts).after caller later :=
  List.foldl_append

theorem answers_append (w : Interleaving ι) (acts later : List (Act ι)) :
    w.answers caller (acts ++ later)
      = w.answers caller acts ++ (w.after caller acts).answers caller later := by
  induction acts generalizing w with
  | nil => rfl
  | cons act acts ih =>
    rw [List.cons_append, answers_cons, answers_cons, ih, after_cons, List.append_assoc]

theorem step_read_of_done {result : Except Error Outcome}
    (h : ((caller i).operation.onRead now (w.store.read (caller i).lock.key)).1 = .done result) :
    w.step caller (.read i now) = (some (i, result), w.setPending i none) := by
  rw [step, h]

theorem step_read_of_swap {expected : Option UInt64} {record : Record}
    (h : ((caller i).operation.onRead now (w.store.read (caller i).lock.key)).1
      = .swap expected record) :
    w.step caller (.read i now) = (none, w.setPending i (some (expected, record))) := by
  rw [step, h]

theorem step_swap_of_none (h : w.pending i = none) : w.step caller (.swap i) = (none, w) := by
  rw [step, h]

theorem step_swap_of_some {expected : Option UInt64} {record : Record}
    (h : w.pending i = some (expected, record)) :
    w.step caller (.swap i)
      = (some (i, ((caller i).operation.onSwap record
            (w.store.write ((caller i).lock.swapCommand expected record)).1).1),
          { w with
            store := (w.store.write ((caller i).lock.swapCommand expected record)).2 }.setPending i
              none) := by
  rw [step, h]

/-- **A call whose acts are next to each other** is told what an operation on
an undisturbed store answers, and leaves that store behind. -/
theorem answers_call (caller : ι → Caller) (w : Interleaving ι) (i : ι) (now : UInt64) :
    let run := (caller i).operation.perform (caller i).lock now w.store
    w.answers caller [.read i now, .swap i] = [(i, run.1)] ∧
      (w.after caller [.read i now, .swap i]).store = run.2 := by
  intro run
  rw [answers_cons, answers_cons, after_cons, after_cons, after_nil, answers_nil]
  cases hdecision : ((caller i).operation.onRead now (w.store.read (caller i).lock.key)).1 with
  | done result =>
    have hrun : run = (result, w.store) := by
      show Operation.perform _ _ _ _ = _
      rw [Operation.perform, hdecision]
    rw [step_read_of_done hdecision, step_swap_of_none (pending_setPending_self _ _ _), hrun]
    exact ⟨rfl, rfl⟩
  | swap expected record =>
    have hrun : run = (((caller i).operation.onSwap record
          (w.store.write ((caller i).lock.swapCommand expected record)).1).1,
        (w.store.write ((caller i).lock.swapCommand expected record)).2) := by
      show Operation.perform _ _ _ _ = _
      rw [Operation.perform, hdecision]
    rw [step_read_of_swap hdecision, step_swap_of_some (pending_setPending_self _ _ _), hrun]
    exact ⟨rfl, rfl⟩

end Interleaving

end Tenure.Lease
