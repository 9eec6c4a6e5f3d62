import Tenure.Store.Basic

/-!
# A channel to the store

Between a client and the store lies a channel on which things go wrong:
calls take time or never return, an answer comes from nowhere, other
clients write between a client's read and its write, the clock jumps. The
channel holds the faults that are armed. A call takes those meant for it
when it begins (`Channel.beginRead`, `Channel.beginWrite`), so later
changes do not touch it.

A write that waits is carried out at one moment: first what other clients
write, then the write itself, unless an armed answer takes its place.
-/

namespace Tenure.Store

/-- An answer armed in place of the store's. -/
inductive Armed (α : Type) where
  | answer (a : α)
  /-- The call brings its caller down. -/
  | crash
  deriving DecidableEq, Repr

/-- The store, and the faults armed on the way to it. -/
structure Channel where
  store : Store := {}
  reads : List (Armed ReadAnswer) := []
  writes : List (Armed WriteAnswer) := []
  /-- Commands of other clients that arrive just before the next write. -/
  races : List Command := []
  readDelay : Nat := 0
  writeDelay : Nat := 0
  /-- From the moment a write is carried out to its answer. -/
  ackDelay : Nat := 0
  /-- How far the clock moves with each write. -/
  clockJump : UInt64 := 0
  hangReads : Bool := false
  hangWrites : Bool := false

/-- A change to the faults, or a command of another client. -/
inductive Fault where
  | command (c : Command)
  | unavailable (b : Bool)
  | failNextWrites (count : UInt32)
  | injectRead (a : Armed ReadAnswer)
  | injectWrite (a : Armed WriteAnswer)
  | race (c : Command)
  | readDelay (ms : Nat)
  | writeDelay (ms : Nat)
  | ackDelay (ms : Nat)
  | clockJump (ms : UInt64)
  | hangReads (b : Bool)
  | hangWrites (b : Bool)

/-- A call on its way: how long until it is carried out, or `none` if it
never is, and what it takes along. -/
structure Transit (α : Type) where
  delay : Option Nat
  armed : Option (Armed α)
  races : List Command
  ackDelay : Nat
  clockJump : UInt64

namespace Channel

/-- Carries out a change. A command answers as the store does. -/
def apply (c : Channel) : Fault → Option WriteAnswer × Channel
  | .command command =>
    let (answer, store) := c.store.write command
    (some answer, { c with store })
  | .unavailable b => (none, { c with store := c.store.setUnavailable b })
  | .failNextWrites count => (none, { c with store := c.store.failNextWrites count })
  | .injectRead a => (none, { c with reads := c.reads ++ [a] })
  | .injectWrite a => (none, { c with writes := c.writes ++ [a] })
  | .race command => (none, { c with races := c.races ++ [command] })
  | .readDelay ms => (none, { c with readDelay := ms })
  | .writeDelay ms => (none, { c with writeDelay := ms })
  | .ackDelay ms => (none, { c with ackDelay := ms })
  | .clockJump ms => (none, { c with clockJump := ms })
  | .hangReads b => (none, { c with hangReads := b })
  | .hangWrites b => (none, { c with hangWrites := b })

/-- A read begins. -/
def beginRead (c : Channel) : Transit ReadAnswer × Channel :=
  (⟨if c.hangReads then none else some c.readDelay, c.reads.head?, [], 0, 0⟩,
    { c with reads := c.reads.tail })

/-- A write begins. -/
def beginWrite (c : Channel) : Transit WriteAnswer × Channel :=
  (⟨if c.hangWrites then none else some c.writeDelay, c.writes.head?, c.races, c.ackDelay,
      c.clockJump⟩,
    { c with writes := c.writes.tail, races := [] })

/-- A read is carried out. `none` means that it brings its caller down. -/
def finishRead (c : Channel) (t : Transit ReadAnswer) (key : String) : Option ReadAnswer :=
  match t.armed with
  | some (.answer a) => some a
  | some .crash => none
  | none => some (c.store.read key)

/-- A write is carried out, behind the writes of others that it met. -/
def finishWrite (c : Channel) (t : Transit WriteAnswer) (command : Command) :
    Option WriteAnswer × Channel :=
  let store := t.races.foldl (fun s other => (s.write other).2) c.store
  match t.armed with
  | some (.answer a) => (some a, { c with store })
  | some .crash => (none, { c with store })
  | none =>
    let (answer, after) := store.write command
    (some answer, { c with store := after })

end Channel

end Tenure.Store
