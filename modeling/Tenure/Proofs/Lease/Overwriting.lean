import Tenure.Proofs.Lease.Contention
import Tenure.Simulation.LockSession

/-!
# What a write of a lock replaces

Between the read and the write of a lock, other clients may write the same
key. The lock does not see that; all that it has is the version it has
read, and the store carries its write out exactly if the entry still has
that version. Otherwise the store stays as the others left it and the
caller learns that the lease is not its own.

That the version is the same does not say that the entry is. It does as
long as nobody deletes the key, because a write counts the version up, and
nothing but the range of versions ends the count (`writes_over_what_was_read`).
A key that is deleted and written again starts over, so its version
comes back, under another text (`Store.find?_writeAll_delete_set`), and a
lock that has read the version before will write over that text
(`renewal_writes_over_another_holder`). Locks do not delete, so this is a
matter of other clients.

A caller whose record was not written learns that the lease is not its own,
or that what is stored cannot be read, with one exception: a key or a record
beyond the limits of the store is refused as a failure of the store
(`performAmid_of_unfit`).
-/

namespace Tenure.Lease

/-- **An operation while others write**: these commands of others arrive
after its read and before its write. -/
def Operation.performAmid {α : Type} (op : Operation α) (l : Lock) (now : UInt64) (s : Store)
    (others : List Store.Command) : Except Error α × Store :=
  match (op.onRead now (s.read l.key)).1 with
  | .done result => (result, s.writeAll others)
  | .swap expected record =>
    let (answer, after) := (s.writeAll others).write (l.swapCommand expected record)
    ((op.onSwap record answer).1, after)

theorem Operation.performAmid_of_done {α : Type} {op : Operation α} {l : Lock} {now : UInt64}
    {s : Store} {result : Except Error α} (h : (op.onRead now (s.read l.key)).1 = .done result)
    (others : List Store.Command) :
    op.performAmid l now s others = (result, s.writeAll others) := by
  rw [performAmid, h]

theorem Operation.performAmid_of_swap {α : Type} {op : Operation α} {l : Lock} {now : UInt64}
    {s : Store} {expected : Option UInt64} {record : Record}
    (h : (op.onRead now (s.read l.key)).1 = .swap expected record)
    (others : List Store.Command) :
    op.performAmid l now s others =
      ((op.onSwap record ((s.writeAll others).write (l.swapCommand expected record)).1).1,
        ((s.writeAll others).write (l.swapCommand expected record)).2) := by
  rw [performAmid, h]

/-- Without others it is the operation on a store that nobody else
touches. -/
theorem Operation.performAmid_nil {α : Type} (op : Operation α) (l : Lock) (now : UInt64)
    (s : Store) : op.performAmid l now s [] = op.perform l now s := by
  unfold performAmid perform
  cases (op.onRead now (s.read l.key)).1 with
  | done result => rfl
  | swap expected record => rfl

/-- In a session, the others are those that race with the write. -/
theorem performAmid_eq_perform {α : Type} (s : Simulation.LockSession) (l : Lock)
    (op : Operation α) {expected : Option UInt64} {record : Record}
    (hreads : s.channel.reads = []) (hwrites : s.channel.writes = [])
    (hswap : (op.onRead s.clock (s.channel.store.read l.key)).1 = .swap expected record) :
    ((s.perform l op).1, (s.perform l op).2.channel.store)
      = (some (op.performAmid l s.clock s.channel.store s.channel.races).1,
        (op.performAmid l s.clock s.channel.store s.channel.races).2) := by
  simp only [Simulation.LockSession.perform, Store.Channel.beginRead, Store.Channel.finishRead,
    Store.Channel.beginWrite, Store.Channel.finishWrite, Operation.performAmid, hreads, hwrites,
    hswap, List.head?_nil]
  rfl

/-- **What a caller is told if nothing was written for it**, `s` being the
store that it has read and `present` the one that its write met: that the
lease is not its own, that the entry of either store cannot be read, or
that the store does not take a key or a text of this length. -/
inductive Untouched (l : Lock) (op : Operation Outcome) (now : UInt64) (s present : Store) :
    Except Error Outcome → Prop
  | refused {outcome : Outcome} (h : outcome.isRefusal) : Untouched l op now s present (.ok outcome)
  | unreadable {entry : Store.Entry} {e : Error}
      (hentry : s.find? l.key = some entry ∨ present.find? l.key = some entry)
      (h : l.decode entry.value = .error e) : Untouched l op now s present (.error e)
  | unfit {expected : Option UInt64} {record : Record} {e : Store.Error}
      (hswap : (op.onRead now (s.read l.key)).1 = .swap expected record)
      (h : Store.validate (l.swapCommand expected record) = .error e) :
      Untouched l op now s present (.error (.storage l.key e))

variable {l : Lock} {s : Store}

/-- Without faults, a read fails only at the text that it finds. -/
theorem decode_of_current_error (hs : s.Faultless) {e : Error}
    (h : l.current (s.read l.key) = .error e) :
    ∃ entry, s.find? l.key = some entry ∧ l.decode entry.value = .error e := by
  rw [Store.read, hs.1, Store.get?] at h
  cases hfind : s.find? l.key with
  | none =>
    rw [hfind] at h
    contradiction
  | some entry =>
    rw [hfind] at h
    refine ⟨entry, rfl, ?_⟩
    cases hdecode : l.decode entry.value with
    | error e' =>
      simp only [Option.map_some, Bool.false_eq_true, if_false, Lock.current, hdecode,
        Except.map] at h
      exact congrArg Except.error (Except.error.inj h)
    | ok record => simp [Lock.current, hdecode, Except.map] at h

/-- A read that succeeds reads the version of the entry. -/
theorem version?_of_current {found : Option (Record × UInt64)}
    (h : l.current (s.read l.key) = .ok found) : found.map Prod.snd = s.version? l.key := by
  cases hfind : s.find? l.key with
  | none =>
    rw [Store.version?, hfind]
    unfold Store.read Store.get? at h
    rw [hfind] at h
    split at h
    · contradiction
    · exact Except.ok.inj h ▸ rfl
  | some entry =>
    cases found with
    | none =>
      unfold Store.read Store.get? at h
      rw [hfind] at h
      split at h
      · contradiction
      · cases hdecode : l.decode entry.value <;> simp [Lock.current, hdecode, Except.map] at h
    | some found =>
      obtain ⟨entry', hentry, hversion, -⟩ := Lock.current_read h
      rw [Store.version?, hentry, Option.map_some, Option.map_some, hversion]

/-- Whatever else refuses a swap is a failure of the store. -/
theorem swapped_of_ne {e : Store.Error}
    (h : ∀ key expected actual, e ≠ .swapFailed key expected actual) :
    l.swapped (.error e) = .error (.storage l.key e) := by
  cases e with
  | swapFailed key expected actual => exact absurd rfl (h key expected actual)
  | _ => rfl

/-- A command that is not valid is refused like that. -/
theorem swapped_of_validate {c : Store.Command} {e : Store.Error}
    (h : Store.validate c = .error e) :
    l.swapped (.error e) = .error (.storage l.key e) :=
  swapped_of_ne (Store.validate_ne_swapFailed h)

/-- A request that ends with the read tells its caller why. -/
theorem untouched_of_done {identity : String} {request : Request} {now : UInt64} {present : Store}
    {result : Except Error Outcome} (hs : s.Faultless)
    (h : ((l.serve identity request).onRead now (s.read l.key)).1 = .done result) :
    Untouched l (l.serve identity request) now s present result := by
  obtain ⟨e, hcurrent, rfl⟩ | ⟨outcome, rfl, houtcome⟩ := done_of_onRead h
  · obtain ⟨entry, hentry, hdecode⟩ := decode_of_current_error hs hcurrent
    exact .unreadable (.inl hentry) hdecode
  · exact .refused houtcome

/-- And so does one whose swap another writer beat. -/
theorem untouched_of_swapFailed {identity : String} {request : Request} {now : UInt64}
    {present : Store} (record : Record) (expected : Option UInt64) :
    Untouched l (l.serve identity request) now s present
      ((l.serve identity request).onSwap record
        (.error (.swapFailed l.key expected (present.get? l.key)))).1 := by
  obtain ⟨entry, e, hactual, hdecode, hresult⟩ | ⟨outcome, hresult, houtcome⟩ :=
    onSwap_swapFailed l identity request record l.key expected (present.get? l.key)
  · rw [hresult]
    obtain ⟨found, hfound, rfl⟩ := Option.map_eq_some_iff.1 hactual
    exact .unreadable (.inr hfound) hdecode
  · rw [hresult]
    exact .refused houtcome

/-- **A record that the store does not take**, because it or the key is
outside the limits, is refused as such, whatever others write. -/
theorem performAmid_of_unfit {identity : String} {request : Request} {now : UInt64}
    {expected : Option UInt64} {record : Record} {e : Store.Error} (hs : s.Faultless)
    (hswap : ((l.serve identity request).onRead now (s.read l.key)).1 = .swap expected record)
    (hunfit : Store.validate (l.swapCommand expected record) = .error e)
    (others : List Store.Command) :
    (l.serve identity request).performAmid l now s others
      = (.error (.storage l.key e), s.writeAll others) := by
  rw [Operation.performAmid_of_swap hswap, (hs.writeAll others).write_eq, hunfit]
  exact congrArg (·, s.writeAll others)
    (onSwap_error (swapped_of_validate hunfit) identity request record)

/-- A lease whose key is too long cannot be acquired. -/
theorem acquire_of_long_key (identity : String) (now : UInt64) (hs : s.Faultless)
    (habsent : s.find? l.key = none) (hlong : Store.maxKeySize.toNat < l.key.utf8ByteSize)
    (others : List Store.Command) :
    (l.serve identity .acquire).performAmid l now s others
      = (.error (.storage l.key (.keyTooLarge (UInt32.ofNat l.key.utf8ByteSize) Store.maxKeySize)),
        s.writeAll others) := by
  have hcurrent : l.current (s.read l.key) = .ok none := by
    rw [Store.read, hs.1, Store.get?, habsent]
    rfl
  have hswap : ((l.serve identity .acquire).onRead now (s.read l.key)).1
      = .swap none (.acquired identity 1 l.duration now) :=
    Operation.onRead_map_of_swap
      (Lock.onRead_acquire_of_free hcurrent fun _ _ h => by contradiction)
  exact performAmid_of_unfit hs hswap (Store.validate_of_long_key hlong) others

/-- **A lock does not write blindly.** Whatever commands of others arrive
between its read and its write, either they are all that happens to the
store and the caller is told why, or the record is written over an entry of
the version that was read. That is the entry that was read, if others have
left it in place; where there was none, there still is none. -/
theorem writes_over_what_was_read (l : Lock) (identity : String) (request : Request) (now : UInt64)
    (hs : s.Faultless) (others : List Store.Command) :
    let op := l.serve identity request
    let present := s.writeAll others
    let run := op.performAmid l now s others
    (run.2 = present ∧ Untouched l op now s present run.1) ∨
    ∃ record, (op.onRead now (s.read l.key)).1 = .swap (s.version? l.key) record ∧
      present.version? l.key = s.version? l.key ∧
      run.2 = present.put l.key ⟨record.text, Store.nextVersion (s.version? l.key)⟩ ∧
      (∃ outcome, run.1 = .ok outcome ∧ ¬ outcome.isRefusal) ∧
      (s.find? l.key = none → present.find? l.key = none) ∧
      ((∀ c ∈ others, c ≠ .delete l.key) → others.length < UInt64.size →
        present.find? l.key = s.find? l.key) := by
  intro op present run
  have hpresent : present.Faultless := hs.writeAll others
  cases hdecision : (op.onRead now (s.read l.key)).1 with
  | done result =>
    have hrun : run = (result, present) := Operation.performAmid_of_done hdecision others
    refine .inl ⟨congrArg Prod.snd hrun, ?_⟩
    rw [hrun]
    exact untouched_of_done hs hdecision
  | swap expected record =>
    obtain ⟨found, hcurrent, hexpected, -⟩ := replaces_of_onRead hdecision
    rw [version?_of_current hcurrent] at hexpected
    subst hexpected
    have hrun : run = ((op.onSwap record
        (present.write (l.swapCommand (s.version? l.key) record)).1).1,
        (present.write (l.swapCommand (s.version? l.key) record)).2) :=
      Operation.performAmid_of_swap hdecision others
    rw [hpresent.write_eq] at hrun
    cases hvalid : Store.validate (l.swapCommand (s.version? l.key) record) with
    | error e =>
      left
      have hunfit : run = (.error (.storage l.key e), present) :=
        performAmid_of_unfit hs hdecision hvalid others
      refine ⟨congrArg Prod.snd hunfit, ?_⟩
      rw [hunfit]
      exact .unfit hdecision hvalid
    | ok u =>
      rw [hvalid, Lock.swapCommand] at hrun
      simp only [Store.apply] at hrun
      by_cases hversion : present.version? l.key = s.version? l.key
      · right
        rw [if_pos hversion] at hrun
        obtain ⟨outcome, houtcome, hwritten⟩ := onSwap_ok l identity request record
          ⟨some (Store.nextVersion (present.version? l.key))⟩
        have hanswer : run.1 = .ok outcome := (congrArg Prod.fst hrun).trans houtcome
        have hafter : run.2 = present.put l.key
            ⟨record.text, Store.nextVersion (s.version? l.key)⟩ := by
          rw [hrun, hversion]
        refine ⟨record, rfl, hversion, hafter, ⟨outcome, hanswer, hwritten⟩, ?_, ?_⟩
        · intro hnone
          rw [Store.version?, Store.version?, hnone] at hversion
          exact Option.map_eq_none_iff.1 hversion
        · exact Store.find?_writeAll_of_version?_eq hversion
      · left
        rw [if_neg hversion] at hrun
        refine ⟨congrArg Prod.snd hrun, ?_⟩
        rw [hrun]
        exact untouched_of_swapFailed record (s.version? l.key)

/-- While another client replaces the holder's record by its own, a renewal
of the holder is refused and the other's record stays. -/
theorem writes_over_what_was_read_raced :
    let s : Store := { entries := [("lease", ⟨(Record.acquired "a" 1 10 0).text, 1⟩)] }
    let others := [Store.Command.set "lease" (Record.acquired "b" 2 10 0).text]
    let run := (Lock.serve ⟨"lease", 10⟩ "a" (.renew ⟨1⟩)).performAmid ⟨"lease", 10⟩ 5 s others
    run.2.value? "lease" = some (Record.acquired "b" 2 10 0).text := by
  intro s others
  have hs : s.Faultless := ⟨rfl, rfl⟩
  have hvalid : Store.validate (.set "lease" (Record.acquired "b" 2 10 0).text) = .ok () := by
    decide +kernel
  have htheirs : (s.writeAll others).find? "lease"
      = some ⟨(Record.acquired "b" 2 10 0).text, 2⟩ := Store.find?_writeAll_set hs hvalid 0
  obtain ⟨hafter, -⟩ | ⟨record, -, hversion, -⟩ :=
    writes_over_what_was_read ⟨"lease", 10⟩ "a" (.renew ⟨1⟩) 5 hs others
  · refine (congrArg (Store.value? · "lease") hafter).trans ?_
    rw [Store.value?, htheirs]
    rfl
  · rw [Store.version?, htheirs] at hversion
    exact absurd hversion (by decide)

/-- **A lock writes over what it has not read** where the key was deleted
and written anew, as often as the version that it has read says. -/
theorem writes_over_rewritten (l : Lock) (identity : String) (request : Request) (now : UInt64)
    (hs : s.Faultless) {n : Nat} {record : Record} {value : String}
    (hdecision : ((l.serve identity request).onRead now (s.read l.key)).1
      = .swap (some (UInt64.ofNat (n + 1))) record)
    (hvalue : Store.validate (.set l.key value) = .ok ())
    (hrecord : Store.validate (.set l.key record.text) = .ok ()) :
    let others := .delete l.key :: List.replicate (n + 1) (.set l.key value)
    (s.writeAll others).value? l.key = some value ∧
      ((l.serve identity request).performAmid l now s others).2.value? l.key
        = some record.text := by
  intro others
  have hentry := Store.find?_writeAll_delete_set hs hvalue n
  have hpresent : (s.writeAll others).Faultless := hs.writeAll others
  have hversion : (s.writeAll others).version? l.key = some (UInt64.ofNat (n + 1)) := by
    rw [Store.version?, hentry]
    rfl
  have hwrite := hpresent.write_eq (l.swapCommand (some (UInt64.ofNat (n + 1))) record)
  have hvalid : Store.validate (l.swapCommand (some (UInt64.ofNat (n + 1))) record) = .ok () :=
    hrecord
  rw [hvalid, Lock.swapCommand] at hwrite
  simp only [Store.apply, hversion, if_true] at hwrite
  refine ⟨?_, ?_⟩
  · rw [Store.value?, hentry]
    rfl
  · rw [Operation.performAmid_of_swap hdecision, Lock.swapCommand, hwrite, Store.value?,
      Store.find?_put_self]
    rfl

/-- A renewal that writes over the record of another holder: between its
read and its write, the key was deleted and the other has acquired it. -/
theorem renewal_writes_over_another_holder :
    let mine := Record.acquired "a" 1 10 0
    let theirs := Record.acquired "b" 1 10 0
    let s : Store := { entries := [("lease", ⟨mine.text, 1⟩)] }
    let others := [Store.Command.delete "lease", .compareAndSwap "lease" none theirs.text]
    let run := (Lock.serve ⟨"lease", 10⟩ "a" (.renew ⟨1⟩)).performAmid ⟨"lease", 10⟩ 5 s others
    s.value? "lease" = some mine.text ∧
      (s.writeAll others).value? "lease" = some theirs.text ∧ mine.text ≠ theirs.text ∧
      run = (.ok (.renewed (.renewed 15)),
        (s.writeAll others).put "lease" ⟨(mine.renewed 5).text, 2⟩) := by
  intro mine theirs s others
  have hdecision : ((Lock.serve ⟨"lease", 10⟩ "a" (.renew ⟨1⟩)).onRead 5
      (s.read (Lock.key ⟨"lease", 10⟩))).1 = .swap (some 1) (mine.renewed 5) := by
    have hread : s.read (Lock.key ⟨"lease", 10⟩) = .ok ⟨some ⟨"lease", mine.text, 1⟩⟩ := rfl
    have hcurrent : Lock.current ⟨"lease", 10⟩ (s.read (Lock.key ⟨"lease", 10⟩))
        = .ok (some (mine, 1)) := by
      rw [hread, Lock.current_text _ rfl]
    have hheld : mine.isHeldBy "a" ⟨1⟩ = true := by decide
    have halive : mine.isExpiredAt 5 = false := by decide
    rw [Lock.serve]
    exact Operation.onRead_map_of_swap
      (congrArg Prod.fst (Lock.onRead_renew_of_held hcurrent hheld halive))
  have hs : s.Faultless := ⟨rfl, rfl⟩
  have htheirsValid : Store.validate (.set "lease" theirs.text) = .ok () := by decide +kernel
  have hmineValid : Store.validate (.set "lease" (mine.renewed 5).text) = .ok () := by
    decide +kernel
  have hpresent : s.writeAll others = (s.erase "lease").put "lease" ⟨theirs.text, 1⟩ := by
    have herased : (s.erase "lease").version? "lease" = none := rfl
    rw [Store.writeAll_cons, hs.write_delete htheirsValid, Store.writeAll_cons,
      Store.Faultless.write_swap ⟨rfl, rfl⟩ htheirsValid, herased, if_pos rfl,
      Store.writeAll_nil]
    rfl
  have hentry : (s.writeAll others).find? "lease" = some ⟨theirs.text, 1⟩ := by
    rw [hpresent, Store.find?_put_self]
  have hwrite : (s.writeAll others).write
      (Lock.swapCommand ⟨"lease", 10⟩ (some 1) (mine.renewed 5))
      = (.ok ⟨some 2⟩, (s.writeAll others).put "lease" ⟨(mine.renewed 5).text, 2⟩) := by
    have hversion : (s.writeAll others).version? "lease" = some 1 := by
      rw [Store.version?, hentry]
      rfl
    rw [Lock.swapCommand, (hs.writeAll others).write_swap hmineValid, hversion, if_pos rfl]
    rfl
  have hanswer : ((Lock.serve ⟨"lease", 10⟩ "a" (.renew ⟨1⟩)).onSwap (mine.renewed 5)
      (.ok ⟨some 2⟩)).1 = .ok (.renewed (.renewed 15)) := by
    have hdeadline : (mine.renewed 5).deadline = 15 := by decide
    rw [← hdeadline]
    rfl
  have hrun := Operation.performAmid_of_swap hdecision others
  rw [hwrite, hanswer] at hrun
  have hmine : s.value? "lease" = some mine.text := rfl
  have htheirs : (s.writeAll others).value? "lease" = some theirs.text := by
    rw [Store.value?, hentry]
    rfl
  have hne : mine.text ≠ theirs.text := by decide +kernel
  exact ⟨hmine, htheirs, hne, hrun⟩

theorem utf8ByteSize_ofList_replicate (n : Nat) (c : Char) :
    (String.ofList (List.replicate n c)).utf8ByteSize = n * c.utf8Size := by
  induction n with
  | zero => rw [Nat.zero_mul, List.replicate_zero, String.ofList_nil, String.utf8ByteSize_empty]
  | succ n ih =>
    rw [List.replicate_succ, String.ofList_cons, String.utf8ByteSize_append,
      String.utf8ByteSize_singleton, ih, Nat.succ_mul, Nat.add_comm]

/-- An acquisition that tells neither of another holder nor of a text that
cannot be read, although nothing is written: its lease has too long a name
for the store. -/
theorem acquire_of_long_name :
    let l := Lock.of "ns" (String.ofList (List.replicate 1024 'x')) 10
    (l.serve "a" .acquire).performAmid l 5 .empty []
      = (.error (.storage l.key (.keyTooLarge 1035 1024)), .empty) := by
  intro l
  have hsize : l.key.utf8ByteSize = 1035 := by
    have hkey : l.key = "__lease:ns/" ++ String.ofList (List.replicate 1024 'x') := rfl
    rw [hkey, String.utf8ByteSize_append, utf8ByteSize_ofList_replicate]
    rfl
  have hrun := acquire_of_long_key (l := l) (s := .empty) "a" 5 ⟨rfl, rfl⟩ rfl
    (by rw [hsize]; decide) []
  rw [hsize] at hrun
  exact hrun

end Tenure.Lease
