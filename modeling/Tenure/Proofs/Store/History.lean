import Mathlib.Data.List.Induction
import Tenure.Proofs.Store.Writing

/-!
# A store is what its history says

What a store holds can be read off what has been done to it. The texts that
were written under a key since it was last deleted are all that matters: if
there are none the key is absent, and otherwise the entry has the last of
them and is as many versions old as there are texts (`find?_after_empty`).
Only what was carried out counts, so a swap that failed, a command that is
too long and a write that met a fault leave no trace in the entries.

Faults are part of the history. Refusals that were armed meet the writes that
come next, one each, and it does not matter what these writes are. Only those
that an outage turns away before are not met (`answers_armed`). There is an
outage while the last move that said anything of one began it
(`unavailable_after_empty`), and a write is told of one just then.
-/

namespace Tenure.Store

/-- What is done to a store: clients write and read, and faults are
armed. -/
inductive Move where
  | write (c : Command)
  | read (key : String)
  | setUnavailable (unavailable : Bool)
  | failNextWrites (count : UInt32)
  deriving DecidableEq, Repr

namespace Move

/-- The store after a move. -/
def on (s : Store) : Move → Store
  | write c => (s.write c).2
  | read _ => s
  | setUnavailable unavailable => s.setUnavailable unavailable
  | failNextWrites count => s.failNextWrites count

/-- A write and the answer to it. -/
def answered? (s : Store) : Move → Option (Command × WriteAnswer)
  | write c => some (c, (s.write c).1)
  | _ => none

/-- Whether a move writes this key, or tries to. -/
def isWriteOf (key : String) : Move → Bool
  | write c => c.key = key
  | _ => false

/-- Whether a move arms refusals. -/
def arms : Move → Bool
  | failNextWrites _ => true
  | _ => false

/-- What a move says of an outage: that it begins or that it is over. -/
def outage? : Move → Option Bool
  | setUnavailable unavailable => some unavailable
  | _ => none

end Move

/-- The store after any number of moves. -/
def after (s : Store) (ms : List Move) : Store := ms.foldl Move.on s

/-- The writes among the moves with the answers to them, in order. -/
def answers (s : Store) : List Move → List (Command × WriteAnswer)
  | [] => []
  | m :: ms => (m.answered? s).toList ++ answers (m.on s) ms

/-- The commands that were carried out, in order. -/
def carriedOut (log : List (Command × WriteAnswer)) : List Command :=
  (log.filter fun e => e.2.isOk).map Prod.fst

/-- The text that a command writes under a key. -/
def Command.text? (key : String) (c : Command) : Option String :=
  if c.key = key then c.value? else none

/-- **The texts written under a key since it was last deleted**, the latest
first. -/
def textsOf (key : String) (log : List (Command × WriteAnswer)) : List String :=
  ((carriedOut log).reverse.takeWhile fun c => c ≠ .delete key).filterMap (Command.text? key)

/-- The entry of a key under which these texts were written, the latest
first. -/
def entryOf : List String → Option Entry
  | [] => none
  | text :: older => some ⟨text, UInt64.ofNat (older.length + 1)⟩

theorem after_append_single (s : Store) (ms : List Move) (m : Move) :
    s.after (ms ++ [m]) = m.on (s.after ms) := by
  rw [after, after, List.foldl_append]
  rfl

theorem answers_append_single (s : Store) (ms : List Move) (m : Move) :
    s.answers (ms ++ [m]) = s.answers ms ++ (m.answered? (s.after ms)).toList := by
  induction ms generalizing s with
  | nil => exact List.append_nil _
  | cons first ms ih =>
    show _ ++ answers _ (ms ++ [m]) = _
    rw [ih, ← List.append_assoc]
    rfl

theorem answers_append_write (s : Store) (ms : List Move) (c : Command) :
    s.answers (ms ++ [.write c]) = s.answers ms ++ [(c, ((s.after ms).write c).1)] :=
  s.answers_append_single ms (.write c)

/-- A move that is no write is answered nothing. -/
theorem answers_append_quiet {s : Store} {ms : List Move} {m : Move}
    (h : m.answered? (s.after ms) = none) : s.answers (ms ++ [m]) = s.answers ms := by
  rw [answers_append_single, h]
  exact List.append_nil _

/-! ## Entries -/

theorem textsOf_error (key : String) (log : List (Command × WriteAnswer)) (c : Command)
    (e : Error) : textsOf key (log ++ [(c, .error e)]) = textsOf key log := by
  simp [textsOf, carriedOut, Except.isOk, Except.toBool]

/-- **What one more command adds to the texts of a key**: its own text, if
it writes the key, and an end to all of them, if it deletes it. -/
theorem textsOf_ok (key : String) (log : List (Command × WriteAnswer)) (c : Command)
    (a : WriteResult) :
    textsOf key (log ++ [(c, .ok a)])
      = if key = c.key then c.value?.elim [] (· :: textsOf key log) else textsOf key log := by
  have hlog : carriedOut (log ++ [(c, .ok a)]) = carriedOut log ++ [c] := by
    simp [carriedOut, Except.isOk, Except.toBool]
  rw [textsOf, hlog, List.reverse_append, List.reverse_singleton, List.singleton_append]
  by_cases hkey : key = c.key
  · subst hkey
    cases c <;> simp [textsOf, Command.text?, Command.key, Command.value?]
  · have hdelete : c ≠ .delete key := fun h => hkey (h ▸ rfl)
    have hother : ¬ c.key = key := fun h => hkey h.symm
    simp [textsOf, Command.text?, hkey, hdelete, hother]

/-- The version after the texts is the number of them and one more. -/
theorem nextVersion_entryOf (texts : List String) :
    nextVersion ((entryOf texts).map (·.version)) = UInt64.ofNat (texts.length + 1) := by
  cases texts with
  | nil => rfl
  | cons text older =>
    show UInt64.ofNat (older.length + 1) + 1 = UInt64.ofNat (older.length + 1 + 1)
    rw [UInt64.ofNat_add (older.length + 1)]
    rfl

/-- **An entry is what its texts say**, of whichever moves. -/
theorem find?_after_empty (ms : List Move) (key : String) :
    (empty.after ms).find? key = entryOf (textsOf key (empty.answers ms)) := by
  induction ms using List.reverseRecOn with
  | nil => rfl
  | append_singleton ms m ih =>
    rw [after_append_single]
    cases m with
    | read other => rwa [answers_append_quiet rfl]
    | setUnavailable unavailable => rwa [answers_append_quiet rfl]
    | failNextWrites count => rwa [answers_append_quiet rfl]
    | write c =>
      rw [answers_append_write]
      show ((empty.after ms).write c).2.find? key = _
      cases hanswer : ((empty.after ms).write c).1 with
      | error e =>
        rw [textsOf_error, ← ih, find?_write_of_error hanswer]
      | ok a =>
        rw [find?_write_of_ok hanswer, textsOf_ok, version?, ih, nextVersion_entryOf]
        split
        · cases c.value? <;> rfl
        · rfl

/-- There are no more texts than writes. -/
theorem length_textsOf_le (s : Store) (ms : List Move) (key : String) :
    (textsOf key (s.answers ms)).length ≤ ms.countP (Move.isWriteOf key) := by
  induction ms using List.reverseRecOn with
  | nil => exact Nat.le_refl _
  | append_singleton ms m ih =>
    rw [List.countP_append, List.countP_singleton]
    cases m with
    | read other =>
      rw [answers_append_quiet rfl]
      exact Nat.le_add_right_of_le ih
    | setUnavailable unavailable =>
      rw [answers_append_quiet rfl]
      exact Nat.le_add_right_of_le ih
    | failNextWrites count =>
      rw [answers_append_quiet rfl]
      exact Nat.le_add_right_of_le ih
    | write c =>
      rw [answers_append_write]
      cases ((s.after ms).write c).1 with
      | error e =>
        rw [textsOf_error]
        exact Nat.le_add_right_of_le ih
      | ok a =>
        rw [textsOf_ok]
        by_cases hkey : key = c.key
        · subst hkey
          cases c.value? with
          | none => simp
          | some value => simpa [Move.isWriteOf] using ih
        · rw [if_neg hkey]
          exact Nat.le_add_right_of_le ih

/-! ## Limits -/

/-- Whether all keys and texts are within the limits. -/
def Sized (s : Store) : Prop :=
  ∀ key entry, s.find? key = some entry →
    key ≠ "" ∧ key.utf8ByteSize ≤ maxKeySize.toNat ∧
      entry.value.utf8ByteSize ≤ maxValueSize.toNat

/-- A write stores nothing beyond the limits. -/
theorem Sized.write {s : Store} (hs : s.Sized) (c : Command) : (s.write c).2.Sized := by
  intro key entry hentry
  cases hanswer : (s.write c).1 with
  | error e =>
    rw [find?_write_of_error hanswer] at hentry
    exact hs key entry hentry
  | ok a =>
    rw [find?_write_of_ok hanswer] at hentry
    split at hentry
    · rename_i hkey
      obtain ⟨-, hvalid, -⟩ := write_of_ok hanswer
      obtain ⟨hnonempty, hshort, hvalue⟩ := (validate_eq_ok_iff c).1 hvalid
      obtain ⟨value, hsome, rfl⟩ := Option.map_eq_some_iff.1 hentry
      exact hkey ▸ ⟨hnonempty, hshort, hvalue value hsome⟩
    · exact hs key entry hentry

/-- No move does. -/
theorem Sized.on {s : Store} (hs : s.Sized) (m : Move) : (m.on s).Sized := by
  cases m with
  | write c => exact hs.write c
  | read key => exact hs
  | setUnavailable unavailable => exact hs
  | failNextWrites count => exact hs

/-- So whatever the moves, what is stored is within the limits. -/
theorem sized_after_empty (ms : List Move) : (empty.after ms).Sized := by
  induction ms using List.reverseRecOn with
  | nil => exact fun key entry h => by simp [after] at h
  | append_singleton ms m ih =>
    rw [after_append_single]
    exact ih.on m

/-! ## Armed refusals -/

/-- What a store answers during an outage. -/
def outage : WriteAnswer := .error (.unavailable "injected outage")

/-- What it answers to a write that meets an armed refusal. -/
def refusal : WriteAnswer := .error (.unavailable "injected write failure")

theorem refusal_ne_outage : refusal ≠ outage := by decide

/-- Whether the last move that said anything of an outage began one. -/
def outageBegun (ms : List Move) : Bool := ((ms.filterMap Move.outage?).getLast?).getD false

theorem outageBegun_append_single (ms : List Move) (m : Move) :
    outageBegun (ms ++ [m]) = m.outage?.getD (outageBegun ms) := by
  rw [outageBegun, List.filterMap_append]
  cases hsaid : m.outage? with
  | none =>
    rw [List.filterMap_cons_none hsaid, List.filterMap_nil, List.append_nil]
    rfl
  | some unavailable =>
    rw [List.filterMap_cons_some hsaid, List.filterMap_nil, List.getLast?_concat]
    rfl

/-- **An outage is what the last move that spoke of one says**, and nothing
else begins or ends it. -/
theorem unavailable_after_empty (ms : List Move) :
    (empty.after ms).unavailable = outageBegun ms := by
  induction ms using List.reverseRecOn with
  | nil => rfl
  | append_singleton ms m ih =>
    rw [after_append_single, outageBegun_append_single]
    cases m with
    | write c => exact (unavailable_write _ c).trans ih
    | read key => exact ih
    | setUnavailable unavailable => rfl
    | failNextWrites count => exact ih

/-- The writes that an outage does not turn away. -/
def met (log : List (Command × WriteAnswer)) : List (Command × WriteAnswer) :=
  log.filter fun e => e.2 ≠ outage

/-- An outage uses up nothing. -/
theorem write_of_unavailable {s : Store} (h : s.unavailable = true) (c : Command) :
    s.write c = (outage, s) := by
  rw [write, if_pos h]
  rfl

/-- An armed refusal is used up by the write that it meets, whichever
that is. -/
theorem write_of_armed {s : Store} (h : s.unavailable = false) (harmed : s.failingWrites ≠ 0)
    (c : Command) :
    s.write c = (refusal, { s with failingWrites := s.failingWrites - 1 }) := by
  rw [write, if_neg (by simp [h]), if_pos harmed]
  rfl

/-- Without faults a write is answered for what it is. -/
theorem Faultless.write_ne {s : Store} (hs : s.Faultless) (c : Command) :
    (s.write c).1 ≠ outage ∧ (s.write c).1 ≠ refusal ∧ (s.write c).2.Faultless := by
  have hreason : ∀ reason, (s.write c).1 ≠ .error (.unavailable reason) := by
    intro reason hanswer
    rw [hs.write_eq] at hanswer
    cases hvalid : validate c with
    | error e =>
      rw [hvalid] at hanswer
      obtain rfl := Except.error.inj hanswer
      exact isLimit_of_validate hvalid
    | ok u =>
      rw [hvalid] at hanswer
      cases c with
      | set key value => contradiction
      | compareAndSwap key expected value =>
        simp only [Store.apply] at hanswer
        split at hanswer
        · contradiction
        · cases hanswer
      | delete key => contradiction
  exact ⟨hreason _, hreason _, hs.writeAll [c]⟩

/-- A write is told of an outage just while there is one. -/
theorem answer_eq_outage_iff (s : Store) (c : Command) :
    (s.write c).1 = outage ↔ s.unavailable = true := by
  cases hout : s.unavailable with
  | true =>
    rw [write_of_unavailable hout]
    exact ⟨fun _ => rfl, fun _ => rfl⟩
  | false =>
    refine ⟨fun h => absurd h ?_, fun h => by contradiction⟩
    by_cases harmed : s.failingWrites = 0
    · exact (Faultless.write_ne ⟨hout, harmed⟩ c).1
    · rw [write_of_armed hout harmed]
      exact refusal_ne_outage

theorem met_cons_of_ne {c : Command} {answer : WriteAnswer} (h : answer ≠ outage)
    (log : List (Command × WriteAnswer)) : met ((c, answer) :: log) = (c, answer) :: met log :=
  List.filter_cons_of_pos (by simpa using h)

/-- **Armed refusals meet the writes that come next**: as many as are armed,
one each, and no later one. -/
theorem answers_armed (s : Store) {ms : List Move} (h : ∀ m ∈ ms, m.arms = false) :
    (∀ e ∈ (met (s.answers ms)).take s.failingWrites.toNat, e.2 = refusal) ∧
    (∀ e ∈ (met (s.answers ms)).drop s.failingWrites.toNat, e.2 ≠ refusal) ∧
    (s.after ms).failingWrites.toNat
      = s.failingWrites.toNat - (met (s.answers ms)).length := by
  induction ms generalizing s with
  | nil => exact ⟨fun e he => by simp [answers, met] at he,
      fun e he => by simp [answers, met] at he, rfl⟩
  | cons m ms ih =>
    have hlater := ih (m.on s) fun m' hm => h m' (List.mem_cons_of_mem m hm)
    cases m with
    | read key => exact hlater
    | setUnavailable unavailable => exact hlater
    | failNextWrites count => exact absurd (h _ List.mem_cons_self) (by simp [Move.arms])
    | write c =>
      have hanswers : s.answers (.write c :: ms)
          = (c, (s.write c).1) :: (s.write c).2.answers ms := rfl
      have hafter : s.after (.write c :: ms) = (s.write c).2.after ms := rfl
      rw [hanswers, hafter]
      change _ ∧ _ ∧ ((s.write c).2.after ms).failingWrites.toNat = _ at hlater
      cases hout : s.unavailable with
      | true =>
        rw [Move.on, write_of_unavailable hout] at hlater
        rw [write_of_unavailable hout]
        exact hlater
      | false =>
        by_cases harmed : s.failingWrites = 0
        · obtain ⟨houtage, hrefusal, hfaultless⟩ := Faultless.write_ne ⟨hout, harmed⟩ c
          rw [met_cons_of_ne houtage, harmed]
          rw [Move.on, hfaultless.2] at hlater
          refine ⟨fun e he => by simp at he, fun e he => ?_, ?_⟩
          · obtain rfl | he := List.mem_cons.1 he
            · exact hrefusal
            · exact hlater.2.1 e he
          · exact hlater.2.2.trans (Nat.zero_sub _ |>.trans (Nat.zero_sub _).symm)
        · rw [Move.on, write_of_armed hout harmed] at hlater
          rw [write_of_armed hout harmed, met_cons_of_ne refusal_ne_outage]
          have hone : s.failingWrites.toNat = (s.failingWrites - 1).toNat + 1 := by
            have hle : (1 : UInt32) ≤ s.failingWrites :=
              UInt32.not_lt.1 fun hlt => harmed (UInt32.lt_one_iff.1 hlt)
            have hpos : 1 ≤ s.failingWrites.toNat := UInt32.le_iff_toNat_le.1 hle
            rw [UInt32.toNat_sub_of_le _ _ hle]
            exact (Nat.sub_add_cancel hpos).symm
          rw [hone]
          refine ⟨fun e he => ?_, hlater.2.1, ?_⟩
          · obtain rfl | he := List.mem_cons.1 he
            · rfl
            · exact hlater.1 e he
          · rw [List.length_cons, Nat.add_sub_add_right]
            exact hlater.2.2

/-! ## What the history says -/

/-- **What a store holds and answers after these moves.** -/
structure AgreesWithHistory (ms : List Move) : Prop where
  /-- A key is present if it was written since it was last deleted. Its entry
  has the last of the texts, and its version counts them. -/
  entry : ∀ key, ((empty.after ms).find? key).map (fun e => (e.value, e.version.toNat))
    = (textsOf key (empty.answers ms)).head?.map
        fun text => (text, (textsOf key (empty.answers ms)).length)
  /-- Keys and texts are within the limits. -/
  sized : ∀ key e, (empty.after ms).find? key = some e →
    1 ≤ key.utf8ByteSize ∧ key.utf8ByteSize ≤ 1024 ∧ e.value.utf8ByteSize ≤ 65536
  /-- A swap that gets as far as the entries succeeds if the version is the
  expected one, and otherwise reports the entry. -/
  swaps : ∀ key expected value, (empty.after ms).Faultless →
    validate (.compareAndSwap key expected value) = .ok () →
    ((∃ a, ((empty.after ms).write (.compareAndSwap key expected value)).1 = .ok a) ↔
      (empty.after ms).version? key = expected) ∧
    ((empty.after ms).version? key ≠ expected →
      ((empty.after ms).write (.compareAndSwap key expected value)).1
        = .error (.swapFailed key expected ((empty.after ms).get? key)))
  /-- A write that fails leaves all entries alone. -/
  fails : ∀ c e, ((empty.after ms).write c).1 = .error e →
    ((empty.after ms).write c).2.entries = (empty.after ms).entries
  /-- A write leaves all other keys alone. -/
  others : ∀ c key, key ≠ c.key →
    ((empty.after ms).write c).2.find? key = (empty.after ms).find? key
  /-- There is an outage if the last move that said anything of one began it,
  and then, and only then, a write is told of one. -/
  unavailable : (empty.after ms).unavailable = outageBegun ms ∧
    ∀ c, ((empty.after ms).write c).1 = Store.outage ↔ outageBegun ms = true
  /-- An outage turns every write away, and uses up no refusal. -/
  outage : (empty.after ms).unavailable = true → ∀ c,
    (empty.after ms).write c = (outage, empty.after ms)
  /-- Refusals that are armed now meet the writes that come next and that no
  outage turns away, one each, until they are used up. -/
  armed : ∀ count later, (∀ m ∈ later, m.arms = false) →
    let writes := met (((empty.after ms).failNextWrites count).answers later)
    (∀ e ∈ writes.take count.toNat, e.2 = refusal) ∧
    (∀ e ∈ writes.drop count.toNat, e.2 ≠ refusal) ∧
    (((empty.after ms).failNextWrites count).after later).failingWrites.toNat
      = count.toNat - writes.length

/-- Without faults and for a valid swap, the version decides on the answer. -/
theorem Faultless.answer_swap {s : Store} (hs : s.Faultless) {key value : String}
    {expected : Option UInt64} (hvalid : validate (.compareAndSwap key expected value) = .ok ()) :
    ((∃ a, (s.write (.compareAndSwap key expected value)).1 = .ok a) ↔
      s.version? key = expected) ∧
    (s.version? key ≠ expected →
      (s.write (.compareAndSwap key expected value)).1
        = .error (.swapFailed key expected (s.get? key))) := by
  rw [hs.write_swap hvalid]
  by_cases hversion : s.version? key = expected
  · rw [if_pos hversion]
    exact ⟨⟨fun _ => hversion, fun _ => ⟨_, rfl⟩⟩, fun hne => absurd hversion hne⟩
  · rw [if_neg hversion]
    refine ⟨⟨fun hok => ?_, fun h => absurd h hversion⟩, fun _ => rfl⟩
    obtain ⟨a, ha⟩ := hok
    contradiction

/-- **A store is what its history says**: whatever is written, read and armed
from the empty store on, as long as no key is written so often that its
version starts over. -/
theorem agrees_with_history (ms : List Move)
    (hversions : ∀ key, ms.countP (Move.isWriteOf key) < UInt64.size) : AgreesWithHistory ms where
  entry key := by
    rw [find?_after_empty]
    have hle := length_textsOf_le empty ms key
    cases htexts : textsOf key (empty.answers ms) with
    | nil => rfl
    | cons text older =>
      rw [htexts] at hle
      have hcount : older.length + 1 < 2 ^ 64 := Nat.lt_of_le_of_lt hle (hversions key)
      show some (text, (UInt64.ofNat (older.length + 1)).toNat) = some (text, older.length + 1)
      rw [UInt64.toNat_ofNat', Nat.mod_eq_of_lt hcount]
  sized key e h := by
    obtain ⟨hnonempty, hkey, hvalue⟩ := sized_after_empty ms key e h
    have hpos : key.utf8ByteSize ≠ 0 := fun h => hnonempty (String.utf8ByteSize_eq_zero_iff.1 h)
    exact ⟨Nat.one_le_iff_ne_zero.2 hpos, hkey, hvalue⟩
  swaps key expected value hfaultless hvalid := hfaultless.answer_swap hvalid
  fails c e h := entries_write_of_error h
  others c key h := find?_write_of_ne _ h
  unavailable := ⟨unavailable_after_empty ms, fun c =>
    unavailable_after_empty ms ▸ answer_eq_outage_iff (empty.after ms) c⟩
  outage h c := write_of_unavailable h c
  armed count later h := answers_armed ((empty.after ms).failNextWrites count) h

/-- A key that is written, deleted and written twice again, while writes
fail for all reasons: only what was carried out since it was deleted
counts. -/
theorem agrees_with_history_rewritten :
    let ms : List Move := [.write (.set "k" "a"), .setUnavailable true, .failNextWrites 1,
      .write (.delete "k"), .setUnavailable false, .write (.set "k" "b"),
      .write (.compareAndSwap "k" (some 2) "c"), .write (.set "" "d"), .write (.delete "k"),
      .write (.compareAndSwap "k" none "e"), .read "k", .write (.compareAndSwap "k" (some 1) "f")]
    ((empty.after ms).find? "k").map (fun e => (e.value, e.version.toNat)) = some ("f", 2) := by
  intro ms
  have hversions : ∀ key, ms.countP (Move.isWriteOf key) < UInt64.size := fun key =>
    Nat.lt_of_le_of_lt List.countP_le_length (by decide)
  exact ((agrees_with_history ms hversions).entry "k").trans (by decide +kernel)

end Tenure.Store
