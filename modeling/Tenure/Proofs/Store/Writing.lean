import Tenure.Store.Basic

/-!
# What a write does to one key

A write changes at most the key it names, and a swap changes it only if the
key has the expected version. What follows about locks needs no more of the
store than this: a swap that is answered with success has replaced the
entry of the expected version by the next one, and a swap that is refused
has left every entry alone.

Versions are counted up by one with each write of a key, so a version is
not seen again unless the key is removed, or has been written so often that
the count starts over.
-/

namespace Tenure.Store

variable {s : Store}

@[simp] theorem find?_setUnavailable (s : Store) (b : Bool) (key : String) :
    (s.setUnavailable b).find? key = s.find? key := rfl

@[simp] theorem find?_failNextWrites (s : Store) (count : UInt32) (key : String) :
    (s.failNextWrites count).find? key = s.find? key := rfl

@[simp] theorem find?_put_self (s : Store) (key : String) (entry : Entry) :
    (s.put key entry).find? key = some entry :=
  (find?_put s key key entry).trans (if_pos rfl)

/-- A command changes at most the key it names. -/
theorem find?_apply_of_ne (s : Store) {c : Command} {key : String} (h : key ≠ c.key) :
    (s.apply c).2.find? key = s.find? key := by
  cases c with
  | set k value => exact (find?_put _ _ _ _).trans (if_neg h)
  | compareAndSwap k expected value =>
    rw [apply]
    split
    · exact (find?_put _ _ _ _).trans (if_neg h)
    · rfl
  | delete k => exact (find?_erase _ _ _).trans (if_neg h)

/-- A write changes at most the key it names. -/
theorem find?_write_of_ne (s : Store) {c : Command} {key : String} (h : key ≠ c.key) :
    (s.write c).2.find? key = s.find? key := by
  rw [write]
  split
  · rfl
  split
  · rfl
  split
  · rfl
  · exact find?_apply_of_ne s h

/-! ## Which commands are valid -/

/-- A command is valid if its key and its text are within the limits. -/
theorem validate_eq_ok_iff (c : Command) :
    validate c = .ok () ↔ c.key ≠ "" ∧ c.key.utf8ByteSize ≤ maxKeySize.toNat ∧
      ∀ value, c.value? = some value → value.utf8ByteSize ≤ maxValueSize.toNat := by
  unfold validate
  by_cases hempty : c.key.isEmpty = true
  · simp [String.isEmpty_iff.1 hempty]
  have hkey : c.key ≠ "" := fun h => hempty (String.isEmpty_iff.2 h)
  rw [if_neg hempty]
  by_cases hlong : c.key.utf8ByteSize > maxKeySize.toNat
  · simp [hlong, Nat.not_le.2 hlong]
  rw [if_neg hlong]
  cases hvalue : c.value? with
  | none => simp [hkey, Nat.not_lt.1 hlong]
  | some value =>
    by_cases hsize : value.utf8ByteSize > maxValueSize.toNat
    · simp [hsize, Nat.not_le.2 hsize]
    · simp [hsize, hkey, Nat.not_lt.1 hlong, Nat.not_lt.1 hsize]

/-- A key that is too long is refused as such. -/
theorem validate_of_long_key {c : Command} (h : maxKeySize.toNat < c.key.utf8ByteSize) :
    validate c = .error (.keyTooLarge (UInt32.ofNat c.key.utf8ByteSize) maxKeySize) := by
  have hnonempty : c.key ≠ "" := fun hempty => by simp [hempty] at h
  rw [validate, if_neg (mt String.isEmpty_iff.1 hnonempty)]
  exact if_pos h

/-- Whether a refusal is about the length of a key or a text. -/
def Error.IsLimit : Error → Prop
  | emptyKey | keyTooLarge _ _ | valueTooLarge _ _ => True
  | _ => False

/-- Commands are judged by lengths beforehand, -/
theorem isLimit_of_validate {c : Command} {e : Error} (h : validate c = .error e) :
    e.IsLimit := by
  unfold validate at h
  split at h
  · exact Except.error.inj h ▸ trivial
  split at h
  · exact Except.error.inj h ▸ trivial
  split at h
  · split at h
    · exact Except.error.inj h ▸ trivial
    · contradiction
  · contradiction

/-- and not by versions. -/
theorem validate_ne_swapFailed {c : Command} {e : Error} (h : validate c = .error e)
    (key : String) (expected : Option UInt64) (actual : Option Versioned) :
    e ≠ .swapFailed key expected actual := by
  rintro rfl
  exact isLimit_of_validate h

/-! ## What is carried out -/

/-- No fault is armed. -/
def Faultless (s : Store) : Prop := s.unavailable = false ∧ s.failingWrites = 0

instance (s : Store) : Decidable s.Faultless := inferInstanceAs (Decidable (_ ∧ _))

theorem Faultless.write_eq (hs : s.Faultless) (c : Command) :
    s.write c = match validate c with
      | .error e => (.error e, s)
      | .ok () => s.apply c := by
  rw [write, hs.1, hs.2]
  rfl

/-- **Without faults, the version decides** on a valid swap. -/
theorem Faultless.write_swap (hs : s.Faultless) {key value : String} {expected : Option UInt64}
    (hvalid : validate (.compareAndSwap key expected value) = .ok ()) :
    s.write (.compareAndSwap key expected value)
      = if s.version? key = expected then
          (.ok ⟨some (nextVersion (s.version? key))⟩,
            s.put key ⟨value, nextVersion (s.version? key)⟩)
        else (.error (.swapFailed key expected (s.get? key)), s) := by
  rw [hs.write_eq, hvalid]
  rfl

theorem Faultless.apply (hs : s.Faultless) (c : Command) : (s.apply c).2.Faultless := by
  cases c with
  | set key value => exact hs
  | compareAndSwap key expected value =>
    rw [Store.apply]
    split
    · exact hs
    · exact hs
  | delete key => exact hs

/-- **A write that succeeds** met no fault, is valid and is carried out. -/
theorem write_of_ok {c : Command} {a : WriteResult} (h : (s.write c).1 = .ok a) :
    s.Faultless ∧ validate c = .ok () ∧ s.write c = s.apply c := by
  rw [write] at h ⊢
  split at h
  · contradiction
  rename_i havailable
  split at h
  · contradiction
  rename_i hfailing
  split at h
  · contradiction
  rename_i hvalid
  simp_all [Faultless]

/-- **A write that fails** leaves all entries alone. -/
theorem entries_write_of_error {c : Command} {e : Error} (h : (s.write c).1 = .error e) :
    (s.write c).2.entries = s.entries := by
  rw [write] at h ⊢
  split at h
  · simp [*]
  split at h
  · simp [*]
  split at h
  · simp [*]
  · cases c with
    | set key value => contradiction
    | compareAndSwap key expected value =>
      rw [apply] at h ⊢
      split at h
      · contradiction
      · simp [*]
    | delete key => contradiction

theorem find?_write_of_error {c : Command} {e : Error} (h : (s.write c).1 = .error e)
    (key : String) : (s.write c).2.find? key = s.find? key := by
  rw [find?, find?, entries_write_of_error h]

/-- **What a write that succeeds does to the entries**: the one it names is
replaced by the next version, or is gone. -/
theorem find?_write_of_ok {c : Command} {a : WriteResult} (h : (s.write c).1 = .ok a)
    (key : String) :
    (s.write c).2.find? key
      = if key = c.key then c.value?.map fun value => ⟨value, nextVersion (s.version? key)⟩
        else s.find? key := by
  obtain ⟨-, -, hwrite⟩ := write_of_ok h
  by_cases hkey : key = c.key
  · subst hkey
    rw [hwrite] at h ⊢
    rw [if_pos rfl]
    cases c with
    | set key value => exact find?_put_self _ _ _
    | compareAndSwap key expected value =>
      rw [apply] at h ⊢
      split at h
      · rename_i hversion
        rw [if_pos hversion]
        exact find?_put_self _ _ _
      · contradiction
    | delete key => exact (find?_erase _ _ _).trans (if_pos rfl)
  · rw [if_neg hkey, find?_write_of_ne s hkey]

/-- No write begins or ends an outage. -/
theorem unavailable_write (s : Store) (c : Command) :
    (s.write c).2.unavailable = s.unavailable := by
  rw [write]
  split
  · rfl
  split
  · rfl
  split
  · rfl
  · cases c with
    | set key value => rfl
    | compareAndSwap key expected value =>
      rw [apply]
      split
      · rfl
      · rfl
    | delete key => rfl

/-! ## Swaps -/

/-- **A swap that is answered with success** found the expected version and
has put the new text in its place. -/
theorem find?_write_swap_of_ok {key value : String} {expected : Option UInt64} {a : WriteResult}
    (h : (s.write (.compareAndSwap key expected value)).1 = .ok a) :
    s.version? key = expected ∧
      (s.write (.compareAndSwap key expected value)).2.find? key
        = some ⟨value, nextVersion expected⟩ := by
  have hversion : s.version? key = expected := by
    obtain ⟨hs, hvalid, -⟩ := write_of_ok h
    refine Decidable.byContradiction fun hne => ?_
    rw [hs.write_swap hvalid, if_neg hne] at h
    contradiction
  refine ⟨hversion, ?_⟩
  rw [find?_write_of_ok h, hversion]
  exact if_pos rfl

/-- A store that answers writes answers reads, and reports what was
swapped in. -/
theorem read_write_swap_of_ok {key value : String} {expected : Option UInt64} {a : WriteResult}
    (h : (s.write (.compareAndSwap key expected value)).1 = .ok a) :
    (s.write (.compareAndSwap key expected value)).2.read key
      = .ok ⟨some ⟨key, value, nextVersion expected⟩⟩ := by
  have hfind := (find?_write_swap_of_ok h).2
  have havailable : (s.write (.compareAndSwap key expected value)).2.unavailable = false :=
    (unavailable_write s _).trans (write_of_ok h).1.1
  rw [read, havailable, get?, hfind]
  rfl

/-- A swap for the version that is there is carried out, unless it is refused
for another reason than the version. -/
theorem write_swap_of_version {key : String} (value : String) {expected : Option UInt64}
    (h : s.version? key = expected) :
    (∃ a, (s.write (.compareAndSwap key expected value)).1 = .ok a) ∨
      ∃ e, (s.write (.compareAndSwap key expected value)).1 = .error e ∧
        ∀ other version actual, e ≠ .swapFailed other version actual := by
  rw [write]
  split
  · exact .inr ⟨_, rfl, by simp⟩
  split
  · exact .inr ⟨_, rfl, by simp⟩
  split
  · rename_i e hvalid
    exact .inr ⟨e, rfl, validate_ne_swapFailed hvalid⟩
  · rw [apply, if_pos h]
    exact .inl ⟨_, rfl⟩

/-! ## The writes of others -/

/-- The store after these commands, whatever it answers to them. -/
def writeAll (s : Store) (cs : List Command) : Store :=
  cs.foldl (fun s c => (s.write c).2) s

@[simp] theorem writeAll_nil (s : Store) : s.writeAll [] = s := rfl

@[simp] theorem writeAll_cons (s : Store) (c : Command) (cs : List Command) :
    s.writeAll (c :: cs) = (s.write c).2.writeAll cs := rfl

theorem Faultless.writeAll (hs : s.Faultless) (cs : List Command) : (s.writeAll cs).Faultless := by
  induction cs generalizing s with
  | nil => exact hs
  | cons c cs ih =>
    rw [writeAll_cons]
    refine ih ?_
    rw [hs.write_eq]
    cases validate c with
    | error e => exact hs
    | ok u => exact hs.apply c

/-- **What a write does to an entry**: nothing, or it deletes it, or it
puts a text of the next version in its place. -/
theorem find?_write (s : Store) (c : Command) (key : String) :
    (s.write c).2.find? key = s.find? key ∨ c = .delete key ∨
      ∃ value, (s.write c).2.find? key = some ⟨value, nextVersion (s.version? key)⟩ := by
  cases hanswer : (s.write c).1 with
  | error e => exact .inl (find?_write_of_error hanswer key)
  | ok a =>
    have hfind := find?_write_of_ok hanswer key
    by_cases hkey : key = c.key
    · rw [if_pos hkey] at hfind
      cases c with
      | set k value => exact .inr (.inr ⟨value, hfind⟩)
      | compareAndSwap k expected value => exact .inr (.inr ⟨value, hfind⟩)
      | delete k => exact .inr (.inl (congrArg Command.delete hkey.symm))
    · rw [if_neg hkey] at hfind
      exact .inl hfind

theorem nextVersion_eq (version : Option UInt64) : nextVersion version = version.getD 0 + 1 := by
  cases version with
  | none => rfl
  | some v => rfl

/-- A version is not followed by itself. -/
theorem nextVersion_ne (version : Option UInt64) : some (nextVersion version) ≠ version := by
  cases version with
  | none => exact Option.some_ne_none _
  | some v => simp [nextVersion]

/-- **What others do to an entry that they do not delete**: nothing, or
they count its version up, once for each time they write it. -/
theorem find?_writeAll (s : Store) {cs : List Command} {key : String}
    (hkept : ∀ c ∈ cs, c ≠ .delete key) :
    (s.writeAll cs).find? key = s.find? key ∨
      ∃ value n, 0 < n ∧ n ≤ cs.length ∧ (s.writeAll cs).find? key
        = some ⟨value, (s.version? key).getD 0 + UInt64.ofNat n⟩ := by
  induction cs generalizing s with
  | nil => exact .inl rfl
  | cons c cs ih =>
    have hlater := ih (s.write c).2 fun d hd => hkept d (List.mem_cons_of_mem c hd)
    rw [writeAll_cons]
    obtain hsame | hdelete | ⟨value, hwritten⟩ := s.find?_write c key
    · have hversion : (s.write c).2.version? key = s.version? key := by
        rw [version?, version?, hsame]
      rw [hsame, hversion] at hlater
      refine hlater.imp_right ?_
      rintro ⟨value, n, hpos, hle, hfind⟩
      exact ⟨value, n, hpos, Nat.le_succ_of_le hle, hfind⟩
    · exact absurd hdelete (hkept c List.mem_cons_self)
    · right
      have hversion : (s.write c).2.version? key = some ((s.version? key).getD 0 + 1) := by
        rw [version?, hwritten, Option.map_some, nextVersion_eq]
      obtain hlast | ⟨value', n, hpos, hle, hfind⟩ := hlater
      · refine ⟨value, 1, Nat.one_pos, Nat.succ_le_succ (Nat.zero_le _), ?_⟩
        rw [hlast, hwritten, nextVersion_eq]
        rfl
      · refine ⟨value', n + 1, Nat.succ_pos n, Nat.succ_le_succ hle, ?_⟩
        rw [hfind, hversion, Option.getD_some, UInt64.ofNat_add, UInt64.add_assoc,
          UInt64.add_comm 1]
        rfl

/-- **An entry that has the version it had is the entry it was**, unless it
was deleted in between or written so often that the count came round. -/
theorem find?_writeAll_of_version?_eq {cs : List Command} {key : String}
    (hversion : (s.writeAll cs).version? key = s.version? key)
    (hkept : ∀ c ∈ cs, c ≠ .delete key) (hcount : cs.length < UInt64.size) :
    (s.writeAll cs).find? key = s.find? key := by
  obtain hsame | ⟨value, n, hpos, hle, hfind⟩ := s.find?_writeAll hkept
  · exact hsame
  rw [version?, hfind, Option.map_some] at hversion
  cases hbefore : s.version? key with
  | none =>
    rw [hbefore] at hversion
    contradiction
  | some version =>
    rw [hbefore, Option.getD_some] at hversion
    have hround := congrArg UInt64.toNat (Option.some.inj hversion)
    rw [UInt64.toNat_add, UInt64.toNat_ofNat', Nat.mod_eq_of_lt (Nat.lt_of_le_of_lt hle hcount)]
      at hround
    have := version.toNat_lt
    unfold UInt64.size at hcount
    omega

theorem Faultless.write_set (hs : s.Faultless) {key value : String}
    (hvalid : validate (.set key value) = .ok ()) :
    (s.write (.set key value)).2 = s.put key ⟨value, nextVersion (s.version? key)⟩ := by
  rw [hs.write_eq, hvalid]
  rfl

theorem Faultless.write_delete (hs : s.Faultless) {key value : String}
    (hvalid : validate (.set key value) = .ok ()) :
    (s.write (.delete key)).2 = s.erase key := by
  have hkey : validate (.delete key) = .ok () := by
    obtain ⟨hnonempty, hshort, -⟩ := (validate_eq_ok_iff _).1 hvalid
    exact (validate_eq_ok_iff _).2 ⟨hnonempty, hshort, fun value h => by contradiction⟩
  rw [hs.write_eq, hkey]
  rfl

/-- Each time a text is set, the version is counted up by one. -/
theorem find?_writeAll_set (hs : s.Faultless) {key value : String}
    (hvalid : validate (.set key value) = .ok ()) (n : Nat) :
    (s.writeAll (List.replicate (n + 1) (.set key value))).find? key
      = some ⟨value, (s.version? key).getD 0 + UInt64.ofNat (n + 1)⟩ := by
  induction n generalizing s with
  | zero =>
    rw [List.replicate_one, writeAll_cons, writeAll_nil, hs.write_set hvalid, find?_put_self,
      nextVersion_eq]
    rfl
  | succ n ih =>
    have hs' : (s.put key ⟨value, nextVersion (s.version? key)⟩).Faultless := hs
    rw [List.replicate_succ, writeAll_cons, hs.write_set hvalid, ih hs', version?, find?_put_self,
      Option.map_some, Option.getD_some, nextVersion_eq, UInt64.ofNat_add (n + 1),
      UInt64.add_assoc, UInt64.add_comm 1]
    rfl

/-- **A version comes back.** A key that is deleted and then written as
often as its version says has the version again, with another text. -/
theorem find?_writeAll_delete_set (hs : s.Faultless) {key value : String}
    (hvalid : validate (.set key value) = .ok ()) (n : Nat) :
    (s.writeAll (.delete key :: List.replicate (n + 1) (.set key value))).find? key
      = some ⟨value, UInt64.ofNat (n + 1)⟩ := by
  have hs' : (s.erase key).Faultless := hs
  rw [writeAll_cons, hs.write_delete hvalid, find?_writeAll_set hs' hvalid, version?, find?_erase,
    if_pos rfl, Option.map_none, Option.getD_none, UInt64.zero_add]

end Tenure.Store
