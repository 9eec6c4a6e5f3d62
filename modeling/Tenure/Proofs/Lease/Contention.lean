import Mathlib.Logic.Function.Basic
import Tenure.Proofs.Lease.Decision

/-!
# A lease under contention

Any number of callers work on one lease. Each call reads the clock when it
begins, then reads the record, then swaps it, and between these moments
anything may happen: other calls take their steps, the clock moves, the
store fails, other keys are written. A call may fail at the read or at the
swap, and it may be abandoned. A swap that fails may have been carried out
nevertheless, and so may one that is abandoned on its way.

`Step` is one such moment and its `Label` what is seen of it; `Run` is any
number of them. How the clock moves and who calls is left to `Rules`, so
that each result says how little of it it needs.

What a call is about to write rests on a record that was read earlier.
`Call.Backed` is what is left of that: if the entry still has the version
that was read, it still is the entry that was read. It holds throughout
(`Step.sound`) because versions only grow, and with it a swap that succeeds
replaces the record that is stored at that moment (`Step.stores`).
-/

namespace Tenure.Lease

/-- How far a call has come. -/
inductive Stage where
  /-- The clock was read at `now`; the record has not been read. -/
  | reading (now : UInt64)
  /-- The record has been read and is to be swapped. -/
  | swapping (expected : Option UInt64) (record : Record)

/-- A call on a lock. -/
structure Call where
  identity : String
  /-- How long a term lasts by the caller's lock. -/
  duration : UInt64
  request : Request
  stage : Stage

/-- The operation that a call carries out on the lease of this key. -/
def Call.operation (c : Call) (key : String) : Operation Outcome :=
  Lock.serve ⟨key, c.duration⟩ c.identity c.request

/-- The clock and the store that all share, and the call of each caller. -/
structure Contention (ι : Type) where
  clock : UInt64
  store : Store
  calls : ι → Option Call

/-- What is seen of a step. -/
inductive Label (ι : Type) where
  | quiet
  | begins (i : ι) (identity : String) (request : Request)
  /-- A call ends: with an answer, unless it is abandoned, and with the
  record that it has stored, if it has. -/
  | ends (i : ι) (identity : String) (request : Request)
      (answer : Option (Except Error Outcome)) (stored : Option Record)

/-- What is stored by a step, and on which request. -/
def Label.stored? {ι : Type} : Label ι → Option (Request × Record)
  | .ends _ _ request _ (some record) => some (request, record)
  | _ => none

/-- The records that are stored, in order. -/
def stored {ι : Type} (ls : List (Label ι)) : List (Request × Record) :=
  ls.filterMap Label.stored?

/-- What is laid down about the clock and the callers. -/
structure Rules (ι : Type) where
  /-- Which reading may follow which. -/
  clock : UInt64 → UInt64 → Prop
  /-- Who may call, under which identity and with which duration. -/
  caller : ι → String → UInt64 → Prop

/-- The record that is stored under a key, if the entry can be read. -/
def recordAt (key : String) (s : Store) : Option Record :=
  (s.find? key).bind fun e => (Lock.decode ⟨key, 0⟩ e.value).toOption

/-! ## What a pending swap rests on -/

/-- **What a call that is about to swap rests on.** If it expects no entry,
it may write where there is none. If it expects a version, the entry has
come at least that far, and as long as it has that version it holds a
record that the call may replace. -/
def Call.Backed (key : String) (s : Store) (c : Call) : Prop :=
  match c.stage with
  | .reading _ => True
  | .swapping none record =>
    s.find? key = none → Replaces c.identity c.duration c.request none record
  | .swapping (some version) record =>
    ∃ entry, s.find? key = some entry ∧ version ≤ entry.version ∧
      (entry.version = version → ∃ old, recordAt key s = some old ∧
        Replaces c.identity c.duration c.request (some old) record)

/-- What is read of an entry is the record of its text and its version. -/
theorem Lock.current_read {l : Lock} {s : Store} {old : Record} {version : UInt64}
    (h : l.current (s.read l.key) = .ok (some (old, version))) :
    ∃ entry, s.find? l.key = some entry ∧ entry.version = version ∧
      recordAt l.key s = some old := by
  simp only [Store.read, Store.get?] at h
  split at h
  · simp [Lock.current] at h
  cases hfind : s.find? l.key with
  | none => simp [hfind, Lock.current] at h
  | some entry =>
    simp only [hfind, Option.map_some, Lock.current] at h
    cases hdecode : l.decode entry.value with
    | error e => simp [hdecode, Except.map] at h
    | ok record =>
      simp only [hdecode, Except.map, Except.ok.injEq, Option.some.injEq, Prod.mk.injEq] at h
      refine ⟨entry, rfl, h.2, ?_⟩
      have hkey : Lock.decode ⟨l.key, 0⟩ entry.value = .ok record := hdecode
      rw [recordAt, hfind, ← h.1]
      simp [hkey, Except.toOption]

/-- A failed read finds no record. -/
theorem Lock.current_error {l : Lock} {e : Store.Error} {found : Option (Record × UInt64)}
    (h : l.current (.error e) = .ok found) : found = none := by
  cases e <;> simp_all [Lock.current]

/-- What a read leads to is backed by what was read. -/
theorem Call.backed_of_onRead {key : String} {s : Store} {c : Call} {now : UInt64}
    {answer : Store.ReadAnswer} {expected : Option UInt64} {record : Record}
    (hanswer : answer = s.read key ∨ ∃ e, answer = .error e)
    (h : ((c.operation key).onRead now answer).1 = .swap expected record) :
    Call.Backed key s { c with stage := .swapping expected record } := by
  obtain ⟨found, hcurrent, rfl, -, hreplaces⟩ := replaces_of_onRead h
  cases found with
  | none => exact fun _ => hreplaces
  | some found =>
    obtain ⟨old, version⟩ := found
    obtain rfl | ⟨e, rfl⟩ := hanswer
    · obtain ⟨entry, hentry, hversion, hrecord⟩ := Lock.current_read hcurrent
      exact ⟨entry, hentry, hversion ▸ UInt64.le_refl _, fun _ => ⟨old, hrecord, hreplaces⟩⟩
    · exact absurd (Lock.current_error hcurrent) (by simp)

/-- How often an entry was written, by its version: none for an absent
one. -/
def versionAt (key : String) (s : Store) : Nat :=
  match s.find? key with
  | none => 0
  | some entry => entry.version.toNat

theorem versionAt_of_find?_eq {key : String} {s s' : Store} (h : s'.find? key = s.find? key) :
    versionAt key s' = versionAt key s := by
  rw [versionAt, versionAt, h]

theorem recordAt_of_find?_eq {key : String} {s s' : Store} (h : s'.find? key = s.find? key) :
    recordAt key s' = recordAt key s := by
  rw [recordAt, recordAt, h]

theorem Call.backed_of_find?_eq {key : String} {s s' : Store} {c : Call}
    (h : s'.find? key = s.find? key) (hc : c.Backed key s) : c.Backed key s' := by
  unfold Call.Backed at hc ⊢
  rw [h, recordAt_of_find?_eq h]
  exact hc

/-- The version after one more write, as long as the count does not start
over. -/
theorem versionAt_of_nextVersion {key : String} {s s' : Store} {text : String}
    {expected : Option UInt64} (hversion : s.version? key = expected)
    (hentry : s'.find? key = some ⟨text, Store.nextVersion expected⟩)
    (hroom : versionAt key s + 1 < UInt64.size) : versionAt key s' = versionAt key s + 1 := by
  subst hversion
  rw [versionAt, hentry]
  cases hfind : s.find? key with
  | none =>
    simp only [versionAt, hfind, Store.version?, Option.map_none, Store.nextVersion]
    rfl
  | some entry =>
    have hone : (1 : UInt64).toNat = 1 := rfl
    simp only [versionAt, hfind, Store.version?, Option.map_some, Store.nextVersion,
      UInt64.toNat_add, hone] at hroom ⊢
    exact Nat.mod_eq_of_lt hroom

/-- A call that was to swap an older entry is backed by the newer one: its
swap will fail. -/
theorem Call.backed_of_newer {key : String} {s s' : Store} {c : Call} {entry : Store.Entry}
    (hentry : s'.find? key = some entry) (hnewer : versionAt key s < entry.version.toNat)
    (hc : c.Backed key s) : c.Backed key s' := by
  unfold Call.Backed at hc ⊢
  split
  · trivial
  · intro hnone
    rw [hentry] at hnone
    contradiction
  · rename_i version record hstage
    rw [hstage] at hc
    obtain ⟨old, hold, hle, -⟩ := hc
    rw [versionAt, hold] at hnewer
    have hlt : version.toNat < entry.version.toNat :=
      Nat.lt_of_le_of_lt (UInt64.le_iff_toNat_le.1 hle) hnewer
    refine ⟨entry, hentry, UInt64.le_iff_toNat_le.2 (Nat.le_of_lt hlt), fun heq => ?_⟩
    rw [heq] at hlt
    exact absurd hlt (Nat.lt_irrefl _)

/-- What is written in the place of a record of this layout is one. -/
theorem Replaces.schema {identity : String} {duration : UInt64} {request : Request}
    {old? : Option Record} {record : Record} (h : Replaces identity duration request old? record)
    (hold : ∀ old, old? = some old → old.schema = schemaVersion) :
    record.schema = schemaVersion := by
  cases h with
  | first now => rfl
  | next now free => rfl
  | @renewed old term now held alive => exact hold old rfl
  | @released old term held => exact hold old rfl

theorem recordAt_of_text {key : String} {s : Store} {record : Record} {version : UInt64}
    (hentry : s.find? key = some ⟨record.text, version⟩) (h : record.schema = schemaVersion) :
    recordAt key s = some record := by
  rw [recordAt, hentry]
  simp [Lock.decode_text _ h, Except.toOption]

/-! ## Steps and runs -/

namespace Contention

variable {ι : Type} [DecidableEq ι]

/-- The same with another call, or none, of one caller. -/
def setCall (w : Contention ι) (i : ι) (c : Option Call) : Contention ι :=
  { w with calls := Function.update w.calls i c }

/-- The stored record. -/
def record? (key : String) (w : Contention ι) : Option Record := recordAt key w.store

/-- The store's answer to a swap, and the store behind it. -/
def carryOut (key : String) (w : Contention ι) (expected : Option UInt64) (record : Record) :
    Store.WriteAnswer × Store :=
  w.store.write (Lock.swapCommand ⟨key, 0⟩ expected record)

/-- **One step.** -/
inductive Step (key : String) (rules : Rules ι) :
    Contention ι → Label ι → Contention ι → Prop
  | clock {w : Contention ι} {now : UInt64} (h : rules.clock w.clock now) :
    Step key rules w .quiet { w with clock := now }
  /-- Faults are armed or disarmed. -/
  | fault {w : Contention ι} (unavailable : Bool) (failingWrites : UInt32) :
    Step key rules w .quiet { w with
      store := (w.store.setUnavailable unavailable).failNextWrites failingWrites }
  /-- Another key is written. -/
  | elsewhere {w : Contention ι} {c : Store.Command} (h : key ≠ c.key) :
    Step key rules w .quiet { w with store := (w.store.write c).2 }
  | call {w : Contention ι} {i : ι} {identity : String} {duration : UInt64} (request : Request)
      (hidle : w.calls i = none) (hcaller : rules.caller i identity duration) :
    Step key rules w (.begins i identity request)
      (w.setCall i (some ⟨identity, duration, request, .reading w.clock⟩))
  /-- The record is read, or the read fails, and the call goes on. -/
  | read {w : Contention ι} {i : ι} {c : Call} {now : UInt64} {answer : Store.ReadAnswer}
      {expected : Option UInt64} {record : Record} (hcall : w.calls i = some c)
      (hstage : c.stage = .reading now)
      (hanswer : answer = w.store.read key ∨ ∃ e, answer = .error e)
      (hswap : ((c.operation key).onRead now answer).1 = .swap expected record) :
    Step key rules w .quiet (w.setCall i (some { c with stage := .swapping expected record }))
  /-- The record is read, or the read fails, and the call ends. -/
  | readEnds {w : Contention ι} {i : ι} {c : Call} {now : UInt64} {answer : Store.ReadAnswer}
      {result : Except Error Outcome} (hcall : w.calls i = some c)
      (hstage : c.stage = .reading now)
      (hanswer : answer = w.store.read key ∨ ∃ e, answer = .error e)
      (hdone : ((c.operation key).onRead now answer).1 = .done result) :
    Step key rules w (.ends i c.identity c.request (some result) none) (w.setCall i none)
  /-- The swap is carried out and answered, or the answer is lost. -/
  | swap {w : Contention ι} {i : ι} {c : Call} {expected : Option UInt64} {record : Record}
      {answer : Option Store.WriteAnswer} (hcall : w.calls i = some c)
      (hstage : c.stage = .swapping expected record)
      (hanswer : answer = some (w.carryOut key expected record).1 ∨
        (∃ e, answer = some (.error e)) ∨ answer = none) :
    Step key rules w
      (.ends i c.identity c.request (answer.map fun a => ((c.operation key).onSwap record a).1)
        ((w.carryOut key expected record).1.toOption.map fun _ => record))
      ({ w with store := (w.carryOut key expected record).2 }.setCall i none)
  /-- The swap fails without being carried out. -/
  | swapFails {w : Contention ι} {i : ι} {c : Call} {expected : Option UInt64} {record : Record}
      (e : Store.Error) (hcall : w.calls i = some c)
      (hstage : c.stage = .swapping expected record) :
    Step key rules w
      (.ends i c.identity c.request (some ((c.operation key).onSwap record (.error e)).1) none)
      (w.setCall i none)
  | abandon {w : Contention ι} {i : ι} {c : Call} (hcall : w.calls i = some c) :
    Step key rules w (.ends i c.identity c.request none none) (w.setCall i none)

/-- **Any number of steps**, with what is seen of them. -/
inductive Run (key : String) (rules : Rules ι) :
    Contention ι → List (Label ι) → Contention ι → Prop
  | nil (w : Contention ι) : Run key rules w [] w
  | cons {w w₁ w₂ : Contention ι} {l : Label ι} {ls : List (Label ι)}
      (hstep : Step key rules w l w₁) (hrun : Run key rules w₁ ls w₂) :
    Run key rules w (l :: ls) w₂

/-! ## What a step does to the entry -/

variable {key : String} {rules : Rules ι} {w w' : Contention ι} {l : Label ι}

@[simp] theorem setCall_calls_self (w : Contention ι) (i : ι) (c : Option Call) :
    (w.setCall i c).calls i = c := by
  simp [setCall]

theorem setCall_calls_of_ne (w : Contention ι) {i j : ι} (h : j ≠ i) (c : Option Call) :
    (w.setCall i c).calls j = w.calls j := by
  simp [setCall, h]

theorem setCall_self (w : Contention ι) (i : ι) : w.setCall i (w.calls i) = w := by
  rw [setCall, Function.update_eq_self]

@[simp] theorem setCall_setCall (w : Contention ι) (i : ι) (c c' : Option Call) :
    (w.setCall i c).setCall i c' = w.setCall i c' := by
  simp [setCall]

@[simp] theorem carryOut_setCall (w : Contention ι) (i : ι) (c : Option Call)
    (expected : Option UInt64) (record : Record) :
    (w.setCall i c).carryOut key expected record = w.carryOut key expected record := rfl

/-- Whoever still has a call after another's has ended had it before. -/
theorem of_setCall_none {i j : ι} {c : Call} (h : (w.setCall i none).calls j = some c) :
    w.calls j = some c := by
  by_cases hj : j = i
  · subst hj
    rw [setCall_calls_self] at h
    contradiction
  · rwa [setCall_calls_of_ne _ hj] at h

/-- **Where a call comes from** that is under way after a step: it was under
way before, it has just begun, or it has just read. -/
theorem Step.origin (h : Step key rules w l w') {j : ι} {c : Call} (hcall : w'.calls j = some c) :
    w.calls j = some c ∨
    (∃ identity duration request, l = .begins j identity request ∧
      rules.caller j identity duration ∧
      c = ⟨identity, duration, request, .reading w'.clock⟩) ∨
    ∃ now expected record, w.calls j = some { c with stage := .reading now } ∧
      c.stage = .swapping expected record ∧ c.request.stamps record now ∧
      c.Backed key w.store := by
  cases h with
  | clock h => exact .inl hcall
  | fault unavailable failingWrites => exact .inl hcall
  | elsewhere h => exact .inl hcall
  | @call i identity duration request hidle hcaller =>
    by_cases hj : j = i
    · subst hj
      rw [setCall_calls_self] at hcall
      obtain rfl := Option.some.inj hcall
      exact .inr (.inl ⟨identity, duration, request, rfl, hcaller, rfl⟩)
    · rw [setCall_calls_of_ne _ hj] at hcall
      exact .inl hcall
  | @read i c' now answer expected record hcall' hstage hanswer hswap =>
    by_cases hj : j = i
    · subst hj
      rw [setCall_calls_self] at hcall
      obtain rfl := Option.some.inj hcall
      obtain ⟨-, -, -, hstamps, -⟩ := replaces_of_onRead hswap
      refine .inr (.inr ⟨now, expected, record, ?_, rfl, hstamps,
        Call.backed_of_onRead hanswer hswap⟩)
      rw [hcall', ← hstage]
    · rw [setCall_calls_of_ne _ hj] at hcall
      exact .inl hcall
  | readEnds hcall' hstage hanswer hdone => exact .inl (of_setCall_none hcall)
  | @swap i c' expected record answer hcall' hstage hanswer =>
    exact .inl (of_setCall_none (w := { w with store := _ }) hcall)
  | swapFails e hcall' hstage => exact .inl (of_setCall_none hcall)
  | abandon hcall' => exact .inl (of_setCall_none hcall)

/-- **What a step stores.** Either it leaves the entry alone, or it is the
swap of a call whose expected version is there. -/
theorem Step.entry (h : Step key rules w l w') :
    (l.stored? = none ∧ w'.store.find? key = w.store.find? key) ∨
    ∃ i c expected record answer, w.calls i = some c ∧ c.stage = .swapping expected record ∧
      l = .ends i c.identity c.request answer (some record) ∧
      w.store.version? key = expected ∧
      w'.store.find? key = some ⟨record.text, Store.nextVersion expected⟩ ∧
      w'.calls i = none ∧ w'.clock = w.clock := by
  cases h with
  | clock h => exact .inl ⟨rfl, rfl⟩
  | fault unavailable failingWrites => exact .inl ⟨rfl, rfl⟩
  | elsewhere h => exact .inl ⟨rfl, Store.find?_write_of_ne _ h⟩
  | call request hidle hcaller => exact .inl ⟨rfl, rfl⟩
  | read hcall hstage hanswer hswap => exact .inl ⟨rfl, rfl⟩
  | readEnds hcall hstage hanswer hdone => exact .inl ⟨rfl, rfl⟩
  | @swap i c expected record answer hcall hstage hanswer =>
    cases ha : (w.carryOut key expected record).1 with
    | error e => exact .inl ⟨rfl, Store.find?_write_of_error ha key⟩
    | ok a =>
      obtain ⟨hversion, hentry⟩ := Store.find?_write_swap_of_ok ha
      exact .inr ⟨i, c, expected, record, _, hcall, hstage, rfl, hversion, hentry,
        setCall_calls_self _ _ _, rfl⟩
  | swapFails e hcall hstage => exact .inl ⟨rfl, rfl⟩
  | abandon hcall => exact .inl ⟨rfl, rfl⟩

/-! ## The invariant -/

/-- **The invariant of contention**: every call is backed, and a stored
record has the layout that locks write. -/
structure Sound (key : String) (w : Contention ι) : Prop where
  backed : ∀ i c, w.calls i = some c → c.Backed key w.store
  layout : ∀ record, recordAt key w.store = some record → record.schema = schemaVersion

/-- **A call stores its record** in the place of the one that is there. -/
structure Stores (key : String) (w : Contention ι) (i : ι) (c : Call) (record : Record)
    (w' : Contention ι) : Prop where
  call : w.calls i = some c
  decided : ∃ expected, c.stage = .swapping expected record
  replaces : Replaces c.identity c.duration c.request (recordAt key w.store) record
  recordAt : recordAt key w'.store = some record
  ended : w'.calls i = none
  clock : w'.clock = w.clock

/-- **A stored record replaces the one that was there.** -/
theorem Step.stores (h : Step key rules w l w') (hw : Sound key w) {request : Request}
    {record : Record} (hl : l.stored? = some (request, record)) :
    ∃ i c answer, l = .ends i c.identity c.request answer (some record) ∧
      c.request = request ∧ Stores key w i c record w' := by
  obtain ⟨hnone, -⟩ | ⟨i, c, expected, record', answer, hcall, hstage, rfl, hversion, hentry,
    hended, hclock⟩ := h.entry
  · rw [hnone] at hl
    contradiction
  obtain ⟨rfl, rfl⟩ := Prod.mk.inj (Option.some.inj hl)
  have hbacked := hw.backed i c hcall
  have hreplaces : Replaces c.identity c.duration c.request (recordAt key w.store) record' := by
    unfold Call.Backed at hbacked
    rw [hstage] at hbacked
    cases hfind : w.store.find? key with
    | none =>
      rw [Store.version?, hfind] at hversion
      subst hversion
      rw [recordAt, hfind]
      exact hbacked hfind
    | some entry =>
      rw [Store.version?, hfind] at hversion
      subst hversion
      obtain ⟨old, hold, -, hrecord⟩ := hbacked
      rw [hfind] at hold
      obtain ⟨old', hold', hreplaces⟩ := hrecord (Option.some.inj hold ▸ rfl)
      rw [hold']
      exact hreplaces
  exact ⟨i, c, answer, rfl, rfl, hcall, ⟨expected, hstage⟩, hreplaces,
    recordAt_of_text hentry (hreplaces.schema hw.layout), hended, hclock⟩

theorem Step.backed_before (h : Step key rules w l w') (hw : Sound key w) {j : ι} {c : Call}
    (hcall : w'.calls j = some c) : c.Backed key w.store := by
  obtain hcall | ⟨identity, duration, request, -, -, rfl⟩ | ⟨-, -, -, -, -, -, hbacked⟩ :=
    h.origin hcall
  · exact hw.backed j c hcall
  · trivial
  · exact hbacked

/-- **The invariant is kept by every step**, as long as versions are not
counted beyond their range. -/
theorem Step.sound (h : Step key rules w l w') (hw : Sound key w)
    (hroom : versionAt key w.store + l.stored?.toList.length < UInt64.size) :
    Sound key w' := by
  refine ⟨fun j c hcall => ?_, fun record hrecord => ?_⟩
  · have hbefore := h.backed_before hw hcall
    obtain ⟨-, hfind⟩ | ⟨i, c', expected, record, answer, -, -, rfl, hversion, hentry, -⟩ := h.entry
    · exact Call.backed_of_find?_eq hfind hbefore
    · refine Call.backed_of_newer hentry ?_ hbefore
      have hnext := versionAt_of_nextVersion hversion hentry hroom
      rw [versionAt, hentry] at hnext
      exact Nat.lt_of_lt_of_eq (Nat.lt_succ_self _) hnext.symm
  · cases hl : l.stored? with
    | none =>
      obtain ⟨-, hfind⟩ | ⟨i, c, expected, record', answer, -, -, rfl, -⟩ := h.entry
      · rw [recordAt_of_find?_eq hfind] at hrecord
        exact hw.layout record hrecord
      · contradiction
    | some p =>
      obtain ⟨request, record'⟩ := p
      obtain ⟨i, c, answer, -, -, hstores⟩ := h.stores hw hl
      rw [hstores.recordAt] at hrecord
      exact Option.some.inj hrecord ▸ hstores.replaces.schema hw.layout

/-- A step that stores a record counts the version up. -/
theorem Step.versionAt (h : Step key rules w l w')
    (hroom : Lease.versionAt key w.store + l.stored?.toList.length < UInt64.size) :
    Lease.versionAt key w'.store = Lease.versionAt key w.store + l.stored?.toList.length := by
  obtain ⟨hnone, hfind⟩ | ⟨i, c, expected, record, answer, -, -, rfl, hversion, hentry, -⟩ :=
    h.entry
  · rw [hnone, versionAt_of_find?_eq hfind]
    rfl
  · exact versionAt_of_nextVersion hversion hentry hroom

/-- A step that stores nothing leaves the record as it is. -/
theorem Step.recordAt (h : Step key rules w l w') (hl : l.stored? = none) :
    Lease.recordAt key w'.store = Lease.recordAt key w.store := by
  obtain ⟨-, hfind⟩ | ⟨i, c, expected, record, answer, -, -, rfl, -⟩ := h.entry
  · exact recordAt_of_find?_eq hfind
  · contradiction

/-- **Whoever is granted a term has stored a record of it.** -/
theorem Step.granted {i : ι} {identity : String} {request : Request} {outcome : Outcome}
    {stored : Option Record} {term : Term} {deadline : UInt64}
    (h : Step key rules w (.ends i identity request (some (.ok outcome)) stored) w')
    (hgrant : outcome.grant? request = some (term, deadline)) :
    ∃ record, stored = some record ∧ deadline = record.deadline ∧
      (request = .acquire ∧ term = ⟨record.term⟩ ∨ request = .renew term) := by
  generalize hl : Label.ends i identity request (some (.ok outcome)) stored = l at h
  cases h with
  | clock h => contradiction
  | fault unavailable failingWrites => contradiction
  | elsewhere h => contradiction
  | call request hidle hcaller => contradiction
  | read hcall hstage hanswer hswap => contradiction
  | readEnds hcall hstage hanswer hdone =>
    obtain ⟨rfl, rfl, rfl, hresult, rfl⟩ := Label.ends.inj hl
    rw [← Option.some.inj hresult] at hdone
    rw [grant?_eq_none_of_onRead hdone] at hgrant
    contradiction
  | @swap i c expected record answer hcall hstage hanswer =>
    obtain ⟨rfl, rfl, rfl, hresult, rfl⟩ := Label.ends.inj hl
    obtain ⟨a, rfl, ha⟩ := Option.map_eq_some_iff.1 hresult.symm
    obtain ⟨⟨b, rfl⟩, hdeadline, hterm⟩ := grant?_of_onSwap ha hgrant
    refine ⟨record, ?_, hdeadline, hterm⟩
    obtain hb | ⟨e, he⟩ | hnone := hanswer
    · rw [← Option.some.inj hb]
      rfl
    · cases Option.some.inj he
    · contradiction
  | swapFails e hcall hstage =>
    obtain ⟨rfl, rfl, rfl, hresult, rfl⟩ := Label.ends.inj hl
    obtain ⟨⟨b, hb⟩, -⟩ := grant?_of_onSwap (Option.some.inj hresult).symm hgrant
    cases hb
  | abandon hcall =>
    obtain ⟨-, -, -, hresult, -⟩ := Label.ends.inj hl
    contradiction

omit [DecidableEq ι] in
theorem stored_cons (l : Label ι) (ls : List (Label ι)) :
    stored (l :: ls) = l.stored?.toList ++ stored ls := by
  rw [stored, List.filterMap_cons]
  cases l.stored? <;> rfl

omit [DecidableEq ι] in
theorem stored_append (ls ms : List (Label ι)) : stored (ls ++ ms) = stored ls ++ stored ms :=
  List.filterMap_append

/-- Runs can be put one after the other. -/
theorem Run.append {u : Contention ι} {ls ms : List (Label ι)} (h : Run key rules w ls u)
    (h' : Run key rules u ms w') : Run key rules w (ls ++ ms) w' := by
  induction h with
  | nil w => exact h'
  | cons hstep hrun ih => exact .cons hstep (ih h')

/-- A run goes through the moments in between. -/
theorem Run.split {ls ms : List (Label ι)} (h : Run key rules w (ls ++ ms) w') :
    ∃ u, Run key rules w ls u ∧ Run key rules u ms w' := by
  induction ls generalizing w with
  | nil => exact ⟨w, .nil w, h⟩
  | cons l ls ih =>
    cases h with
    | cons hstep hrun =>
      obtain ⟨u, hls, hms⟩ := ih hrun
      exact ⟨u, .cons hstep hls, hms⟩

/-- **The invariant holds throughout**, and versions count what is
stored. -/
theorem Run.sound {ls : List (Label ι)} (h : Run key rules w ls w') (hw : Sound key w)
    (hroom : Lease.versionAt key w.store + (stored ls).length < UInt64.size) :
    Sound key w' ∧
      Lease.versionAt key w'.store = Lease.versionAt key w.store + (stored ls).length := by
  induction h with
  | nil w => exact ⟨hw, rfl⟩
  | @cons w w₁ w₂ l ls hstep hrun ih =>
    rw [stored_cons, List.length_append] at hroom ⊢
    have hfirst : Lease.versionAt key w.store + l.stored?.toList.length < UInt64.size := by omega
    have hnext := hstep.versionAt hfirst
    obtain ⟨hsound, hcount⟩ := ih (hstep.sound hw hfirst) (by omega)
    exact ⟨hsound, by omega⟩

/-! ## Runs of one call -/

section OneCall

variable {i : ι} {identity : String} {duration : UInt64} {request : Request}

/-- A call that ends with its read, with nobody in between. -/
theorem Run.reads {result : Except Error Outcome} (hidle : w.calls i = none)
    (hcaller : rules.caller i identity duration)
    (hdone : ((Lock.serve ⟨key, duration⟩ identity request).onRead w.clock
      (w.store.read key)).1 = .done result) :
    Run key rules w [.begins i identity request, .ends i identity request (some result) none]
      w := by
  let begun : Call := ⟨identity, duration, request, .reading w.clock⟩
  have hread : Step key rules (w.setCall i (some begun))
      (.ends i identity request (some result) none) ((w.setCall i (some begun)).setCall i none) :=
    .readEnds (setCall_calls_self _ _ _) rfl (.inl rfl) hdone
  rw [setCall_setCall, ← hidle, setCall_self] at hread
  exact .cons (.call request hidle hcaller) (.cons hread (.nil _))

/-- **A call that reads and swaps**, with nobody in between. -/
theorem Run.swaps {expected : Option UInt64} {record : Record} {a : Store.WriteResult}
    (hidle : w.calls i = none) (hcaller : rules.caller i identity duration)
    (hswap : ((Lock.serve ⟨key, duration⟩ identity request).onRead w.clock
      (w.store.read key)).1 = .swap expected record)
    (hwritten : (w.carryOut key expected record).1 = .ok a) :
    Run key rules w
      [.begins i identity request, .quiet,
        .ends i identity request
          (some ((Lock.serve ⟨key, duration⟩ identity request).onSwap record (.ok a)).1)
          (some record)]
      { w with store := (w.carryOut key expected record).2 } := by
  let begun : Call := ⟨identity, duration, request, .reading w.clock⟩
  let decided : Call := ⟨identity, duration, request, .swapping expected record⟩
  have hread : Step key rules (w.setCall i (some begun)) .quiet
      ((w.setCall i (some begun)).setCall i (some decided)) :=
    .read (setCall_calls_self _ _ _) rfl (.inl rfl) hswap
  have hwrite : Step key rules ((w.setCall i (some begun)).setCall i (some decided))
      (.ends i identity request
        (some ((Lock.serve ⟨key, duration⟩ identity request).onSwap record
          (w.carryOut key expected record).1).1)
        ((w.carryOut key expected record).1.toOption.map fun _ => record)) _ :=
    .swap (setCall_calls_self _ _ _) rfl (.inl rfl)
  rw [hwritten] at hwrite
  have hended : ({ (w.setCall i (some begun)).setCall i (some decided) with
      store := (w.carryOut key expected record).2 }.setCall i none)
      = { w with store := (w.carryOut key expected record).2 } := by
    simp [setCall, hidle, Function.update_eq_self_iff]
  exact .cons (.call request hidle hcaller) (.cons hread (.cons (hended ▸ hwrite) (.nil _)))

/-- **A call that acquires the lease**: it has found none, or one that was
free. -/
theorem Run.acquires {found : Option (Record × UInt64)} {term : UInt64} {a : Store.WriteResult}
    (hidle : w.calls i = none) (hcaller : rules.caller i identity duration)
    (hcurrent : Lock.current ⟨key, duration⟩ (w.store.read key) = .ok found)
    (hfree : ∀ old version, found = some (old, version) → old.isFreeFor identity w.clock)
    (hterm : nextTerm (found.map fun p => p.1.term) = term)
    (hwritten : (w.carryOut key (found.map Prod.snd)
      (.acquired identity term duration w.clock)).1 = .ok a) :
    Run key rules w
      [.begins i identity .acquire, .quiet,
        .ends i identity .acquire
          (some (.ok (.acquired (.acquired ⟨term⟩ (Saturating.add w.clock duration)))))
          (some (.acquired identity term duration w.clock))]
      { w with store := (w.carryOut key (found.map Prod.snd)
        (.acquired identity term duration w.clock)).2 } := by
  subst hterm
  have hswap : ((Lock.serve ⟨key, duration⟩ identity .acquire).onRead w.clock
      (w.store.read key)).1 = .swap (found.map Prod.snd)
        (.acquired identity (nextTerm (found.map fun p => p.1.term)) duration w.clock) :=
    Operation.onRead_map_of_swap (Lock.onRead_acquire_of_free hcurrent hfree)
  exact Run.swaps hidle hcaller hswap hwritten

/-- A call that finds the lease taken by another. -/
theorem Run.heldByOther {old : Record} {version : UInt64} (hidle : w.calls i = none)
    (hcaller : rules.caller i identity duration)
    (hcurrent : Lock.current ⟨key, duration⟩ (w.store.read key) = .ok (some (old, version)))
    (hother : ¬ old.isFreeFor identity w.clock) :
    Run key rules w
      [.begins i identity .acquire,
        .ends i identity .acquire (some (.ok (.acquired (.heldByOther old.holder old.deadline))))
          none] w := by
  have hdone : ((Lock.serve ⟨key, duration⟩ identity .acquire).onRead w.clock
      (w.store.read key)).1 = .done (.ok (.acquired (.heldByOther old.holder old.deadline))) :=
    Operation.onRead_map_eq_done (Lock.onRead_acquire_of_taken hcurrent hother)
  exact Run.reads hidle hcaller hdone

end OneCall

omit [DecidableEq ι] in
/-- What was swapped in is what is read next. -/
theorem current_carryOut {expected : Option UInt64} {record : Record} {a : Store.WriteResult}
    (h : (w.carryOut key expected record).1 = .ok a) (hschema : record.schema = schemaVersion)
    (duration : UInt64) :
    Lock.current ⟨key, duration⟩ ((w.carryOut key expected record).2.read key)
      = .ok (some (record, Store.nextVersion expected)) := by
  have hread : (w.carryOut key expected record).2.read key
      = .ok ⟨some ⟨key, record.text, Store.nextVersion expected⟩⟩ := Store.read_write_swap_of_ok h
  rw [hread, Lock.current_text _ hschema]

end Contention

end Tenure.Lease
