import Tenure.Proofs.Lease.Interleaving

/-!
# A race has one winner

Callers that read the same entry and may all take the lease decide to write
over the same version. Only the swap that comes first meets that version.
Each later one is refused and told of the entry that is there instead, which
is the winner's, so the losers learn who has the lease and until when
without reading again.

What they are told has gone through the store as a text. That they can read
it, whatever the winner's identity is, is `Lock.decode_text`.
-/

namespace Tenure.Lease

open Store (nextVersion)

/-- **Who is beaten to the lease** is told what the record of the winner
says. -/
theorem Lock.onSwap_acquire_of_beaten {l : Lock} {winner : Record} {text : String}
    (hdecode : l.decode text = .ok winner) (identity : String) (record : Record)
    (key : String) (expected : Option UInt64) (version : UInt64) :
    ((l.acquire identity).onSwap record
        (.error (.swapFailed key expected (some ⟨key, text, version⟩)))).1
      = .ok (.heldByOther winner.holder winner.deadline) := by
  simp only [acquire, swapped, decodeActual, hdecode, Except.map]

/-- The record that a caller writes over what it has found. -/
def Caller.record (c : Caller) (now : UInt64) (found : Option Record) : Record :=
  c.lock.nextRecord c.identity now found

namespace Interleaving

variable {ι : Type} [DecidableEq ι] {caller : ι → Caller} {a : Address} {w v : Interleaving ι}
  {now : ι → UInt64} {found : Option Record} {callers : List ι} {i : ι}

/-- **Callers that race for a lease.** All of them want to acquire it, they find
the same, which each of them may take at its own clock reading, and the store
accepts what each of them writes. -/
structure Race (caller : ι → Caller) (a : Address) (w : Interleaving ι) (now : ι → UInt64)
    (found : Option Record) (callers : List ι) : Prop where
  address : ∀ i ∈ callers, (caller i).address = a
  acquires : ∀ i ∈ callers, (caller i).request = .acquire
  finds : ∀ i ∈ callers, (caller i).lock.Finds w.store found
  free : ∀ i ∈ callers, ∀ r, found = some r → r.isFreeFor (caller i).identity (now i)
  accepts : ∀ i ∈ callers, w.store.Accepts a.key ((caller i).record (now i) found).text

namespace Race

/-- The swap that a caller decides on: its own record, over the version that
it has read. -/
def intent (_ : Race caller a w now found callers) (i : ι) : Option UInt64 × Record :=
  (w.store.version? a.key, (caller i).record (now i) found)

/-- The store that the winner leaves behind. -/
def taken (_ : Race caller a w now found callers) (winner : ι) : Store :=
  w.store.put a.key ⟨((caller winner).record (now winner) found).text,
    nextVersion (w.store.version? a.key)⟩

/-- Whoever reads decides to write over the version that is there. -/
theorem step_read (h : Race caller a w now found callers) (hi : i ∈ callers)
    (hstore : v.store = w.store) :
    v.step caller (.read i (now i)) = (none, v.setPending i (some (h.intent i))) := by
  have hwrite : ((caller i).lock.acquireRule (caller i).identity (now i)).write found
      = some ((caller i).record (now i) found) :=
    Lock.acquireRule_write_eq_some_iff.2 ⟨h.free i hi, rfl⟩
  obtain ⟨current, hcurrent, rfl⟩ := (h.finds i hi).current (h.accepts i hi).1.1
  have hdecides := (Caller.follows_of_acquire (h.acquires i hi) (now i)).decides hcurrent
  have hversion : current.map Prod.snd = w.store.version? a.key := by
    rw [version?_of_current hcurrent, Caller.key_lock, h.address i hi]
  rw [Rule.map, hwrite, hversion, ← hstore] at hdecides
  rw [step_read_of_swap hdecides, hstore, intent]

/-- **After the reads** nothing is written yet, and all have decided. -/
theorem after_reads (h : Race caller a w now found callers) {readers : List ι}
    (hreaders : ∀ i ∈ readers, i ∈ callers) (hstore : v.store = w.store) :
    let acts : List (Act ι) := readers.map fun i => .read i (now i)
    v.answers caller acts = [] ∧ (v.after caller acts).store = w.store ∧
      ∀ i, (v.after caller acts).pending i
        = if i ∈ readers then some (h.intent i) else v.pending i := by
  induction readers generalizing v with
  | nil => exact ⟨rfl, hstore, fun i => rfl⟩
  | cons i readers ih =>
    intro acts
    have hstep := h.step_read (hreaders i List.mem_cons_self) hstore
    obtain ⟨hanswers, hafter, hpending⟩ := ih (v := v.setPending i (some (h.intent i)))
      (fun j hj => hreaders j (List.mem_cons_of_mem i hj)) hstore
    refine ⟨?_, ?_, fun j => ?_⟩
    · show v.answers caller (.read i (now i) :: _) = []
      rw [answers_cons, hstep]
      exact hanswers
    · show (v.after caller (.read i (now i) :: _)).store = w.store
      rw [after_cons, hstep]
      exact hafter
    · show (v.after caller (.read i (now i) :: _)).pending j = _
      rw [after_cons, hstep, hpending]
      by_cases hj : j = i
      · subst hj
        rw [pending_setPending_self, ite_self, if_pos List.mem_cons_self]
      · rw [pending_setPending_of_ne _ hj]
        simp only [List.mem_cons, hj, false_or]

/-- **The first swap** meets the version that was read. -/
theorem step_first (h : Race caller a w now found callers) (hi : i ∈ callers)
    (hstore : v.store = w.store) (hpending : v.pending i = some (h.intent i)) :
    let record := (caller i).record (now i) found
    v.step caller (.swap i) = (some (i, .ok (.acquired (.acquired ⟨record.term⟩ record.deadline))),
      { v with store := h.taken i }.setPending i none) := by
  intro record
  have hwrite : v.store.write ((caller i).lock.swapCommand (w.store.version? a.key) record)
      = (.ok ⟨some (nextVersion (w.store.version? a.key))⟩, h.taken i) := by
    rw [Lock.swapCommand, Caller.key_lock, h.address i hi, hstore]
    exact (h.accepts i hi).write
  rw [step_swap_of_some hpending, hwrite,
    (Caller.follows_of_acquire (h.acquires i hi) (now i)).written]
  rfl

/-- **A later swap** meets the version of the winner. -/
theorem step_later (h : Race caller a w now found callers) {winner : ι} (hi : i ∈ callers)
    (hstore : v.store = h.taken winner) (hpending : v.pending i = some (h.intent i)) :
    let record := (caller winner).record (now winner) found
    v.step caller (.swap i)
      = (some (i, .ok (.acquired (.heldByOther record.holder record.deadline))),
        v.setPending i none) := by
  intro record
  have hentry : v.store.find? a.key
      = some ⟨record.text, nextVersion (w.store.version? a.key)⟩ := by
    rw [hstore]
    exact Store.find?_put_self _ _ _
  have hversion : v.store.version? a.key ≠ w.store.version? a.key := by
    rw [Store.version?, hentry]
    exact Store.nextVersion_ne _
  have haccepts : v.store.Accepts a.key ((caller i).record (now i) found).text := by
    rw [hstore]
    exact (h.accepts i hi).put a.key _
  have hwrite : v.store.write ((caller i).lock.swapCommand (w.store.version? a.key)
        ((caller i).record (now i) found))
      = (.error (.swapFailed a.key (w.store.version? a.key)
          (some ⟨a.key, record.text, nextVersion (w.store.version? a.key)⟩)), v.store) := by
    rw [Lock.swapCommand, Caller.key_lock, h.address i hi, haccepts.write_of_ne hversion,
      Store.get?, hentry]
    rfl
  have hschema : record.schema = schemaVersion := rfl
  have hdecode : (caller i).lock.decode record.text = .ok record := Lock.decode_text _ hschema
  have hanswer : ((caller i).operation.onSwap ((caller i).record (now i) found)
        (.error (.swapFailed a.key (w.store.version? a.key)
          (some ⟨a.key, record.text, nextVersion (w.store.version? a.key)⟩)))).1
      = .ok (.acquired (.heldByOther record.holder record.deadline)) := by
    rw [Caller.operation, h.acquires i hi]
    simp only [Lock.serve, Operation.map, Lock.onSwap_acquire_of_beaten hdecode, Except.map]
  rw [step_swap_of_some hpending, hwrite, hanswer]

/-- **After the first swap** every caller is told of the winner, and the
winner's record stays. -/
theorem after_losers (h : Race caller a w now found callers) (winner : ι) {losers : List ι}
    (hlosers : ∀ i ∈ losers, i ∈ callers) (hnodup : losers.Nodup)
    (hstore : v.store = h.taken winner)
    (hpending : ∀ i ∈ losers, v.pending i = some (h.intent i)) :
    let record := (caller winner).record (now winner) found
    v.answers caller (losers.map .swap)
        = losers.map (fun i => (i, .ok (.acquired (.heldByOther record.holder record.deadline)))) ∧
      (v.after caller (losers.map .swap)).store = h.taken winner := by
  induction losers generalizing v with
  | nil => exact ⟨rfl, hstore⟩
  | cons i losers ih =>
    intro record
    obtain ⟨hfresh, hnodup⟩ := List.nodup_cons.1 hnodup
    have hstep := h.step_later (hlosers i List.mem_cons_self) hstore
      (hpending i List.mem_cons_self)
    have hlater : ∀ j ∈ losers, (v.setPending i none).pending j = some (h.intent j) := by
      intro j hj
      have hne : j ≠ i := fun heq => hfresh (heq ▸ hj)
      rw [pending_setPending_of_ne _ hne]
      exact hpending j (List.mem_cons_of_mem i hj)
    obtain ⟨hanswers, hafter⟩ := ih (v := v.setPending i none)
      (fun j hj => hlosers j (List.mem_cons_of_mem i hj)) hnodup hstore hlater
    rw [List.map_cons, answers_cons, after_cons, hstep, hanswers]
    exact ⟨rfl, hafter⟩

/-- **One of them wins**, in whichever order they read and swap: the one that
swaps first acquires the lease for the term after the one that was found, and
every other is told that the winner has it, and until when. -/
theorem one_wins {readers swappers : List ι} (h : Race caller a w now found callers)
    (hnonempty : callers ≠ []) (hnodup : callers.Nodup) (hreaders : readers.Perm callers)
    (hswappers : swappers.Perm callers) :
    let acts : List (Act ι) := readers.map (fun i => .read i (now i)) ++ swappers.map .swap
    ∃ winner losers, swappers = winner :: losers ∧ winner ∉ losers ∧
      let deadline := Saturating.add (now winner) (caller winner).duration
      w.answers caller acts
          = (winner, .ok (.acquired (.acquired ⟨nextTerm (found.map (·.term))⟩ deadline))) ::
            losers.map (fun i =>
              (i, .ok (.acquired (.heldByOther (caller winner).identity deadline)))) ∧
        (w.after caller acts).store = w.store.put a.key
          ⟨(Record.acquired (caller winner).identity (nextTerm (found.map (·.term)))
              (caller winner).duration (now winner)).text,
            nextVersion (w.store.version? a.key)⟩ := by
  intro acts
  cases swappers with
  | nil => exact absurd hswappers.symm.eq_nil hnonempty
  | cons winner losers =>
    obtain ⟨hfresh, hlosers⟩ := List.nodup_cons.1 (hswappers.nodup_iff.2 hnodup)
    refine ⟨winner, losers, rfl, hfresh, ?_⟩
    have hcallers : ∀ i ∈ winner :: losers, i ∈ callers := fun i hi => hswappers.mem_iff.1 hi
    obtain ⟨hquiet, hstore, hpending⟩ :=
      h.after_reads (v := w) (fun i hi => hreaders.mem_iff.1 hi) rfl
    have hdecided : ∀ i ∈ winner :: losers,
        (w.after caller (readers.map fun i => .read i (now i))).pending i = some (h.intent i) := by
      intro i hi
      rw [hpending, if_pos (hreaders.mem_iff.2 (hcallers i hi))]
    have hfirst := h.step_first (hcallers winner List.mem_cons_self) hstore
      (hdecided winner List.mem_cons_self)
    let won : Interleaving ι := ({ w.after caller (readers.map fun i => .read i (now i)) with
      store := h.taken winner } : Interleaving ι).setPending winner none
    have hlater : ∀ i ∈ losers, won.pending i = some (h.intent i) := by
      intro i hi
      have hne : i ≠ winner := fun heq => hfresh (heq ▸ hi)
      exact (pending_setPending_of_ne _ hne none).trans
        (hdecided i (List.mem_cons_of_mem winner hi))
    obtain ⟨hanswers, hafter⟩ := h.after_losers (v := won) winner
      (fun i hi => hcallers i (List.mem_cons_of_mem winner hi)) hlosers rfl hlater
    rw [answers_append, after_append, hquiet, List.map_cons, answers_cons, after_cons, hfirst]
    exact ⟨congrArg (_ :: ·) hanswers, hafter⟩

/-- Three callers, two of them under one identity, race for a lease that has
run out. -/
theorem one_wins_of_three :
    let a : Address := ⟨"ns", "lease"⟩
    let caller : Fin 3 → Caller := fun i => ⟨a, 10, if i = 1 then "b" else "a", .acquire⟩
    let old : Record := .acquired "c" 4 10 0
    let w : Interleaving (Fin 3) := ⟨Store.empty.put a.key ⟨old.text, 7⟩, fun _ => none⟩
    w.answers caller [.read 0 50, .read 1 51, .read 2 52, .swap 1, .swap 2, .swap 0]
      = [(1, .ok (.acquired (.acquired ⟨5⟩ 61))), (2, .ok (.acquired (.heldByOther "b" 61))),
        (0, .ok (.acquired (.heldByOther "b" 61)))] := by
  intro a caller old w
  let now : Fin 3 → UInt64 := fun i => 50 + UInt64.ofNat i.val
  have hrace : Race caller a w now (some old) [0, 1, 2] :=
    { address := fun i _ => rfl
      acquires := fun i _ => rfl
      finds := fun i _ => .record (Store.find?_put_self _ _ _) (Lock.decode_text _ rfl)
      free := by
        intro i hi r hr
        obtain rfl := Option.some.inj hr
        revert i
        decide
      accepts := by decide +kernel }
  have hswappers : List.Perm [1, 2, 0] [(0 : Fin 3), 1, 2] := by decide
  obtain ⟨winner, losers, hfirst, -, hanswers, -⟩ :=
    hrace.one_wins (by decide) (by decide) (.refl _) hswappers
  obtain ⟨rfl, rfl⟩ := List.cons.inj hfirst
  exact hanswers.trans (by decide)

end Race

end Interleaving

end Tenure.Lease
