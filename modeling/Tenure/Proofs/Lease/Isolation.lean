import Tenure.Config.Basic
import Tenure.Proofs.Lease.Interleaving
import Tenure.Proofs.Store.History

/-!
# Leases keep apart

Two leases are two keys. A key is a namespace, a slash and a name, and
neither of the parts is kept from having slashes itself, so two addresses
can have one key: `a/b` and `c` are stored where `a` and `b/c` are
(`Address.key_eq_iff` says just when). Such leases are one lease, whatever
they are called.

All others have the store in common and nothing else. What is noticed of
other leases through it is that an armed refusal is used up by whichever
write comes next. So the calls on one lease cannot be told from the same
calls on a store that nobody else uses, where the refusals that the others
have used up were not armed (`Interleaving.alone`).

The proof goes by two stores that look alike from one key
(`Store.Alike`). They answer every read and write of that key alike and
still look alike after it, and the writes of other keys do not count.
-/

namespace Tenure

namespace Store

/-- **Two stores look alike from a key**: they have the same entry there, and
the same faults are armed. -/
structure Alike (key : String) (s s' : Store) : Prop where
  find?_eq : s.find? key = s'.find? key
  unavailable_eq : s.unavailable = s'.unavailable
  failingWrites_eq : s.failingWrites = s'.failingWrites

namespace Alike

variable {key : String} {s s' : Store}

theorem refl (key : String) (s : Store) : Alike key s s := ⟨rfl, rfl, rfl⟩

theorem version?_eq (h : Alike key s s') : s.version? key = s'.version? key := by
  rw [version?, version?, h.find?_eq]

theorem get?_eq (h : Alike key s s') : s.get? key = s'.get? key := by
  rw [get?, get?, h.find?_eq]

/-- They answer the same to a read, -/
theorem read_eq (h : Alike key s s') : s.read key = s'.read key := by
  rw [read, read, h.unavailable_eq, h.get?_eq]

theorem put (h : Alike key s s') (entry : Entry) : Alike key (s.put key entry) (s'.put key entry) :=
  ⟨by rw [find?_put_self, find?_put_self], h.unavailable_eq, h.failingWrites_eq⟩

theorem apply {c : Command} (h : Alike c.key s s') :
    (s.apply c).1 = (s'.apply c).1 ∧ Alike c.key (s.apply c).2 (s'.apply c).2 := by
  cases c with
  | set key value =>
    have hversion : s.version? key = s'.version? key := h.version?_eq
    simp only [Store.apply, hversion]
    exact ⟨trivial, h.put _⟩
  | compareAndSwap key expected value =>
    have hversion : s.version? key = s'.version? key := h.version?_eq
    have hentry : s.get? key = s'.get? key := h.get?_eq
    simp only [Store.apply, hversion, hentry]
    split
    · exact ⟨rfl, h.put _⟩
    · exact ⟨rfl, h⟩
  | delete key =>
    refine ⟨rfl, ?_, h.unavailable_eq, h.failingWrites_eq⟩
    exact (find?_erase _ _ _).trans ((if_pos rfl).trans
      ((find?_erase _ _ _).trans (if_pos rfl)).symm)

/-- and to a write, after which they still look alike. -/
theorem write {c : Command} (h : Alike c.key s s') :
    (s.write c).1 = (s'.write c).1 ∧ Alike c.key (s.write c).2 (s'.write c).2 := by
  cases hout : s.unavailable with
  | true =>
    rw [write_of_unavailable hout, write_of_unavailable (h.unavailable_eq ▸ hout)]
    exact ⟨rfl, h⟩
  | false =>
    have hout' : s'.unavailable = false := h.unavailable_eq ▸ hout
    by_cases harmed : s.failingWrites = 0
    · have hs : s.Faultless := ⟨hout, harmed⟩
      have hs' : s'.Faultless := ⟨hout', h.failingWrites_eq ▸ harmed⟩
      rw [hs.write_eq, hs'.write_eq]
      cases validate c with
      | error e => exact ⟨rfl, h⟩
      | ok u => exact h.apply
    · rw [write_of_armed hout harmed, write_of_armed hout' (h.failingWrites_eq ▸ harmed)]
      exact ⟨rfl, h.find?_eq, h.unavailable_eq, congrArg (· - 1) h.failingWrites_eq⟩

end Alike

/-- Whether the next write uses up an armed refusal. -/
def refuses (s : Store) : Bool := !s.unavailable && s.failingWrites != 0

/-- The faults that are armed now, or one refusal fewer. -/
theorem faults_write (s : Store) (c : Command) :
    (s.write c).2.unavailable = s.unavailable ∧
      (s.write c).2.failingWrites = if s.refuses then s.failingWrites - 1 else s.failingWrites := by
  cases hout : s.unavailable with
  | true =>
    rw [write_of_unavailable hout]
    simp [refuses, hout]
  | false =>
    by_cases harmed : s.failingWrites = 0
    · have hs : s.Faultless := ⟨hout, harmed⟩
      obtain ⟨-, -, hout', harmed'⟩ := hs.write_ne c
      simp [refuses, hout, harmed, hout', harmed']
    · rw [write_of_armed hout harmed]
      simp [refuses, hout, harmed]

end Store

namespace Lease

/-! ## Keys of addresses -/

/-- **One address runs into another**: the other's namespace goes on, after a
slash, with what the name of this one begins with. -/
def Address.RunsInto (a b : Address) : Prop :=
  ∃ middle, b.namespaceName = a.namespaceName ++ "/" ++ middle ∧ a.name = middle ++ "/" ++ b.name

/-- The places at which a text can be parted by a slash. -/
theorem append_slash_eq {before after before' after' : List Char}
    (h : before ++ '/' :: after = before' ++ '/' :: after') :
    (before = before' ∧ after = after') ∨
    (∃ middle, before' = before ++ '/' :: middle ∧ after = middle ++ '/' :: after') ∨
    ∃ middle, before = before' ++ '/' :: middle ∧ after' = middle ++ '/' :: after := by
  obtain ⟨between, rfl, hafter⟩ | ⟨between, rfl, hafter⟩ := List.append_eq_append_iff.1 h
  · cases between with
    | nil => exact .inl ⟨(List.append_nil _).symm, (List.cons.inj hafter).2⟩
    | cons c middle =>
      obtain ⟨rfl, rfl⟩ := List.cons.inj hafter
      exact .inr (.inl ⟨middle, rfl, rfl⟩)
  · cases between with
    | nil => exact .inl ⟨List.append_nil _, (List.cons.inj hafter).2.symm⟩
    | cons c middle =>
      obtain ⟨rfl, rfl⟩ := List.cons.inj hafter
      exact .inr (.inr ⟨middle, rfl, rfl⟩)

theorem Address.toList_key (a : Address) :
    a.key.toList = "__lease:".toList ++ (a.namespaceName.toList ++ '/' :: a.name.toList) := by
  simp [key, Lease.key]

/-- Runs into, of the characters. -/
theorem Address.runsInto_iff {a b : Address} :
    a.RunsInto b ↔ ∃ middle, b.namespaceName.toList = a.namespaceName.toList ++ '/' :: middle ∧
      a.name.toList = middle ++ '/' :: b.name.toList := by
  constructor
  · rintro ⟨middle, hnamespace, hname⟩
    exact ⟨middle.toList, by simp [hnamespace], by simp [hname]⟩
  · rintro ⟨middle, hnamespace, hname⟩
    exact ⟨String.ofList middle, String.toList_inj.1 (by simp [hnamespace]),
      String.toList_inj.1 (by simp [hname])⟩

/-- **Which leases are stored under one key**: those of one address, and
those of two addresses of which one runs into the other. -/
theorem Address.key_eq_iff {a b : Address} :
    a.key = b.key ↔ a = b ∨ a.RunsInto b ∨ b.RunsInto a := by
  rw [← String.toList_inj, toList_key, toList_key, List.append_cancel_left_eq, runsInto_iff,
    runsInto_iff]
  constructor
  · intro h
    refine (append_slash_eq h).imp_left ?_
    rintro ⟨hnamespace, hname⟩
    cases a
    cases b
    rw [String.toList_inj] at hnamespace hname
    exact congrArg₂ Address.mk hnamespace hname
  · rintro (rfl | ⟨middle, hnamespace, hname⟩ | ⟨middle, hnamespace, hname⟩)
    · rfl
    · simp [hnamespace, hname]
    · simp [hnamespace, hname]

/-- Namespaces without slashes run into nothing. -/
theorem Address.not_runsInto_of_noSlash {a b : Address} (h : '/' ∉ b.namespaceName.toList) :
    ¬ a.RunsInto b := by
  rintro ⟨middle, hnamespace, -⟩
  rw [hnamespace] at h
  simp at h

/-! ## Addresses of replicas -/

/-- The call by which a replica of this configuration acquires its lease. -/
def Caller.ofConfig (c : Config) : Caller where
  address := ⟨c.leaseNamespace, c.leaseName⟩
  duration := c.leaseDuration
  identity := c.identity
  request := .acquire

/-- The default settings for another replica and another lease. -/
def Address.config (a : Address) (identity : String) : Config :=
  { Config.default with
    identity := identity, leaseNamespace := a.namespaceName, leaseName := a.name }

/-- Names are valid if they are not blank, whichever characters they have. -/
theorem Address.validate_config {a : Address} {identity : String}
    (hidentity : Text.isBlankText identity = false) (hname : Text.isBlankText a.name = false)
    (hnamespace : Text.isBlankText a.namespaceName = false) :
    (a.config identity).validate = .ok () := by
  have hdash : Text.isBlankText "-" = false := rfl
  have hvalid : (config ⟨"-", "-"⟩ "-").validate = .ok () := rfl
  rw [← hvalid]
  unfold Config.validate
  simp only [config, hidentity, hname, hnamespace, hdash]
  rfl

/-- Two replicas, `x` at the one address and `y` at the other. -/
def Address.pair (a b : Address) (i : Bool) : Caller :=
  .ofConfig (if i then a.config "x" else b.config "y")

/-! ## The calls without the others -/

/-- Whether an act is made for this lease. Faults are armed for all. -/
def Act.isOf {ι : Type} (caller : ι → Caller) (a : Address) : Act ι → Bool
  | .arm _ _ => true
  | .read i _ => (caller i).address = a
  | .swap i => (caller i).address = a

namespace Interleaving

variable {ι : Type} [DecidableEq ι] {caller : ι → Caller} {a : Address} {w w' : Interleaving ι}

/-- Whether an act uses up an armed refusal. -/
def spends (w : Interleaving ι) : Act ι → Bool
  | .swap i => (w.pending i).isSome && w.store.refuses
  | _ => false

/-- **The acts without those for other leases.** Where one of these has used up
an armed refusal, one fewer is armed from there on. -/
def alone (caller : ι → Caller) (a : Address) (w : Interleaving ι) : List (Act ι) → List (Act ι)
  | [] => []
  | act :: acts =>
    (if act.isOf caller a then [act]
      else if w.spends act then [.arm w.store.unavailable (w.store.failingWrites - 1)]
      else []) ++ alone caller a (w.step caller act).2 acts

/-- **Two moments look alike from a lease**: the store does, and the calls on
this lease have come equally far. -/
structure Alike (caller : ι → Caller) (a : Address) (w w' : Interleaving ι) : Prop where
  store : w.store.Alike a.key w'.store
  pending_eq : ∀ i, (caller i).address = a → w.pending i = w'.pending i

omit [DecidableEq ι] in
theorem Alike.refl (caller : ι → Caller) (a : Address) (w : Interleaving ι) : Alike caller a w w :=
  ⟨.refl _ _, fun _ _ => rfl⟩

theorem Alike.setPending (h : Alike caller a w w') (i : ι)
    (swap : Option (Option UInt64 × Record)) :
    Alike caller a (w.setPending i swap) (w'.setPending i swap) := by
  refine ⟨h.store, fun j hj => ?_⟩
  by_cases hji : j = i
  · subst hji
    rw [pending_setPending_self, pending_setPending_self]
  · rw [pending_setPending_of_ne _ hji, pending_setPending_of_ne _ hji]
    exact h.pending_eq j hj

/-- **An act for a lease** goes alike at moments that look alike from it. -/
theorem Alike.step (h : Alike caller a w w') {act : Act ι} (hact : act.isOf caller a) :
    (w.step caller act).1 = (w'.step caller act).1 ∧
      Alike caller a (w.step caller act).2 (w'.step caller act).2 := by
  cases act with
  | arm unavailable failingWrites => exact ⟨rfl, ⟨h.store.find?_eq, rfl, rfl⟩, h.pending_eq⟩
  | read i now =>
    have hi : (caller i).address = a := of_decide_eq_true hact
    have hread : w.store.read (caller i).lock.key = w'.store.read (caller i).lock.key := by
      rw [Caller.key_lock, hi, h.store.read_eq]
    cases hdecision : ((caller i).operation.onRead now (w.store.read (caller i).lock.key)).1 with
    | done result =>
      rw [step_read_of_done hdecision, step_read_of_done (hread ▸ hdecision)]
      exact ⟨rfl, h.setPending i none⟩
    | swap expected record =>
      rw [step_read_of_swap hdecision, step_read_of_swap (hread ▸ hdecision)]
      exact ⟨rfl, h.setPending i _⟩
  | swap i =>
    have hi : (caller i).address = a := of_decide_eq_true hact
    cases hpending : w.pending i with
    | none =>
      rw [step_swap_of_none hpending, step_swap_of_none (h.pending_eq i hi ▸ hpending)]
      exact ⟨rfl, h⟩
    | some swap =>
      obtain ⟨expected, record⟩ := swap
      have hcommand : ((caller i).lock.swapCommand expected record).key = a.key := by
        rw [← hi]
        rfl
      obtain ⟨hanswer, hstore⟩ := Store.Alike.write (hcommand ▸ h.store)
      rw [step_swap_of_some hpending, step_swap_of_some (h.pending_eq i hi ▸ hpending), hanswer]
      have hlater : Alike caller a
          { w with store := (w.store.write ((caller i).lock.swapCommand expected record)).2 }
          { w' with store := (w'.store.write ((caller i).lock.swapCommand expected record)).2 } :=
        ⟨hcommand ▸ hstore, h.pending_eq⟩
      exact ⟨rfl, hlater.setPending i none⟩

/-- What others decide on does not count. -/
theorem Alike.setPending_left (h : Alike caller a w w') {i : ι} (hi : (caller i).address ≠ a)
    (swap : Option (Option UInt64 × Record)) : Alike caller a (w.setPending i swap) w' := by
  refine ⟨h.store, fun j hj => ?_⟩
  have hji : j ≠ i := fun hji => hi (hji ▸ hj)
  rw [pending_setPending_of_ne _ hji]
  exact h.pending_eq j hj

/-- **An act for another lease** is as good as none, but that it may use up a
refusal. -/
theorem Alike.step_other (h : Alike caller a w w') {act : Act ι} (hact : ¬ act.isOf caller a)
    (hisolated : ∀ i, (caller i).address ≠ a → (caller i).address.key ≠ a.key) :
    Alike caller a (w.step caller act).2
      (if w.spends act then
        (w'.step caller (.arm w.store.unavailable (w.store.failingWrites - 1))).2 else w') := by
  cases act with
  | arm unavailable failingWrites => exact absurd rfl hact
  | read i now =>
    have hi : (caller i).address ≠ a := fun hi => hact (decide_eq_true hi)
    cases hdecision : ((caller i).operation.onRead now (w.store.read (caller i).lock.key)).1 with
    | done result =>
      rw [step_read_of_done hdecision]
      exact h.setPending_left hi none
    | swap expected record =>
      rw [step_read_of_swap hdecision]
      exact h.setPending_left hi _
  | swap i =>
    have hi : (caller i).address ≠ a := fun hi => hact (decide_eq_true hi)
    cases hpending : w.pending i with
    | none =>
      rw [step_swap_of_none hpending, spends, hpending]
      exact h
    | some swap =>
      obtain ⟨expected, record⟩ := swap
      have hcommand : a.key ≠ ((caller i).lock.swapCommand expected record).key :=
        (hisolated i hi).symm
      have hentry := (w.store.find?_write_of_ne hcommand).trans h.store.find?_eq
      obtain ⟨hunavailable, hfailing⟩ :=
        w.store.faults_write ((caller i).lock.swapCommand expected record)
      rw [step_swap_of_some hpending, spends, hpending, Option.isSome_some, Bool.true_and]
      refine Alike.setPending_left ?_ hi none
      cases hrefuses : w.store.refuses with
      | true =>
        rw [hrefuses] at hfailing
        exact ⟨⟨hentry, hunavailable, hfailing⟩, h.pending_eq⟩
      | false =>
        rw [hrefuses] at hfailing
        exact ⟨⟨hentry, hunavailable.trans h.store.unavailable_eq,
          hfailing.trans h.store.failingWrites_eq⟩, h.pending_eq⟩

/-- What the calls on a lease are told. -/
def answersOf (caller : ι → Caller) (a : Address) (w : Interleaving ι) (acts : List (Act ι)) :
    List (ι × Except Error Outcome) :=
  (w.answers caller acts).filter fun e => (caller e.1).address = a

/-- An act answers nobody but the call that it belongs to. -/
theorem isOf_of_answered {i : ι} {act : Act ι} {result : Except Error Outcome}
    (h : (w.step caller act).1 = some (i, result)) :
    act.isOf caller a = decide ((caller i).address = a) := by
  cases act with
  | arm unavailable failingWrites => contradiction
  | read j now =>
    have hj : j = i := by
      simp only [step] at h
      split at h
      · exact (Prod.mk.inj (Option.some.inj h)).1
      · contradiction
    rw [hj, Act.isOf]
  | swap j =>
    have hj : j = i := by
      simp only [step] at h
      split at h
      · contradiction
      · exact (Prod.mk.inj (Option.some.inj h)).1
    rw [hj, Act.isOf]

theorem answersOf_cons (w : Interleaving ι) (act : Act ι) (acts : List (Act ι)) :
    w.answersOf caller a (act :: acts)
      = (if act.isOf caller a then (w.step caller act).1.toList else [])
        ++ (w.step caller act).2.answersOf caller a acts := by
  rw [answersOf, answers_cons, List.filter_append]
  congr 1
  cases hanswer : (w.step caller act).1 with
  | none => simp
  | some answer =>
    obtain ⟨i, result⟩ := answer
    rw [isOf_of_answered hanswer]
    by_cases hi : (caller i).address = a <;> simp [hi]

/-- **Any acts**: what the calls on a lease are told, and how it looks from
there, is as if only the acts for it had taken place. -/
theorem Alike.run (h : Alike caller a w w')
    (hisolated : ∀ i, (caller i).address ≠ a → (caller i).address.key ≠ a.key)
    (acts : List (Act ι)) :
    w.answersOf caller a acts = w'.answers caller (w.alone caller a acts) ∧
      Alike caller a (w.after caller acts) (w'.after caller (w.alone caller a acts)) := by
  induction acts generalizing w w' with
  | nil => exact ⟨rfl, h⟩
  | cons act acts ih =>
    rw [answersOf_cons, alone, after_cons]
    by_cases hact : act.isOf caller a
    · obtain ⟨hanswer, hstep⟩ := h.step hact
      obtain ⟨hanswers, hafter⟩ := ih hstep
      rw [if_pos hact, if_pos hact, List.singleton_append, answers_cons, after_cons, hanswer,
        hanswers]
      exact ⟨rfl, hafter⟩
    · have hstep := h.step_other hact hisolated
      rw [if_neg hact, if_neg hact, List.nil_append]
      cases hspends : w.spends act with
      | true =>
        rw [hspends] at hstep
        exact ih hstep
      | false =>
        rw [hspends] at hstep
        exact ih hstep

/-- No refusal is armed by an act unless it says so. -/
theorem failingWrites_step {act : Act ι} (h : w.store.failingWrites = 0)
    (hact : ∀ unavailable count, act = .arm unavailable count → count = 0) :
    (w.step caller act).2.store.failingWrites = 0 := by
  cases act with
  | arm unavailable count => exact hact unavailable count rfl
  | read i now =>
    simp only [step]
    split
    · exact h
    · exact h
  | swap i =>
    simp only [step]
    split
    · exact h
    · rename_i expected record hpending
      refine ((w.store.faults_write ((caller i).lock.swapCommand expected record)).2).trans ?_
      simp [Store.refuses, h]

/-- Where no refusals are armed, others use up none. -/
theorem alone_eq_filter (h : w.store.failingWrites = 0) {acts : List (Act ι)}
    (hacts : ∀ unavailable count, .arm unavailable count ∈ acts → count = 0) :
    w.alone caller a acts = acts.filter (Act.isOf caller a) := by
  induction acts generalizing w with
  | nil => rfl
  | cons act acts ih =>
    have hstep : (w.step caller act).2.store.failingWrites = 0 :=
      failingWrites_step h fun unavailable count hact =>
        hacts unavailable count (hact ▸ List.mem_cons_self)
    have hlater := ih hstep fun unavailable count hmem =>
      hacts unavailable count (List.mem_cons_of_mem act hmem)
    rw [alone, hlater]
    by_cases hact : act.isOf caller a
    · rw [if_pos hact, List.filter_cons_of_pos hact]
      rfl
    · have hspends : w.spends act = false := by
        cases act with
        | arm unavailable count => rfl
        | read i now => rfl
        | swap i => simp [spends, Store.refuses, h]
      rw [if_neg hact, List.filter_cons_of_neg hact, hspends]
      rfl

/-! ## Leases and their neighbours -/

/-- **The calls on other leases make no difference** to a lease and to the
calls on it. -/
structure Isolated (caller : ι → Caller) (a : Address) : Prop where
  /-- They leave its entry alone. -/
  untouched : ∀ (w : Interleaving ι) (act : Act ι), ¬ act.isOf caller a →
    (w.step caller act).2.store.find? a.key = w.store.find? a.key
  /-- The calls on it are told what they would be told without the others, -/
  answers : ∀ (w : Interleaving ι) (acts : List (Act ι)),
    w.answersOf caller a acts = w.answers caller (w.alone caller a acts)
  /-- and the entry is the one that there would be. -/
  stored : ∀ (w : Interleaving ι) (acts : List (Act ι)),
    (w.after caller acts).store.find? a.key
      = (w.after caller (w.alone caller a acts)).store.find? a.key
  /-- If no refusals are armed, nothing at all is left of the others. -/
  nothing_left : ∀ (w : Interleaving ι) (acts : List (Act ι)), w.store.failingWrites = 0 →
    (∀ unavailable count, .arm unavailable count ∈ acts → count = 0) →
    w.alone caller a acts = acts.filter (Act.isOf caller a)

/-- **Leases keep apart**, whoever calls on them and in whichever order, unless
the address of one runs into that of the other. -/
theorem isolated_of_not_runsInto (caller : ι → Caller) (a : Address)
    (hisolated : ∀ i, (caller i).address ≠ a →
      ¬ (caller i).address.RunsInto a ∧ ¬ a.RunsInto (caller i).address) :
    Isolated caller a := by
  have hkey : ∀ i, (caller i).address ≠ a → (caller i).address.key ≠ a.key := by
    intro i hi hkey
    obtain hsame | hinto | hinto := Address.key_eq_iff.1 hkey
    · exact hi hsame
    · exact (hisolated i hi).1 hinto
    · exact (hisolated i hi).2 hinto
  refine ⟨fun w act hact => ?_, fun w acts => ?_, fun w acts => ?_, fun w acts => ?_⟩
  · have hstep := (Alike.refl caller a w).step_other hact hkey
    rw [hstep.store.find?_eq]
    split
    · rfl
    · rfl
  · exact ((Alike.refl caller a w).run hkey acts).1
  · exact ((Alike.refl caller a w).run hkey acts).2.store.find?_eq
  · exact fun h hacts => alone_eq_filter h hacts

/-- Two replicas acquire two leases of one namespace. The one whose acts lie
between those of the other makes no difference to it. -/
theorem isolated_side_by_side :
    let a : Address := ⟨"ns", "one"⟩
    let b : Address := ⟨"ns", "two"⟩
    let w : Interleaving Bool := ⟨.empty, fun _ => none⟩
    (a.config "x").validate = .ok () ∧ (b.config "y").validate = .ok () ∧
      w.answersOf (a.pair b) b [.read false 5, .read true 0, .swap true, .swap false]
        = [(false, .ok (.acquired (.acquired ⟨1⟩ 15005)))] := by
  intro a b w
  have hnamespace : ∀ i, '/' ∉ (a.pair b i).address.namespaceName.toList := by decide
  have h : Isolated (a.pair b) b :=
    isolated_of_not_runsInto (a.pair b) b fun i _ =>
      ⟨Address.not_runsInto_of_noSlash (hnamespace false),
        Address.not_runsInto_of_noSlash (hnamespace i)⟩
  refine ⟨Address.validate_config (by decide) (by decide) (by decide),
    Address.validate_config (by decide) (by decide) (by decide), ?_⟩
  rw [h.answers, h.nothing_left w _ rfl fun unavailable count hmem => by simp at hmem]
  decide +kernel

/-- **Two leases under one key are one lease**: the first call acquires it, and
the other is told that the lease has a holder. -/
theorem answers_of_key_eq {ι : Type} [DecidableEq ι] (caller : ι → Caller) (w : Interleaving ι)
    (i j : ι) (now later : UInt64) (hkey : (caller i).address.key = (caller j).address.key)
    (hi : (caller i).request = .acquire) (hj : (caller j).request = .acquire)
    (habsent : w.store.find? (caller i).address.key = none)
    (haccepts : w.store.Accepts (caller i).address.key
      (Record.acquired (caller i).identity 1 (caller i).duration now).text)
    (hother : ¬ (Record.acquired (caller i).identity 1 (caller i).duration now).isFreeFor
      (caller j).identity later) :
    w.answers caller [.read i now, .swap i, .read j later, .swap j]
      = [(i, .ok (.acquired (.acquired ⟨1⟩ (Saturating.add now (caller i).duration)))),
        (j, .ok (.acquired (.heldByOther (caller i).identity
          (Saturating.add now (caller i).duration))))] := by
  let record : Record := .acquired (caller i).identity 1 (caller i).duration now
  let taken : Store := w.store.put (caller i).address.key
    ⟨record.text, Store.nextVersion (w.store.version? (caller i).address.key)⟩
  obtain ⟨hfirst, hafter⟩ := answers_call caller w i now
  have hperform : (caller i).operation.perform (caller i).lock now w.store
      = (.ok (.acquired (.acquired ⟨record.term⟩ record.deadline)), taken) :=
    (Caller.follows_of_acquire hi now).perform_of_accepts (.nothing habsent) rfl haccepts
  rw [hperform] at hfirst hafter
  have hentry : taken.find? (caller j).lock.key = some ⟨record.text,
      Store.nextVersion (w.store.version? (caller i).address.key)⟩ := by
    rw [Caller.key_lock, ← hkey]
    exact Store.find?_put_self _ _ _
  have hdecode : (caller j).lock.decode record.text = .ok record := Lock.decode_text _ rfl
  have havailable : taken.unavailable = false := haccepts.1.1
  have hsecond : (caller j).operation.perform (caller j).lock later taken
      = (.ok (.acquired (.heldByOther record.holder record.deadline)), taken) :=
    (Caller.follows_of_acquire hj later).perform_of_declined havailable (.record hentry hdecode)
      (Lock.acquireRule_write_eq_none_iff.2 ⟨record, rfl, hother⟩)
  refine (answers_append w [.read i now, .swap i] [.read j later, .swap j]).trans ?_
  rw [hfirst, (answers_call caller _ j later).1, hafter, hsecond]
  rfl

/-- **Leases that do not keep apart.** Of two valid addresses one runs into the
other, and the second replica meets the first as the holder of its lease. Two
others share an armed refusal, and the second replica acquires its lease just
because the first has used that up. -/
theorem answers_depend_on_others :
    let w : UInt32 → Interleaving Bool := fun count =>
      ⟨Store.empty.failNextWrites count, fun _ => none⟩
    let a : Address := ⟨"a/b", "c"⟩
    let b : Address := ⟨"a", "b/c"⟩
    let c : Address := ⟨"a", "c"⟩
    (a ≠ b ∧ (a.config "x").validate = .ok () ∧ (b.config "y").validate = .ok () ∧
      (w 0).answersOf (a.pair b) b [.read true 0, .swap true, .read false 5, .swap false]
        = [(false, .ok (.acquired (.heldByOther "x" 15000)))] ∧
      (w 0).answersOf (a.pair b) b [.read false 5, .swap false]
        = [(false, .ok (.acquired (.acquired ⟨1⟩ 15005)))]) ∧
    (a ≠ c ∧ (c.config "y").validate = .ok () ∧
      (w 1).answersOf (a.pair c) c [.read true 0, .swap true, .read false 5, .swap false]
        = [(false, .ok (.acquired (.acquired ⟨1⟩ 15005)))] ∧
      (w 1).answersOf (a.pair c) c [.read false 5, .swap false]
        = [(false, .error (.storage c.key (.unavailable "injected write failure")))]) := by
  intro w a b c
  have hvalid : ∀ address ∈ [a, b, c], ∀ identity ∈ ["x", "y"],
      (address.config identity).validate = .ok () := by
    intro address haddress identity hidentity
    refine Address.validate_config ?_ ?_ ?_
    · revert identity
      decide
    · revert address
      decide
    · revert address
      decide
  have hanswers := answers_of_key_eq (a.pair b) (w 0) true false 0 5 (by decide) rfl rfl rfl
    (by decide +kernel) (by decide)
  refine ⟨⟨by decide, hvalid a (by decide) "x" (by decide), hvalid b (by decide) "y" (by decide),
    ?_, by decide +kernel⟩, by decide, hvalid c (by decide) "y" (by decide), by decide +kernel,
    by decide +kernel⟩
  rw [answersOf, hanswers]
  decide

end Interleaving

end Lease

end Tenure
