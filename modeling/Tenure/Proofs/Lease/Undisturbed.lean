import Tenure.Proofs.Lease.Rule

/-!
# Calls that nobody disturbs

What a call on a lease answers, and what it leaves in the store, if nobody
else writes while it runs. Three things decide: what the lock finds under
its key, whether the record lets the caller do what it asks for, and whether
the store accepts the new record.

A call writes at most once, and only with the outcome that says so. Whatever
else it answers, the entries are those that it found.
-/

namespace Tenure.Lease

open Store (nextVersion)

variable {l : Lock} {s : Store} {identity : String} {now : UInt64}

/-- **What the three operations answer, and what they leave behind**, if
nobody else writes meanwhile. -/
structure Undisturbed (l : Lock) (identity : String) (term : Term) (now : UInt64) (s : Store) :
    Prop where
  /-- The lease is acquired if there is none, or one that is given back,
  expired or the caller's own, and the new record is accepted. -/
  acquires : ∀ t d, ((l.acquire identity).perform l now s).1 = .ok (.acquired t d) ↔
    ∃ found, l.Finds s found ∧ (∀ r, found = some r → r.isFreeFor identity now) ∧
      s.Accepts l.key (l.nextRecord identity now found).text ∧
      t = ⟨nextTerm (found.map (·.term))⟩ ∧ d = Saturating.add now l.duration
  /-- Then the new record is the next one, the caller's from now on. -/
  acquired : ∀ found t d, l.Finds s found →
    ((l.acquire identity).perform l now s).1 = .ok (.acquired t d) →
    ((l.acquire identity).perform l now s).2 = s.put l.key
      ⟨(Record.acquired identity (nextTerm (found.map (·.term))) l.duration now).text,
        nextVersion (s.version? l.key)⟩
  /-- The holder is named if the store answers, and what it reports is the
  record of another. -/
  heldByOther : ∀ h d, ((l.acquire identity).perform l now s).1 = .ok (.heldByOther h d) ↔
    s.unavailable = false ∧ ∃ r, l.Finds s (some r) ∧ ¬ r.isFreeFor identity now ∧
      h = r.holder ∧ d = r.deadline
  notAcquired : (∀ t d, ((l.acquire identity).perform l now s).1 ≠ .ok (.acquired t d)) →
    ((l.acquire identity).perform l now s).2.entries = s.entries
  /-- The lease is renewed if it is the caller's, in this term and not
  expired, and the new record is accepted. -/
  renews : ∀ d, ((l.renew identity term).perform l now s).1 = .ok (.renewed d) ↔
    ∃ r, l.Finds s (some r) ∧ r.isHeldBy identity term = true ∧ r.isExpiredAt now = false ∧
      s.Accepts l.key (r.renewed now).text ∧ d = Saturating.add now r.duration
  /-- Then nothing but the moment of renewal and the deadline changes. -/
  renewed : ∀ r d, l.Finds s (some r) →
    ((l.renew identity term).perform l now s).1 = .ok (.renewed d) →
    ((l.renew identity term).perform l now s).2 = s.put l.key
      ⟨{ r with renewedAt := now, deadline := d }.text, nextVersion (s.version? l.key)⟩
  notRenewed : (∀ d, ((l.renew identity term).perform l now s).1 ≠ .ok (.renewed d)) →
    ((l.renew identity term).perform l now s).2.entries = s.entries
  /-- The lease is given back if it is the caller's, in this term, and the
  new record is accepted. -/
  releases : ((l.release identity term).perform l now s).1 = .ok .released ↔
    ∃ r, l.Finds s (some r) ∧ r.isHeldBy identity term = true ∧
      s.Accepts l.key r.released.text
  /-- Then nothing but the holder and the deadline changes. -/
  released : ∀ r, l.Finds s (some r) →
    ((l.release identity term).perform l now s).1 = .ok .released →
    ((l.release identity term).perform l now s).2 = s.put l.key
      ⟨{ r with holder := "", deadline := 0 }.text, nextVersion (s.version? l.key)⟩
  notReleased : ((l.release identity term).perform l now s).1 ≠ .ok .released →
    ((l.release identity term).perform l now s).2.entries = s.entries
  /-- There is nothing to give back a second time, whatever faults are armed
  in between; only an outage keeps the caller from being told. -/
  again : ((l.release identity term).perform l now s).1 = .ok .released →
    ∀ unavailable failingWrites later,
      let s' := (((l.release identity term).perform l now s).2.setUnavailable
        unavailable).failNextWrites failingWrites
      (l.release identity term).perform l later s' =
        (if unavailable then .error (.storage l.key (.unavailable "injected outage"))
          else .ok .alreadyReleased, s')

section Operations

variable {term : Term}

theorem Lock.acquire_eq_acquired_iff (t : Term) (d : UInt64) :
    ((l.acquire identity).perform l now s).1 = .ok (.acquired t d) ↔
      ∃ found, l.Finds s found ∧ (∀ r, found = some r → r.isFreeFor identity now) ∧
        s.Accepts l.key (l.nextRecord identity now found).text ∧
        t = ⟨nextTerm (found.map (·.term))⟩ ∧ d = Saturating.add now l.duration := by
  rw [(l.acquire_follows identity now).perform_eq_written_iff fun found h => by
    cases found <;> contradiction]
  constructor
  · rintro ⟨found, record, hfinds, hwrite, haccepts, hwritten⟩
    obtain ⟨hfree, rfl⟩ := acquireRule_write_eq_some_iff.1 hwrite
    obtain ⟨rfl, rfl⟩ := AcquireOutcome.acquired.inj hwritten
    exact ⟨found, hfinds, hfree, haccepts, rfl, rfl⟩
  · rintro ⟨found, hfinds, hfree, haccepts, rfl, rfl⟩
    exact ⟨found, _, hfinds, acquireRule_write_eq_some_iff.2 ⟨hfree, rfl⟩, haccepts, rfl⟩

theorem Lock.acquire_of_acquired {found : Option Record} {t : Term} {d : UInt64}
    (hfinds : l.Finds s found)
    (hok : ((l.acquire identity).perform l now s).1 = .ok (.acquired t d)) :
    ((l.acquire identity).perform l now s).2 = s.put l.key
      ⟨(l.nextRecord identity now found).text, nextVersion (s.version? l.key)⟩ := by
  obtain ⟨found', record, hfinds', hwrite, -, -, hstored⟩ :=
    (l.acquire_follows identity now).perform_of_written
      (fun found h => by cases found <;> contradiction) hok
  obtain rfl := hfinds.unique hfinds'
  obtain ⟨-, rfl⟩ := acquireRule_write_eq_some_iff.1 hwrite
  exact hstored

theorem Lock.acquire_eq_heldByOther_iff (h : String) (d : UInt64) :
    ((l.acquire identity).perform l now s).1 = .ok (.heldByOther h d) ↔
      s.unavailable = false ∧ ∃ r, l.Finds s (some r) ∧ ¬ r.isFreeFor identity now ∧
        h = r.holder ∧ d = r.deadline := by
  rw [(l.acquire_follows identity now).perform_eq_declined_iff fun record h => by contradiction]
  refine and_congr_right fun havailable => ?_
  constructor
  · rintro ⟨found, hfinds, hwrite, hdeclined⟩
    obtain ⟨r, rfl, hother⟩ := acquireRule_write_eq_none_iff.1 hwrite
    obtain ⟨rfl, rfl⟩ := AcquireOutcome.heldByOther.inj hdeclined
    exact ⟨r, hfinds, hother, rfl, rfl⟩
  · rintro ⟨r, hfinds, hother, rfl, rfl⟩
    exact ⟨some r, hfinds, acquireRule_write_eq_none_iff.2 ⟨r, rfl, hother⟩, rfl⟩

theorem Lock.renew_eq_renewed_iff (d : UInt64) :
    ((l.renew identity term).perform l now s).1 = .ok (.renewed d) ↔
      ∃ r, l.Finds s (some r) ∧ r.isHeldBy identity term = true ∧ r.isExpiredAt now = false ∧
        s.Accepts l.key (r.renewed now).text ∧ d = Saturating.add now r.duration := by
  rw [(l.renew_follows identity term now).perform_eq_written_iff fun found h => by contradiction]
  constructor
  · rintro ⟨found, record, hfinds, hwrite, haccepts, hwritten⟩
    obtain ⟨r, rfl, hheld, halive, rfl⟩ := renewRule_write_eq_some_iff.1 hwrite
    obtain rfl := RenewOutcome.renewed.inj hwritten
    exact ⟨r, hfinds, hheld, halive, haccepts, rfl⟩
  · rintro ⟨r, hfinds, hheld, halive, haccepts, rfl⟩
    exact ⟨some r, _, hfinds, renewRule_write_eq_some_iff.2 ⟨r, rfl, hheld, halive, rfl⟩,
      haccepts, rfl⟩

theorem Lock.renew_of_renewed {r : Record} {d : UInt64} (hfinds : l.Finds s (some r))
    (hok : ((l.renew identity term).perform l now s).1 = .ok (.renewed d)) :
    ((l.renew identity term).perform l now s).2 = s.put l.key
      ⟨{ r with renewedAt := now, deadline := d }.text, nextVersion (s.version? l.key)⟩ := by
  obtain ⟨found, record, hfinds', hwrite, -, hwritten, hstored⟩ :=
    (l.renew_follows identity term now).perform_of_written (fun found h => by contradiction) hok
  obtain rfl := hfinds.unique hfinds'
  obtain ⟨r', hr, -, -, rfl⟩ := renewRule_write_eq_some_iff.1 hwrite
  obtain rfl := Option.some.inj hr
  obtain rfl := RenewOutcome.renewed.inj hwritten
  exact hstored

theorem Lock.release_eq_released_iff :
    ((l.release identity term).perform l now s).1 = .ok .released ↔
      ∃ r, l.Finds s (some r) ∧ r.isHeldBy identity term = true ∧
        s.Accepts l.key r.released.text := by
  rw [(l.release_follows identity term now).perform_eq_written_iff fun found h => by contradiction]
  constructor
  · rintro ⟨found, record, hfinds, hwrite, haccepts, -⟩
    obtain ⟨r, rfl, hheld, rfl⟩ := releaseRule_write_eq_some_iff.1 hwrite
    exact ⟨r, hfinds, hheld, haccepts⟩
  · rintro ⟨r, hfinds, hheld, haccepts⟩
    exact ⟨some r, _, hfinds, releaseRule_write_eq_some_iff.2 ⟨r, rfl, hheld, rfl⟩, haccepts, rfl⟩

theorem Lock.release_of_released {r : Record} (hfinds : l.Finds s (some r))
    (hok : ((l.release identity term).perform l now s).1 = .ok .released) :
    ((l.release identity term).perform l now s).2 = s.put l.key
      ⟨r.released.text, nextVersion (s.version? l.key)⟩ := by
  obtain ⟨found, record, hfinds', hwrite, -, -, hstored⟩ :=
    (l.release_follows identity term now).perform_of_written (fun found h => by contradiction) hok
  obtain rfl := hfinds.unique hfinds'
  obtain ⟨r', hr, -, rfl⟩ := releaseRule_write_eq_some_iff.1 hwrite
  obtain rfl := Option.some.inj hr
  exact hstored

/-- What is given back cannot be given back again. -/
theorem Lock.release_of_isReleased {r : Record} (hfinds : l.Finds s (some r))
    (hreleased : r.isReleased = true) (havailable : s.unavailable = false) :
    (l.release identity term).perform l now s = (.ok .alreadyReleased, s) := by
  refine (l.release_follows identity term now).perform_of_declined havailable hfinds ?_
  show (if r.isHeldBy identity term then some r.released else none) = none
  rw [Record.not_isHeldBy_of_isReleased hreleased]
  rfl

end Operations

/-- **Each operation does what it is for, and nothing else**, whatever is
stored under whichever keys, and whatever faults are armed. -/
theorem Lock.undisturbed (l : Lock) (identity : String) (term : Term) (now : UInt64)
    (s : Store) : Undisturbed l identity term now s where
  acquires := acquire_eq_acquired_iff
  acquired found t d hfinds hok := acquire_of_acquired hfinds hok
  heldByOther := acquire_eq_heldByOther_iff
  notAcquired h := (l.acquire_follows identity now).entries_perform fun record => h _ _
  renews := renew_eq_renewed_iff
  renewed r d hfinds hok := renew_of_renewed hfinds hok
  notRenewed h := (l.renew_follows identity term now).entries_perform fun record => h _
  releases := release_eq_released_iff
  released r hfinds hok := release_of_released hfinds hok
  notReleased h := (l.release_follows identity term now).entries_perform fun record => h
  again hok unavailable failingWrites later := by
    obtain ⟨r, hfinds, -⟩ := release_eq_released_iff.1 hok
    rw [release_of_released hfinds hok]
    cases unavailable with
    | true => exact (l.release_follows identity term later).perform_of_unavailable rfl
    | false =>
      have hput := l.finds_put s (r := r.released) hfinds.schema (nextVersion (s.version? l.key))
      exact release_of_isReleased (hput.of_find?_eq rfl) r.isReleased_released rfl

/-- Who else has the lease is not answered during an outage, though it is
stored and in force. -/
theorem Lock.outage_hides_holder :
    let l : Lock := ⟨"lease", 10⟩
    let theirs := Record.acquired "a" 1 10 0
    let s : Store := { entries := [("lease", ⟨theirs.text, 1⟩)], unavailable := true }
    l.Finds s (some theirs) ∧ ¬ theirs.isFreeFor "b" 5 ∧
      (l.acquire "b").perform l 5 s
        = (.error (.storage "lease" (.unavailable "injected outage")), s) ∧
      ((l.acquire "b").perform l 5 s).1 ≠ .ok (.heldByOther "a" 10) := by
  intro l theirs s
  have hout : (l.acquire "b").perform l 5 s
      = (.error (.storage "lease" (.unavailable "injected outage")), s) :=
    (l.acquire_follows "b" 5).perform_of_unavailable rfl
  refine ⟨.record rfl (l.decode_text rfl), by decide, hout, ?_⟩
  rw [hout]
  exact fun h => by contradiction

end Tenure.Lease
