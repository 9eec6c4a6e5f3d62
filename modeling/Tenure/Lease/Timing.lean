import Tenure.Saturating

/-!
# The timing rules of a lease

A lease is good up to its deadline, both ends included, and a deadline of
zero marks a lease that was given back. Everything here is a function of
numbers alone: the clock reading and, for the spread of retries, the
random value are arguments.

The one rule that keeps a slow leader honest is `renewBudget`: a renewal
may take no longer than what is left of the lease, and nothing at all once
the deadline has been reached.
-/

namespace Tenure.Lease

/-- **Whether a lease no longer protects its holder.** The deadline
belongs to the lease, so it must have been passed. -/
def isExpired (deadline now : UInt64) : Bool := deadline = 0 || deadline < now

/-- The term of the next acquisition: one above the stored term, and 1
where no term is stored. -/
def nextTerm : Option UInt64 → UInt64
  | none => 1
  | some term => Saturating.add term 1

/-- A factor that is not a number, or below zero, spreads nothing. -/
def atLeastZero (x : Float) : Float := if 0.0 < x then x else 0.0

/-- The nearest value between zero and one; what is not a number stays
as it is. -/
def clampToUnit (x : Float) : Float := if x < 0.0 then 0.0 else if 1.0 < x then 1.0 else x

/-- **A delay with jitter**: the base delay and at most `factor` times the
base on top of it, `random` between zero and one saying how much of that. -/
def jitteredDelay (base : UInt64) (factor random : Float) : UInt64 :=
  let range := (base.toFloat * atLeastZero factor).toUInt64
  let jitter := (range.toFloat * clampToUnit random).toUInt64
  Saturating.add base jitter

/-- **The delay after a failed attempt.** The first failure waits `base`,
each further one twice as long up to the 32nd doubling, and none longer
than the larger of `max` and `base`. -/
def backoff (attempt : UInt32) (base max : UInt64) : UInt64 :=
  let factor : UInt64 := 1 <<< (min attempt 32).toUInt64
  min (Saturating.mul base factor) (if max < base then base else max)

/-- Whether renewing this often leaves time for another try before the
lease runs out. -/
def isRenewIntervalSafe (interval duration : UInt64) : Bool := 0 < interval && interval < duration

/-- **How long a renewal may take**: what is left until the deadline, at
most one interval, and `none` once the deadline is no longer ahead. -/
def renewBudget (deadline now interval : UInt64) : Option UInt64 :=
  let remaining := Saturating.sub deadline now
  if remaining = 0 then none else some (min remaining interval)

/-- A renewal that is given time has no more of it than the lease, and no
more than an interval. -/
theorem of_renewBudget {deadline now interval budget : UInt64}
    (h : renewBudget deadline now interval = some budget) :
    now < deadline ∧ now.toNat + budget.toNat ≤ deadline.toNat ∧ budget ≤ interval := by
  simp only [renewBudget] at h
  split at h
  · contradiction
  rename_i hremaining
  have hpos : (Saturating.sub deadline now).toNat ≠ 0 :=
    fun hzero => hremaining (UInt64.toNat_inj.1 hzero)
  have hmin : min (Saturating.sub deadline now) interval
      = if Saturating.sub deadline now ≤ interval then Saturating.sub deadline now else interval :=
    rfl
  rw [hmin] at h
  rw [Saturating.toNat_sub] at hpos
  refine ⟨UInt64.lt_iff_toNat_lt.2 (by omega), ?_⟩
  split at h
  · rename_i hle
    obtain rfl := Option.some.inj h
    rw [Saturating.toNat_sub]
    exact ⟨by omega, hle⟩
  · rename_i hle
    obtain rfl := Option.some.inj h
    rw [UInt64.le_iff_toNat_le, Saturating.toNat_sub] at hle
    exact ⟨by omega, UInt64.le_refl _⟩

/-- A renewal that is given time is given some. -/
theorem pos_of_renewBudget {deadline now interval budget : UInt64}
    (h : renewBudget deadline now interval = some budget) (hinterval : 0 < interval) :
    0 < budget := by
  simp only [renewBudget] at h
  split at h
  · contradiction
  rename_i hremaining
  have hpos : (0 : UInt64) < Saturating.sub deadline now :=
    UInt64.pos_iff_ne_zero.2 hremaining
  rw [← Option.some.inj h]
  show 0 < if Saturating.sub deadline now ≤ interval then Saturating.sub deadline now else interval
  split
  · exact hpos
  · exact hinterval

/-- There is no time left once the deadline has been reached. -/
theorem le_of_renewBudget_eq_none {deadline now interval : UInt64}
    (h : renewBudget deadline now interval = none) : deadline ≤ now := by
  simp only [renewBudget] at h
  split at h
  · rename_i hremaining
    have hzero := congrArg UInt64.toNat hremaining
    have h0 : (0 : UInt64).toNat = 0 := rfl
    rw [Saturating.toNat_sub, h0] at hzero
    rw [UInt64.le_iff_toNat_le]
    omega
  · contradiction

/-- The key in the store that a lease lives under. -/
def key (namespaceName name : String) : String := "__lease:" ++ namespaceName ++ "/" ++ name

end Tenure.Lease
