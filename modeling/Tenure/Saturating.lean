/-!
# Arithmetic that stays inside a machine word

Deadlines, delays and terms are 64-bit numbers. A deadline is a clock
reading plus a duration, and a reading near the top of the range must give
the latest deadline there is rather than one in the distant past, so sums
and products stop at the largest word and differences stop at zero.

Each operation is defined by what it does over the natural numbers, and
the `toNat` lemmas say that and nothing else; whatever is proved about
deadlines goes through them.
-/

namespace Tenure.Saturating

/-- The largest 64-bit number, as a natural number. -/
def top : Nat := 18446744073709551615

/-- The sum, or the largest word where the sum does not fit. -/
def add (a b : UInt64) : UInt64 := UInt64.ofNat (min (a.toNat + b.toNat) top)

/-- The difference, or zero where it would be negative. -/
def sub (a b : UInt64) : UInt64 := UInt64.ofNat (a.toNat - b.toNat)

/-- The product, or the largest word where the product does not fit. -/
def mul (a b : UInt64) : UInt64 := UInt64.ofNat (min (a.toNat * b.toNat) top)

theorem toNat_ofNat_of_le {n : Nat} (h : n ≤ top) : (UInt64.ofNat n).toNat = n := by
  rw [UInt64.toNat_ofNat']
  exact Nat.mod_eq_of_lt (by unfold top at h; omega)

@[simp] theorem toNat_add (a b : UInt64) :
    (add a b).toNat = min (a.toNat + b.toNat) top :=
  toNat_ofNat_of_le (Nat.min_le_right _ _)

@[simp] theorem toNat_sub (a b : UInt64) : (sub a b).toNat = a.toNat - b.toNat := by
  refine toNat_ofNat_of_le ?_
  have := a.toNat_lt
  unfold top
  omega

@[simp] theorem toNat_mul (a b : UInt64) :
    (mul a b).toNat = min (a.toNat * b.toNat) top :=
  toNat_ofNat_of_le (Nat.min_le_right _ _)

/-- A later reading gives no earlier deadline. -/
theorem add_le_add {a b : UInt64} (h : a ≤ b) (d : UInt64) : add a d ≤ add b d := by
  rw [UInt64.le_iff_toNat_le] at h ⊢
  rw [toNat_add, toNat_add]
  omega

/-- A deadline ahead of a reading is not zero. -/
theorem add_ne_zero (a : UInt64) {d : UInt64} (h : 0 < d) : add a d ≠ 0 := by
  intro hzero
  have hsum := congrArg UInt64.toNat hzero
  have hd := UInt64.lt_iff_toNat_lt.1 h
  have h0 : (0 : UInt64).toNat = 0 := rfl
  rw [toNat_add, h0] at hsum
  unfold top at hsum
  omega

end Tenure.Saturating
