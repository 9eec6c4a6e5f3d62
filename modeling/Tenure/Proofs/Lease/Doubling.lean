import Mathlib.Data.UInt
import Tenure.Lease.Timing

/-!
# How the delay grows with the failures

Each failure in a row doubles the delay before the next attempt, until a cap
is reached. The delays are words of 64 bits, and thirty-two doublings take
every base of 2^32 or more out of their range, so it has to be seen that no
delay comes out short.

The factor is a power of two that fits, since the doublings end with the
thirty-second (`toNat_factor`). The product may not fit, and is then the
largest word instead. But the cap is a word too, so that what the product
loses is above the cap and would have been cut off anyway: the delay is the
one of the natural numbers (`toNat_backoff`), and how it grows is read off
there (`backoff_doubles`).
-/

namespace Tenure.Lease

/-- **A delay that doubles with each failure in a row**, up to a cap and
thirty-two times at most. The cap is the limit, or the base if that is above
it. -/
structure Doubles (delay : UInt32 → UInt64 → UInt64 → UInt64) : Prop where
  /-- The delay is the one of the natural numbers, whatever the words. -/
  exact : ∀ attempt base limit, (delay attempt base limit).toNat
    = min (base.toNat * 2 ^ min attempt.toNat 32) (max base.toNat limit.toNat)
  /-- It lies between the base and the cap. -/
  within : ∀ attempt base limit,
    base ≤ delay attempt base limit ∧ delay attempt base limit ≤ max base limit
  /-- No delay gets shorter by a further failure, -/
  mono_attempt : ∀ attempt attempt' base limit, attempt ≤ attempt' →
    delay attempt base limit ≤ delay attempt' base limit
  /-- by a longer base -/
  mono_base : ∀ attempt base base' limit, base ≤ base' →
    delay attempt base limit ≤ delay attempt base' limit
  /-- or by a higher limit. -/
  mono_limit : ∀ attempt base limit limit', limit ≤ limit' →
    delay attempt base limit ≤ delay attempt base limit'
  /-- The first delay is the base, -/
  first : ∀ base limit, delay 0 base limit = base
  /-- each of the next thirty-two is twice the one before, or the cap if that
  is less, -/
  doubles : ∀ attempt base limit, attempt < 32 → (delay (attempt + 1) base limit).toNat
    = min (2 * (delay attempt base limit).toNat) (max base.toNat limit.toNat)
  /-- and from then on they stay the same. -/
  settles : ∀ attempt base limit, 32 ≤ attempt → delay attempt base limit = delay 32 base limit

variable {attempt attempt' : UInt32} {base base' limit limit' : UInt64}

/-! ## The delay as a natural number -/

/-- The doublings do not shift the one out of the word. -/
theorem toNat_factor (attempt : UInt32) :
    ((1 : UInt64) <<< (min attempt 32).toUInt64).toNat = 2 ^ min attempt.toNat 32 := by
  have hle : min attempt.toNat 32 ≤ 32 := Nat.min_le_right _ _
  have hlt : 2 ^ min attempt.toNat 32 < 2 ^ 64 := Nat.pow_lt_pow_right (by decide) (by omega)
  have hshift : (min attempt 32).toUInt64.toNat % 64 = min attempt.toNat 32 := by
    rw [UInt32.toNat_toUInt64, UInt32.toNat_min]
    exact Nat.mod_eq_of_lt (Nat.lt_of_le_of_lt hle (by decide))
  rw [UInt64.toNat_shiftLeft, hshift, UInt64.toNat_one, Nat.one_shiftLeft, Nat.mod_eq_of_lt hlt]

theorem toNat_cap (base limit : UInt64) :
    (if limit < base then base else limit).toNat = max base.toNat limit.toNat := by
  split
  · rename_i hlt
    exact (Nat.max_eq_left (UInt64.lt_iff_toNat_lt.1 hlt).le).symm
  · rename_i hnot
    exact (Nat.max_eq_right (UInt64.le_iff_toNat_le.1 (UInt64.not_lt.1 hnot))).symm

/-- **The delay is that of the natural numbers.** Where the product does not
fit into a word, it is above the cap. -/
theorem toNat_backoff (attempt : UInt32) (base limit : UInt64) :
    (backoff attempt base limit).toNat
      = min (base.toNat * 2 ^ min attempt.toNat 32) (max base.toNat limit.toNat) := by
  have hcap : max base.toNat limit.toNat ≤ Saturating.top := by
    have hbase := base.toNat_lt
    have hlimit := limit.toNat_lt
    unfold Saturating.top
    omega
  unfold backoff
  rw [UInt64.toNat_min, Saturating.toNat_mul, toNat_factor, toNat_cap, Nat.min_assoc,
    Nat.min_eq_right hcap]

/-! ## How it grows -/

theorem le_backoff : base ≤ backoff attempt base limit := by
  rw [UInt64.le_iff_toNat_le, toNat_backoff]
  have hfactor : 0 < 2 ^ min attempt.toNat 32 := Nat.two_pow_pos _
  exact Nat.le_min.2 ⟨Nat.le_mul_of_pos_right _ hfactor, Nat.le_max_left _ _⟩

theorem backoff_le_max : backoff attempt base limit ≤ max base limit := by
  rw [UInt64.le_iff_toNat_le, toNat_backoff, UInt64.toNat_max]
  exact Nat.min_le_right _ _

theorem backoff_mono_attempt (h : attempt ≤ attempt') :
    backoff attempt base limit ≤ backoff attempt' base limit := by
  rw [UInt64.le_iff_toNat_le, toNat_backoff, toNat_backoff]
  have hdoublings : min attempt.toNat 32 ≤ min attempt'.toNat 32 :=
    min_le_min_right 32 (UInt32.le_iff_toNat_le.1 h)
  exact min_le_min_right _
    (Nat.mul_le_mul_left _ (Nat.pow_le_pow_right Nat.two_pos hdoublings))

theorem backoff_mono_base (h : base ≤ base') :
    backoff attempt base limit ≤ backoff attempt base' limit := by
  rw [UInt64.le_iff_toNat_le, toNat_backoff, toNat_backoff]
  have hbase : base.toNat ≤ base'.toNat := UInt64.le_iff_toNat_le.1 h
  exact min_le_min (Nat.mul_le_mul_right _ hbase) (max_le_max_right _ hbase)

theorem backoff_mono_limit (h : limit ≤ limit') :
    backoff attempt base limit ≤ backoff attempt base limit' := by
  rw [UInt64.le_iff_toNat_le, toNat_backoff, toNat_backoff]
  exact min_le_min_left _ (max_le_max_left _ (UInt64.le_iff_toNat_le.1 h))

theorem backoff_zero (base limit : UInt64) : backoff 0 base limit = base := by
  rw [← UInt64.toNat_inj, toNat_backoff]
  show min (base.toNat * 1) _ = _
  rw [Nat.mul_one, Nat.min_eq_left (Nat.le_max_left _ _)]

/-- **One more failure doubles the delay**, or takes it to the cap. -/
theorem toNat_backoff_succ (h : attempt < 32) :
    (backoff (attempt + 1) base limit).toNat
      = min (2 * (backoff attempt base limit).toNat) (max base.toNat limit.toNat) := by
  have hlt : attempt.toNat < 32 := UInt32.lt_iff_toNat_lt.1 h
  have hsucc : (attempt + 1).toNat = attempt.toNat + 1 := by
    rw [UInt32.toNat_add, UInt32.toNat_one]
    exact Nat.mod_eq_of_lt (by omega)
  rw [toNat_backoff, toNat_backoff, hsucc, Nat.min_eq_left hlt, Nat.min_eq_left hlt.le,
    Nat.pow_succ, ← Nat.mul_assoc]
  -- twice what was cut off at the cap is cut off there again
  omega

theorem backoff_eq_of_le (h : 32 ≤ attempt) :
    backoff attempt base limit = backoff 32 base limit := by
  have hmin : min attempt.toNat 32 = 32 := Nat.min_eq_right (UInt32.le_iff_toNat_le.1 h)
  rw [← UInt64.toNat_inj, toNat_backoff, toNat_backoff, hmin]
  rfl

/-- **The delay doubles with each failure in a row, up to its cap**, and no
attempt, base or limit makes it wrap. -/
theorem backoff_doubles : Doubles backoff where
  exact := toNat_backoff
  within _ _ _ := ⟨le_backoff, backoff_le_max⟩
  mono_attempt _ _ _ _ := backoff_mono_attempt
  mono_base _ _ _ _ := backoff_mono_base
  mono_limit _ _ _ _ := backoff_mono_limit
  first := backoff_zero
  doubles _ _ _ := toNat_backoff_succ
  settles _ _ _ := backoff_eq_of_le

/-- The thirty-first doubling of this base still fits into a word. The next one
does not, and is the last. -/
theorem backoff_doubles_at_top :
    (31 : UInt32) < 32 ∧ (32 : UInt32) ≤ 0xFFFFFFFF ∧
      (backoff 31 0x180000000 0xFFFFFFFFFFFFFFFF).toNat = 3 * 2 ^ 62 ∧
      (backoff 32 0x180000000 0xFFFFFFFFFFFFFFFF).toNat = min (2 * (3 * 2 ^ 62)) (2 ^ 64 - 1) ∧
      backoff 0xFFFFFFFF 0x180000000 0xFFFFFFFFFFFFFFFF
        = backoff 32 0x180000000 0xFFFFFFFFFFFFFFFF := by
  have hfits : (backoff 31 0x180000000 0xFFFFFFFFFFFFFFFF).toNat = 3 * 2 ^ 62 :=
    backoff_doubles.exact 31 0x180000000 0xFFFFFFFFFFFFFFFF
  have hnext := backoff_doubles.doubles 31 0x180000000 0xFFFFFFFFFFFFFFFF (by decide)
  rw [hfits] at hnext
  have hlast := backoff_doubles.settles 0xFFFFFFFF 0x180000000 0xFFFFFFFFFFFFFFFF (by decide)
  exact ⟨by decide, by decide, hfits, hnext, hlast⟩

end Tenure.Lease
