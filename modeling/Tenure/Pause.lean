/-!
# Pauses

Whoever waits for a while, or grants a call so much time, sets a timer to
the moment at which the pause ends. No pause is longer than `longestPause`;
one that is asked to be longer ends as if that had been asked for.
-/

namespace Tenure

/-- Thirty years of 365 days, in milliseconds. -/
def longestPause : Nat := 946080000000

/-- The moment at which a pause of so many milliseconds ends. -/
def pauseEnd (now ms : Nat) : Nat := now + min ms longestPause

/-- A pause that is not too long ends when it should. -/
theorem pauseEnd_of_le {now ms : Nat} (h : ms ≤ longestPause) : pauseEnd now ms = now + ms := by
  simp [pauseEnd, Nat.min_eq_left h]

/-- No pause ends before it begins. -/
theorem le_pauseEnd (now ms : Nat) : now ≤ pauseEnd now ms := Nat.le_add_right _ _

/-- And none ends later than it was asked to. -/
theorem pauseEnd_le (now ms : Nat) : pauseEnd now ms ≤ now + ms :=
  Nat.add_le_add_left (Nat.min_le_left _ _) _

end Tenure
