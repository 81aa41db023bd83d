import ShaderChain.Single.Basic

/-!
# Rounding to single precision

`nearestEven` rounds a quotient to the nearest whole number, a tie to the even
one. `Single.ofQuanta` rounds a quotient of quanta to the nearest single, a tie
to the one with the even significand: the quotient is shifted until its
significand has 24 places, rounded there, and the code is read off. A carry into
the next power of two needs no care, because the code counts on, and a magnitude
beyond the largest finite one becomes infinity.
-/

namespace ShaderChain

/-- The whole number nearest to `num / den`, a tie going to the even one. -/
def nearestEven (num den : Nat) : Nat :=
  let q := num / den
  let r := num % den
  if 2 * r < den then q
  else if den < 2 * r then q + 1
  else q + q % 2

/-- A multiple is its own nearest number. -/
theorem nearestEven_mul {den : Nat} (h : 0 < den) (q : Nat) : nearestEven (q * den) den = q := by
  simp [nearestEven, h]

/-- The nearest number is at most one above the floor. -/
theorem nearestEven_le_div_add_one (num den : Nat) : nearestEven num den ≤ num / den + 1 := by
  unfold nearestEven
  dsimp only
  split
  · omega
  · split <;> omega

namespace Single

/-- The code nearest to `num / den` quanta, infinity at most. -/
def nearestCode (num den : Nat) : Nat :=
  let s := (num / den).log2 - 23
  min (s * Nat.pow 2 23 + nearestEven num (den * Nat.pow 2 s)) infinityCode

/-- The single nearest to `num / den` quanta with the given sign. -/
def ofQuanta (negative : Bool) (num den : Nat) : Single :=
  ofCode negative (nearestCode num den)

theorem nearestCode_le (num den : Nat) : nearestCode num den ≤ infinityCode :=
  Nat.min_le_right ..

end Single

end ShaderChain
