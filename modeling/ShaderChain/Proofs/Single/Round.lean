import Mathlib.Algebra.Group.Nat.Defs
import ShaderChain.Single.Round

/-!
# Rounding depends on the value alone

The nearest single of a quotient is that of the quotient's value: a common factor changes
nothing. A finite single is its own nearest one.
-/

namespace ShaderChain

variable {num den num' den' k : Nat}

/-- A common factor does not change the nearest whole number. -/
theorem nearestEven_mul_mul (hk : 0 < k) (num den : Nat) :
    nearestEven (k * num) (k * den) = nearestEven num den := by
  have hlt : ∀ a b, 2 * (k * a) < k * b ↔ 2 * a < b := by
    intro a b
    rw [Nat.mul_left_comm, Nat.mul_lt_mul_left hk]
  have hgt : ∀ a b, k * b < 2 * (k * a) ↔ b < 2 * a := by
    intro a b
    rw [Nat.mul_left_comm, Nat.mul_lt_mul_left hk]
  simp only [nearestEven, Nat.mul_div_mul_left num den hk, Nat.mul_mod_mul_left, hlt, hgt]

namespace Single

variable {x : Single}

theorem nearestCode_mul_mul (hk : 0 < k) (num den : Nat) :
    nearestCode (k * num) (k * den) = nearestCode num den := by
  simp only [nearestCode, Nat.mul_div_mul_left num den hk, Nat.mul_assoc,
    nearestEven_mul_mul hk]

/-- Quotients of the same value have the same nearest code. -/
theorem nearestCode_congr (hden : 0 < den) (hden' : 0 < den') (h : num * den' = num' * den) :
    nearestCode num den = nearestCode num' den' := by
  calc
    nearestCode num den = nearestCode (den' * num) (den' * den) :=
      (nearestCode_mul_mul hden' num den).symm
    _ = nearestCode (den * num') (den * den') := by
      rw [Nat.mul_comm den' num, h, Nat.mul_comm num', Nat.mul_comm den']
    _ = nearestCode num' den' := nearestCode_mul_mul hden num' den'

theorem ofQuanta_congr (negative : Bool) (hden : 0 < den) (hden' : 0 < den')
    (h : num * den' = num' * den) : ofQuanta negative num den = ofQuanta negative num' den' := by
  rw [ofQuanta, ofQuanta, nearestCode_congr hden hden' h]

theorem two_pow_le_significand {c : Nat} (h : 0 < shift c) : 2 ^ 23 ≤ significand c := by
  simp only [shift, significand, Nat.pow_eq] at h ⊢
  omega

/-- A number of quanta that a code stands for is shifted by the shift of the code. -/
theorem log2_sub_eq_shift (c : Nat) :
    (significand c * 2 ^ shift c).log2 - 23 = shift c := by
  have hlt : significand c < 2 ^ 24 := significand_lt
  rcases Nat.eq_zero_or_pos (shift c) with h0 | hpos
  · rw [h0, Nat.pow_zero, Nat.mul_one, Nat.sub_eq_zero_iff_le]
    by_cases hc : significand c = 0
    · rw [hc]
      decide
    · exact Nat.le_of_lt_succ ((Nat.log2_lt hc).2 hlt)
  · have hle := two_pow_le_significand hpos
    have hne : significand c * 2 ^ shift c ≠ 0 :=
      Nat.ne_of_gt (Nat.mul_pos (Nat.lt_of_lt_of_le (by decide) hle) (Nat.two_pow_pos _))
    have hlog : (significand c * 2 ^ shift c).log2 = 23 + shift c := by
      rw [Nat.log2_eq_iff hne, Nat.add_right_comm, Nat.pow_add, Nat.pow_add]
      exact ⟨Nat.mul_le_mul_right _ hle, Nat.mul_lt_mul_of_pos_right hlt (Nat.two_pow_pos _)⟩
    rw [hlog, Nat.add_sub_cancel_left]

/-- A finite magnitude is its own nearest one. -/
theorem nearestCode_quanta (h : x.isFinite = true) : nearestCode x.quanta 1 = x.code := by
  have hlt : x.code < infinityCode := by simpa [isFinite] using h
  have hshift := log2_sub_eq_shift x.code
  have heven : nearestEven (significand x.code * 2 ^ shift x.code) (1 * 2 ^ shift x.code) =
      significand x.code := by
    rw [Nat.one_mul]
    exact nearestEven_mul (Nat.two_pow_pos _) _
  simp only [nearestCode, quanta, Nat.div_one, Nat.pow_eq] at hshift ⊢
  rw [hshift, heven]
  have hcode := shift_mul_add_significand x.code
  rw [Nat.pow_eq] at hcode
  rw [hcode]
  exact Nat.min_eq_left (Nat.le_of_lt hlt)

/-- Rounding goes up by less than a power of two. -/
theorem nearestCode_le_of_lt (h : num / den < 2 ^ 24 * 2 ^ k) :
    nearestCode num den ≤ (k + 2) * 2 ^ 23 := by
  have hshift : (num / den).log2 - 23 ≤ k := by
    by_cases hq : num / den = 0
    · rw [hq]
      exact Nat.zero_le k
    · rw [← Nat.pow_add] at h
      have hlog := (Nat.log2_lt hq).2 h
      omega
  have hsig : num / (den * 2 ^ ((num / den).log2 - 23)) < 2 ^ 24 := by
    rw [← Nat.div_div_eq_div_mul, Nat.div_lt_iff_lt_mul (Nat.two_pow_pos _), ← Nat.pow_add]
    exact Nat.lt_of_lt_of_le Nat.lt_log2_self (Nat.pow_le_pow_right (by decide) (by omega))
  have hround := nearestEven_le_div_add_one num (den * 2 ^ ((num / den).log2 - 23))
  refine Nat.le_trans (Nat.min_le_left _ _) ?_
  simp only [Nat.pow_eq]
  calc
    _ ≤ k * 2 ^ 23 + 2 ^ 24 :=
      Nat.add_le_add (Nat.mul_le_mul_right _ hshift) (Nat.le_trans hround hsig)
    _ = (k + 2) * 2 ^ 23 := by omega

end Single

end ShaderChain
