import Mathlib.Data.Int.Log
import Mathlib.Data.Rat.Floor
import ShaderChain.Proofs.Single.Round
import ShaderChain.Proofs.Text.Numeral
import ShaderChain.Single.Decimal

/-!
# Reading depends on the value alone

A decimal stands for a rational number, and a finite single for a whole number of quanta. The
single that is read from a decimal depends on the decimal's number alone, and a decimal of the
very magnitude of a single is read as that single.
-/

namespace ShaderChain

namespace Decimal

variable {d d' : Decimal}

/-- The number that a decimal stands for. -/
def value (d : Decimal) : ℚ := d.digits * 10 ^ d.exponent

theorem ten_zpow_pos (e : ℤ) : (0 : ℚ) < 10 ^ e := zpow_pos (by norm_num) e

/-- Zeros at the end of the digits count in the exponent. -/
theorem value_mul_ten_pow (n k : ℕ) (e : ℤ) :
    (⟨n * 10 ^ k, e⟩ : Decimal).value = (⟨n, e + k⟩ : Decimal).value := by
  simp only [value, Nat.cast_mul, Nat.cast_pow, Nat.cast_ofNat]
  rw [zpow_add₀ (by norm_num), zpow_natCast, mul_comm ((10 : ℚ) ^ e), mul_assoc]

theorem value_eq_zero_iff : d.value = 0 ↔ d.digits = 0 := by
  simp [value, (ten_zpow_pos d.exponent).ne']

theorem value_pos (h : d.digits ≠ 0) : 0 < d.value :=
  mul_pos (Nat.cast_pos.2 (Nat.pos_of_ne_zero h)) (ten_zpow_pos _)

/-- The number of places in front of the point is the logarithm of the value. -/
theorem log_value (h : d.digits ≠ 0) :
    Int.log 10 d.value + 1 = (Text.decimal d.digits).length + d.exponent := by
  have hlen : 0 < (Text.decimal d.digits).length := List.length_pos_iff.2 (Text.decimal_ne_nil _)
  have hle : (10 : ℚ) ^ ((Text.decimal d.digits).length - 1 + d.exponent : ℤ) ≤ d.value := by
    have hdigits := Text.pow_length_decimal_le (Nat.pos_of_ne_zero h)
    rw [zpow_add₀ (by norm_num), ← Nat.cast_pred hlen, zpow_natCast]
    exact mul_le_mul_of_nonneg_right (by exact_mod_cast hdigits) (ten_zpow_pos _).le
  have hlt : d.value < (10 : ℚ) ^ ((Text.decimal d.digits).length + d.exponent : ℤ) := by
    have hdigits := Text.lt_pow_length_decimal d.digits
    rw [zpow_add₀ (by norm_num), zpow_natCast]
    exact mul_lt_mul_of_pos_right (by exact_mod_cast hdigits) (ten_zpow_pos _)
  rw [← Nat.cast_ofNat, Int.zpow_le_iff_le_log (by norm_num) (value_pos h)] at hle
  rw [← Nat.cast_ofNat, Int.lt_zpow_iff_log_lt (by norm_num) (value_pos h)] at hlt
  omega

end Decimal

namespace Single

variable {x : Single} {d d' : Decimal}

theorem quantaPerOne_pos : 0 < quantaPerOne := Nat.two_pow_pos 149

/-- The number that a finite single stands for, without its sign. -/
def magnitude (x : Single) : ℚ := x.quanta / quantaPerOne

theorem code_lt (x : Single) : x.code < 2 ^ 31 := Nat.mod_lt _ (by decide)

theorem code_ofCode {negative : Bool} {c : Nat} (h : c < 2 ^ 31) :
    (ofCode negative c).code = c := by
  cases negative <;> simp [ofCode, code] <;> omega

@[simp] theorem ofCode_code (x : Single) : ofCode x.isNegative x.code = x := by
  rcases x with ⟨w⟩
  have hw : w.toNat < 2 ^ 32 := w.toNat_lt
  have hcode : (if (Nat.pow 2 31 ≤ w.toNat) then Nat.pow 2 31 + w.toNat % Nat.pow 2 31
      else w.toNat % Nat.pow 2 31) = w.toNat := by
    simp only [Nat.pow_eq]
    split <;> omega
  simp only [ofCode, isNegative, code, decide_eq_true_eq]
  rw [hcode, UInt32.ofNat_toNat]

/-- The sign of a decimal is only put in front. -/
theorem ofDecimal_eq_ofCode (negative : Bool) (d : Decimal) :
    ofDecimal negative d = ofCode negative (ofDecimal false d).code := by
  have hcode : ∀ c, c ≤ infinityCode → c < 2 ^ 31 := fun c hc => Nat.lt_of_le_of_lt hc (by decide)
  simp only [ofDecimal]
  split
  · simp only [zero]
    rw [code_ofCode (by decide)]
  · split
    · simp only [infinity]
      rw [code_ofCode (by decide)]
    · split <;> simp only [ofQuanta] <;> rw [code_ofCode (hcode _ (nearestCode_le _ _))]

/-- Between the two bounds a decimal is rounded from a quotient of quanta of its value. -/
theorem exists_ofDecimal_eq_ofQuanta (negative : Bool) (h0 : d.digits ≠ 0)
    (hlow : -60 ≤ Int.log 10 d.value + 1) (hhigh : Int.log 10 d.value + 1 ≤ 40) :
    ∃ num den : ℕ, 0 < den ∧ (num : ℚ) / den = d.value * quantaPerOne ∧
      ofDecimal negative d = ofQuanta negative num den := by
  rw [Decimal.log_value h0] at hlow hhigh
  have hfar : ¬ (d.digits = 0 ∨ (Text.decimal d.digits).length + d.exponent < -60) := by omega
  have hof : ofDecimal negative d =
      if 0 ≤ d.exponent then
        ofQuanta negative (d.digits * Nat.pow 10 d.exponent.toNat * quantaPerOne) 1
      else ofQuanta negative (d.digits * quantaPerOne) (Nat.pow 10 (-d.exponent).toNat) := by
    simp only [ofDecimal, Bool.or_eq_true, decide_eq_true_eq]
    rw [if_neg hfar, if_neg (by omega)]
  by_cases hexp : 0 ≤ d.exponent
  · refine ⟨_, 1, one_pos, ?_, by rw [hof, if_pos hexp]⟩
    obtain ⟨k, hk⟩ := Int.eq_ofNat_of_zero_le hexp
    simp [Decimal.value, hk]
  · refine ⟨_, Nat.pow 10 (-d.exponent).toNat, Nat.pow_pos (by decide), ?_,
      by rw [hof, if_neg hexp]⟩
    obtain ⟨k, hk⟩ := Int.eq_ofNat_of_zero_le (show 0 ≤ -d.exponent by omega)
    have hneg : d.exponent = -(k : ℤ) := by omega
    simp only [Decimal.value, hneg, neg_neg, Int.toNat_natCast, Nat.pow_eq, Nat.cast_mul,
      Nat.cast_pow, Nat.cast_ofNat, zpow_neg, zpow_natCast]
    field_simp

/-- Decimals of the same value are read alike. -/
theorem ofDecimal_congr (negative : Bool) (h : d.value = d'.value) :
    ofDecimal negative d = ofDecimal negative d' := by
  by_cases h0 : d.digits = 0
  · have h0' : d'.digits = 0 := by
      rwa [← Decimal.value_eq_zero_iff, ← h, Decimal.value_eq_zero_iff]
    simp [ofDecimal, h0, h0']
  · have h0' : d'.digits ≠ 0 := by
      rwa [ne_eq, ← Decimal.value_eq_zero_iff, ← h, Decimal.value_eq_zero_iff]
    have hplaces := Decimal.log_value h0
    have hplaces' := Decimal.log_value h0'
    by_cases hlow : Int.log 10 d.value + 1 < -60
    · have hlow' : Int.log 10 d'.value + 1 < -60 := h ▸ hlow
      rw [hplaces] at hlow
      rw [hplaces'] at hlow'
      simp [ofDecimal, hlow, hlow']
    · by_cases hhigh : 40 < Int.log 10 d.value + 1
      · have hhigh' : 40 < Int.log 10 d'.value + 1 := h ▸ hhigh
        rw [hplaces] at hlow hhigh
        rw [hplaces'] at hhigh'
        have hlow' : ¬ (Text.decimal d'.digits).length + d'.exponent < -60 := by omega
        simp [ofDecimal, h0, h0', hlow, hlow', hhigh, hhigh']
      · obtain ⟨num, den, hden, hvalue, hof⟩ :=
          exists_ofDecimal_eq_ofQuanta negative h0 (by omega) (by omega)
        obtain ⟨num', den', hden', hvalue', hof'⟩ :=
          exists_ofDecimal_eq_ofQuanta negative h0' (by rw [← h]; omega) (by rw [← h]; omega)
        have hquot : (num : ℚ) / den = num' / den' := by rw [hvalue, hvalue', h]
        rw [div_eq_div_iff (by positivity) (by positivity)] at hquot
        rw [hof, hof', ofQuanta_congr negative hden hden' (by exact_mod_cast hquot)]

theorem quanta_pos (h : x.isZero = false) : 0 < x.quanta := by
  have hcode : x.code ≠ 0 := by simpa [isZero] using h
  have hsum := shift_mul_add_significand x.code
  refine Nat.mul_pos (Nat.pos_of_ne_zero fun hsig => ?_) (Nat.two_pow_pos _)
  rcases Nat.eq_zero_or_pos (shift x.code) with hshift | hshift
  · rw [hshift, hsig] at hsum
    exact hcode (by simpa using hsum.symm)
  · exact absurd (two_pow_le_significand hshift) (by rw [hsig]; decide)

theorem quanta_lt (h : x.isFinite = true) : x.quanta < 2 ^ 128 * quantaPerOne := by
  have hcode : x.code < infinityCode := by simpa [isFinite] using h
  have hshift : shift x.code ≤ 253 := by
    simp only [shift, infinityCode, Nat.pow_eq] at hcode ⊢
    omega
  calc
    x.quanta < 2 ^ 24 * 2 ^ shift x.code :=
      Nat.mul_lt_mul_of_pos_right significand_lt (Nat.two_pow_pos _)
    _ ≤ 2 ^ 24 * 2 ^ 253 := Nat.mul_le_mul_left _ (Nat.pow_le_pow_right (by decide) hshift)
    _ = 2 ^ 128 * quantaPerOne := by norm_num [quantaPerOne]

theorem magnitude_pos (h : x.isZero = false) : 0 < x.magnitude :=
  div_pos (Nat.cast_pos.2 (quanta_pos h)) (Nat.cast_pos.2 quantaPerOne_pos)

/-- The first digit of a finite single stands between the place of the smallest quantum and
that of the largest finite magnitude. -/
theorem le_log_magnitude (h : x.isZero = false) : -45 ≤ Int.log 10 x.magnitude := by
  rw [← Int.zpow_le_iff_le_log (by norm_num) (magnitude_pos h), magnitude,
    le_div_iff₀ (Nat.cast_pos.2 quantaPerOne_pos)]
  calc
    ((10 : ℕ) : ℚ) ^ (-45 : ℤ) * quantaPerOne ≤ 1 := by norm_num [quantaPerOne]
    _ ≤ x.quanta := by exact_mod_cast quanta_pos h

theorem magnitude_lt (h : x.isFinite = true) : x.magnitude < 2 ^ 128 := by
  rw [magnitude, div_lt_iff₀ (Nat.cast_pos.2 quantaPerOne_pos)]
  exact_mod_cast quanta_lt h

theorem log_magnitude_le (h : x.isFinite = true) (h0 : x.isZero = false) :
    Int.log 10 x.magnitude ≤ 38 := by
  rw [← Int.lt_add_one_iff, ← Int.lt_zpow_iff_log_lt (by norm_num) (magnitude_pos h0)]
  exact (magnitude_lt h).trans_le (by norm_num)

/-- A decimal of the very magnitude of a single is read as the single's code. -/
theorem ofDecimal_of_value (hfin : x.isFinite = true) (h : d.value = x.magnitude) :
    ofDecimal false d = ofCode false x.code := by
  cases hz : x.isZero with
  | true =>
      have hcode : x.code = 0 := by simpa [isZero] using hz
      have hquanta : x.quanta = 0 := by simp [quanta, hcode, significand, shift]
      have hdigits : d.digits = 0 := by
        rw [← Decimal.value_eq_zero_iff, h, magnitude, hquanta, Nat.cast_zero, zero_div]
      simp [ofDecimal, hdigits, zero, hcode]
  | false =>
      have hdigits : d.digits ≠ 0 := by
        rw [ne_eq, ← Decimal.value_eq_zero_iff, h]
        exact (magnitude_pos hz).ne'
      have hlow := le_log_magnitude hz
      have hhigh := log_magnitude_le hfin hz
      obtain ⟨num, den, hden, hvalue, hof⟩ :=
        exists_ofDecimal_eq_ofQuanta (d := d) false hdigits (by rw [h]; omega) (by rw [h]; omega)
      have hone : (quantaPerOne : ℚ) ≠ 0 := Nat.cast_ne_zero.2 quantaPerOne_pos.ne'
      rw [h, magnitude, div_mul_cancel₀ _ hone, div_eq_iff (by positivity)] at hvalue
      have hcross : num * 1 = x.quanta * den := by
        rw [Nat.mul_one]
        exact_mod_cast hvalue
      rw [hof, ofQuanta, nearestCode_congr hden one_pos hcross, nearestCode_quanta hfin]

end Single

end ShaderChain
