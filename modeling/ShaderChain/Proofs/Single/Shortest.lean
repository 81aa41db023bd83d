import ShaderChain.Proofs.Single.Decimal
import ShaderChain.Single.Shortest

/-!
# The shortest decimal reads back

The search for the shortest decimal of a finite single never fails: the exact value stands on
the grid of at most 113 digits, and an exact decimal is read back. So the decimal that is found
is read as the single, and it has no more digits than the grid it was found on.
-/

namespace ShaderChain

namespace Single

variable {x : Single} {num den : ℕ} {e : ℤ} {d : Decimal}

/-- The test for the place `38 - k` in whole numbers is the test in rationals. -/
theorem leadingPlace_test_iff (hden : 0 < den) (k : ℕ) :
    (if k ≤ 38 then decide (Nat.pow 10 (38 - k) * den ≤ num)
      else decide (den ≤ num * Nat.pow 10 (k - 38))) = true ↔
        ((10 : ℕ) : ℚ) ^ (38 - k : ℤ) ≤ num / den := by
  rw [le_div_iff₀ (Nat.cast_pos.2 hden)]
  split
  · obtain ⟨i, hi⟩ : ∃ i : ℕ, 38 = k + i := Nat.exists_eq_add_of_le ‹k ≤ 38›
    have hsub : (38 - k : ℤ) = i := by omega
    rw [hsub, hi, Nat.add_sub_cancel_left, zpow_natCast, Nat.pow_eq, decide_eq_true_eq]
    exact_mod_cast Iff.rfl
  · obtain ⟨i, hi⟩ : ∃ i : ℕ, k = 38 + i := Nat.exists_eq_add_of_le (by omega)
    have hsub : (38 - k : ℤ) = -(i : ℤ) := by omega
    rw [hsub, hi, Nat.add_sub_cancel_left, zpow_neg, zpow_natCast, Nat.pow_eq,
      inv_mul_le_iff₀ (by positivity), mul_comm, decide_eq_true_eq]
    exact_mod_cast Iff.rfl

/-- Within its bounds the leading place is the logarithm. -/
theorem leadingPlace_eq_log (hpos : (0 : ℚ) < num / den) (hden : 0 < den)
    (hlow : -45 ≤ Int.log 10 (num / den : ℚ)) (hhigh : Int.log 10 (num / den : ℚ) ≤ 38) :
    leadingPlace num den = Int.log 10 (num / den : ℚ) := by
  obtain ⟨k, hk⟩ := Int.eq_ofNat_of_zero_le (sub_nonneg.2 hhigh)
  have hfind : (List.range 84).find? (fun k => if k ≤ 38 then Nat.pow 10 (38 - k) * den ≤ num
      else den ≤ num * Nat.pow 10 (k - 38)) = some k := by
    rw [List.find?_range_eq_some]
    simp only [Bool.not_eq_true', ← Bool.not_eq_true, leadingPlace_test_iff hden,
      Int.zpow_le_iff_le_log (by norm_num : 1 < 10) hpos, List.mem_range]
    exact ⟨by omega, by omega, fun j hj => by omega⟩
  rw [leadingPlace, hfind]
  exact sub_eq_of_eq_add (by omega)

/-- The neighbours of a quotient on a grid are those of the quotient in grid steps. -/
theorem exists_neighbours (num : ℕ) (hden : 0 < den) (e : ℤ) :
    ∃ n d : ℕ, 0 < d ∧ (n : ℚ) / d = num / den / 10 ^ e ∧
      (n % d = 0 → neighbours num den e = [⟨n / d, e⟩]) ∧
        ∀ c ∈ neighbours num den e, c.exponent = e ∧ c.digits ≤ n / d + 1 := by
  have hmem : ∀ n d : ℕ, ∀ c ∈
      (if n % d = 0 then [⟨n / d, e⟩]
        else if 2 * (n % d) < d || (2 * (n % d) = d && n / d % 2 = 0) then
          [⟨n / d, e⟩, ⟨n / d + 1, e⟩]
        else [⟨n / d + 1, e⟩, ⟨n / d, e⟩] : List Decimal),
      c.exponent = e ∧ c.digits ≤ n / d + 1 := by
    intro n d c hc
    split at hc
    · rw [List.mem_singleton] at hc
      simp [hc]
    · split at hc <;> rw [List.mem_pair] at hc <;> rcases hc with rfl | rfl <;> simp
  by_cases he : 0 ≤ e
  · refine ⟨num, den * Nat.pow 10 e.toNat, Nat.mul_pos hden (Nat.pow_pos (by decide)), ?_, ?_, ?_⟩
    · obtain ⟨k, rfl⟩ := Int.eq_ofNat_of_zero_le he
      simp [div_div]
    · intro h
      simp only [neighbours, if_pos he, h, if_true]
    · simpa only [neighbours, if_pos he] using hmem _ _
  · refine ⟨num * Nat.pow 10 (-e).toNat, den, hden, ?_, ?_, ?_⟩
    · obtain ⟨k, hk⟩ := Int.eq_ofNat_of_zero_le (show 0 ≤ -e by omega)
      have hneg : e = -(k : ℤ) := by omega
      simp only [hneg, neg_neg, Int.toNat_natCast, Nat.pow_eq, Nat.cast_mul, Nat.cast_pow,
        Nat.cast_ofNat, zpow_neg, zpow_natCast]
      field_simp
    · intro h
      simp only [neighbours, if_neg he, h, if_true]
    · simpa only [neighbours, if_neg he] using hmem _ _

/-- An exact multiple of the grid is its own only neighbour. -/
theorem neighbours_of_eq (hden : 0 < den) {m : ℕ} (h : (num / den : ℚ) = m * 10 ^ e) :
    neighbours num den e = [⟨m, e⟩] := by
  obtain ⟨n, d, hd, hquot, hexact, -⟩ := exists_neighbours num hden e
  have hn : n = m * d := by
    rw [h, mul_div_cancel_right₀ _ (Decimal.ten_zpow_pos e).ne',
      div_eq_iff (Nat.cast_ne_zero.2 hd.ne')] at hquot
    exact_mod_cast hquot
  rw [hexact (by rw [hn, Nat.mul_mod_left]), hn, Nat.mul_div_cancel m hd]

/-- A neighbour of a quotient below `10 ^ (k + 1)` grid steps has no more digits. -/
theorem digits_le_of_mem_neighbours (hden : 0 < den) {k : ℕ}
    (h : (num / den : ℚ) < 10 ^ (e + k)) (hd : d ∈ neighbours num den e) :
    d.digits ≤ 10 ^ k := by
  obtain ⟨n, m, hm, hquot, -, hmem⟩ := exists_neighbours num hden e
  have hlt : n < 10 ^ k * m := by
    rw [zpow_add₀ (by norm_num), zpow_natCast, ← div_lt_iff₀' (Decimal.ten_zpow_pos e), ← hquot,
      div_lt_iff₀ (Nat.cast_pos.2 hm)] at h
    exact_mod_cast h
  exact (hmem d hd).2.trans ((Nat.div_lt_iff_lt_mul hm).2 hlt)

/-- A finite magnitude is a decimal of at most 113 digits: a quantum has 149 places behind the
point, and every factor of two in the significand saves one. -/
theorem exists_magnitude_eq (hfin : x.isFinite = true) :
    ∃ m j : ℕ, m < 10 ^ 113 ∧ x.magnitude = m * 10 ^ (-j : ℤ) := by
  have hquanta : (x.quanta : ℚ) = significand x.code * 2 ^ shift x.code := by simp [quanta]
  have hone : (quantaPerOne : ℚ) = 2 ^ 149 := by norm_num [quantaPerOne]
  rcases Nat.le_total 149 (shift x.code) with hle | hle
  · obtain ⟨i, hi⟩ := Nat.exists_eq_add_of_le hle
    have hvalue : x.magnitude = (significand x.code * 2 ^ i : ℕ) := by
      rw [magnitude, hquanta, hone, hi, pow_add, mul_left_comm, mul_div_cancel_left₀ _ (by positivity)]
      push_cast
      rfl
    have hlt : x.magnitude < 2 ^ 128 := magnitude_lt hfin
    refine ⟨significand x.code * 2 ^ i, 0, ?_, by simpa using hvalue⟩
    rw [hvalue] at hlt
    exact lt_of_lt_of_le (by exact_mod_cast hlt) (by norm_num : 2 ^ 128 ≤ 10 ^ 113)
  · obtain ⟨i, hi⟩ := Nat.exists_eq_add_of_le hle
    refine ⟨significand x.code * 5 ^ i, i, ?_, ?_⟩
    · calc
        significand x.code * 5 ^ i < 2 ^ 24 * 5 ^ i :=
          Nat.mul_lt_mul_of_pos_right significand_lt (Nat.pow_pos (by decide))
        _ ≤ 2 ^ 24 * 5 ^ 149 :=
          Nat.mul_le_mul_left _ (Nat.pow_le_pow_right (by decide) (by omega))
        _ ≤ 10 ^ 113 := by norm_num
    · have hten : (10 : ℚ) ^ i = 5 ^ i * 2 ^ i := by rw [← mul_pow]; norm_num
      rw [magnitude, hquanta, hone, hi, pow_add, zpow_neg, zpow_natCast, hten]
      push_cast
      field_simp

/-- Some number of digits shows the magnitude exactly. -/
theorem exists_neighbours_magnitude (h0 : x.isZero = false) (hfin : x.isFinite = true) :
    ∃ k : ℕ, k < 113 ∧ ∃ d, neighbours x.quanta quantaPerOne (Int.log 10 x.magnitude - k) = [d] ∧
      d.value = x.magnitude := by
  obtain ⟨m, j, hm, hvalue⟩ := exists_magnitude_eq hfin
  have hpos := magnitude_pos h0
  have hne : m ≠ 0 := by
    rintro rfl
    simp [hvalue] at hpos
  have hlow : -j ≤ Int.log 10 x.magnitude := by
    rw [← Int.zpow_le_iff_le_log (by norm_num) hpos, hvalue]
    exact le_mul_of_one_le_left (Decimal.ten_zpow_pos _).le (by exact_mod_cast Nat.pos_of_ne_zero hne)
  have hhigh : Int.log 10 x.magnitude < 113 + -j := by
    rw [← Int.lt_zpow_iff_log_lt (by norm_num) hpos, hvalue, Nat.cast_ofNat,
      zpow_add₀ (by norm_num)]
    exact mul_lt_mul_of_pos_right (by exact_mod_cast hm) (Decimal.ten_zpow_pos _)
  obtain ⟨k, hk⟩ := Int.eq_ofNat_of_zero_le (sub_nonneg.2 hlow)
  have hexp : Int.log 10 x.magnitude - k = -j := by omega
  exact ⟨k, by omega, ⟨m, -j⟩, by rw [hexp]; exact neighbours_of_eq quantaPerOne_pos hvalue,
    hvalue.symm⟩

/-- The shortest decimal of a finite single that is not zero reads back, and it has at most as
many digits as a power of ten with 113 zeros. -/
theorem shortest_spec (h0 : x.isZero = false) (hfin : x.isFinite = true) :
    (ofDecimal false x.shortest).code = x.code ∧ x.shortest.digits ≤ 10 ^ 113 := by
  have hlead : leadingPlace x.quanta quantaPerOne = Int.log 10 x.magnitude :=
    leadingPlace_eq_log (magnitude_pos h0) quantaPerOne_pos (le_log_magnitude h0)
      (log_magnitude_le hfin h0)
  obtain ⟨k, hk, c, hc, hvalue⟩ := exists_neighbours_magnitude h0 hfin
  have hread : (ofDecimal false c).code = x.code := by
    rw [ofDecimal_of_value hfin hvalue, code_ofCode (code_lt x)]
  -- The search succeeds at the latest where the magnitude stands on the grid.
  have hsome : ((List.range 113).findSome? fun k =>
      (neighbours x.quanta quantaPerOne (Int.log 10 x.magnitude - (k : ℕ))).find? fun d =>
        (ofDecimal false d).code == x.code).isSome = true := by
    rw [List.findSome?_isSome_iff]
    exact ⟨k, List.mem_range.2 hk, by simp [hc, hread]⟩
  obtain ⟨d, hd⟩ := Option.isSome_iff_exists.1 hsome
  have hshortest : x.shortest = d := by
    simp [shortest, hlead, hd, h0]
  obtain ⟨i, hi, hfind⟩ := List.exists_of_findSome?_eq_some hd
  have hmem := List.mem_of_find?_eq_some hfind
  have hlt : x.magnitude < 10 ^ (Int.log 10 x.magnitude - i + (i + 1 : ℕ)) := by
    have h := Int.lt_zpow_succ_log_self (b := 10) (by norm_num) x.magnitude
    rw [Nat.cast_ofNat] at h
    rwa [show Int.log 10 x.magnitude - i + (i + 1 : ℕ) = Int.log 10 x.magnitude + 1 by omega]
  rw [hshortest]
  refine ⟨by simpa using List.find?_some hfind, ?_⟩
  exact (digits_le_of_mem_neighbours quantaPerOne_pos hlt hmem).trans
    (Nat.pow_le_pow_right (by decide) (List.mem_range.1 hi))

end Single

end ShaderChain
