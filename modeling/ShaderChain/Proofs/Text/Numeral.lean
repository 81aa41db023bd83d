import Mathlib.Algebra.Group.Nat.Defs
import ShaderChain.Text.Numeral

/-!
# Decimal numerals read back

The decimal of a number has digits only, starts with a zero for zero alone, and is read back
as the number. A factor of ten is a zero at its end.
-/

namespace ShaderChain.Text

variable {n k : Nat} {c : Char}

theorem decimal_ne_nil (n : Nat) : decimal n ≠ [] := Nat.toDigits_ne_nil

theorem isDigit_of_mem_decimal (h : c ∈ decimal n) : c.isDigit = true :=
  Nat.isDigit_of_mem_toDigits (by decide) (by decide) h

theorem ofDigitChars_decimal (n : Nat) : Nat.ofDigitChars 10 (decimal n) 0 = n :=
  Nat.ofDigitChars_ten_toDigits

theorem digits?_decimal (n : Nat) : digits? (decimal n) = some n :=
  digits?_eq_some_iff.2
    ⟨decimal_ne_nil n, fun _ hc => isDigit_of_mem_decimal hc, ofDigitChars_decimal n⟩

theorem decimal_of_lt (h : n < 10) : decimal n = [n.digitChar] := Nat.toDigits_of_lt_base h

theorem decimal_of_le (h : 10 ≤ n) : decimal n = decimal (n / 10) ++ [(n % 10).digitChar] :=
  Nat.toDigits_of_base_le (by decide) h

theorem length_decimal_le_iff (h : 0 < k) : (decimal n).length ≤ k ↔ n < 10 ^ k :=
  Nat.length_toDigits_le_iff (by decide) h

theorem lt_pow_length_decimal (n : Nat) : n < 10 ^ (decimal n).length :=
  (length_decimal_le_iff (List.length_pos_iff.2 (decimal_ne_nil n))).1 (Nat.le_refl _)

theorem pow_length_decimal_le (h : 0 < n) : 10 ^ ((decimal n).length - 1) ≤ n := by
  rcases Nat.eq_zero_or_pos ((decimal n).length - 1) with h0 | hpos
  · rwa [h0, Nat.pow_zero]
  · refine Nat.le_of_not_lt fun hlt => ?_
    have hle := (length_decimal_le_iff hpos).2 hlt
    omega

theorem head?_decimal_ne_zero (h : 0 < n) : (decimal n).head? ≠ some '0' := by
  induction n using Nat.strongRecOn with
  | ind n ih =>
      by_cases hlt : n < 10
      · rw [decimal_of_lt hlt, List.head?_cons, ne_eq, Option.some.injEq, Nat.digitChar_eq_zero]
        exact Nat.ne_of_gt h
      · have hhead := ih (n / 10) (by omega) (by omega)
        obtain ⟨c, cs, hcs⟩ := List.exists_cons_of_ne_nil (decimal_ne_nil (n / 10))
        rw [hcs, List.head?_cons] at hhead
        rwa [decimal_of_le (Nat.le_of_not_lt hlt), hcs, List.cons_append, List.head?_cons]

theorem decimal_mul_ten (h : 0 < n) : decimal (n * 10) = decimal n ++ ['0'] := by
  have hle : 10 ≤ n * 10 := by omega
  rw [decimal_of_le hle, Nat.mul_div_cancel n (by decide), Nat.mul_mod_left]
  rfl

theorem decimal_mul_ten_pow (h : 0 < n) (k : Nat) :
    decimal (n * 10 ^ k) = decimal n ++ List.replicate k '0' := by
  induction k with
  | zero => simp
  | succ k ih =>
      have hpos : 0 < n * 10 ^ k := Nat.mul_pos h (Nat.pow_pos (by decide))
      rw [Nat.pow_succ, ← Nat.mul_assoc, decimal_mul_ten hpos, ih, List.append_assoc,
        List.replicate_succ']

/-! ### Signs -/

/-- Whether a text writes an integer: ASCII digits, with at most one sign in front. -/
inductive IsInteger : List Char → Int → Prop
  | unsigned {ds : List Char} {n : Nat} (h : digits? ds = some n) : IsInteger ds n
  | plus {ds : List Char} {n : Nat} (h : digits? ds = some n) : IsInteger ('+' :: ds) n
  | minus {ds : List Char} {n : Nat} (h : digits? ds = some n) : IsInteger ('-' :: ds) (-n)

theorem digits?_cons_of_not_isDigit {ds : List Char} (hc : c.isDigit = false) :
    digits? (c :: ds) = none := by
  simp [digits?, hc]

theorem unsigned?_eq_some_iff {bound : Nat} {s : List Char} :
    unsigned? bound s = some n ↔
      (digits? s = some n ∨ ∃ ds, s = '+' :: ds ∧ digits? ds = some n) ∧ n < bound := by
  unfold unsigned?
  split
  · next ds => simp [Option.filter_eq_some_iff, digits?_cons_of_not_isDigit (c := '+') rfl]
  · next hplus =>
      rw [Option.filter_eq_some_iff, decide_eq_true_eq]
      refine and_congr_left fun _ => ⟨Or.inl, ?_⟩
      rintro (h | ⟨ds, rfl, -⟩)
      · exact h
      · exact absurd rfl (hplus ds)

theorem isInteger_of_count? {s : List Char} (h : count? s = some n) :
    IsInteger s n ∧ n < 2 ^ 63 := by
  refine ⟨?_, count?_lt h⟩
  unfold count? at h
  split at h
  · next ds =>
      obtain ⟨hdigits, hzero⟩ := Option.filter_eq_some_iff.1 h
      obtain rfl : n = 0 := of_decide_eq_true hzero
      exact .minus hdigits
  · rcases (unsigned?_eq_some_iff.1 h).1 with hdigits | ⟨ds, rfl, hdigits⟩
    · exact .unsigned hdigits
    · exact .plus hdigits

theorem count?_of_isInteger {s : List Char} (h : IsInteger s n) (hlt : n < 2 ^ 63) :
    count? s = some n := by
  generalize hz : (n : Int) = z at h
  cases h with
  | @unsigned _ k hdigits =>
      obtain rfl : n = k := by omega
      unfold count?
      split
      · rw [digits?_cons_of_not_isDigit rfl] at hdigits
        cases hdigits
      · exact unsigned?_eq_some_iff.2 ⟨Or.inl hdigits, hlt⟩
  | @plus ds k hdigits =>
      obtain rfl : n = k := by omega
      exact unsigned?_eq_some_iff.2 ⟨Or.inr ⟨ds, rfl, hdigits⟩, hlt⟩
  | @minus ds k hdigits =>
      obtain ⟨rfl, rfl⟩ : n = 0 ∧ k = 0 := by omega
      exact Option.filter_eq_some_iff.2 ⟨hdigits, rfl⟩

/-- A count is the text of an integer that is not negative and fits into a signed word. -/
theorem count?_eq_some_iff {s : List Char} :
    count? s = some n ↔ IsInteger s n ∧ n < 2 ^ 63 :=
  ⟨isInteger_of_count?, fun h => count?_of_isInteger h.1 h.2⟩

end ShaderChain.Text
