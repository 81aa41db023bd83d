import Mathlib.Data.List.DropRight
import ShaderChain.Proofs.Json.Numeral
import ShaderChain.Proofs.Single.Shortest

/-!
# Singles read back

A decimal is written in one of four layouts. Each is the text of a numeral of the decimal's
value, with no more digits than the decimal has significant ones. The shortest decimal of a
finite single has few enough that nothing is cut off when it is read, so the single comes back,
minus zero too.
-/

namespace ShaderChain.Json

variable {d : Decimal} {x : Single} {n : Numeral}

theorem dropEndZeros_eq_rdropWhile (ds : List Char) : dropEndZeros ds = ds.rdropWhile (· == '0') :=
  rfl

theorem dropEndZeros_isPrefixOf (ds : List Char) : dropEndZeros ds <+: ds :=
  List.rdropWhile_prefix _ ds

theorem exists_append_zeros (ds : List Char) :
    ∃ k, ds = dropEndZeros ds ++ List.replicate k '0' := by
  have hzeros : ∀ c ∈ ds.rtakeWhile (· == '0'), c = '0' := fun c hc => by
    simpa using List.mem_rtakeWhile_imp hc
  refine ⟨(ds.rtakeWhile (· == '0')).length, ?_⟩
  rw [← List.eq_replicate_of_mem hzeros, dropEndZeros_eq_rdropWhile]
  exact List.rdropWhile_append_rtakeWhile.symm

/-! ### The significant digits -/

theorem exists_decimal_eq (d : Decimal) :
    ∃ k, Text.decimal d.digits = significantDigits d ++ List.replicate k '0' :=
  exists_append_zeros _

theorem isDigit_of_mem_significantDigits {c : Char} (h : c ∈ significantDigits d) :
    c.isDigit = true :=
  Text.isDigit_of_mem_decimal ((dropEndZeros_isPrefixOf _).subset h)

theorem significantDigits_ne_nil (h : d.digits ≠ 0) : significantDigits d ≠ [] := by
  intro hnil
  obtain ⟨k, hk⟩ := exists_decimal_eq d
  have hhead := Text.head?_decimal_ne_zero (Nat.pos_of_ne_zero h)
  rw [hk, hnil, List.nil_append] at hhead
  have hne := Text.decimal_ne_nil d.digits
  rw [hk, hnil, List.nil_append] at hne
  cases k with
  | zero => exact hne rfl
  | succ k => exact hhead rfl

/-- The significant digits do not end with a zero, whatever stands in front of them. -/
theorem dropEndZeros_append_significantDigits (h : d.digits ≠ 0) (s : List Char) :
    dropEndZeros (s ++ significantDigits d) = s ++ significantDigits d := by
  have hne := significantDigits_ne_nil h
  rw [dropEndZeros_eq_rdropWhile, List.rdropWhile_eq_self_iff]
  intro hl
  rw [List.getLast_append_of_ne_nil hl hne]
  exact List.rdropWhile_last_not _ _ hne

theorem head?_significantDigits (h : d.digits ≠ 0) : (significantDigits d).head? ≠ some '0' := by
  obtain ⟨c, cs, hcs⟩ := List.exists_cons_of_ne_nil (significantDigits_ne_nil h)
  obtain ⟨k, hk⟩ := exists_decimal_eq d
  have hhead := Text.head?_decimal_ne_zero (Nat.pos_of_ne_zero h)
  rw [hk, hcs, List.cons_append, List.head?_cons] at hhead
  rwa [hcs, List.head?_cons]

/-- The significant digits stand in front of the place of the first digit and behind it. -/
theorem value_significantDigits (d : Decimal) :
    (⟨Nat.ofDigitChars 10 (significantDigits d) 0,
      firstPlace d + 1 - (significantDigits d).length⟩ : Decimal).value = d.value := by
  obtain ⟨k, hk⟩ := exists_decimal_eq d
  have hdigits : d.digits = Nat.ofDigitChars 10 (significantDigits d) 0 * 10 ^ k := by
    have h := Text.ofDigitChars_decimal d.digits
    rw [hk, Nat.ofDigitChars_append, Nat.ofDigitChars_replicate_zero, Nat.mul_comm] at h
    exact h.symm
  have hplace : firstPlace d + 1 - (significantDigits d).length = d.exponent + k := by
    rw [firstPlace, hk, List.length_append, List.length_replicate]
    push_cast
    ring
  rw [hplace, ← Decimal.value_mul_ten_pow, ← hdigits]

/-- A decimal up to `10 ^ 113` has at most 113 significant digits. -/
theorem length_significantDigits_le (h : d.digits ≤ 10 ^ 113) :
    (significantDigits d).length ≤ digitLimit := by
  rcases Nat.lt_or_eq_of_le h with hlt | heq
  · exact (dropEndZeros_isPrefixOf _).length_le.trans
      ((Text.length_decimal_le_iff (by decide)).2 hlt)
  · have hone : Text.decimal d.digits = ['1'] ++ List.replicate 113 '0' := by
      rw [heq, ← Nat.one_mul (10 ^ 113), Text.decimal_mul_ten_pow Nat.one_pos]
      rfl
    rw [significantDigits, hone]
    decide

/-! ### The layouts -/

/-- The numeral in whose text a decimal is written. -/
def layout (d : Decimal) : Numeral :=
  let ds := significantDigits d
  let e := firstPlace d
  if e < -6 || 12 < e then ⟨ds.take 1, ds.drop 1, e⟩
  else if e < 0 then ⟨['0'], List.replicate (-e - 1).toNat '0' ++ ds, 0⟩
  else if ds.length ≤ (e + 1).toNat then
    ⟨ds ++ List.replicate ((e + 1).toNat - ds.length) '0', ['0'], 0⟩
  else ⟨ds.take (e + 1).toNat, ds.drop (e + 1).toNat, 0⟩

theorem renderDecimal_eq_text (h : d.digits ≠ 0) : renderDecimal d = (layout d).text := by
  have hne := significantDigits_ne_nil h
  simp only [renderDecimal, layout]
  split
  · have he : firstPlace d ≠ 0 := by
      simp only [Bool.or_eq_true, decide_eq_true_eq] at *
      omega
    rcases hds : significantDigits d with _ | ⟨c, _ | ⟨c', cs⟩⟩
    · exact absurd hds hne
    · simp [Numeral.text, he]
    · simp [Numeral.text, he]
  · split
    · simp [Numeral.text, hne]
    · rw [pointed]
      split
      · simp [Numeral.text]
      · simp [Numeral.text]
        omega

/-- Nothing but zeros stands around the significant digits, and they stand at their place. -/
theorem exists_layout_digits (h : d.digits ≠ 0) :
    ∃ i j, (layout d).whole ++ (layout d).part =
        List.replicate i '0' ++ significantDigits d ++ List.replicate j '0' ∧
      (layout d).exponent - (layout d).part.length + j =
        firstPlace d + 1 - (significantDigits d).length := by
  have hpos : 0 < (significantDigits d).length :=
    List.length_pos_iff.2 (significantDigits_ne_nil h)
  simp only [layout]
  split
  · refine ⟨0, 0, by rw [List.take_append_drop]; simp, ?_⟩
    simp only [List.length_drop]
    omega
  · split
    · refine ⟨(-firstPlace d - 1).toNat + 1, 0, by simp [List.replicate_succ], ?_⟩
      simp only [List.length_append, List.length_replicate]
      omega
    · split
      · refine ⟨0, (firstPlace d + 1).toNat - (significantDigits d).length + 1, ?_, ?_⟩
        · simp [List.replicate_succ']
        · simp only [List.length_singleton]
          omega
      · refine ⟨0, 0, by simp, ?_⟩
        simp only [List.length_drop]
        omega

theorem value_layout (h : d.digits ≠ 0) : (layout d).decimal.value = d.value := by
  obtain ⟨i, j, hdigits, hplace⟩ := exists_layout_digits h
  have hvalue : (layout d).digits = Nat.ofDigitChars 10 (significantDigits d) 0 * 10 ^ j := by
    rw [Numeral.digits, hdigits, Nat.ofDigitChars_append, Nat.ofDigitChars_append,
      Nat.ofDigitChars_replicate_zero, Nat.ofDigitChars_replicate_zero, Nat.mul_zero, Nat.mul_comm]
  rw [Numeral.decimal, hvalue, Decimal.value_mul_ten_pow, hplace, value_significantDigits]

theorem isDigit_of_mem_layout (h : d.digits ≠ 0) :
    ∀ c ∈ (layout d).whole ++ (layout d).part, c.isDigit = true := by
  obtain ⟨i, j, hdigits, -⟩ := exists_layout_digits h
  intro c hc
  simp only [hdigits, List.mem_append, List.mem_replicate] at hc
  rcases hc with (⟨-, rfl⟩ | hc) | ⟨-, rfl⟩
  · rfl
  · exact isDigit_of_mem_significantDigits hc
  · rfl

theorem isNumber_layout (h : d.digits ≠ 0) : (layout d).IsNumber where
  whole c hc := isDigit_of_mem_layout h c (List.mem_append_left _ hc)
  part c hc := isDigit_of_mem_layout h c (List.mem_append_right _ hc)
  ne_nil := by
    have hne := significantDigits_ne_nil h
    simp only [layout]
    split
    · simp [hne]
    · split
      · simp
      · split <;> simp [hne]
        omega
  head := by
    obtain ⟨c, cs, hcs⟩ := List.exists_cons_of_ne_nil (significantDigits_ne_nil h)
    have hhead := head?_significantDigits h
    rw [hcs, List.head?_cons] at hhead
    simp only [layout, hcs]
    split
    · exact Or.inr hhead
    · split
      · exact Or.inl rfl
      · split
        · exact Or.inr hhead
        · refine Or.inr ?_
          rw [List.take_cons (by omega)]
          exact hhead

/-- Every layout shows by a point or by an exponent that it is no whole number. -/
theorem layout_not_whole (h : d.digits ≠ 0) : (layout d).part ≠ [] ∨ (layout d).exponent ≠ 0 := by
  have hne := significantDigits_ne_nil h
  simp only [layout]
  split
  · simp only [Bool.or_eq_true, decide_eq_true_eq] at *
    exact Or.inr (by omega)
  · split
    · simp [hne]
    · split <;> simp
      omega

/-- Of a decimal with few digits nothing is cut off. -/
theorem cutDecimal_layout (h : d.digits ≠ 0) (hle : (significantDigits d).length ≤ digitLimit) :
    cutDecimal (layout d) = (layout d).decimal := by
  have hsuffix : ∀ ds : List Char, (ds.dropWhile (· == '0')).length ≤ ds.length := fun ds =>
    (List.dropWhile_suffix _).length_le
  have hsplit : ∀ i, (((significantDigits d).take i ++
      dropEndZeros ((significantDigits d).drop i)).dropWhile (· == '0')).length ≤ digitLimit := by
    intro i
    refine (hsuffix _).trans (le_trans ?_ hle)
    have hend := (dropEndZeros_isPrefixOf ((significantDigits d).drop i)).length_le
    rw [List.length_drop] at hend
    rw [List.length_append, List.length_take]
    omega
  have hlength : (((layout d).whole ++ dropEndZeros (layout d).part).dropWhile (· == '0')).length ≤
      digitLimit := by
    simp only [layout]
    split
    · exact hsplit 1
    · split
      · have hzeros : ∀ c ∈ '0' :: List.replicate (-firstPlace d - 1).toNat '0',
            (c == '0') = true := by simp
        rw [dropEndZeros_append_significantDigits h, ← List.append_assoc, List.singleton_append,
          List.dropWhile_append_of_pos hzeros]
        exact (hsuffix _).trans hle
      · split
        · have hzero : dropEndZeros ['0'] = [] := rfl
          refine (hsuffix _).trans ?_
          simp only [Bool.or_eq_true, decide_eq_true_eq] at *
          simp only [hzero, List.append_nil, List.length_append, List.length_replicate, digitLimit]
          omega
        · exact hsplit _
  simp only [cutDecimal, if_pos hlength]

/-! ### Singles -/

/-- The magnitude of a finite single is written as a numeral that is no whole number and reads
back as the magnitude. -/
theorem exists_magnitude_text (h : x.isFinite = true) :
    ∃ n : Numeral, (if x.isZero then ['0', '.', '0'] else renderDecimal x.shortest) = n.text ∧
      n.IsNumber ∧ (n.part ≠ [] ∨ n.exponent ≠ 0) ∧
        (Single.ofDecimal false (cutDecimal n)).code = x.code := by
  cases h0 : x.isZero with
  | true =>
      have hcode : x.code = 0 := by simpa [Single.isZero] using h0
      refine ⟨⟨['0'], ['0'], 0⟩, rfl, ⟨by simp, by simp, by simp, Or.inl rfl⟩, by simp, ?_⟩
      rw [hcode]
      decide
  | false =>
      obtain ⟨hread, hdigits⟩ := Single.shortest_spec h0 h
      have hne : x.shortest.digits ≠ 0 := by
        intro hzero
        have hcode : (Single.ofDecimal false x.shortest).code = 0 := by
          simp [Single.ofDecimal, hzero, Single.zero, Single.code_ofCode]
        simp [Single.isZero, ← hread, hcode] at h0
      refine ⟨layout x.shortest, renderDecimal_eq_text hne, isNumber_layout hne,
        layout_not_whole hne, ?_⟩
      rw [cutDecimal_layout hne (length_significantDigits_le hdigits),
        Single.ofDecimal_congr false (value_layout hne), hread]

theorem all_isDigit_text (h : n.part ≠ [] ∨ n.exponent ≠ 0) : n.text.all Char.isDigit = false := by
  rw [List.all_eq_false]
  rcases h with hpart | hexponent
  · exact ⟨'.', by simp [Numeral.text, hpart], by decide⟩
  · exact ⟨'e', by simp [Numeral.text, hexponent], by decide⟩

theorem magnitude?_text (negative : Bool) (h : n.IsNumber) (hn : n.part ≠ [] ∨ n.exponent ≠ 0) :
    magnitude? negative n.text = some (cutDecimal n) := by
  simp [magnitude?, Numeral.read?_text h, all_isDigit_text hn]

/-- The token of a finite single is a number. -/
theorem exists_renderSingle_eq (h : x.isFinite = true) :
    ∃ n : Numeral, n.IsNumber ∧
      renderSingle x = if x.isNegative then '-' :: n.text else n.text := by
  obtain ⟨n, htext, hn, -, -⟩ := exists_magnitude_text h
  exact ⟨n, hn, by simp only [renderSingle, htext]⟩

/-- A finite single is read back from its number, with its sign. -/
theorem single?_ofSingle (h : x.isFinite = true) : single? (ofSingle x) = some x := by
  obtain ⟨n, htext, hn, hwhole, hcode⟩ := exists_magnitude_text h
  have hread : (Single.ofDecimal x.isNegative (cutDecimal n)) = x := by
    rw [Single.ofDecimal_eq_ofCode, hcode, Single.ofCode_code]
  rw [ofSingle, if_pos h, renderSingle]
  simp only [htext]
  cases hneg : x.isNegative with
  | true =>
      rw [hneg] at hread
      simp [single?, magnitude?_text true hn hwhole, hread, h]
  | false =>
      obtain ⟨c, cs, hcs⟩ := List.exists_cons_of_ne_nil hn.ne_nil
      have hdigit : c.isDigit = true := hn.whole c (by simp [hcs])
      have hmagnitude := magnitude?_text false hn hwhole
      rw [hneg] at hread
      rw [if_neg Bool.false_ne_true]
      rw [Numeral.text, hcs, List.cons_append] at hmagnitude ⊢
      rw [single?, hmagnitude]
      · simp [hread, h]
      · rintro t ⟨⟩
        exact absurd hdigit (by decide)

end ShaderChain.Json
