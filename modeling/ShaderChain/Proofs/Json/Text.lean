import ShaderChain.Json.Reader

/-!
# Strings read back

Escaping a text and reading it back gives the text. Each character is escaped on its own, and
the readers take the escaped character whole, whatever follows it.
-/

namespace ShaderChain.Json

/-- A character is escaped by a letter of its own or by its number, or it stands for itself. -/
theorem escapeChar_cases (c : Char) :
    (∃ d, simpleEscape? d = some c ∧ escapeChar c = ['\\', d]) ∨
      (c.toNat < 0x20 ∧
        escapeChar c = ['\\', 'u', '0', '0', hexChar (c.toNat / 16), hexChar (c.toNat % 16)]) ∨
      (c ≠ '"' ∧ c ≠ '\\' ∧ ¬ c.toNat < 0x20 ∧ escapeChar c = [c]) := by
  by_cases hsimple : c ∈ ['"', '\\', '\x08', '\x0c', '\n', '\r', '\t']
  · refine Or.inl ?_
    simp only [List.mem_cons, List.not_mem_nil, or_false] at hsimple
    rcases hsimple with rfl | rfl | rfl | rfl | rfl | rfl | rfl
    · exact ⟨'"', rfl, rfl⟩
    · exact ⟨'\\', rfl, rfl⟩
    · exact ⟨'b', rfl, rfl⟩
    · exact ⟨'f', rfl, rfl⟩
    · exact ⟨'n', rfl, rfl⟩
    · exact ⟨'r', rfl, rfl⟩
    · exact ⟨'t', rfl, rfl⟩
  · simp only [List.mem_cons, List.not_mem_nil, or_false, not_or] at hsimple
    obtain ⟨hquote, hslash, hb, hf, hn, hr, ht⟩ := hsimple
    refine Or.inr ?_
    by_cases hcontrol : c.toNat < 0x20
    · exact Or.inl ⟨hcontrol, by simp [escapeChar, *]⟩
    · exact Or.inr ⟨hquote, hslash, hcontrol, by simp [escapeChar, *]⟩

/-- A control is written by the two hexadecimal digits of its number. -/
theorem hex?_control {n : Nat} (h : n < 0x20) :
    hex? ['0', '0', hexChar (n / 16), hexChar (n % 16)] = some n := by
  revert n
  decide

theorem unescape?_escapeChar_append (c : Char) (t : List Char) :
    unescape? (escapeChar c ++ t) = (unescape? t).map (c :: ·) := by
  rcases escapeChar_cases c with ⟨d, hd, hesc⟩ | ⟨hcontrol, hesc⟩ | ⟨-, hslash, -, hesc⟩
  · have hu : d ≠ 'u' := by
      rintro rfl
      simp [simpleEscape?] at hd
    rw [hesc]
    simp [unescape?, hd, hu]
  · have hhigh : isHighSurrogate c.toNat = false := by
      simp only [isHighSurrogate, Bool.and_eq_false_iff, decide_eq_false_iff_not]
      omega
    have hlow : isLowSurrogate c.toNat = false := by
      simp only [isLowSurrogate, Bool.and_eq_false_iff, decide_eq_false_iff_not]
      omega
    rw [hesc]
    simp [unescape?, hex?_control hcontrol, hhigh, hlow]
  · rw [hesc]
    simp [unescape?, hslash]

theorem readString?_escapeChar_append (c : Char) (t : List Char) :
    readString? (escapeChar c ++ t) = (readString? t).map fun p => (escapeChar c ++ p.1, p.2) := by
  rcases escapeChar_cases c with ⟨d, hd, hesc⟩ | ⟨hcontrol, hesc⟩ | ⟨hquote, hslash, hcontrol, hesc⟩
  · have hu : d ≠ 'u' := by
      rintro rfl
      simp [simpleEscape?] at hd
    rw [hesc]
    simp [readString?, hd, hu]
  · rw [hesc]
    simp [readString?, hex?_control hcontrol]
  · have hplain : ¬ (c = '\\' || c.toNat < 0x20) = true := by simp [hslash, Nat.not_lt.1 hcontrol]
    rw [hesc, List.singleton_append, readString?, if_neg hplain]
    · rfl
    all_goals simp [hquote, hslash]

theorem unescape?_escape (s : List Char) : unescape? (escape s) = some s := by
  induction s with
  | nil => rfl
  | cons c s ih =>
      rw [escape, List.flatMap_cons, unescape?_escapeChar_append]
      rw [escape] at ih
      rw [ih, Option.map_some]

/-- A string is read up to its closing quote, which its text does not hold bare. -/
theorem readString?_escape (s r : List Char) :
    readString? (escape s ++ '"' :: r) = some (escape s, r) := by
  induction s with
  | nil => rfl
  | cons c s ih =>
      rw [escape] at ih
      rw [escape, List.flatMap_cons, List.append_assoc, readString?_escapeChar_append, ih,
        Option.map_some]

@[simp] theorem string?_ofString (s : String) : (ofString s).string? = some s := by
  simp [ofString, string?, unescape?_escape]

end ShaderChain.Json
