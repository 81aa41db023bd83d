import ShaderChain.Proofs.Preset.Written
import ShaderChain.Proofs.Text.Bytes

/-!
# Presets byte by byte

A preset is scanned as text, and its bytes are scanned alike: the text that has a character for each
byte is scanned to the assignments of the preset, byte for byte. Everything at which a scan ends is
ASCII, and a character of ASCII is found among bytes exactly where it is. A backslash escapes one
byte there, and so it may escape a part of a character only, but what is left of the character
neither closes the quotes nor escapes anything.
-/

namespace ShaderChain.Preset

open Text (bytewise byteChars)

variable {s run line : List Char} {c d : Char}

theorem ne_of_le (hc : 128 ≤ c.toNat) (hd : d.toNat < 128) : c ≠ d := by
  rintro rfl
  omega

theorem not_val_le_of_le (hc : 128 ≤ c.toNat) (hd : d.toNat < 128) : ¬ c.val ≤ d.val := by
  intro h
  have hle : c.toNat ≤ d.toNat := UInt32.le_iff_toNat_le.1 h
  omega

/-! ### Values -/

theorem closed?_cons (hquote : c ≠ '"') (hescape : c ≠ '\\') (s : List Char) :
    closed? (c :: s) = (closed? s).map (c :: ·) := by
  rw [closed?]
  · exact hquote
  · exact fun _ _ h => absurd h hescape

/-- What is not ASCII closes nothing and escapes nothing. -/
theorem closed?_append_of_le (h : ∀ c ∈ run, 128 ≤ c.toNat) :
    closed? (run ++ s) = (closed? s).map (run ++ ·) := by
  induction run with
  | nil => simp
  | cons c run ih =>
      have hc := h c List.mem_cons_self
      rw [List.cons_append, closed?_cons (ne_of_le hc (by decide)) (ne_of_le hc (by decide)),
        ih fun d hd => h d (List.mem_cons_of_mem c hd), Option.map_map]
      rfl

/-- Bytes and characters are searched alike for the closing quote. So the end of the value is never
inside a character, although a backslash may escape a part of one. -/
theorem closed?_bytewise (s : List Char) : closed? (bytewise s) = (closed? s).map bytewise := by
  fun_induction closed? s with
  | case1 => rfl
  | case2 rest =>
      rw [Text.bytewise_cons_of_lt (by decide), closed?]
      rfl
  | case3 c s ih =>
      -- the first byte is escaped, and the others, if there are any, are not ASCII
      obtain ⟨b, bs, hbytes, hbs⟩ := Text.exists_byteChars_eq_cons c
      rw [Text.bytewise_cons_of_lt (by decide), Text.bytewise_cons, hbytes, List.cons_append,
        closed?, closed?_append_of_le hbs, ih, Option.map_map, Option.map_map, Option.map_map]
      refine congrArg (Option.map · _) (funext fun v => ?_)
      simp [Text.bytewise_cons_of_lt, Text.bytewise_cons, hbytes]
  | case4 c s hquote hslash ih =>
      rcases Nat.lt_or_ge c.toNat 128 with hc | hc
      · by_cases hescape : c = '\\'
        · cases s with
          | nil =>
              subst hescape
              rfl
          | cons d s => exact absurd rfl (hslash d s hescape)
        · rw [Text.bytewise_cons_of_lt hc, closed?_cons hquote hescape, ih, Option.map_map,
            Option.map_map]
          refine congrArg (Option.map · _) (funext fun v => ?_)
          exact (Text.bytewise_cons_of_lt hc v).symm
      · rw [Text.bytewise_cons, closed?_append_of_le fun d => Text.le_of_mem_byteChars hc, ih,
          Option.map_map, Option.map_map]
        rfl

theorem quotedValue_bytewise (s : List Char) :
    quotedValue (bytewise s) = bytewise (quotedValue s) := by
  rw [quotedValue, quotedValue, closed?_bytewise]
  cases closed? s with
  | some v => rfl
  | none =>
      obtain ⟨returns, hs, hreturns, hlast⟩ :=
        reverse_dropWhile_return_eq_iff.1 (Eq.refl (s.reverse.dropWhile (· == '\r')).reverse)
      have hbytes : bytewise returns = returns := by
        refine (List.flatMap_congr fun c hc => ?_).trans (List.flatMap_singleton' returns)
        rw [hreturns c hc]
        decide
      refine reverse_dropWhile_return_eq_iff.2 ⟨returns, ?_, hreturns, ?_⟩
      · conv_lhs => rw [hs, Text.bytewise_append, hbytes]
        rfl
      · exact (Text.getLast?_bytewise_eq_iff (by decide)).not.2 hlast

theorem isBlank_of_le (h : 128 ≤ c.toNat) : isBlank c = false := by
  rw [Bool.eq_false_iff, ne_eq, isBlank_iff]
  rintro (hc | hc | hc) <;> exact ne_of_le h (by decide) hc

theorem endsBare_of_le (h : 128 ≤ c.toNat) : endsBare c = false := by
  rw [Bool.eq_false_iff, ne_eq, endsBare_iff]
  intro hc
  have hall : bareEnds.all (fun d => decide (d.toNat < 128)) = true := by decide
  have hlt : c.toNat < 128 := of_decide_eq_true (List.all_eq_true.1 hall c hc)
  omega

theorem isAlpha_of_le (h : 128 ≤ c.toNat) : c.isAlpha = false := by
  have hupper : c.isUpper = false :=
    decide_eq_false fun hc => not_val_le_of_le h (by decide) hc.2
  have hlower : c.isLower = false := by
    refine Bool.and_eq_false_imp.2 fun _ => ?_
    exact decide_eq_false (not_val_le_of_le h (by decide))
  exact congrArg₂ or hupper hlower

theorem isKeyChar_of_le (h : 128 ≤ c.toNat) : isKeyChar c = false := by
  have hdigit : c.isDigit = false := by
    refine Bool.and_eq_false_imp.2 fun _ => ?_
    exact decide_eq_false (not_val_le_of_le h (by decide))
  have hunderscore : c ≠ '_' := ne_of_le h (by decide)
  simp [isKeyChar, Char.isAlphanum, isAlpha_of_le h, hdigit, hunderscore]

theorem value?_of_head?_ne (h : s.head? ≠ some '"') :
    value? s = (some (s.takeWhile fun d => !endsBare d)).filter (· ≠ []) := by
  cases s with
  | nil => rfl
  | cons c s =>
      rw [value?]
      · exact List.cons_ne_nil c s
      · rintro rest ⟨⟩
        exact h rfl

theorem value?_bytewise (s : List Char) : value? (bytewise s) = (value? s).map bytewise := by
  by_cases h : s.head? = some '"'
  · obtain ⟨s, rfl⟩ := List.head?_eq_some_iff.1 h
    rw [Text.bytewise_cons_of_lt (by decide), value?, value?, quotedValue_bytewise]
    rfl
  · have hends : ∀ c, ∀ d ∈ byteChars c, (!endsBare d) = !endsBare c := fun c d hd =>
      congrArg _ (Text.apply_eq_of_mem_byteChars (fun _ => endsBare_of_le) hd)
    rw [value?_of_head?_ne h, value?_of_head?_ne ((Text.head?_bytewise_eq_iff (by decide)).not.2 h),
      Text.takeWhile_bytewise hends]
    generalize s.takeWhile (fun d => !endsBare d) = v
    by_cases hv : v = []
    · rw [hv]
      rfl
    · have hbytes := Text.bytewise_eq_nil_iff.not.2 hv
      rw [Option.filter_some_pos (by simpa using hbytes),
        Option.filter_some_pos (by simpa using hv)]
      rfl

theorem dropWhile_isBlank_bytewise (s : List Char) :
    (bytewise s).dropWhile isBlank = bytewise (s.dropWhile isBlank) :=
  Text.dropWhile_bytewise (fun _ _ => Text.apply_eq_of_mem_byteChars fun _ => isBlank_of_le) s

theorem assigned?_of_head?_ne (h : s.head? ≠ some '=') : assigned? s = none := by
  rw [assigned?]
  rintro rest rfl
  exact h rfl

theorem assigned?_bytewise (s : List Char) :
    assigned? (bytewise s) = (assigned? s).map bytewise := by
  by_cases h : s.head? = some '='
  · obtain ⟨s, rfl⟩ := List.head?_eq_some_iff.1 h
    rw [Text.bytewise_cons_of_lt (by decide), assigned?, assigned?, dropWhile_isBlank_bytewise,
      value?_bytewise]
  · rw [assigned?_of_head?_ne h,
      assigned?_of_head?_ne ((Text.head?_bytewise_eq_iff (by decide)).not.2 h)]
    rfl

/-! ### Lines -/

/-- A reading with its bytes. -/
def LineReading.bytewise : LineReading → LineReading
  | skip => skip
  | assign key value => assign (Text.bytewise key) (Text.bytewise value)
  | malformed => malformed

/-- A line that starts with what is not ASCII is malformed. -/
theorem readLine_of_le (h : line.dropWhile isBlank = c :: s) (hc : 128 ≤ c.toNat) :
    readLine line = .malformed := by
  have hcomment : ¬ (c = '#' ∨ c = '/' ∧ s.head? = some '/') := by
    rintro (hhash | ⟨hslash, -⟩)
    · exact ne_of_le hc (by decide) hhash
    · exact ne_of_le hc (by decide) hslash
  rw [readLine_of_not_isAlpha h (isAlpha_of_le hc), if_neg hcomment]

theorem readLine_bytewise (line : List Char) :
    readLine (bytewise line) = (readLine line).bytewise := by
  have hkey : ∀ c, ∀ d ∈ byteChars c, isKeyChar d = isKeyChar c := fun _ _ =>
    Text.apply_eq_of_mem_byteChars fun _ => isKeyChar_of_le
  have hbytes := dropWhile_isBlank_bytewise line
  rcases hline : line.dropWhile isBlank with _ | ⟨c, s⟩
  · rw [hline] at hbytes
    rw [readLine_of_blank hline, readLine_of_blank hbytes]
    rfl
  · rw [hline] at hbytes
    rcases Nat.lt_or_ge c.toNat 128 with hc | hc
    · rw [Text.bytewise_cons_of_lt hc] at hbytes
      cases halpha : c.isAlpha with
      | false =>
          rw [readLine_of_not_isAlpha hline halpha, readLine_of_not_isAlpha hbytes halpha]
          simp only [Text.head?_bytewise_eq_iff (d := '/') (by decide)]
          split <;> rfl
      | true =>
          rw [readLine_of_isAlpha hline halpha, readLine_of_isAlpha hbytes halpha,
            Text.takeWhile_bytewise hkey, Text.dropWhile_bytewise hkey, dropWhile_isBlank_bytewise,
            assigned?_bytewise]
          cases assigned? ((s.dropWhile isKeyChar).dropWhile isBlank) with
          | none => rfl
          | some v =>
              rw [← Text.bytewise_cons_of_lt hc]
              rfl
    · obtain ⟨b, bs, hb, -⟩ := Text.exists_byteChars_eq_cons c
      have hle := Text.le_of_mem_byteChars hc (hb ▸ List.mem_cons_self)
      rw [Text.bytewise_cons, hb, List.cons_append] at hbytes
      rw [readLine_of_le hline hc, readLine_of_le hbytes hle]
      rfl

/-- An assignment with its bytes. -/
def Assignment.bytewise (a : Assignment) : Assignment :=
  ⟨String.ofList (Text.bytewise a.key.toList), String.ofList (Text.bytewise a.value.toList)⟩

theorem Scan.ofLines_map_bytewise (ls : List (List Char)) :
    ofLines (ls.map bytewise) =
      ⟨(ofLines ls).assignments.map (·.bytewise), (ofLines ls).truncated⟩ := by
  induction ls with
  | nil => rfl
  | cons line ls ih =>
      rw [List.map_cons, ofLines, ofLines, readLine_bytewise]
      cases readLine line with
      | skip => exact ih
      | assign key value => simp [LineReading.bytewise, Assignment.bytewise, ih]
      | malformed => rfl

/-- The bytes of a preset are scanned to the bytes of its assignments, and to their end exactly if
the preset is. -/
theorem scan_bytewise (text : String) :
    scan (String.ofList (bytewise text.toList)) =
      ⟨(scan text).assignments.map (·.bytewise), (scan text).truncated⟩ := by
  rw [scan_eq, scan_eq, String.toList_ofList, Text.splitOn_bytewise, Scan.ofLines_map_bytewise]

end ShaderChain.Preset
