import Mathlib.Data.List.ReduceOption
import ShaderChain.Proofs.Preset.Lines
import ShaderChain.Proofs.Text.Pieces
import ShaderChain.Proofs.Text.Runs

/-!
# Written presets

How assignments can be written, apart from how they are read. A line says one assignment or
nothing. A value stands in quotes or bare, and it stands there as it is: a quote in it that has an
escaping backslash in front closes nothing, and the backslash belongs to the value. A preset is a
text of such lines, and `scan_eq_iff_isWritten` says that it is scanned to the assignments that it
is written for, and that no other text is scanned to its end.
-/

namespace ShaderChain.Preset

/-- Whether a text consists of spaces, tabs and carriage returns. -/
def AreBlanks (s : List Char) : Prop := ∀ c ∈ s, c = ' ' ∨ c = '\t' ∨ c = '\r'

/-- Whether a text is a key: an ASCII letter in front of ASCII letters, digits and underscores. -/
def IsKey : List Char → Prop
  | [] => False
  | c :: s => c.isAlpha = true ∧ ∀ d ∈ s, d.isAlphanum = true ∨ d = '_'

/-- Whether quotes can stand around a text. A backslash in it escapes what follows it, and each
quote is escaped, but no end is. -/
inductive IsQuotable : List Char → Prop
  | nil : IsQuotable []
  | plain {c : Char} {s : List Char} (hquote : c ≠ '"') (hescape : c ≠ '\\')
      (h : IsQuotable s) : IsQuotable (c :: s)
  | escaped {s : List Char} (c : Char) (h : IsQuotable s) : IsQuotable ('\\' :: c :: s)

/-- Whether the text behind an opening quote starts with a value and its closing quote. -/
def IsClosed (v s : List Char) : Prop := IsQuotable v ∧ ∃ rest, s = v ++ '"' :: rest

/-- The characters at which a bare value ends: ASCII space, and the start of a comment. -/
def bareEnds : List Char := [' ', '\t', '\n', '\x0c', '\r', '#']

/-- Whether a text starts with a value, in quotes or bare. A value whose quotes are not closed
takes the whole text but for the carriage returns at its end. -/
inductive IsValue : List Char → List Char → Prop
  | quoted {v s : List Char} (h : IsClosed v s) : IsValue v ('"' :: s)
  | unclosed {v returns : List Char} (h : ∀ v', ¬ IsClosed v' (v ++ returns))
      (hreturns : ∀ c ∈ returns, c = '\r') (hlast : v.getLast? ≠ some '\r') :
      IsValue v ('"' :: (v ++ returns))
  | bare {v rest : List Char} (hne : v ≠ []) (hquote : v.head? ≠ some '"')
      (hv : ∀ c ∈ v, c ∉ bareEnds) (hrest : ∀ c ∈ rest.head?, c ∈ bareEnds) :
      IsValue v (v ++ rest)

/-- Whether a line says an assignment, or nothing. -/
inductive Says : List Char → Option Assignment → Prop
  | blank {b : List Char} (hb : AreBlanks b) : Says b none
  | hash {b : List Char} (hb : AreBlanks b) (rest : List Char) : Says (b ++ '#' :: rest) none
  | slashes {b : List Char} (hb : AreBlanks b) (rest : List Char) :
      Says (b ++ '/' :: '/' :: rest) none
  | assigns {b₁ b₂ b₃ k v s : List Char} (h₁ : AreBlanks b₁) (hk : IsKey k) (h₂ : AreBlanks b₂)
      (h₃ : AreBlanks b₃) (hv : IsValue v s) :
      Says (b₁ ++ (k ++ (b₂ ++ '=' :: (b₃ ++ s)))) (some ⟨String.ofList k, String.ofList v⟩)

/-- Whether a text is written for some assignments: it is put together from lines with line feeds
between them, and some of the lines say the assignments, in order, and the others nothing. -/
def IsWritten (text : String) (as : List Assignment) : Prop :=
  ∃ (lines : List String) (said : List (Option Assignment)),
    text = "\n".intercalate lines ∧ (∀ line ∈ lines, '\n' ∉ line.toList) ∧
      List.Forall₂ (fun line => Says line.toList) lines said ∧ said.reduceOption = as

section Parts

variable {b rest s v : List Char} {c : Char}

theorem isBlank_iff : isBlank c = true ↔ c = ' ' ∨ c = '\t' ∨ c = '\r' := by
  simp [isBlank, or_assoc]

theorem isKeyChar_iff : isKeyChar c = true ↔ c.isAlphanum = true ∨ c = '_' := by
  simp [isKeyChar]

theorem endsBare_iff : endsBare c = true ↔ c ∈ bareEnds := by
  simp [endsBare, bareEnds, or_assoc]

theorem not_isKeyChar_of_isBlank (h : isBlank c = true) : isKeyChar c = false := by
  rcases isBlank_iff.1 h with rfl | rfl | rfl <;> rfl

theorem not_isBlank_of_isAlpha (h : c.isAlpha = true) : isBlank c = false := by
  rw [Bool.eq_false_iff, ne_eq, isBlank_iff]
  rintro (rfl | rfl | rfl) <;> cases h

theorem dropWhile_isBlank_eq_iff :
    s.dropWhile isBlank = rest ↔
      ∃ b, s = b ++ rest ∧ AreBlanks b ∧ ∀ c ∈ rest.head?, isBlank c = false := by
  simp only [dropWhile_eq_iff, isBlank_iff, AreBlanks]

theorem dropWhile_isBlank_append (hb : AreBlanks b) (hrest : ∀ c ∈ rest.head?, isBlank c = false) :
    (b ++ rest).dropWhile isBlank = rest :=
  dropWhile_isBlank_eq_iff.2 ⟨b, rfl, hb, hrest⟩

theorem closed?_append (h : IsQuotable v) (rest : List Char) :
    closed? (v ++ '"' :: rest) = some v := by
  induction h with
  | nil => rfl
  | plain hquote hescape _ ih => simp [closed?, hescape, ih]
  | escaped c _ ih => simp [closed?, ih]

theorem isClosed_of_closed? (h : closed? s = some v) : IsClosed v s := by
  fun_induction closed? s generalizing v with
  | case1 => cases h
  | case2 rest =>
      cases h
      exact ⟨.nil, rest, rfl⟩
  | case3 c s ih =>
      obtain ⟨v, hv, rfl⟩ := Option.map_eq_some_iff.1 h
      obtain ⟨hquotable, rest, rfl⟩ := ih hv
      exact ⟨.escaped c hquotable, rest, rfl⟩
  | case4 c s hquote hescape ih =>
      obtain ⟨v, hv, rfl⟩ := Option.map_eq_some_iff.1 h
      obtain ⟨hquotable, rest, rfl⟩ := ih hv
      refine ⟨.plain hquote ?_ hquotable, rest, rfl⟩
      rintro rfl
      -- the text behind a backslash is not empty, since a quote in it closes the value
      obtain ⟨d, t, ht⟩ := List.exists_cons_of_ne_nil (l := v ++ '"' :: rest) (by simp)
      exact hescape d t rfl ht

theorem closed?_eq_some_iff : closed? s = some v ↔ IsClosed v s := by
  constructor
  · exact isClosed_of_closed?
  · rintro ⟨hquotable, rest, rfl⟩
    exact closed?_append hquotable rest

/-- What is left of a text without the carriage returns at its end. -/
theorem reverse_dropWhile_return_eq_iff :
    (s.reverse.dropWhile (· == '\r')).reverse = v ↔
      ∃ returns, s = v ++ returns ∧ (∀ c ∈ returns, c = '\r') ∧ v.getLast? ≠ some '\r' := by
  rw [List.reverse_eq_iff, dropWhile_eq_iff]
  constructor
  · rintro ⟨run, hs, hrun, hlast⟩
    refine ⟨run.reverse, ?_, ?_, ?_⟩
    · rw [← List.reverse_inj, hs]
      simp
    · simpa using hrun
    · rw [List.head?_reverse] at hlast
      intro h
      simpa using hlast '\r' h
  · rintro ⟨returns, rfl, hreturns, hlast⟩
    refine ⟨returns.reverse, List.reverse_append, ?_, ?_⟩
    · simpa using hreturns
    · intro c hc
      rw [List.head?_reverse] at hc
      rw [beq_eq_false_iff_ne]
      rintro rfl
      exact hlast hc

/-- What an opening quote starts ends at its closing quote, or with the text if there is none. -/
theorem quotedValue_eq_iff :
    quotedValue s = v ↔
      IsClosed v s ∨ (∀ v', ¬ IsClosed v' s) ∧
        ∃ returns, s = v ++ returns ∧ (∀ c ∈ returns, c = '\r') ∧ v.getLast? ≠ some '\r' := by
  rw [quotedValue]
  cases hclosed : closed? s with
  | some v' =>
      have hv' := closed?_eq_some_iff.1 hclosed
      rw [Option.getD_some]
      constructor
      · rintro rfl
        exact Or.inl hv'
      · rintro (hv | ⟨hopen, -⟩)
        · rw [closed?_eq_some_iff.2 hv] at hclosed
          exact (Option.some.inj hclosed).symm
        · exact absurd hv' (hopen v')
  | none =>
      have hopen : ∀ v', ¬ IsClosed v' s := by
        intro v' hv'
        rw [closed?_eq_some_iff.2 hv'] at hclosed
        cases hclosed
      rw [Option.getD_none, reverse_dropWhile_return_eq_iff]
      constructor
      · exact fun h => Or.inr ⟨hopen, h⟩
      · rintro (hv | ⟨-, h⟩)
        · exact absurd hv (hopen v)
        · exact h

/-- What starts without a quote is a bare value up to its end. -/
theorem value?_eq_some_iff_of_ne_quote (hc : c ≠ '"') :
    value? (c :: s) = some v ↔
      v ≠ [] ∧ ∃ rest, c :: s = v ++ rest ∧ (∀ d ∈ v, d ∉ bareEnds) ∧
        ∀ d ∈ rest.head?, d ∈ bareEnds := by
  have htake : value? (c :: s) = some v ↔
      v ≠ [] ∧ (c :: s).takeWhile (fun d => !endsBare d) = v := by
    simp [value?, hc, Option.filter_eq_some_iff, and_comm]
  rw [htake, takeWhile_eq_iff]
  simp only [Bool.not_eq_true', ← Bool.not_eq_true, not_not, endsBare_iff]

theorem isValue_of_value? (h : value? s = some v) : IsValue v s := by
  cases s with
  | nil => cases h
  | cons c s =>
      by_cases hc : c = '"'
      · subst hc
        rcases quotedValue_eq_iff.1 (Option.some.inj h) with hclosed | ⟨hopen, returns, rfl, hrest⟩
        · exact .quoted hclosed
        · exact .unclosed hopen hrest.1 hrest.2
      · obtain ⟨hne, rest, hs, hv, hrest⟩ := (value?_eq_some_iff_of_ne_quote hc).1 h
        obtain ⟨d, v, rfl⟩ := List.exists_cons_of_ne_nil hne
        have hhead : (d :: v).head? ≠ some '"' := by
          rw [List.cons_append, List.cons.injEq] at hs
          rw [List.head?_cons, ← hs.1]
          exact fun hd => hc (Option.some.inj hd)
        rw [hs]
        exact .bare hne hhead hv hrest

theorem value?_of_isValue (h : IsValue v s) : value? s = some v := by
  cases h with
  | quoted hclosed => exact congrArg some (quotedValue_eq_iff.2 (Or.inl hclosed))
  | unclosed hopen hreturns hlast =>
      exact congrArg some (quotedValue_eq_iff.2 (Or.inr ⟨hopen, _, rfl, hreturns, hlast⟩))
  | bare hne hquote hv hrest =>
      obtain ⟨c, v, rfl⟩ := List.exists_cons_of_ne_nil hne
      have hc : c ≠ '"' := fun hc => hquote (congrArg some hc)
      exact (value?_eq_some_iff_of_ne_quote hc).2 ⟨hne, _, rfl, hv, hrest⟩

theorem not_isBlank_of_isValue (h : IsValue v s) : ∀ c ∈ s.head?, isBlank c = false := by
  cases h with
  | quoted _ =>
      rintro c ⟨⟩
      rfl
  | unclosed _ _ _ =>
      rintro c ⟨⟩
      rfl
  | bare hne _ hv _ =>
      obtain ⟨d, v, rfl⟩ := List.exists_cons_of_ne_nil hne
      rintro c ⟨⟩
      have hd := hv d List.mem_cons_self
      rw [Bool.eq_false_iff, ne_eq, isBlank_iff]
      rintro (rfl | rfl | rfl) <;> exact hd (by decide)

theorem assigned?_eq_some_iff :
    assigned? s = some v ↔ ∃ b s', s = '=' :: (b ++ s') ∧ AreBlanks b ∧ IsValue v s' := by
  constructor
  · intro h
    cases s with
    | nil => cases h
    | cons c s =>
        by_cases hc : c = '='
        · subst hc
          obtain ⟨b, hs, hb, -⟩ := dropWhile_isBlank_eq_iff.1 (Eq.refl (s.dropWhile isBlank))
          exact ⟨b, s.dropWhile isBlank, congrArg _ hs, hb, isValue_of_value? h⟩
        · simp [assigned?, hc] at h
  · rintro ⟨b, s', rfl, hb, hv⟩
    have hdrop := dropWhile_isBlank_append hb (not_isBlank_of_isValue hv)
    exact (congrArg value? hdrop).trans (value?_of_isValue hv)

end Parts

/-- What reading a line gives that says an assignment, or nothing. -/
def readingOf : Option Assignment → LineReading
  | none => .skip
  | some a => .assign a.key.toList a.value.toList

section Line

variable {line : List Char} {said : Option Assignment}

/-- A key ends where blanks or the equals sign follow it. -/
theorem not_isKeyChar_of_areBlanks {b : List Char} (hb : AreBlanks b) (rest : List Char) :
    ∀ c ∈ (b ++ '=' :: rest).head?, isKeyChar c = false := by
  cases b with
  | nil =>
      rintro c ⟨⟩
      rfl
  | cons d b =>
      rintro c ⟨⟩
      exact not_isKeyChar_of_isBlank (isBlank_iff.2 (hb d List.mem_cons_self))

theorem readLine_of_says (h : Says line said) : readLine line = readingOf said := by
  cases h with
  | blank hb => exact readLine_of_blank (dropWhile_isBlank_eq_iff.2 ⟨line, by simp, hb, by simp⟩)
  | hash hb rest =>
      have hline : (_ ++ '#' :: rest).dropWhile isBlank = '#' :: rest :=
        dropWhile_isBlank_append hb (by rintro c ⟨⟩; rfl)
      rw [readLine_of_not_isAlpha hline rfl]
      rfl
  | slashes hb rest =>
      have hline : (_ ++ '/' :: '/' :: rest).dropWhile isBlank = '/' :: '/' :: rest :=
        dropWhile_isBlank_append hb (by rintro c ⟨⟩; rfl)
      rw [readLine_of_not_isAlpha hline rfl]
      rfl
  | @assigns b₁ b₂ b₃ k v s h₁ hk h₂ h₃ hv =>
      cases k with
      | nil => exact absurd hk id
      | cons c k =>
          obtain ⟨hc, hkey⟩ := hk
          simp only [← isKeyChar_iff] at hkey
          have hend := not_isKeyChar_of_areBlanks h₂ (b₃ ++ s)
          have hline : (b₁ ++ c :: (k ++ (b₂ ++ '=' :: (b₃ ++ s)))).dropWhile isBlank =
              c :: (k ++ (b₂ ++ '=' :: (b₃ ++ s))) :=
            dropWhile_isBlank_append h₁ (by rintro d ⟨⟩; exact not_isBlank_of_isAlpha hc)
          have hequals : (b₂ ++ '=' :: (b₃ ++ s)).dropWhile isBlank = '=' :: (b₃ ++ s) :=
            dropWhile_isBlank_append h₂ (by rintro d ⟨⟩; rfl)
          have hvalue := assigned?_eq_some_iff.2 ⟨b₃, s, rfl, h₃, hv⟩
          rw [List.cons_append, readLine_of_isAlpha hline hc, takeWhile_append_of_head? hkey hend,
            dropWhile_append_of_head? hkey hend, hequals, hvalue]
          simp [readingOf]

theorem says_of_readLine (h : readLine line = readingOf said) : Says line said := by
  rcases hline : line.dropWhile isBlank with _ | ⟨c, s⟩
  · obtain ⟨b, rfl, hb, -⟩ := dropWhile_isBlank_eq_iff.1 hline
    rw [readLine_of_blank hline] at h
    cases said with
    | none => simpa using Says.blank hb
    | some a => cases h
  · obtain ⟨b, rfl, hb, -⟩ := dropWhile_isBlank_eq_iff.1 hline
    cases hc : c.isAlpha with
    | false =>
        rw [readLine_of_not_isAlpha hline hc] at h
        split at h
        · next hcomment =>
            cases said with
            | some a => cases h
            | none =>
                rcases hcomment with rfl | ⟨rfl, hhead⟩
                · exact .hash hb s
                · obtain ⟨rest, rfl⟩ := List.head?_eq_some_iff.1 hhead
                  exact .slashes hb rest
        · cases said <;> cases h
    | true =>
        rw [readLine_of_isAlpha hline hc] at h
        split at h
        · next v hv =>
            cases said with
            | none => cases h
            | some a =>
                obtain ⟨b₃, s', hequals, h₃, hvalue⟩ := assigned?_eq_some_iff.1 hv
                obtain ⟨b₂, hrest, h₂, -⟩ := dropWhile_isBlank_eq_iff.1 hequals
                have hk : IsKey (c :: s.takeWhile isKeyChar) :=
                  ⟨hc, fun d hd => isKeyChar_iff.1 (List.mem_takeWhile_imp hd)⟩
                have hsays := Says.assigns hb hk h₂ h₃ hvalue
                rw [← hrest, List.cons_append, List.takeWhile_append_dropWhile] at hsays
                obtain ⟨hkey, hvalue⟩ := LineReading.assign.inj h
                rw [hkey, hvalue, String.ofList_toList, String.ofList_toList] at hsays
                exact hsays
        · cases said <;> cases h

theorem readLine_eq_iff : readLine line = readingOf said ↔ Says line said :=
  ⟨says_of_readLine, readLine_of_says⟩

end Line

theorem Scan.ofLines_cons_eq_iff {line : List Char} {ls : List (List Char)}
    {as : List Assignment} :
    ofLines (line :: ls) = ⟨as, false⟩ ↔
      ∃ said rest, Says line said ∧ ofLines ls = ⟨rest, false⟩ ∧ said.toList ++ rest = as := by
  simp only [← readLine_eq_iff]
  rw [ofLines]
  constructor
  · intro h
    cases hline : readLine line with
    | skip =>
        rw [hline] at h
        exact ⟨none, as, rfl, h, rfl⟩
    | assign k v =>
        rw [hline] at h
        obtain ⟨hassignments, htruncated⟩ := Scan.mk.inj h
        refine ⟨some ⟨String.ofList k, String.ofList v⟩, (ofLines ls).assignments, ?_, ?_, ?_⟩
        · simp [readingOf]
        · rw [← htruncated]
        · exact hassignments
    | malformed =>
        rw [hline] at h
        cases h
  · rintro ⟨said, rest, hline, hrest, rfl⟩
    rw [hline]
    cases said with
    | none => exact hrest
    | some a => simp [readingOf, hrest]

/-- Lines are scanned to their end and to some assignments exactly if they say these. -/
theorem Scan.ofLines_eq_iff {ls : List (List Char)} {as : List Assignment} :
    ofLines ls = ⟨as, false⟩ ↔ ∃ said, List.Forall₂ Says ls said ∧ said.reduceOption = as := by
  induction ls generalizing as with
  | nil => simp [ofLines, eq_comm]
  | cons line ls ih =>
      rw [ofLines_cons_eq_iff]
      constructor
      · rintro ⟨x, rest, hline, hrest, rfl⟩
        obtain ⟨said, hsaid, rfl⟩ := ih.1 hrest
        exact ⟨x :: said, .cons hline hsaid, by cases x <;> rfl⟩
      · rintro ⟨said, hsaid, rfl⟩
        obtain ⟨x, rest, hline, hrest, rfl⟩ := List.forall₂_cons_left_iff.1 hsaid
        exact ⟨x, rest.reduceOption, hline, ih.2 ⟨rest, hrest, rfl⟩, by cases x <;> rfl⟩

theorem scan_eq (text : String) :
    scan text = Scan.ofLines (text.toList.splitOn '\n') :=
  Scan.ofLines_lines text.toList

theorem isWritten_of_scan {text : String} {as : List Assignment} (h : scan text = ⟨as, false⟩) :
    IsWritten text as := by
  rw [scan_eq, Scan.ofLines_eq_iff] at h
  obtain ⟨said, hsaid, rfl⟩ := h
  refine ⟨(text.toList.splitOn '\n').map String.ofList, said, ?_, ?_, ?_, rfl⟩
  · rw [← String.toList_inj, String.toList_intercalate, List.map_map]
    simp [Function.comp_def]
  · intro line hline hnewline
    obtain ⟨p, hp, rfl⟩ := List.mem_map.1 hline
    rw [String.toList_ofList] at hnewline
    cases Text.forall_of_mem_splitOn hp '\n' hnewline
  · rw [List.forall₂_map_left_iff]
    simpa using hsaid

theorem scan_of_isWritten {text : String} {as : List Assignment} (h : IsWritten text as) :
    scan text = ⟨as, false⟩ := by
  obtain ⟨lines, said, rfl, hfree, hsaid, rfl⟩ := h
  rw [scan_eq, String.toList_intercalate, Scan.ofLines_eq_iff]
  rcases lines with _ | ⟨line, lines⟩
  · cases hsaid
    exact ⟨[none], .cons (.blank (by simp [AreBlanks])) .nil, rfl⟩
  · have hnewline : "\n".toList = ['\n'] := rfl
    rw [hnewline, List.splitOn_intercalate '\n' (by simpa using hfree) (by simp)]
    exact ⟨said, List.forall₂_map_left_iff.2 hsaid, rfl⟩

/-- A text is scanned to its end exactly if it is written for the assignments that it is scanned
to: no value loses or gains a character, and nothing that follows a value or stands between the
lines changes what the text says. -/
theorem scan_eq_iff_isWritten {text : String} {as : List Assignment} :
    scan text = ⟨as, false⟩ ↔ IsWritten text as :=
  ⟨isWritten_of_scan, scan_of_isWritten⟩

/-- A comment, a value with an escaped quote, and a bare one with a comment behind it. -/
example :
    scan "# twice\r\n alias0 = \"é\\\"#;\" rest\r\n\nscale0=2#\n" =
      ⟨[⟨"alias0", "é\\\"#;"⟩, ⟨"scale0", "2"⟩], false⟩ := by
  decide +kernel

end ShaderChain.Preset
