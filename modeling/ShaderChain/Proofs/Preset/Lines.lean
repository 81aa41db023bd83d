import Mathlib.Data.List.Forall2
import ShaderChain.Preset.Scan

/-!
# Presets line by line

A preset is scanned line by line, and what one line says does not depend on the others: two texts
with a line feed between them are scanned one after the other, the second one only if nothing in
the first is malformed. How lines end does not matter. A carriage return at the end of a line is a
blank, or it ends a bare value, or an unclosed quote drops it, so a line says the same with it and
without it, although it is dropped in front of a line feed only.
-/

namespace ShaderChain

namespace Text

/-- A text with a carriage return in front of each of its line feeds. -/
def withReturns (s : List Char) : List Char :=
  s.flatMap fun c => if c = '\n' then ['\r', '\n'] else [c]

theorem withReturns_cons (c : Char) (s : List Char) :
    withReturns (c :: s) = (if c = '\n' then ['\r', '\n'] else [c]) ++ withReturns s := rfl

/-- Between line feeds, a text with carriage returns says what it does without, up to a carriage
return at the end. -/
theorem forall₂_splitOn_withReturns (s : List Char) :
    List.Forall₂ (fun p q => q = p ∨ q = p ++ ['\r']) (s.splitOn '\n')
      ((withReturns s).splitOn '\n') := by
  induction s with
  | nil => exact .cons (Or.inl rfl) .nil
  | cons c s ih =>
      by_cases hc : c = '\n'
      · subst hc
        have hreturns : (withReturns ('\n' :: s)).splitOn '\n' =
            ['\r'] :: (withReturns s).splitOn '\n' :=
          List.splitOn_append_cons_self ['\r'] (withReturns s)
        rw [List.splitOn_cons_eq_if_modifyHead, if_pos (by rfl), hreturns]
        exact .cons (Or.inr rfl) ih
      · have hstop : ¬ (c == '\n') = true := by simpa using hc
        have hreturns : withReturns (c :: s) = c :: withReturns s := by
          rw [withReturns_cons, if_neg hc, List.singleton_append]
        obtain ⟨p, ps, hp⟩ := List.exists_cons_of_ne_nil (List.splitOn_ne_nil '\n' s)
        obtain ⟨q, qs, hq⟩ := List.exists_cons_of_ne_nil (List.splitOn_ne_nil '\n' (withReturns s))
        rw [hp, hq] at ih
        obtain ⟨hfirst, hrest⟩ := List.forall₂_cons.1 ih
        rw [hreturns, List.splitOn_cons_eq_if_modifyHead, List.splitOn_cons_eq_if_modifyHead,
          if_neg hstop, if_neg hstop, hp, hq]
        refine .cons ?_ hrest
        rcases hfirst with rfl | rfl
        · exact Or.inl rfl
        · exact Or.inr rfl

end Text

/-- A text with a carriage return in front of each of its line feeds. -/
def Preset.withReturns (text : String) : String := String.ofList (Text.withReturns text.toList)

namespace Preset

section Line

variable {line s : List Char} {c : Char}

theorem dropWhile_isBlank_return (s : List Char) :
    (s ++ ['\r']).dropWhile isBlank =
      if s.dropWhile isBlank = [] then [] else s.dropWhile isBlank ++ ['\r'] := by
  rw [List.dropWhile_append]
  simp only [List.isEmpty_iff]
  rfl

/-- What says the same of a text with a carriage return behind it says the same behind blanks. -/
theorem behindBlanks_return {β : Type} {f : List Char → β}
    (h : ∀ s, s ≠ [] → f (s ++ ['\r']) = f s) (s : List Char) :
    f ((s ++ ['\r']).dropWhile isBlank) = f (s.dropWhile isBlank) := by
  rw [dropWhile_isBlank_return]
  split
  · next hnil => rw [hnil]
  · next hrest => exact h _ hrest

theorem closed?_return (s : List Char) : closed? (s ++ ['\r']) = closed? s := by
  fun_induction closed? s with
  | case1 => rfl
  | case2 => rfl
  | case3 c s ih => simp only [List.cons_append, closed?, ih]
  | case4 c s hquote hescape ih =>
      cases s with
      | nil =>
          have hc : c ≠ '"' := fun hc => hquote hc
          by_cases hslash : c = '\\'
          · subst hslash
            rfl
          · simp [closed?, hslash]
      | cons d s =>
          have hc : c ≠ '"' := fun hc => hquote hc
          have hslash : c ≠ '\\' := fun hslash => hescape d s hslash rfl
          simpa [closed?, hc, hslash] using congrArg (Option.map (c :: ·)) ih

theorem quotedValue_return (s : List Char) : quotedValue (s ++ ['\r']) = quotedValue s := by
  simp [quotedValue, closed?_return]

theorem takeWhile_return {p : Char → Bool} (h : p '\r' = false) (s : List Char) :
    (s ++ ['\r']).takeWhile p = s.takeWhile p := by
  induction s with
  | nil => simp [h]
  | cons c s ih => simp only [List.cons_append, List.takeWhile_cons, ih]

theorem dropWhile_return {p : Char → Bool} (h : p '\r' = false) (s : List Char) :
    (s ++ ['\r']).dropWhile p = s.dropWhile p ++ ['\r'] := by
  induction s with
  | nil => simp [h]
  | cons c s ih =>
      simp only [List.cons_append, List.dropWhile_cons, ih]
      split <;> rfl

theorem value?_return (h : s ≠ []) : value? (s ++ ['\r']) = value? s := by
  obtain ⟨c, s, rfl⟩ := List.exists_cons_of_ne_nil h
  by_cases hc : c = '"'
  · subst hc
    exact congrArg some (quotedValue_return s)
  · have hbare := takeWhile_return (p := fun d => !endsBare d) rfl (c :: s)
    simpa [value?, hc] using congrArg (fun v => Option.filter (· ≠ []) (some v)) hbare

theorem assigned?_return (h : s ≠ []) : assigned? (s ++ ['\r']) = assigned? s := by
  obtain ⟨c, s, rfl⟩ := List.exists_cons_of_ne_nil h
  by_cases hc : c = '='
  · subst hc
    exact behindBlanks_return (fun _ => value?_return) s
  · simp [assigned?, hc]

theorem readLine_of_blank (h : line.dropWhile isBlank = []) : readLine line = .skip := by
  rw [readLine, h]

/-- A line that starts with a letter assigns a value, or it is malformed. -/
theorem readLine_of_isAlpha (h : line.dropWhile isBlank = c :: s) (hc : c.isAlpha = true) :
    readLine line =
      match assigned? ((s.dropWhile isKeyChar).dropWhile isBlank) with
      | some v => .assign (c :: s.takeWhile isKeyChar) v
      | none => .malformed := by
  rw [readLine, h]
  split
  · next hnil => cases hnil
  · next hhash =>
      cases hhash
      cases hc
  · next hslash =>
      cases hslash
      cases hc
  · next hcons =>
      cases hcons
      exact if_pos hc

/-- A line that starts with anything else is a comment, or it is malformed. -/
theorem readLine_of_not_isAlpha (h : line.dropWhile isBlank = c :: s) (hc : c.isAlpha = false) :
    readLine line = if c = '#' ∨ c = '/' ∧ s.head? = some '/' then .skip else .malformed := by
  rw [readLine, h]
  split
  · next hnil => cases hnil
  · next hhash =>
      cases hhash
      rfl
  · next hslash =>
      cases hslash
      rfl
  · next hhash hslash hcons =>
      cases hcons
      have hcomment : ¬ (c = '#' ∨ c = '/' ∧ s.head? = some '/') := by
        rintro (rfl | ⟨rfl, hhead⟩)
        · exact hhash rfl
        · obtain ⟨rest, rfl⟩ := List.head?_eq_some_iff.1 hhead
          exact hslash rest rfl rfl
      rw [if_neg hcomment, hc]
      rfl

/-- A line says the same with a carriage return behind it. -/
theorem readLine_return (line : List Char) : readLine (line ++ ['\r']) = readLine line := by
  have hreturn := dropWhile_isBlank_return line
  rcases hline : line.dropWhile isBlank with _ | ⟨c, s⟩
  · rw [hline, if_pos rfl] at hreturn
    rw [readLine_of_blank hline, readLine_of_blank hreturn]
  · rw [hline, if_neg (List.cons_ne_nil c s), List.cons_append] at hreturn
    cases hc : c.isAlpha with
    | false =>
        have hhead : (s ++ ['\r']).head? = some '/' ↔ s.head? = some '/' := by
          cases s <;> simp
        rw [readLine_of_not_isAlpha hline hc, readLine_of_not_isAlpha hreturn hc]
        simp only [hhead]
    | true =>
        rw [readLine_of_isAlpha hline hc, readLine_of_isAlpha hreturn hc,
          takeWhile_return (p := isKeyChar) rfl, dropWhile_return (p := isKeyChar) rfl,
          behindBlanks_return fun _ => assigned?_return]

theorem readLine_dropReturn (line : List Char) : readLine (Text.dropReturn line) = readLine line := by
  unfold Text.dropReturn
  split
  · next hlast =>
      obtain ⟨rest, rfl⟩ := List.getLast?_eq_some_iff.1 hlast
      rw [List.dropLast_concat, readLine_return]
  · rfl

end Line

namespace Scan

variable {ls ms : List (List Char)} {s : List Char}

/-- Lines behind others are scanned unless one of these is malformed. -/
theorem ofLines_append (ls ms : List (List Char)) :
    ofLines (ls ++ ms) =
      if (ofLines ls).truncated then ofLines ls
      else ⟨(ofLines ls).assignments ++ (ofLines ms).assignments, (ofLines ms).truncated⟩ := by
  induction ls with
  | nil => rfl
  | cons line ls ih =>
      rw [List.cons_append, ofLines, ofLines]
      cases readLine line with
      | skip => exact ih
      | assign k v =>
          simp only [ih]
          split <;> rfl
      | malformed => rfl

/-- Lines that say the same are scanned to the same. -/
theorem ofLines_congr (h : List.Forall₂ (fun p q => readLine q = readLine p) ls ms) :
    ofLines ms = ofLines ls := by
  induction h with
  | nil => rfl
  | cons hline _ ih => rw [ofLines, ofLines, hline, ih]

theorem ofLines_filter_ne_nil (ls : List (List Char)) :
    ofLines (ls.filter (· ≠ [])) = ofLines ls := by
  induction ls with
  | nil => rfl
  | cons line ls ih =>
      by_cases hline : line = []
      · subst hline
        exact ih
      · rw [List.filter_cons_of_pos (by simpa using hline), ofLines, ofLines, ih]

/-- It does not matter whether the lines of a text are cut with care for its last one and for
carriage returns, or just at its line feeds. -/
theorem ofLines_lines (s : List Char) :
    ofLines (Text.lines s) = ofLines (s.splitOn '\n') := by
  unfold Text.lines
  generalize s.splitOn '\n' = ps
  have hterminated : ofLines (ps.dropLast.map Text.dropReturn) = ofLines ps.dropLast :=
    ofLines_congr (List.forall₂_map_right_iff.2
      (List.forall₂_same.2 fun line _ => readLine_dropReturn line))
  have hcut : ps.dropLast ++ ps.getLast?.toList = ps := by
    rcases ps.eq_nil_or_concat with rfl | ⟨qs, q, rfl⟩ <;> simp
  rw [ofLines_append, hterminated, ofLines_filter_ne_nil, ← ofLines_append, hcut]

theorem ofLines_lines_withReturns (s : List Char) :
    ofLines (Text.lines (Text.withReturns s)) = ofLines (Text.lines s) := by
  rw [ofLines_lines, ofLines_lines]
  refine ofLines_congr ((Text.forall₂_splitOn_withReturns s).imp ?_)
  rintro p q (rfl | rfl)
  · rfl
  · exact readLine_return p

end Scan

namespace Scanner

/-- Whether a scan gives some assignments, one each time that it is asked for the next, and then
none, and whether it is truncated then. -/
inductive Yields : Scanner → List Assignment → Bool → Prop
  | done {s s' : Scanner} {truncated : Bool} (h : s.next = (none, s'))
      (hended : s'.truncated = truncated) : Yields s [] truncated
  | more {s s' : Scanner} {a : Assignment} {rest : List Assignment} {truncated : Bool}
      (h : s.next = (some a, s')) (hrest : Yields s' rest truncated) :
      Yields s (a :: rest) truncated

/-- What a scan gives is settled by what it gives next. -/
theorem Yields.of_next_eq {s s' : Scanner} {as : List Assignment} {truncated : Bool}
    (h : s.next = s'.next) (hyields : s'.Yields as truncated) : s.Yields as truncated := by
  cases hyields with
  | done hdone hended => exact .done (h.trans hdone) hended
  | more hmore hrest => exact .more (h.trans hmore) hrest

theorem next_pending (ls : List (List Char)) : next { pending := ls } = advance ls := by
  cases ls <;> rfl

/-- A scan that is asked again and again gives what its lines are scanned to. -/
theorem yields_ofLines (ls : List (List Char)) :
    Yields { pending := ls } (Scan.ofLines ls).assignments (Scan.ofLines ls).truncated := by
  induction ls with
  | nil => exact .done rfl rfl
  | cons line ls ih =>
      have hnext := next_pending (line :: ls)
      rw [advance] at hnext
      rw [Scan.ofLines]
      cases hline : readLine line with
      | skip =>
          rw [hline, ← next_pending] at hnext
          exact ih.of_next_eq hnext
      | assign k v =>
          rw [hline] at hnext
          exact .more hnext ih
      | malformed =>
          rw [hline] at hnext
          exact .done hnext rfl

end Scanner

/-- Two texts with a line feed between them are scanned one after the other, unless the scan of
the first is truncated, and carriage returns in front of all line feeds change nothing. What a text
is scanned to is what a scanner gives that is asked for one assignment after the other. -/
theorem scan_append_newline (a b : String) :
    scan (a ++ "\n" ++ b) =
        (if (scan a).truncated then scan a
          else ⟨(scan a).assignments ++ (scan b).assignments, (scan b).truncated⟩) ∧
      scan (withReturns a) = scan a ∧
        (Scanner.ofString a).Yields (scan a).assignments (scan a).truncated := by
  refine ⟨?_, ?_, Scanner.yields_ofLines _⟩
  · have hcut : (a ++ "\n" ++ b).toList = a.toList ++ '\n' :: b.toList := by simp
    rw [scan, scan, scan, hcut, Scan.ofLines_lines, List.splitOn_append_cons_self,
      Scan.ofLines_append, ← Scan.ofLines_lines, ← Scan.ofLines_lines]
  · rw [scan, withReturns, String.toList_ofList, Scan.ofLines_lines_withReturns]
    rfl

end Preset

end ShaderChain
