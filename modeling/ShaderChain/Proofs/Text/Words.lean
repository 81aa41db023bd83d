import ShaderChain.Proofs.Text.Pieces
import ShaderChain.Proofs.Text.Runs

/-!
# Words

The words of a text, apart from how they are found. A text is put together from words with space
between them, in one way only, and these are the words that it is split into. A cut is in front of
the first character to stop at, so that behind the space in front of a text it gives its first word.
-/

namespace ShaderChain.Text

/-- Whether a text consists of space. -/
def AreSpaces (s : List Char) : Prop := ∀ c ∈ s, isSpace c = true

/-- Whether a text is a word: it is not empty and has no space in it. -/
def IsWord (w : List Char) : Prop := w ≠ [] ∧ ∀ c ∈ w, isSpace c = false

/-- Whether a text is put together from words, with space between them and perhaps around them. -/
inductive AreWords : List Char → List (List Char) → Prop
  | nil {b : List Char} (hb : AreSpaces b) : AreWords b []
  | cons {b w s : List Char} {ws : List (List Char)} (hb : AreSpaces b) (hw : IsWord w)
      (hs : ∀ c ∈ s.head?, isSpace c = true) (h : AreWords s ws) :
      AreWords (b ++ (w ++ s)) (w :: ws)

variable {stop : Char → Bool} {a b s w : List Char} {c : Char} {ws : List (List Char)}

section Cuts

theorem cutAt?_append (ha : ∀ c ∈ a, stop c = false) (hb : ∃ c ∈ b.head?, stop c = true) :
    cutAt? stop (a ++ b) = some (a, b) := by
  induction a with
  | nil =>
      obtain ⟨c, hc, hstop⟩ := hb
      obtain ⟨b, rfl⟩ := List.head?_eq_some_iff.1 hc
      simp [cutAt?, hstop]
  | cons c a ih =>
      have hrest := ih fun d hd => ha d (List.mem_cons_of_mem c hd)
      simp [cutAt?, ha c List.mem_cons_self, hrest]

theorem stop_of_cutAt? (h : cutAt? stop s = some (a, b)) :
    (∀ c ∈ a, stop c = false) ∧ ∃ c ∈ b.head?, stop c = true := by
  induction s generalizing a with
  | nil => cases h
  | cons d s ih =>
      rw [cutAt?] at h
      split at h
      · next hstop =>
          cases h
          exact ⟨by simp, d, rfl, hstop⟩
      · next hstop =>
          obtain ⟨⟨a', b'⟩, hs, hab⟩ := Option.map_eq_some_iff.1 h
          cases hab
          obtain ⟨ha, hb⟩ := ih hs
          exact ⟨List.forall_mem_cons.2 ⟨Bool.eq_false_iff.2 hstop, ha⟩, hb⟩

/-- A text is cut in front of the first character to stop at. -/
theorem cutAt?_eq_some_iff :
    cutAt? stop s = some (a, b) ↔
      s = a ++ b ∧ (∀ c ∈ a, stop c = false) ∧ ∃ c ∈ b.head?, stop c = true := by
  constructor
  · intro h
    exact ⟨(append_of_cutAt? h).symm, stop_of_cutAt? h⟩
  · rintro ⟨rfl, ha, hb⟩
    exact cutAt?_append ha hb

/-- The space in front of a text, and what does not start with space. -/
theorem trimStart_eq_iff :
    trimStart s = a ↔ ∃ b, s = b ++ a ∧ AreSpaces b ∧ ∀ c ∈ a.head?, isSpace c = false :=
  dropWhile_eq_iff

/-- A text is cut at space behind its first word. -/
theorem cutAt?_isSpace_trimStart_eq_some_iff :
    cutAt? isSpace (trimStart s) = some (w, b) ↔
      ∃ lead, s = lead ++ (w ++ b) ∧ AreSpaces lead ∧ IsWord w ∧
        ∃ c ∈ b.head?, isSpace c = true := by
  rw [cutAt?_eq_some_iff]
  constructor
  · rintro ⟨htrim, hw, c, hc, hspace⟩
    obtain ⟨lead, hs, hlead, hhead⟩ := trimStart_eq_iff.1 htrim
    refine ⟨lead, hs, hlead, ⟨?_, hw⟩, c, hc, hspace⟩
    rintro rfl
    rw [hhead c hc] at hspace
    cases hspace
  · rintro ⟨lead, hs, hlead, ⟨hne, hw⟩, hb⟩
    obtain ⟨d, w, rfl⟩ := List.exists_cons_of_ne_nil hne
    refine ⟨trimStart_eq_iff.2 ⟨lead, hs, hlead, ?_⟩, hw, hb⟩
    rintro c ⟨⟩
    exact hw d List.mem_cons_self

end Cuts

section Words

/-- A space cuts the words of a text in two, and all else about words follows. -/
theorem words_append_cons (hc : isSpace c = true) (s t : List Char) :
    words (s ++ c :: t) = words s ++ words t := by
  rw [words, List.splitOnP_append_cons s t hc, List.filter_append]
  rfl

theorem words_append_of_areSpaces (hb : AreSpaces b) (s : List Char) :
    words (b ++ s) = words s := by
  induction b with
  | nil => rfl
  | cons c b ih =>
      have hrest := ih fun d hd => hb d (List.mem_cons_of_mem c hd)
      exact (words_append_cons (hb c List.mem_cons_self) [] (b ++ s)).trans hrest

theorem words_of_isWord (hw : IsWord w) : words w = [w] := by
  rw [words, List.splitOnP_eq_singleton hw.2]
  simp [hw.1]

theorem words_append_of_isWord (hw : IsWord w) (hs : ∀ c ∈ s.head?, isSpace c = true) :
    words (w ++ s) = w :: words s := by
  cases s with
  | nil => rw [List.append_nil, words_of_isWord hw]; rfl
  | cons c s =>
      have hskip := words_append_cons (hs c rfl) [] s
      rw [words_append_cons (hs c rfl), words_of_isWord hw, ← List.nil_append (c :: s), hskip]
      rfl

theorem words_of_areWords (h : AreWords s ws) : words s = ws := by
  induction h with
  | @nil b hb => rw [← List.append_nil b, words_append_of_areSpaces hb]; rfl
  | cons hb hw hs _ ih => rw [words_append_of_areSpaces hb, words_append_of_isWord hw hs, ih]

theorem AreWords.cons_of_isSpace (hc : isSpace c = true) (h : AreWords s ws) :
    AreWords (c :: s) ws := by
  cases h with
  | nil hb => exact .nil (List.forall_mem_cons.2 ⟨hc, hb⟩)
  | @cons b w s ws hb hw hs h =>
      have hspaces : AreSpaces (c :: b) := List.forall_mem_cons.2 ⟨hc, hb⟩
      exact .cons hspaces hw hs h

/-- A character in front of a text joins its first word, or is a word if the text does not start
with one. -/
theorem AreWords.exists_cons_of_not_isSpace (hc : isSpace c = false) (h : AreWords s ws) :
    ∃ ws', AreWords (c :: s) ws' := by
  by_cases hs : ∀ d ∈ s.head?, isSpace d = true
  · have hword : IsWord [c] := ⟨List.cons_ne_nil c [], by simpa using hc⟩
    have hnone : AreSpaces [] := List.forall_mem_nil _
    exact ⟨[c] :: ws, .cons hnone hword hs h⟩
  · cases h with
    | nil hb => exact absurd (fun d hd => hb d (List.mem_of_mem_head? hd)) hs
    | @cons b w s ws hb hw hrest h =>
        cases b with
        | nil =>
            have hword : IsWord (c :: w) :=
              ⟨List.cons_ne_nil c w, List.forall_mem_cons.2 ⟨hc, hw.2⟩⟩
            exact ⟨(c :: w) :: ws, .cons hb hword hrest h⟩
        | cons d b =>
            refine absurd ?_ hs
            rintro x ⟨⟩
            exact hb d List.mem_cons_self

/-- Every text is put together from words. -/
theorem exists_areWords (s : List Char) : ∃ ws, AreWords s ws := by
  induction s with
  | nil => exact ⟨[], .nil (List.forall_mem_nil _)⟩
  | cons c s ih =>
      obtain ⟨ws, h⟩ := ih
      cases hc : isSpace c with
      | true => exact ⟨ws, h.cons_of_isSpace hc⟩
      | false => exact h.exists_cons_of_not_isSpace hc

/-- The words of a text are those that it is put together from. -/
theorem words_eq_iff : words s = ws ↔ AreWords s ws := by
  refine ⟨?_, words_of_areWords⟩
  rintro rfl
  obtain ⟨ws, h⟩ := exists_areWords s
  rwa [words_of_areWords h]

end Words

end ShaderChain.Text
