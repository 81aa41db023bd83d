import ShaderChain.Proofs.Source.Derivation

/-!
# Attribution of lines

Whoever reads the text of a stage finds out where a line came from by the marker before it:
the marker announces a file and a number, and every line since counts on by one.
`IsAttributed` says that this leads to the place where the line was read, for every line of
the text.

An expansion keeps this up in both stages at once. The lines of the other stage and the
directives are missing from a text, so that counting on is right only while lines are read
into it. The invariant `Expansion.IsAttributedUpTo` therefore asks that the text is attributed
and, only if the next line would be read into it, that its last marker leads to that line.
-/

namespace ShaderChain.Source

/-- The lines of a file of the store from a place on. -/
def Origin.Begins (store : FileStore) (o : Origin) (lines : List (List Char)) : Prop :=
  ∃ text before, store.get? o.path = some text ∧
    Text.lines text.toList = before ++ lines ∧ before.length + 1 = o.number

/-- Whether a line was read at a place, where the store has this very line. -/
def Line.IsReadFrom (store : FileStore) (l : Line) (o : Origin) : Prop :=
  l.origin = some o ∧ ∃ after, o.Begins store (l.text.toList :: after)

/-- Whether a marker leads to the place where a line was read that stands behind it and
behind `skipped` other lines: it is the marker for some place, and for whatever place it is,
the line was read as many lines further down. -/
def Line.LeadsTo (store : FileStore) (marker : Line) (skipped : Nat) (l : Line) : Prop :=
  (∃ number path, marker.text = markerText number path) ∧
    ∀ number path, marker.text = markerText number path →
      l.IsReadFrom store ⟨path, number + skipped⟩

/-- Whether the last marker before a line always leads to the place where it was read. -/
def IsAttributed (store : FileStore) (ls : List Line) : Prop :=
  ∀ before marker between l after, ls = before ++ marker :: (between ++ l :: after) →
    marker.kind = .marker → (∀ x ∈ between, x.kind ≠ .marker) → l.kind ≠ .marker →
      marker.LeadsTo store between.length l

/-- Whether the last marker, counted on, announces the given place next. -/
def Announces (ls : List Line) (next : Origin) : Prop :=
  ∃ before number between, ls = before ++ Line.marker number next.path :: between ∧
    (∀ x ∈ between, x.kind ≠ .marker) ∧ number + between.length = next.number

section Cutting

variable {α : Type} {p : α → Prop}

/-- A list is cut in one way at its first entry with a property. -/
theorem append_cons_inj_of_first {as bs cs ds : List α} {a c : α}
    (h : as ++ a :: bs = cs ++ c :: ds) (ha : p a) (hc : p c) (has : ∀ x ∈ as, ¬ p x)
    (hcs : ∀ x ∈ cs, ¬ p x) : as = cs ∧ a = c ∧ bs = ds := by
  induction as generalizing cs with
  | nil =>
      cases cs with
      | nil =>
          rw [List.nil_append, List.nil_append, List.cons.injEq] at h
          exact ⟨rfl, h⟩
      | cons y cs =>
          rw [List.nil_append, List.cons_append, List.cons.injEq] at h
          have hy : ¬ p y := hcs y (by simp)
          exact absurd (h.1 ▸ ha) hy
  | cons x as ih =>
      cases cs with
      | nil =>
          rw [List.nil_append, List.cons_append, List.cons.injEq] at h
          have hx : ¬ p x := has x (by simp)
          exact absurd (h.1 ▸ hc) hx
      | cons y cs =>
          rw [List.cons_append, List.cons_append, List.cons.injEq] at h
          obtain ⟨rfl, h⟩ := h
          obtain ⟨rfl, hrest⟩ :=
            ih h (fun z hz => has z (by simp [hz])) (fun z hz => hcs z (by simp [hz]))
          exact ⟨rfl, hrest⟩

/-- A list is cut in one way at its last entry with a property: this is the first one of the
reversed list. -/
theorem append_cons_inj_of_last {as bs cs ds : List α} {a c : α}
    (h : as ++ a :: bs = cs ++ c :: ds) (ha : p a) (hc : p c) (hbs : ∀ x ∈ bs, ¬ p x)
    (hds : ∀ x ∈ ds, ¬ p x) : a = c ∧ bs = ds := by
  have hreverse : bs.reverse ++ a :: as.reverse = ds.reverse ++ c :: cs.reverse := by
    simpa using congrArg List.reverse h
  obtain ⟨hbetween, hac, -⟩ :=
    append_cons_inj_of_first hreverse ha hc (by simpa using hbs) (by simpa using hds)
  exact ⟨hac, List.reverse_inj.1 hbetween⟩

end Cutting

section Markers

theorem space_notMem_toString (n : Nat) : ' ' ∉ (toString n).toList := by
  intro h
  rw [Nat.toString_eq_ofList_toDigits, String.toList_ofList] at h
  have hdigit := Nat.isDigit_of_mem_toDigits (by decide) (by decide) h
  simp at hdigit

theorem toString_inj {m n : Nat} (h : (toString m).toList = (toString n).toList) : m = n := by
  have hvalue := congrArg (fun ds => Nat.ofDigitChars 10 ds 0) h
  simpa [Nat.toString_eq_ofList_toDigits] using hvalue

/-- The text of a marker tells the line and the file, as a number has no space in it. -/
theorem markerText_inj {m n : Nat} {p q : String} :
    markerText m p = markerText n q ↔ m = n ∧ p = q := by
  constructor
  · intro h
    have htext := congrArg String.toList h
    simp only [markerText, String.toList_append, List.append_assoc] at htext
    have hbehind := List.append_cancel_left htext
    have hquote : " \"".toList = [' ', '"'] := by simp
    simp only [hquote, List.cons_append, List.nil_append] at hbehind
    obtain ⟨hnumber, -, hpath⟩ :=
      append_cons_inj_of_first (p := (· = ' ')) hbehind rfl rfl
        (fun c hc heq => space_notMem_toString m (heq ▸ hc))
        (fun c hc heq => space_notMem_toString n (heq ▸ hc))
    rw [List.cons.injEq, List.append_left_inj] at hpath
    exact ⟨toString_inj hnumber, String.toList_inj.1 hpath.2⟩
  · rintro ⟨rfl, rfl⟩
    rfl

theorem leadsTo_marker_iff {store : FileStore} {number skipped : Nat} {path : String} {l : Line} :
    (Line.marker number path).LeadsTo store skipped l ↔
      l.IsReadFrom store ⟨path, number + skipped⟩ := by
  constructor
  · intro h
    exact h.2 number path rfl
  · intro h
    refine ⟨⟨number, path, rfl⟩, ?_⟩
    intro number' path' htext
    obtain ⟨rfl, rfl⟩ := markerText_inj.1 htext
    exact h

end Markers

section Lines

variable {store : FileStore} {ls : List Line} {l : Line} {o : Origin}

theorem isAttributed_of_forall_kind (h : ∀ x ∈ ls, x.kind ≠ .marker) : IsAttributed store ls := by
  intro before marker between l after hls hmarker
  exact absurd hmarker (h marker (by simp [hls]))

/-- Lines stay attributed with one more at their end if their last marker leads to it. -/
theorem isAttributed_append_singleton (h : IsAttributed store ls)
    (hlast : l.kind ≠ .marker → ∀ before marker between, ls = before ++ marker :: between →
      marker.kind = .marker → (∀ x ∈ between, x.kind ≠ .marker) →
        marker.LeadsTo store between.length l) :
    IsAttributed store (ls ++ [l]) := by
  intro before marker between x after hls hmarker hbetween hx
  rcases List.eq_nil_or_concat after with rfl | ⟨after, y, rfl⟩
  · have hend : ls ++ [l] = (before ++ marker :: between) ++ [x] := by simpa using hls
    obtain ⟨hbefore, rfl⟩ := List.append_singleton_inj.1 hend
    exact hlast hx before marker between hbefore hmarker hbetween
  · have hend : ls ++ [l] = (before ++ marker :: (between ++ x :: after)) ++ [y] := by
      simpa using hls
    obtain ⟨hbefore, -⟩ := List.append_singleton_inj.1 hend
    exact h before marker between x after hbefore hmarker hbetween hx

theorem isAttributed_append_marker (h : IsAttributed store ls) (number : Nat) (path : String) :
    IsAttributed store (ls ++ [Line.marker number path]) :=
  isAttributed_append_singleton h fun hmarker => absurd rfl hmarker

/-- A line that is read where it was announced is attributed. -/
theorem isAttributed_append_line (h : IsAttributed store ls) (hnext : Announces ls o)
    (hl : l.IsReadFrom store o) : IsAttributed store (ls ++ [l]) := by
  refine isAttributed_append_singleton h ?_
  intro _ before marker between hls hmarker hbetween
  obtain ⟨before', number, between', hls', hbetween', hnumber⟩ := hnext
  obtain ⟨rfl, rfl⟩ :=
    append_cons_inj_of_last (p := fun x => x.kind = .marker) (hls.symm.trans hls') hmarker rfl
      hbetween hbetween'
  rw [leadsTo_marker_iff, hnumber]
  exact hl

theorem announces_append_marker (ls : List Line) (number : Nat) (path : String) :
    Announces (ls ++ [Line.marker number path]) ⟨path, number⟩ :=
  ⟨ls, number, [], rfl, by simp, rfl⟩

theorem announces_append_line {path : String} {number : Nat}
    (h : Announces ls ⟨path, number⟩) (hl : l.kind ≠ .marker) :
    Announces (ls ++ [l]) ⟨path, number + 1⟩ := by
  obtain ⟨before, first, between, rfl, hbetween, hnumber⟩ := h
  refine ⟨before, first, between ++ [l], by simp, ?_, ?_⟩
  · intro x hx
    rcases List.mem_append.1 hx with hx | hx
    · exact hbetween x hx
    · rw [List.mem_singleton.1 hx]
      exact hl
  · rw [List.length_append, List.length_singleton, ← Nat.add_assoc, hnumber]

end Lines

section Files

variable {store : FileStore} {path : String} {number : Nat} {line : List Char}
  {rest : List (List Char)}

theorem begins_first {text : String} (h : store.get? path = some text) :
    Origin.Begins store ⟨path, 1⟩ (Text.lines text.toList) :=
  ⟨text, [], h, rfl, rfl⟩

theorem Origin.Begins.next (h : Origin.Begins store ⟨path, number⟩ (line :: rest)) :
    Origin.Begins store ⟨path, number + 1⟩ rest := by
  obtain ⟨text, before, htext, hlines, hnumber⟩ := h
  refine ⟨text, before ++ [line], htext, by simpa using hlines, ?_⟩
  rw [List.length_append, List.length_singleton, hnumber]

theorem Origin.Begins.isReadFrom (h : Origin.Begins store ⟨path, number⟩ (line :: rest))
    (kind : LineKind) :
    Line.IsReadFrom store ⟨String.ofList line, kind, some ⟨path, number⟩⟩ ⟨path, number⟩ :=
  ⟨rfl, rest, by simpa using h⟩

end Files

theorem kept_append_of_isKept {s : Stage} {l : Line} (h : l.kind.isKept s = true)
    (ls : List Line) : kept s (ls ++ [l]) = kept s ls ++ [l] := by
  simp [kept, h]

theorem kept_append_of_not_isKept {s : Stage} {l : Line} (h : l.kind.isKept s = false)
    (ls : List Line) : kept s (ls ++ [l]) = kept s ls := by
  simp [kept, h]

theorem LineKind.ofStage_ne_marker (stage : Option Stage) : ofStage stage ≠ .marker := by
  cases stage <;> simp [ofStage]

namespace Expansion

variable {store : FileStore} {s : Stage} {e e' : Expansion} {path : String} {number depth : Nat}

/-- Whether the text of a stage is attributed so far and, if the next line would be read into
it, announces that line. -/
structure IsAttributedUpTo (store : FileStore) (s : Stage) (e : Expansion) (next : Origin) :
    Prop where
  isAttributed : IsAttributed store (kept s e.lines)
  announces : (LineKind.ofStage e.stage).isKept s = true → Announces (kept s e.lines) next

theorem isAttributedUpTo_mark (h : IsAttributed store (kept s e.lines)) (number : Nat)
    (path : String) : (e.mark number path).IsAttributedUpTo store s ⟨path, number⟩ := by
  have hlines : kept s (e.mark number path).lines =
      kept s e.lines ++ [Line.marker number path] := kept_append_of_isKept rfl e.lines
  constructor
  · rw [hlines]
    exact isAttributed_append_marker h number path
  · intro _
    rw [hlines]
    exact announces_append_marker _ number path

theorem isAttributedUpTo_entered (h : IsAttributed store (kept s e.lines)) (target : String)
    (depth : Nat) :
    ((e.request target depth).mark 1 target).IsAttributedUpTo store s ⟨target, 1⟩ := by
  apply isAttributedUpTo_mark
  exact h

/-- A line of the other stage leaves the text alone, and then no line is awaited in it. -/
theorem isAttributedUpTo_keep {line : List Char} {rest : List (List Char)}
    (h : e.IsAttributedUpTo store s ⟨path, number⟩)
    (hline : Origin.Begins store ⟨path, number⟩ (line :: rest)) :
    (e.keep (String.ofList line) (some ⟨path, number⟩)).IsAttributedUpTo store s
      ⟨path, number + 1⟩ := by
  by_cases hkept : (LineKind.ofStage e.stage).isKept s = true
  · have hlines : kept s (e.keep (String.ofList line) (some ⟨path, number⟩)).lines =
        kept s e.lines ++ [⟨String.ofList line, .ofStage e.stage, some ⟨path, number⟩⟩] :=
      kept_append_of_isKept hkept e.lines
    have hnext := h.announces hkept
    constructor
    · rw [hlines]
      exact isAttributed_append_line h.isAttributed hnext (hline.isReadFrom _)
    · intro _
      rw [hlines]
      exact announces_append_line hnext (LineKind.ofStage_ne_marker e.stage)
  · have hlines : kept s (e.keep (String.ofList line) (some ⟨path, number⟩)).lines =
        kept s e.lines := kept_append_of_not_isKept (by simpa using hkept) e.lines
    constructor
    · rw [hlines]
      exact h.isAttributed
    · intro hkept'
      exact absurd hkept' hkept

theorem isAttributedUpTo_step {line : List Char} {rest : List (List Char)}
    (hstep : Step path number line e e') (h : e.IsAttributedUpTo store s ⟨path, number⟩)
    (hline : Origin.Begins store ⟨path, number⟩ (line :: rest)) :
    e'.IsAttributedUpTo store s ⟨path, number + 1⟩ := by
  have hkeep := isAttributedUpTo_keep h hline
  cases hstep with
  | text => exact hkeep
  | endif =>
      apply isAttributedUpTo_mark
      exact hkeep.isAttributed
  | parameter =>
      apply isAttributedUpTo_mark
      exact hkeep.isAttributed
  | name =>
      apply isAttributedUpTo_mark
      exact h.isAttributed
  | format =>
      apply isAttributedUpTo_mark
      exact h.isAttributed
  | stage =>
      apply isAttributedUpTo_mark
      exact h.isAttributed

/-- By induction on the derivation. An included file may end in the other stage, but the marker
behind its lines announces the next line of the file that includes it in both. -/
theorem isAttributed_expands {lines : List (List Char)}
    (h : Expands store depth path number lines e e')
    (hstart : e.IsAttributedUpTo store s ⟨path, number⟩)
    (hlines : Origin.Begins store ⟨path, number⟩ lines) : IsAttributed store (kept s e'.lines) := by
  induction h with
  | nil => exact hstart.isAttributed
  | step hstep _ ih => exact ih (isAttributedUpTo_step hstep hstart hlines) hlines.next
  | again _ _ _ ih => exact ih (isAttributedUpTo_mark hstart.isAttributed _ _) hlines.next
  | inclusion _ _ htext _ _ ihinner ihrest =>
      have hinner :=
        ihinner (isAttributedUpTo_entered hstart.isAttributed _ _) (begins_first htext)
      exact ihrest (isAttributedUpTo_mark hinner _ _) hlines.next

/-- Behind the version line of a file, before any other line is read, the text of each stage
is attributed: its only marker stands at its end. -/
theorem isAttributedUpTo_opened (store : FileStore) (s : Stage) (path : String)
    (version : List Char) : (opened path version).IsAttributedUpTo store s ⟨path, 2⟩ := by
  apply isAttributedUpTo_mark
  apply isAttributed_of_forall_kind
  simp [empty, request, keep, kept, LineKind.ofStage, LineKind.isKept]

end Expansion

/-- The text of a stage of an annotated source is that of kept lines which begin with the
version line, the line that lets markers name files, and a marker for the line behind these,
and in which the last marker before a line always leads to the place where it was read. -/
theorem isAttributed_of_ofFile {store : FileStore} {path : String} {a : Annotation}
    (h : Annotation.ofFile store path = .ok a) (s : Stage) :
    ∃ e, Expansion.ofFile store (Path.normalize path) = .ok e ∧
      a.text s = textOf (kept s e.lines) ∧
      (∃ version rest,
        kept s e.lines = version :: ⟨extensionLine, .common, none⟩ ::
          Line.marker 2 (Path.normalize path) :: rest ∧
        version.kind = .common ∧ version.IsReadFrom store ⟨Path.normalize path, 1⟩) ∧
      IsAttributed store (kept s e.lines) := by
  obtain ⟨e, he, rfl⟩ := Annotation.ofFile_ok h
  obtain ⟨text, version, rest, htext, hlines, -, hexpands⟩ := Expansion.ofFile_ok he
  have hbegins : Origin.Begins store ⟨Path.normalize path, 1⟩ (version :: rest) := by
    rw [← hlines]
    exact begins_first htext
  refine ⟨e, he, by cases s <;> rfl, ?_, ?_⟩
  · obtain ⟨more, hmore, -⟩ :=
      Expansion.exists_kept_eq_of_extends (Expansion.extends_expands hexpands) s
    exact ⟨_, more, hmore, rfl, hbegins.isReadFrom .common⟩
  · exact Expansion.isAttributed_expands hexpands
      (Expansion.isAttributedUpTo_opened store s _ version) hbegins.next

/-- A file that includes another one and then has a line for the vertex stage. -/
def includingStore : FileStore :=
  .ofList
    [("root", "#version 450\n#include \"part\"\n#pragma stage vertex\nmain"),
      ("part", "first\nsecond")]

theorem isAttributed_of_ofFile_including :
    ∃ (a : Annotation) (e : Expansion), Annotation.ofFile includingStore "root" = .ok a ∧
      a.vertex =
        "#version 450\n" ++ extensionLine ++ "\n#line 2 \"root\"\n#line 1 \"part\"\n" ++
          "first\nsecond\n#line 3 \"root\"\n#line 4 \"root\"\nmain\n" ∧
      a.vertex = textOf (kept .vertex e.lines) ∧
      IsAttributed includingStore (kept .vertex e.lines) := by
  have h : ∃ a, Annotation.ofFile includingStore "root" = .ok a ∧
      a.vertex =
        "#version 450\n" ++ extensionLine ++ "\n#line 2 \"root\"\n#line 1 \"part\"\n" ++
          "first\nsecond\n#line 3 \"root\"\n#line 4 \"root\"\nmain\n" :=
    Success.map_iff.1 (by decide +kernel)
  obtain ⟨a, ha, hvertex⟩ := h
  obtain ⟨e, -, htext, -, hattributed⟩ := isAttributed_of_ofFile ha .vertex
  exact ⟨a, e, ha, hvertex, htext, hattributed⟩

end ShaderChain.Source
