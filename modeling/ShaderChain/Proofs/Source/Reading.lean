import ShaderChain.Proofs.Source.Declared
import ShaderChain.Proofs.Source.Stream

/-!
# Expansions as readings of a stream

An expansion visits the files, drops directives, and gathers the texts of both stages and
what the directives say, all at once. The outcome is that of flattening the file to its stream
first and then reading each part off the stream by itself: the annotation of a file
`IsReadingOf` its stream. The invariant is `Expansion.Gathers`: what has been gathered so far
is the reading of the stream so far.
-/

namespace ShaderChain.Source

namespace Expansion

variable {store : FileStore} {e e' : Expansion} {stream before : List ReadLine} {l : ReadLine}
  {path : String} {number depth : Nat} {line : List Char}

/-- The lines of files in the text of a stage. -/
def readLines (s : Stage) (e : Expansion) : List ReadLine :=
  (kept s e.lines).filterMap Line.read?

/-- Whether an expansion has gathered what is read off a stream. -/
structure Gathers (e : Expansion) (stream : List ReadLine) : Prop where
  lines : ∀ s, e.readLines s = select s stream
  stage : e.stage.map Named.name = lastStage? stream
  name : e.name.toList = stream.filterMap ReadLine.name?
  format : e.format.toList.map Named.name = stream.filterMap ReadLine.format?
  declarations : ∃ ds, stream.filterMap ReadLine.parameter? = ds.map some ∧
    Declaration.AreDeclaredBy e.declarations ds

@[simp] theorem readLines_mark (s : Stage) (e : Expansion) (number : Nat) (path : String) :
    (e.mark number path).readLines s = e.readLines s := by
  simp [readLines, mark, kept, Line.read?, Line.marker]

/-- A line is kept in the text of a stage if no other one has been entered. -/
theorem readLines_keep (s : Stage) (e : Expansion) (line : List Char) (o : Origin) :
    (e.keep (String.ofList line) (some o)).readLines s =
      e.readLines s ++
        if (e.stage.map Named.name).all (· == Named.name s) then [⟨line, o⟩] else [] := by
  cases hstage : e.stage with
  | none => simp [readLines, keep, kept, hstage, LineKind.ofStage, LineKind.isKept, Line.read?]
  | some t =>
      by_cases hts : t = s
      · simp [readLines, keep, kept, hstage, LineKind.ofStage, LineKind.isKept, Line.read?, hts]
      · have hname : Named.name t ≠ Named.name s := fun h => hts (Named.name_injective h)
        simp [readLines, keep, kept, hstage, LineKind.ofStage, LineKind.isKept, hts, hname]

/-- What has been gathered is read off a stream with one more line if each of the readings by
itself goes on as the line says. -/
theorem gathers_append_singleton (h : e.Gathers stream)
    (hlines : ∀ s, e'.readLines s = e.readLines s ++
      if l.isOutput && (e.stage.map Named.name).all (· == Named.name s) then [l] else [])
    (hstage : e'.stage.map Named.name = l.stage?.or (e.stage.map Named.name))
    (hname : e'.name.toList = e.name.toList ++ l.name?.toList)
    (hformat : e'.format.toList.map Named.name =
      e.format.toList.map Named.name ++ l.format?.toList)
    (hdeclarations : (l.parameter? = none ∧ e'.declarations = e.declarations) ∨
      ∃ d, l.parameter? = some (some d) ∧
        Declaration.add? e.declarations d = some e'.declarations) :
    e'.Gathers (stream ++ [l]) where
  lines s := by rw [hlines, h.lines, h.stage, select_append_singleton]
  stage := by rw [hstage, h.stage, lastStage?_append_singleton]
  name := by
    rw [hname, h.name, List.filterMap_append]
    cases hl : l.name? <;> simp [hl]
  format := by
    rw [hformat, h.format, List.filterMap_append]
    cases hl : l.format? <;> simp [hl]
  declarations := by
    obtain ⟨ds, hds, hdeclared⟩ := h.declarations
    rcases hdeclarations with ⟨hl, hsame⟩ | ⟨d, hl, hadd⟩
    · exact ⟨ds, by simp [hds, hl], hsame ▸ hdeclared⟩
    · exact ⟨ds ++ [d], by simp [hds, hl],
        Declaration.areDeclaredBy_append_singleton hdeclared hadd⟩

theorem gathers_mark (h : e.Gathers stream) (number : Nat) (path : String) :
    (e.mark number path).Gathers stream where
  lines s := by rw [readLines_mark, h.lines]
  stage := h.stage
  name := h.name
  format := h.format
  declarations := h.declarations

/-- A line that is kept and says nothing about the pass adds itself. -/
theorem gathers_keep (h : e.Gathers stream)
    (hline : Directive.ofLine line = .text ∨ Directive.ofLine line = .endif) (o : Origin) :
    (e.keep (String.ofList line) (some o)).Gathers (stream ++ [⟨line, o⟩]) := by
  apply gathers_append_singleton h
  · intro s
    rw [readLines_keep]
    rcases hline with hline | hline <;>
      simp [ReadLine.isOutput, ReadLine.stage?, ReadLine.name?, ReadLine.format?, hline]
  · rcases hline with hline | hline <;> simp [keep, ReadLine.stage?, hline]
  · rcases hline with hline | hline <;> simp [keep, ReadLine.name?, hline]
  · rcases hline with hline | hline <;> simp [keep, ReadLine.format?, hline]
  · left
    rcases hline with hline | hline <;> simp [keep, ReadLine.parameter?, hline]

/-- What has been gathered with one more line that includes nothing. -/
theorem gathers_step (h : e.Gathers stream) (hstep : Step path number line e e') :
    e'.Gathers (stream ++ [⟨line, ⟨path, number⟩⟩]) := by
  cases hstep with
  | text hline => exact gathers_keep h (Or.inl hline) _
  | endif hline => exact gathers_mark (gathers_keep h (Or.inr hline) _) _ _
  | name hline hnew =>
      apply gathers_mark
      apply gathers_append_singleton h
      · intro s
        simp [readLines, ReadLine.isOutput, ReadLine.name?, hline]
      · simp [ReadLine.stage?, hline]
      · simp [ReadLine.name?, hline, hnew]
      · simp [ReadLine.format?, hline]
      · exact Or.inl ⟨by simp [ReadLine.parameter?, hline], rfl⟩
  | format hline hnew htoken =>
      apply gathers_mark
      apply gathers_append_singleton h
      · intro s
        simp [readLines, ReadLine.isOutput, ReadLine.format?, hline]
      · simp [ReadLine.stage?, hline]
      · simp [ReadLine.name?, hline]
      · simp [ReadLine.format?, hline, hnew, htoken]
      · exact Or.inl ⟨by simp [ReadLine.parameter?, hline], rfl⟩
  | stage hline hword =>
      apply gathers_mark
      apply gathers_append_singleton h
      · intro s
        simp [readLines, ReadLine.isOutput, ReadLine.stage?, hline]
      · simp [ReadLine.stage?, hline, hword]
      · simp [ReadLine.name?, hline]
      · simp [ReadLine.format?, hline]
      · exact Or.inl ⟨by simp [ReadLine.parameter?, hline], rfl⟩
  | parameter hline hread hadd =>
      apply gathers_mark
      apply gathers_append_singleton h
      · intro s
        rw [readLines_keep]
        simp [readLines, ReadLine.isOutput, ReadLine.stage?, ReadLine.name?, ReadLine.format?,
          hline]
      · simp [keep, ReadLine.stage?, hline]
      · simp [keep, ReadLine.name?, hline]
      · simp [keep, ReadLine.format?, hline]
      · exact Or.inr ⟨_, by simp [ReadLine.parameter?, hline, hread], hadd⟩

/-- The files that have been requested, in order. -/
def visited (e : Expansion) : List String := e.requests.map (·.path)

theorem hasRequested_eq_true_iff {target : String} :
    e.hasRequested target = true ↔ target ∈ e.visited := by
  simp [hasRequested, visited]

theorem visited_step (h : Step path number line e e') : e'.visited = e.visited := by
  cases h <;> rfl

theorem directive_ne_inclusion_of_step (h : Step path number line e e') (argument : List Char) :
    Directive.ofLine line ≠ .inclusion argument := by
  cases h with
  | text hline => simp [hline]
  | endif hline => simp [hline]
  | name hline => simp [hline]
  | format hline => simp [hline]
  | parameter hline => simp [hline]
  | stage hline => simp [hline]

/-- By induction on the derivation: lines are flattened to a stream while they are expanded,
and what has been gathered is read off the stream so far. -/
theorem exists_flattens_of_expands {lines : List (List Char)}
    (h : Expands store depth path number lines e e') (hgathers : e.Gathers before) :
    ∃ stream, Flattens store e.visited path number lines stream e'.visited ∧
      e'.Gathers (before ++ stream) := by
  induction h generalizing before with
  | nil => exact ⟨[], .nil, by simpa using hgathers⟩
  | step hstep _ ih =>
      obtain ⟨stream, hflattens, hg⟩ := ih (gathers_step hgathers hstep)
      rw [visited_step hstep] at hflattens
      exact ⟨_ :: stream, .line (directive_ne_inclusion_of_step hstep) hflattens,
        by simpa using hg⟩
  | again hline hseen _ ih =>
      obtain ⟨stream, hflattens, hg⟩ := ih (gathers_mark hgathers _ _)
      exact ⟨stream, .again hline (hasRequested_eq_true_iff.1 hseen) hflattens, hg⟩
  | @inclusion depth path number line rest target text e e₁ e' hline hnew htext _ _ ihinner
      ihrest =>
      have hrequest : (e.request target depth).Gathers before :=
        ⟨hgathers.lines, hgathers.stage, hgathers.name, hgathers.format, hgathers.declarations⟩
      obtain ⟨inner, hinner, hg₁⟩ := ihinner (gathers_mark hrequest 1 target)
      have hvisited : ((e.request target depth).mark 1 target).visited = e.visited ++ [target] := by
        simp [visited, request, mark]
      rw [hvisited] at hinner
      obtain ⟨stream, hrest, hg⟩ := ihrest (gathers_mark hg₁ (number + 1) path)
      have hnotMem : target ∉ e.visited := by
        rw [← hasRequested_eq_true_iff, hnew]
        simp
      exact ⟨inner ++ stream, .inclusion hline hnotMem htext hinner hrest, by simpa using hg⟩

theorem gathers_empty (path : String) : (empty.request path 1).Gathers [] where
  lines s := rfl
  stage := rfl
  name := rfl
  format := rfl
  declarations := ⟨[], rfl, rfl, by simp⟩

/-- Behind its version line, what has been gathered of a file is read off this line. -/
theorem gathers_opened (path : String) {version : List Char}
    (h : versionKeyword.isPrefixOf version = true) :
    (opened path version).Gathers [⟨version, ⟨path, 1⟩⟩] := by
  have hversion := gathers_keep (gathers_empty path) (Or.inl (directive_of_version h)) ⟨path, 1⟩
  apply gathers_mark
  exact ⟨hversion.lines, hversion.stage, hversion.name, hversion.format, hversion.declarations⟩

end Expansion

/-- Where exactly the markers were not read from a file, all other lines were. -/
theorem map_read?_eq {ls : List Line} (h : ∀ l ∈ ls, l.origin = none ↔ l.kind = .marker) :
    (ls.filter (·.kind ≠ .marker)).map Line.read? = (ls.filterMap Line.read?).map some := by
  induction ls with
  | nil => rfl
  | cons l ls ih =>
      have ih := ih fun l hl => h l (List.mem_cons_of_mem _ hl)
      have hl := h l List.mem_cons_self
      cases horigin : l.origin with
      | none =>
          have hmarker := hl.1 horigin
          simpa [Line.read?, horigin, hmarker] using ih
      | some o =>
          have hmarker : l.kind ≠ .marker := by
            intro hkind
            simp [hl.2 hkind] at horigin
          simpa [Line.read?, horigin, hmarker] using ih

/-- What it means that an annotated source, expanded to `e`, is the reading of a stream. -/
structure Annotation.IsReadingOf (a : Annotation) (e : Expansion) (stream : List ReadLine) :
    Prop where
  text : ∀ s, a.text s = textOf (kept s e.lines)
  /-- Apart from markers and from the line behind the first that lets markers name files, the
  lines of a stage are those of the stream that stand in it. -/
  lines : ∀ s, ∃ version rest,
    (kept s e.lines).filter (·.kind ≠ .marker) =
      version :: ⟨extensionLine, .common, none⟩ :: rest ∧
    (version :: rest).map Line.read? = (select s stream).map some
  name : a.name.toList = stream.filterMap ReadLine.name?
  format : a.format.toList.map Named.name = stream.filterMap ReadLine.format?
  declarations : ∃ ds, stream.filterMap ReadLine.parameter? = ds.map some ∧
    Declaration.AreDeclaredBy a.declarations ds

/-- An annotated source is the reading of its stream, and there is just one stream. -/
theorem isReading_of_ofFile {store : FileStore} {path : String} {a : Annotation}
    (h : Annotation.ofFile store path = .ok a) :
    ∃ e stream, Expansion.ofFile store (Path.normalize path) = .ok e ∧
      IsStream store (Path.normalize path) stream ∧
      (∀ other, IsStream store (Path.normalize path) other → other = stream) ∧
      a.IsReadingOf e stream := by
  obtain ⟨e, he, rfl⟩ := Annotation.ofFile_ok h
  obtain ⟨text, version, rest, htext, hlines, hversion, hexpands⟩ := Expansion.ofFile_ok he
  obtain ⟨stream, hflattens, hgathers⟩ :=
    Expansion.exists_flattens_of_expands hexpands (Expansion.gathers_opened _ hversion)
  have hstream : IsStream store (Path.normalize path)
      (⟨version, ⟨Path.normalize path, 1⟩⟩ :: stream) := by
    refine ⟨text, e.visited, htext, ?_⟩
    rw [hlines]
    refine .line ?_ hflattens
    simp [directive_of_version hversion]
  refine ⟨e, _, he, hstream, fun other hother => isStream_unique hother hstream, ?_⟩
  constructor
  case text =>
    intro s
    cases s <;> rfl
  case lines =>
    intro s
    obtain ⟨more, hmore, hread⟩ :=
      Expansion.exists_kept_eq_of_extends (Expansion.extends_expands hexpands) s
    have hselect : e.readLines s = select s (⟨version, ⟨Path.normalize path, 1⟩⟩ :: stream) :=
      hgathers.lines s
    refine ⟨⟨String.ofList version, .common, some ⟨Path.normalize path, 1⟩⟩,
      more.filter (·.kind ≠ .marker), ?_, ?_⟩
    · rw [hmore]
      simp [Line.marker]
    · rw [List.map_cons, map_read?_eq hread, ← hselect, Expansion.readLines, hmore]
      simp [Line.read?, Line.marker, List.filterMap_cons]
  case name => exact hgathers.name
  case format => exact hgathers.format
  case declarations => exact hgathers.declarations

/-- A file that includes another one twice, which leaves a stage entered. -/
def repeatingStore : FileStore :=
  .ofList
    [("root", "#version 450\n#include \"part\"\n#pragma name twice\n#include \"./part\"\nmain"),
      ("part", "#pragma stage vertex\nfirst")]

theorem isReading_of_ofFile_repeating :
    ∃ (a : Annotation) (e : Expansion) (stream : List ReadLine),
      Annotation.ofFile repeatingStore "root" = .ok a ∧ a.name = some "twice" ∧
        IsStream repeatingStore (Path.normalize "root") stream ∧ a.IsReadingOf e stream := by
  have h : ∃ a, Annotation.ofFile repeatingStore "root" = .ok a ∧ a.name = some "twice" :=
    Success.map_iff.1 (by decide +kernel)
  obtain ⟨a, ha, hname⟩ := h
  obtain ⟨e, stream, -, hstream, -, hreading⟩ := isReading_of_ofFile ha
  exact ⟨a, e, stream, ha, hname, hstream, hreading⟩

end ShaderChain.Source
