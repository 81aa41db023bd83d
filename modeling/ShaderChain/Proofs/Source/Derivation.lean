import ShaderChain.Proofs.Success
import ShaderChain.Source.Annotation

/-!
# Derivations of expansions

How a source is expanded, as rules. `Expansion.Step` has a rule for each directive that
includes nothing, with the conditions under which it is taken. `Expansion.Expands` goes
through the lines of a file: a line that includes nothing takes a step, an inclusion of a
file that has been requested adds nothing, and any other inclusion expands the lines of its
file in between. Every expansion that succeeds is derived by these rules, which speak of no
budget, so that what holds of an expansion is shown by one induction on its derivation.
-/

namespace ShaderChain.Source

/-- The normalized path of the file that a line of the file at `path` includes, if the line
is an inclusion. -/
def includedPath? (path : String) (line : List Char) : Option String :=
  match Directive.ofLine line with
  | .inclusion argument =>
      (Directive.quotedPath? argument).map fun quoted =>
        Path.normalize (Path.join ((Path.parent? path).getD "") (String.ofList quoted))
  | _ => none

namespace Expansion

/-- What a line that includes nothing makes of an expansion. -/
inductive Step (path : String) (number : Nat) (line : List Char) (e : Expansion) :
    Expansion → Prop
  | text (hline : Directive.ofLine line = .text) :
      Step path number line e (e.keep (String.ofList line) (some ⟨path, number⟩))
  | endif (hline : Directive.ofLine line = .endif) :
      Step path number line e
        ((e.keep (String.ofList line) (some ⟨path, number⟩)).mark (number + 1) path)
  | name {argument : List Char} (hline : Directive.ofLine line = .name argument)
      (hnew : e.name = none) :
      Step path number line e
        ({ e with name := some (String.ofList (Text.trim argument)) }.mark (number + 1) path)
  | format {argument : List Char} {format : PixelFormat}
      (hline : Directive.ofLine line = .format argument) (hnew : e.format = none)
      (htoken : Named.name format = String.ofList (Text.trim argument)) :
      Step path number line e ({ e with format := some format }.mark (number + 1) path)
  | parameter {argument : List Char} {d : Declaration} {ds : List Declaration}
      (hline : Directive.ofLine line = .parameter argument)
      (hread : Declaration.read? argument = some d)
      (hadd : Declaration.add? e.declarations d = some ds) :
      Step path number line e
        (({ e with declarations := ds }.keep (String.ofList line) (some ⟨path, number⟩)).mark
          (number + 1) path)
  | stage {argument : List Char} {stage : Stage}
      (hline : Directive.ofLine line = .stage argument)
      (hword : Named.name stage = String.ofList (Text.trim argument)) :
      Step path number line e ({ e with stage := some stage }.mark (number + 1) path)

/-- How the lines of the file at `path`, from line `number` on, are expanded. Files that they
include are opened at the given depth. -/
inductive Expands (store : FileStore) :
    Nat → String → Nat → List (List Char) → Expansion → Expansion → Prop
  | nil {depth : Nat} {path : String} {number : Nat} {e : Expansion} :
      Expands store depth path number [] e e
  | step {depth : Nat} {path : String} {number : Nat} {line : List Char}
      {rest : List (List Char)} {e e₁ e' : Expansion} (hstep : Step path number line e e₁)
      (hrest : Expands store depth path (number + 1) rest e₁ e') :
      Expands store depth path number (line :: rest) e e'
  | again {depth : Nat} {path : String} {number : Nat} {line : List Char}
      {rest : List (List Char)} {target : String} {e e' : Expansion}
      (hline : includedPath? path line = some target) (hseen : e.hasRequested target = true)
      (hrest : Expands store depth path (number + 1) rest (e.mark (number + 1) path) e') :
      Expands store depth path number (line :: rest) e e'
  | inclusion {depth : Nat} {path : String} {number : Nat} {line : List Char}
      {rest : List (List Char)} {target text : String} {e e₁ e' : Expansion}
      (hline : includedPath? path line = some target) (hnew : e.hasRequested target = false)
      (htext : store.get? target = some text)
      (hinner : Expands store (depth + 1) target 1 (Text.lines text.toList)
        ((e.request target depth).mark 1 target) e₁)
      (hrest : Expands store depth path (number + 1) rest (e₁.mark (number + 1) path) e') :
      Expands store depth path number (line :: rest) e e'

/-- How a file is entered: not at all if it has been requested, and else from its first line. -/
def Enters (store : FileStore) (depth : Nat) (path : String) (e e' : Expansion) : Prop :=
  (e.hasRequested path = true ∧ e' = e) ∨
    (e.hasRequested path = false ∧ ∃ text, store.get? path = some text ∧
      Expands store (depth + 1) path 1 (Text.lines text.toList)
        ((e.request path depth).mark 1 path) e')

section Directives

variable {path : String} {number depth : Nat} {line : List Char} {e e' : Expansion}
  {argument : List Char} {store : FileStore}

theorem setName_ok (h : e.setName argument = .ok e') :
    e.name = none ∧ e' = { e with name := some (String.ofList (Text.trim argument)) } := by
  unfold setName at h
  split at h
  · cases h
  · next hnew =>
      cases h
      exact ⟨by simpa using hnew, rfl⟩

theorem setFormat_ok (h : e.setFormat argument = .ok e') :
    e.format = none ∧ ∃ format : PixelFormat,
      Named.name format = String.ofList (Text.trim argument) ∧
        e' = { e with format := some format } := by
  unfold setFormat at h
  split at h
  · cases h
  · next hnew =>
      dsimp only at h
      split at h
      · next format hformat =>
          cases h
          exact ⟨by simpa using hnew, format, Named.ofName?_eq_some_iff.1 hformat, rfl⟩
      · cases h

theorem declare_ok (h : e.declare line argument = .ok e') :
    ∃ d ds, Declaration.read? argument = some d ∧ Declaration.add? e.declarations d = some ds ∧
      e' = { e with declarations := ds } := by
  unfold declare at h
  split at h
  · cases h
  · next d hread =>
      split at h
      · next ds hadd =>
          cases h
          exact ⟨d, ds, hread, hadd, rfl⟩
      · cases h

theorem setStage_ok (h : e.setStage argument = .ok e') :
    ∃ stage : Stage, Named.name stage = String.ofList (Text.trim argument) ∧
      e' = { e with stage := some stage } := by
  unfold setStage at h
  dsimp only at h
  split at h
  · next stage hword =>
      cases h
      exact ⟨stage, Named.ofName?_eq_some_iff.1 hword, rfl⟩
  · cases h

/-- A line that is expanded takes a step, or includes a file that is entered. -/
theorem expandLine_ok {enter : String → Expansion → Except Failure Expansion}
    (h : expandLine enter path number line e = .ok e') :
    Step path number line e e' ∨
      ∃ target e₁, includedPath? path line = some target ∧ enter target e = .ok e₁ ∧
        e' = e₁.mark (number + 1) path := by
  unfold expandLine at h
  dsimp only at h
  split at h
  · next argument hline =>
      right
      split at h
      · cases h
      · next quoted hquoted =>
          obtain ⟨e₁, henter, rfl⟩ := Success.map_iff.1 h
          exact ⟨_, e₁, by simp [includedPath?, hline, hquoted], henter, rfl⟩
  · next argument hline =>
      obtain ⟨e₁, hset, rfl⟩ := Success.map_iff.1 h
      obtain ⟨hnew, rfl⟩ := setName_ok (Success.mapError_iff.1 hset)
      exact Or.inl (.name hline hnew)
  · next argument hline =>
      obtain ⟨e₁, hset, rfl⟩ := Success.map_iff.1 h
      obtain ⟨hnew, format, htoken, rfl⟩ := setFormat_ok (Success.mapError_iff.1 hset)
      exact Or.inl (.format hline hnew htoken)
  · next argument hline =>
      obtain ⟨e₁, hset, rfl⟩ := Success.map_iff.1 h
      obtain ⟨d, ds, hread, hadd, rfl⟩ := declare_ok (Success.mapError_iff.1 hset)
      exact Or.inl (.parameter hline hread hadd)
  · next argument hline =>
      obtain ⟨e₁, hset, rfl⟩ := Success.map_iff.1 h
      obtain ⟨stage, hword, rfl⟩ := setStage_ok (Success.mapError_iff.1 hset)
      exact Or.inl (.stage hline hword)
  · next hline =>
      cases h
      exact Or.inl (.endif hline)
  · next hline =>
      cases h
      exact Or.inl (.text hline)

end Directives

section Files

variable {store : FileStore} {path : String} {number depth budget : Nat}
  {lines : List (List Char)} {e e' : Expansion}

theorem expands_of_expandLines {enter : String → Expansion → Except Failure Expansion}
    (henter : ∀ target e e', enter target e = .ok e' → Enters store depth target e e')
    (h : expandLines enter path number lines e = .ok e') :
    Expands store depth path number lines e e' := by
  induction lines generalizing number e with
  | nil =>
      cases h
      exact .nil
  | cons line rest ih =>
      obtain ⟨e₁, hline, hrest⟩ := Success.bind_iff.1 h
      have hrest := ih hrest
      rcases expandLine_ok hline with hstep | ⟨target, e₂, htarget, hentered, rfl⟩
      · exact .step hstep hrest
      · rcases henter target e e₂ hentered with ⟨hseen, rfl⟩ | ⟨hnew, text, htext, hinner⟩
        · exact .again htarget hseen hrest
        · exact .inclusion htarget hnew htext hinner hrest

/-- By induction on the budget: within a file, one file less can be opened. -/
theorem enters_of_enter (h : enter store budget depth path e = .ok e') :
    Enters store depth path e e' := by
  induction budget generalizing depth path e e' with
  | zero =>
      unfold enter at h
      split at h
      · next hseen =>
          cases h
          exact Or.inl ⟨hseen, rfl⟩
      · cases h
  | succ budget ih =>
      unfold enter at h
      split at h
      · next hseen =>
          cases h
          exact Or.inl ⟨hseen, rfl⟩
      · next hnew =>
          dsimp only at h
          split at h
          · next budget' text hbudget htext =>
              cases hbudget
              exact Or.inr ⟨by simpa using hnew, text, htext,
                expands_of_expandLines (fun _ _ _ => ih) h⟩
          · cases h

/-- What has been gathered of a file behind its version line. -/
def opened (path : String) (version : List Char) : Expansion :=
  (((empty.request path 1).keep (String.ofList version) (some ⟨path, 1⟩)).keep extensionLine
    none).mark 2 path

/-- An expansion of a file has a version line in front, and derives from it by the rules. -/
theorem ofFile_ok (h : ofFile store path = .ok e) :
    ∃ text version rest, store.get? path = some text ∧
      Text.lines text.toList = version :: rest ∧ versionKeyword.isPrefixOf version = true ∧
      Expands store 2 path 2 rest (opened path version) e := by
  unfold ofFile at h
  dsimp only at h
  split at h
  · cases h
  · next text htext =>
      split at h
      · cases h
      · next version rest hlines =>
          split at h
          · next hversion =>
              exact ⟨text, version, rest, FileStore.load_eq_ok_iff.1 htext, hlines, hversion,
                expands_of_expandLines (fun _ _ _ => enters_of_enter) h⟩
          · cases h

end Files

section Growth

variable {store : FileStore} {path : String} {number depth : Nat} {e e₁ e' : Expansion}

/-- Whether only lines at the end are new in an expansion, and of these just the markers were
not read from a file. -/
def Extends (e e' : Expansion) : Prop :=
  ∃ more, e'.lines = e.lines ++ more ∧ ∀ l ∈ more, l.origin = none ↔ l.kind = .marker

theorem extends_refl (e : Expansion) : e.Extends e := ⟨[], by simp, by simp⟩

theorem Extends.trans (h : e.Extends e₁) (h' : e₁.Extends e') : e.Extends e' := by
  obtain ⟨more, hmore, hread⟩ := h
  obtain ⟨more', hmore', hread'⟩ := h'
  refine ⟨more ++ more', by rw [hmore', hmore, List.append_assoc], ?_⟩
  intro l hl
  rcases List.mem_append.1 hl with hl | hl
  · exact hread l hl
  · exact hread' l hl

theorem extends_mark (e : Expansion) (number : Nat) (path : String) :
    e.Extends (e.mark number path) :=
  ⟨[.marker number path], rfl, by simp [Line.marker]⟩

theorem extends_keep (e : Expansion) (text : String) (o : Origin) :
    e.Extends (e.keep text (some o)) := by
  refine ⟨[⟨text, .ofStage e.stage, some o⟩], rfl, ?_⟩
  cases h : e.stage <;> simp [LineKind.ofStage]

theorem extends_step {line : List Char} (h : Step path number line e e') : e.Extends e' := by
  cases h with
  | text => exact extends_keep _ _ _
  | endif => exact (extends_keep _ _ _).trans (extends_mark _ _ _)
  | parameter => exact (extends_keep _ _ _).trans (extends_mark _ _ _)
  | name => exact extends_mark _ _ _
  | format => exact extends_mark _ _ _
  | stage => exact extends_mark _ _ _

theorem extends_expands {lines : List (List Char)}
    (h : Expands store depth path number lines e e') : e.Extends e' := by
  induction h with
  | nil => exact extends_refl _
  | step hstep _ ih => exact (extends_step hstep).trans ih
  | again _ _ _ ih => exact (extends_mark _ _ _).trans ih
  | inclusion _ _ _ _ _ ihinner ihrest =>
      have hentered := (extends_mark _ _ _).trans ihinner
      exact hentered.trans ((extends_mark _ _ _).trans ihrest)

/-- The text of each stage of an expanded file begins with its version line, the line that lets
markers name files, and a marker for the line behind these. -/
theorem exists_kept_eq_of_extends {version : List Char} (h : (opened path version).Extends e)
    (s : Stage) :
    ∃ more,
      kept s e.lines = ⟨String.ofList version, .common, some ⟨path, 1⟩⟩ ::
        ⟨extensionLine, .common, none⟩ :: .marker 2 path :: more ∧
      ∀ l ∈ more, l.origin = none ↔ l.kind = .marker := by
  obtain ⟨more, hmore, hread⟩ := h
  refine ⟨kept s more, ?_, fun l hl => hread l (List.mem_filter.1 hl).1⟩
  rw [hmore, kept_append]
  rfl

end Growth

end Expansion

/-- An annotation is made of an expansion of its file. -/
theorem Annotation.ofFile_ok {store : FileStore} {path : String} {a : Annotation}
    (h : ofFile store path = .ok a) :
    ∃ e, Expansion.ofFile store (Path.normalize path) = .ok e ∧
      a = ofExpansion (Path.normalize path) e := by
  obtain ⟨e, he, rfl⟩ := Success.map_iff.1 h
  exact ⟨e, Success.mapError_iff.1 he, rfl⟩

end ShaderChain.Source
