import ShaderChain.Proofs.Source.Derivation

/-!
# Streams of lines

The stream of a file is the list of all its lines, with the streams of the files it includes
in place of the inclusions; a file that has been visited adds nothing again. `Flattens` builds
the stream and knows of no directive but inclusions. What else the lines say is read off the
stream: the name, the format and the parameters of the pass line by line, and by `select` the
text of a stage, where a directive for a stage holds for all lines behind it, whatever file
they are from.
-/

namespace ShaderChain.Source

/-- A line as it was read from a file. -/
structure ReadLine where
  text : List Char
  origin : Origin
  deriving DecidableEq, Repr

/-- The line of a file that a line of an expansion was, if it was read from one. -/
def Line.read? (l : Line) : Option ReadLine := l.origin.map (⟨l.text.toList, ·⟩)

section Stream

/-- How the lines of the file at `path`, from line `number` on, are flattened to a stream, and
which files have been visited before and after. -/
inductive Flattens (store : FileStore) : List String → String → Nat → List (List Char) →
    List ReadLine → List String → Prop
  | nil {visited : List String} {path : String} {number : Nat} :
      Flattens store visited path number [] [] visited
  | line {visited visited' : List String} {path : String} {number : Nat} {line : List Char}
      {rest : List (List Char)} {stream : List ReadLine}
      (hline : ∀ argument, Directive.ofLine line ≠ .inclusion argument)
      (hrest : Flattens store visited path (number + 1) rest stream visited') :
      Flattens store visited path number (line :: rest) (⟨line, ⟨path, number⟩⟩ :: stream)
        visited'
  | again {visited visited' : List String} {path target : String} {number : Nat}
      {line : List Char} {rest : List (List Char)} {stream : List ReadLine}
      (hline : includedPath? path line = some target) (hseen : target ∈ visited)
      (hrest : Flattens store visited path (number + 1) rest stream visited') :
      Flattens store visited path number (line :: rest) stream visited'
  | inclusion {visited visited₁ visited' : List String} {path target text : String}
      {number : Nat} {line : List Char} {rest : List (List Char)} {inner stream : List ReadLine}
      (hline : includedPath? path line = some target) (hnew : target ∉ visited)
      (htext : store.get? target = some text)
      (hinner : Flattens store (visited ++ [target]) target 1 (Text.lines text.toList) inner
        visited₁)
      (hrest : Flattens store visited₁ path (number + 1) rest stream visited') :
      Flattens store visited path number (line :: rest) (inner ++ stream) visited'

/-- Whether a list of lines is the stream of the file at a path, which counts as visited. -/
def IsStream (store : FileStore) (root : String) (stream : List ReadLine) : Prop :=
  ∃ text visited, store.get? root = some text ∧
    Flattens store [root] root 1 (Text.lines text.toList) stream visited

theorem includedPath?_eq_none {line : List Char}
    (h : ∀ argument, Directive.ofLine line ≠ .inclusion argument) (path : String) :
    includedPath? path line = none := by
  unfold includedPath?
  split
  · next argument hline => exact absurd hline (h argument)
  · rfl

/-- Lines are flattened in one way: the line decides on the rule, and what has been visited on
whether a file is opened. -/
theorem flattens_unique {store : FileStore} {visited visited₁ visited₂ : List String}
    {path : String} {number : Nat} {lines : List (List Char)} {stream₁ stream₂ : List ReadLine}
    (h₁ : Flattens store visited path number lines stream₁ visited₁)
    (h₂ : Flattens store visited path number lines stream₂ visited₂) :
    stream₁ = stream₂ ∧ visited₁ = visited₂ := by
  induction h₁ generalizing stream₂ visited₂ with
  | nil =>
      cases h₂
      exact ⟨rfl, rfl⟩
  | line hline _ ih =>
      cases h₂ with
      | line _ hrest =>
          obtain ⟨rfl, rfl⟩ := ih hrest
          exact ⟨rfl, rfl⟩
      | again htarget _ _ => simp [includedPath?_eq_none hline] at htarget
      | inclusion htarget _ _ _ _ => simp [includedPath?_eq_none hline] at htarget
  | again htarget hseen _ ih =>
      cases h₂ with
      | line hline _ => simp [includedPath?_eq_none hline] at htarget
      | again _ _ hrest => exact ih hrest
      | inclusion htarget' hnew _ _ _ =>
          rw [htarget, Option.some.injEq] at htarget'
          exact absurd (htarget' ▸ hseen) hnew
  | inclusion htarget hnew htext _ _ ihinner ihrest =>
      cases h₂ with
      | line hline _ => simp [includedPath?_eq_none hline] at htarget
      | again htarget' hseen _ =>
          rw [htarget, Option.some.injEq] at htarget'
          exact absurd (htarget' ▸ hseen) hnew
      | inclusion htarget' _ htext' hinner hrest =>
          rw [htarget, Option.some.injEq] at htarget'
          subst htarget'
          rw [htext, Option.some.injEq] at htext'
          subst htext'
          obtain ⟨rfl, rfl⟩ := ihinner hinner
          obtain ⟨rfl, rfl⟩ := ihrest hrest
          exact ⟨rfl, rfl⟩

theorem isStream_unique {store : FileStore} {root : String} {stream₁ stream₂ : List ReadLine}
    (h₁ : IsStream store root stream₁) (h₂ : IsStream store root stream₂) : stream₁ = stream₂ := by
  obtain ⟨text, visited₁, htext, hflattens₁⟩ := h₁
  obtain ⟨text', visited₂, htext', hflattens₂⟩ := h₂
  rw [htext, Option.some.injEq] at htext'
  subst htext'
  exact (flattens_unique hflattens₁ hflattens₂).1

end Stream

section Reading

namespace ReadLine

/-- The stage that a directive says to be that of the lines behind it. -/
def stage? (l : ReadLine) : Option String :=
  match Directive.ofLine l.text with
  | .stage argument => some (String.ofList (Text.trim argument))
  | _ => none

/-- The name that a directive gives. -/
def name? (l : ReadLine) : Option String :=
  match Directive.ofLine l.text with
  | .name argument => some (String.ofList (Text.trim argument))
  | _ => none

/-- The format that a directive asks for. -/
def format? (l : ReadLine) : Option String :=
  match Directive.ofLine l.text with
  | .format argument => some (String.ofList (Text.trim argument))
  | _ => none

/-- What is read of a directive for a parameter. -/
def parameter? (l : ReadLine) : Option (Option Declaration) :=
  match Directive.ofLine l.text with
  | .parameter argument => some (Declaration.read? argument)
  | _ => none

/-- Whether a line is left in the text: those that name the pass, its format or a stage are
not. -/
def isOutput (l : ReadLine) : Bool := l.stage?.isNone && l.name?.isNone && l.format?.isNone

end ReadLine

/-- The stage that the last directive for one says. -/
def lastStage? (stream : List ReadLine) : Option String :=
  (stream.filterMap ReadLine.stage?).getLast?

/-- The lines that stand in the text of a stage, of those behind `before`: where no directive
for a stage stands before the line, or the last one says this stage. -/
def selectFrom (s : Stage) : List ReadLine → List ReadLine → List ReadLine
  | _, [] => []
  | before, l :: stream =>
      if l.isOutput && (lastStage? before).all (· == Named.name s) then
        l :: selectFrom s (before ++ [l]) stream
      else selectFrom s (before ++ [l]) stream

/-- The lines of a stream that stand in the text of a stage. -/
def select (s : Stage) (stream : List ReadLine) : List ReadLine := selectFrom s [] stream

theorem lastStage?_append_singleton (stream : List ReadLine) (l : ReadLine) :
    lastStage? (stream ++ [l]) = l.stage?.or (lastStage? stream) := by
  cases h : l.stage? <;> simp [lastStage?, h]

theorem selectFrom_append (s : Stage) (before as bs : List ReadLine) :
    selectFrom s before (as ++ bs) = selectFrom s before as ++ selectFrom s (before ++ as) bs := by
  induction as generalizing before with
  | nil => simp [selectFrom]
  | cons l as ih =>
      have hbefore : before ++ l :: as = (before ++ [l]) ++ as := by simp
      rw [List.cons_append, selectFrom, selectFrom, ih, hbefore]
      split <;> rfl

theorem select_append_singleton (s : Stage) (stream : List ReadLine) (l : ReadLine) :
    select s (stream ++ [l]) =
      select s stream ++
        if l.isOutput && (lastStage? stream).all (· == Named.name s) then [l] else [] := by
  rw [select, selectFrom_append]
  rfl

/-- No keyword goes on like that of a version line. -/
theorem argument?_version {k : List Char × (List Char → Directive)}
    (hk : k ∈ Directive.keywords) (s : List Char) :
    Directive.argument? k.1 ('#' :: 'v' :: s) = none := by
  simp only [Directive.keywords, List.mem_cons, List.not_mem_nil, or_false] at hk
  rcases hk with rfl | rfl | rfl | rfl | rfl | rfl <;>
    simp [Directive.argument?, Text.after?_cons]

/-- A version line is no directive. -/
theorem directive_of_version {version : List Char}
    (h : versionKeyword.isPrefixOf version = true) : Directive.ofLine version = .text := by
  obtain ⟨tail, rfl⟩ := List.isPrefixOf_iff_prefix.1 h
  have hkeyword : versionKeyword = '#' :: 'v' :: "ersion".toList := by decide
  have hspace : Text.isSpace '#' = false := by decide
  have hline : Text.trimStart (versionKeyword ++ tail) =
      '#' :: 'v' :: ("ersion".toList ++ tail) := by
    rw [hkeyword, List.cons_append, List.cons_append, Text.trimStart_cons, hspace]
    rfl
  have hnone : Directive.keywords.findSome? (fun k =>
      (Directive.argument? k.1 ('#' :: 'v' :: ("ersion".toList ++ tail))).map k.2) = none := by
    rw [List.findSome?_eq_none_iff]
    intro k hk
    rw [argument?_version hk]
    rfl
  simp only [Directive.ofLine, hline, hnone, Option.getD_none]

end Reading

end ShaderChain.Source
