import ShaderChain.Proofs.Source.Completeness

/-!
# Outcomes of expansions

What becomes of a source, also where it cannot be expanded. `Expansion.Refuses` has a rule for
each way in which a line is refused. `Expansion.Fails` goes through the lines of a file up to the
first one that is refused or includes a file that is not there, in this file or in one that it
includes. `Expansion.Outcome` starts at the top of a file.

The rules speak of no budget, and a derivation by them is finite. So that a file has an outcome
means that its expansion ends, whatever is included where: every file of every store has exactly
one, and it is what the expansion of the file gives.
-/

namespace ShaderChain.Source.Expansion

/-- How a line is refused. -/
inductive Refuses (path : String) (number : Nat) (line : List Char) (e : Expansion) :
    Error → Prop
  | inclusion {argument : List Char} (hline : Directive.ofLine line = .inclusion argument)
      (hunquoted : Directive.quotedPath? argument = none) :
      Refuses path number line e (.inclusionWithoutPath path number)
  | name {argument : List Char} (hline : Directive.ofLine line = .name argument)
      (hagain : e.name.isSome) : Refuses path number line e .repeatedName
  | repeatedFormat {argument : List Char} (hline : Directive.ofLine line = .format argument)
      (hagain : e.format.isSome) : Refuses path number line e .repeatedFormat
  | unknownFormat {argument : List Char} (hline : Directive.ofLine line = .format argument)
      (hnew : e.format = none)
      (hunknown : ∀ f : PixelFormat, Named.name f ≠ String.ofList (Text.trim argument)) :
      Refuses path number line e (.unknownFormat (String.ofList (Text.trim argument)))
  | malformed {argument : List Char} (hline : Directive.ofLine line = .parameter argument)
      (hread : Declaration.read? argument = none) :
      Refuses path number line e (.malformedParameter (String.ofList (Text.trim line)))
  | conflicting {argument : List Char} {d : Declaration}
      (hline : Directive.ofLine line = .parameter argument)
      (hread : Declaration.read? argument = some d)
      (hadd : Declaration.add? e.declarations d = none) :
      Refuses path number line e (.conflictingParameter d.name)
  | stage {argument : List Char} (hline : Directive.ofLine line = .stage argument)
      (hunknown : ∀ s : Stage, Named.name s ≠ String.ofList (Text.trim argument)) :
      Refuses path number line e (.unknownStage (String.ofList (Text.trim argument)))

/-- How the lines of the file at `path`, from line `number` on, fail to be expanded. Files that
they include are opened at the given depth. -/
inductive Fails (store : FileStore) :
    Nat → String → Nat → List (List Char) → Expansion → Failure → Prop
  | refused {depth : Nat} {path : String} {number : Nat} {line : List Char}
      {rest : List (List Char)} {e : Expansion} {error : Error}
      (hline : Refuses path number line e error) :
      Fails store depth path number (line :: rest) e ⟨error, e⟩
  | missing {depth : Nat} {path : String} {number : Nat} {line : List Char}
      {rest : List (List Char)} {target : String} {e : Expansion}
      (hline : includedPath? path line = some target) (hnew : e.hasRequested target = false)
      (hmissing : store.get? target = none) :
      Fails store depth path number (line :: rest) e
        ⟨.unreadableInclusion target, e.request target depth⟩
  | within {depth : Nat} {path : String} {number : Nat} {line : List Char}
      {rest : List (List Char)} {target text : String} {e : Expansion} {x : Failure}
      (hline : includedPath? path line = some target) (hnew : e.hasRequested target = false)
      (htext : store.get? target = some text)
      (hinner : Fails store (depth + 1) target 1 (Text.lines text.toList)
        ((e.request target depth).mark 1 target) x) :
      Fails store depth path number (line :: rest) e x
  | step {depth : Nat} {path : String} {number : Nat} {line : List Char}
      {rest : List (List Char)} {e e₁ : Expansion} {x : Failure}
      (hstep : Step path number line e e₁)
      (hrest : Fails store depth path (number + 1) rest e₁ x) :
      Fails store depth path number (line :: rest) e x
  | again {depth : Nat} {path : String} {number : Nat} {line : List Char}
      {rest : List (List Char)} {target : String} {e : Expansion} {x : Failure}
      (hline : includedPath? path line = some target) (hseen : e.hasRequested target = true)
      (hrest : Fails store depth path (number + 1) rest (e.mark (number + 1) path) x) :
      Fails store depth path number (line :: rest) e x
  | inclusion {depth : Nat} {path : String} {number : Nat} {line : List Char}
      {rest : List (List Char)} {target text : String} {e e₁ : Expansion} {x : Failure}
      (hline : includedPath? path line = some target) (hnew : e.hasRequested target = false)
      (htext : store.get? target = some text)
      (hinner : Expands store (depth + 1) target 1 (Text.lines text.toList)
        ((e.request target depth).mark 1 target) e₁)
      (hrest : Fails store depth path (number + 1) rest (e₁.mark (number + 1) path) x) :
      Fails store depth path number (line :: rest) e x

/-- What becomes of the file at a path. -/
inductive Outcome (store : FileStore) (path : String) : Except Failure Expansion → Prop
  | unreadable (hmissing : store.get? path = none) :
      Outcome store path (.error ⟨.unreadable path (.notRegistered path), empty.request path 1⟩)
  | unversioned {text : String} (htext : store.get? path = some text)
      (hversion : ∀ version rest, Text.lines text.toList = version :: rest →
        versionKeyword.isPrefixOf version = false) :
      Outcome store path (.error ⟨.missingVersion path, empty.request path 1⟩)
  | expanded {text : String} {version : List Char} {rest : List (List Char)} {e : Expansion}
      (htext : store.get? path = some text) (hlines : Text.lines text.toList = version :: rest)
      (hversion : versionKeyword.isPrefixOf version = true)
      (hexpands : Expands store 2 path 2 rest (opened path version) e) :
      Outcome store path (.ok e)
  | failed {text : String} {version : List Char} {rest : List (List Char)} {x : Failure}
      (htext : store.get? path = some text) (hlines : Text.lines text.toList = version :: rest)
      (hversion : versionKeyword.isPrefixOf version = true)
      (hfails : Fails store 2 path 2 rest (opened path version) x) :
      Outcome store path (.error x)

variable {store : FileStore} {path target text : String} {number depth budget : Nat}
  {line : List Char} {lines : List (List Char)} {e e' : Expansion} {error : Error} {x : Failure}
  {enter : String → Expansion → Except Failure Expansion}

section Lines

/-- There is a rule for every line. -/
theorem step_or_refuses_or_includes (path : String) (number : Nat) (line : List Char)
    (e : Expansion) :
    (∃ e', Step path number line e e') ∨ (∃ error, Refuses path number line e error) ∨
      ∃ target, includedPath? path line = some target := by
  cases hline : Directive.ofLine line with
  | inclusion argument =>
      right
      cases hquoted : Directive.quotedPath? argument with
      | none => exact Or.inl ⟨_, .inclusion hline hquoted⟩
      | some quoted =>
          exact Or.inr ⟨Path.normalize (Path.join ((Path.parent? path).getD "")
            (String.ofList quoted)), by simp [includedPath?, hline, hquoted]⟩
  | name argument =>
      cases hname : e.name with
      | none => exact Or.inl ⟨_, .name hline hname⟩
      | some name => exact Or.inr (Or.inl ⟨_, .name hline (by simp [hname])⟩)
  | format argument =>
      cases hformat : e.format with
      | some format => exact Or.inr (Or.inl ⟨_, .repeatedFormat hline (by simp [hformat])⟩)
      | none =>
          by_cases hknown : ∃ f : PixelFormat, Named.name f = String.ofList (Text.trim argument)
          · obtain ⟨f, hf⟩ := hknown
            exact Or.inl ⟨_, .format hline hformat hf⟩
          · exact Or.inr (Or.inl ⟨_, .unknownFormat hline hformat (not_exists.1 hknown)⟩)
  | parameter argument =>
      cases hread : Declaration.read? argument with
      | none => exact Or.inr (Or.inl ⟨_, .malformed hline hread⟩)
      | some d =>
          cases hadd : Declaration.add? e.declarations d with
          | none => exact Or.inr (Or.inl ⟨_, .conflicting hline hread hadd⟩)
          | some ds => exact Or.inl ⟨_, .parameter hline hread hadd⟩
  | stage argument =>
      by_cases hknown : ∃ s : Stage, Named.name s = String.ofList (Text.trim argument)
      · obtain ⟨s, hs⟩ := hknown
        exact Or.inl ⟨_, .stage hline hs⟩
      · exact Or.inr (Or.inl ⟨_, .stage hline (not_exists.1 hknown)⟩)
  | endif => exact Or.inl ⟨_, .endif hline⟩
  | text => exact Or.inl ⟨_, .text hline⟩

/-- A line that is refused by the rules is refused by the expansion, which is left as it is. -/
theorem expandLine_of_refuses (h : Refuses path number line e error) :
    expandLine enter path number line e = .error ⟨error, e⟩ := by
  cases h with
  | inclusion hline hunquoted => simp [expandLine, hline, hunquoted, Except.mapError]
  | name hline hagain => simp [expandLine, hline, setName, hagain, Except.mapError, Except.map]
  | repeatedFormat hline hagain =>
      simp [expandLine, hline, setFormat, hagain, Except.mapError, Except.map]
  | unknownFormat hline hnew hunknown =>
      have hformat := Named.ofName?_eq_none_iff.2 hunknown
      simp [expandLine, hline, setFormat, hnew, hformat, Except.mapError, Except.map]
  | malformed hline hread => simp [expandLine, hline, declare, hread, Except.mapError, Except.map]
  | conflicting hline hread hadd =>
      simp [expandLine, hline, declare, hread, hadd, Except.mapError, Except.map]
  | stage hline hunknown =>
      have hstage := Named.ofName?_eq_none_iff.2 hunknown
      simp [expandLine, hline, setStage, hstage, Except.mapError, Except.map]

end Lines

section Files

/-- Lines are expanded, or they fail to be. By induction on the budget, which a file that is
opened has less of, and in a file by induction on its lines. -/
theorem exists_expands_or_fails (hbudget : e.unopened store ≤ budget) :
    (∃ e', Expands store depth path number lines e e') ∨
      ∃ x, Fails store depth path number lines e x := by
  induction budget using Nat.strongRecOn generalizing depth path number lines e with
  | ind budget ihbudget =>
    induction lines generalizing number e with
    | nil => exact Or.inl ⟨e, .nil⟩
    | cons line rest ih =>
        rcases step_or_refuses_or_includes path number line e with
          ⟨e₁, hstep⟩ | ⟨error, hrefuses⟩ | ⟨target, hline⟩
        · rw [← unopened_step hstep] at hbudget
          exact (ih hbudget).imp (fun ⟨e', h⟩ => ⟨e', .step hstep h⟩)
            fun ⟨x, h⟩ => ⟨x, .step hstep h⟩
        · exact Or.inr ⟨_, .refused hrefuses⟩
        · cases hseen : e.hasRequested target with
          | true =>
              have hmarked : (e.mark (number + 1) path).unopened store ≤ budget := hbudget
              exact (ih hmarked).imp (fun ⟨e', h⟩ => ⟨e', .again hline hseen h⟩)
                fun ⟨x, h⟩ => ⟨x, .again hline hseen h⟩
          | false =>
              cases htext : store.get? target with
              | none => exact Or.inr ⟨_, .missing hline hseen htext⟩
              | some text =>
                  -- The file that is opened is one less of those that have not been requested.
                  have hless : (e.request target depth).unopened store < budget :=
                    Nat.lt_of_lt_of_le
                      (unopened_request_lt (normalize_includedPath? hline) hseen htext) hbudget
                  have hopened : (∃ e₁, Expands store (depth + 1) target 1
                        (Text.lines text.toList) ((e.request target depth).mark 1 target) e₁) ∨
                      ∃ x, Fails store (depth + 1) target 1 (Text.lines text.toList)
                        ((e.request target depth).mark 1 target) x :=
                    ihbudget _ hless (Nat.le_refl _)
                  rcases hopened with ⟨e₁, hinner⟩ | ⟨x, hinner⟩
                  · have hgrown := unopened_le_of_expands_request hinner
                    have hmarked : (e₁.mark (number + 1) path).unopened store ≤ budget :=
                      Nat.le_trans hgrown hbudget
                    exact (ih hmarked).imp
                      (fun ⟨e', h⟩ => ⟨e', .inclusion hline hseen htext hinner h⟩)
                      fun ⟨x, h⟩ => ⟨x, .inclusion hline hseen htext hinner h⟩
                  · exact Or.inr ⟨x, .within hline hseen htext hinner⟩

/-- With a budget for all files that have not been requested, lines fail as derived. -/
theorem expandLines_of_fails (h : Fails store depth path number lines e x)
    (hbudget : e.unopened store ≤ budget) :
    expandLines (Expansion.enter store budget depth) path number lines e = .error x := by
  induction h generalizing budget with
  | refused hline =>
      rw [expandLines, expandLine_of_refuses hline]
      rfl
  | missing hline hnew hmissing =>
      rw [expandLines, expandLine_of_includedPath? hline, Expansion.enter, if_neg (by simp [hnew])]
      simp only [hmissing]
      rfl
  | within hline hnew htext _ ihinner =>
      obtain ⟨left, hleft, hentered⟩ :=
        exists_enter_eq (normalize_includedPath? hline) hnew htext hbudget
      rw [expandLines, expandLine_of_includedPath? hline, hentered, ihinner hleft]
      rfl
  | step hstep _ ih =>
      rw [expandLines, expandLine_of_step hstep]
      exact ih (Nat.le_trans (Nat.le_of_eq (unopened_step hstep)) hbudget)
  | again hline hseen _ ih =>
      rw [expandLines, expandLine_of_includedPath? hline, Expansion.enter, if_pos hseen]
      exact ih hbudget
  | inclusion hline hnew htext hinner _ ihrest =>
      obtain ⟨left, hleft, hentered⟩ :=
        exists_enter_eq (normalize_includedPath? hline) hnew htext hbudget
      have hgrown := unopened_le_of_expands_request hinner
      rw [expandLines, expandLine_of_includedPath? hline, hentered,
        expandLines_of_expands hinner hleft]
      exact ihrest (Nat.le_trans hgrown hbudget)

/-- The expansion of a file gives the outcome of the file. -/
theorem ofFile_of_outcome {r : Except Failure Expansion} (h : Outcome store path r) :
    ofFile store path = r := by
  cases h with
  | unreadable hmissing => simp [ofFile, FileStore.load, hmissing]
  | @unversioned text htext hversion =>
      simp only [ofFile, FileStore.load_eq_ok_iff.2 htext]
      split
      · rfl
      · next version rest hlines =>
          rw [hversion version rest hlines]
          rfl
  | expanded htext hlines hversion hexpands =>
      exact ofFile_eq_ok_iff.2 ⟨_, _, _, htext, hlines, hversion, hexpands⟩
  | failed htext hlines hversion hfails =>
      simp only [ofFile, FileStore.load_eq_ok_iff.2 htext, hlines, hversion, if_true]
      exact expandLines_of_fails hfails (unopened_le_size _ _)

/-- Every file has an outcome. -/
theorem exists_outcome (store : FileStore) (path : String) : ∃ r, Outcome store path r := by
  cases htext : store.get? path with
  | none => exact ⟨_, .unreadable htext⟩
  | some text =>
      by_cases hversion : ∃ version rest, Text.lines text.toList = version :: rest ∧
          versionKeyword.isPrefixOf version = true
      · obtain ⟨version, rest, hlines, hversion⟩ := hversion
        have hends : (∃ e, Expands store 2 path 2 rest (opened path version) e) ∨
            ∃ x, Fails store 2 path 2 rest (opened path version) x :=
          exists_expands_or_fails (unopened_le_size store _)
        rcases hends with ⟨e, h⟩ | ⟨x, h⟩
        · exact ⟨_, .expanded htext hlines hversion h⟩
        · exact ⟨_, .failed htext hlines hversion h⟩
      · refine ⟨_, .unversioned htext fun version rest hlines => ?_⟩
        rw [Bool.eq_false_iff]
        exact fun hprefix => hversion ⟨version, rest, hlines, hprefix⟩

/-- The outcome of a file is what its expansion gives, and nothing else. -/
theorem outcome_iff {r : Except Failure Expansion} :
    Outcome store path r ↔ ofFile store path = r := by
  refine ⟨ofFile_of_outcome, ?_⟩
  rintro rfl
  obtain ⟨r, hr⟩ := exists_outcome store path
  rw [ofFile_of_outcome hr]
  exact hr

end Files

end ShaderChain.Source.Expansion
