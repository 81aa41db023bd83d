import ShaderChain.Proofs.Graph.Conflict
import ShaderChain.Proofs.Source.Completeness
import ShaderChain.Proofs.Source.Stream

/-!
# Repeated lines

A source is annotated again when lines of its files that declare parameters are repeated right
below themselves, exactly as far as a declaration agrees with itself. Two expansions that go
along with each other are then compared but for their lines: markers count on differently, and
nothing that a later line does depends on the lines before it.

`Leads` says that lines lead from one to the other of two such expansions, and it has a lemma for
each rule of a derivation. The one expansion is followed by the other in both directions. A line
that is repeated declares what has just been declared, so that the second one leaves everything but
the lines as it is.
-/

namespace ShaderChain

section Stores

theorem lookup_filter_of_ne {files : List (String × String)} {p q : String} (h : p ≠ q) :
    (files.filter (·.1 != q)).lookup p = files.lookup p := by
  induction files with
  | nil => rfl
  | cons f files ih =>
      by_cases hf : f.1 = q
      · have hp : (p == f.1) = false := by simpa [hf] using h
        rw [List.filter_cons_of_neg (by simp [hf]), ih, List.lookup_cons, hp]
      · rw [List.filter_cons_of_pos (by simpa using hf), List.lookup_cons, List.lookup_cons, ih]

/-- A file is found as it was registered last, under any spelling of its path. -/
theorem FileStore.get?_insert (store : FileStore) (file text path : String) :
    (store.insert file text).get? path =
      if Path.normalize path = Path.normalize file then some text else store.get? path := by
  unfold FileStore.get? FileStore.insert
  by_cases h : Path.normalize path = Path.normalize file
  · simp [h]
  · have hne : (Path.normalize path == Path.normalize file) = false := by simpa using h
    rw [if_neg h, List.lookup_cons, hne]
    exact lookup_filter_of_ne h

end Stores

namespace Source

variable {p : List Char → Prop} {q : Declaration → Prop} {line argument : List Char}
  {lines lines' before after : List (List Char)}

/-- Whether lines with a property declare parameters, with a property of the declarations. -/
def Declare (p : List Char → Prop) (q : Declaration → Prop) : Prop :=
  ∀ line, p line → ∃ argument d, Directive.ofLine line = .parameter argument ∧
    Declaration.read? argument = some d ∧ q d

/-- A line that declares a parameter includes nothing. -/
theorem Declare.includedPath?_eq_none (hdeclare : Declare p q) (hline : p line) (path : String) :
    includedPath? path line = none := by
  obtain ⟨argument, d, hdirective, -⟩ := hdeclare line hline
  rw [includedPath?, hdirective]

/-- Whether lines are others of which some, with a property, are repeated right below. -/
inductive Repeats (p : List Char → Prop) : List (List Char) → List (List Char) → Prop
  | nil : Repeats p [] []
  | cons {line : List Char} {lines lines' : List (List Char)} (h : Repeats p lines lines') :
      Repeats p (line :: lines) (line :: lines')
  | twice {line : List Char} {lines lines' : List (List Char)} (hline : p line)
      (h : Repeats p lines lines') : Repeats p (line :: lines) (line :: line :: lines')

theorem repeats_refl (p : List Char → Prop) (lines : List (List Char)) : Repeats p lines lines := by
  induction lines with
  | nil => exact .nil
  | cons line lines ih => exact .cons ih

theorem repeats_append_cons (hline : p line) (before after : List (List Char)) :
    Repeats p (before ++ line :: after) (before ++ line :: line :: after) := by
  induction before with
  | nil => exact .twice hline (repeats_refl p after)
  | cons x before ih => exact .cons ih

/-- Whether a store has the files of another one, with some lines repeated. -/
def RepeatsIn (p : List Char → Prop) (store store' : FileStore) : Prop :=
  ∀ path, (store.get? path = none ∧ store'.get? path = none) ∨
    ∃ text text', store.get? path = some text ∧ store'.get? path = some text' ∧
      Repeats p (Text.lines text.toList) (Text.lines text'.toList)

theorem repeatsIn_refl (p : List Char → Prop) (store : FileStore) : RepeatsIn p store store := by
  intro path
  cases htext : store.get? path with
  | none => exact Or.inl ⟨rfl, rfl⟩
  | some text => exact Or.inr ⟨text, text, rfl, rfl, repeats_refl p _⟩

theorem RepeatsIn.exists_of_get? {store store' : FileStore} {path text : String}
    (h : RepeatsIn p store store') (htext : store.get? path = some text) :
    ∃ text', store'.get? path = some text' ∧
      Repeats p (Text.lines text.toList) (Text.lines text'.toList) := by
  rcases h path with ⟨hnone, -⟩ | ⟨text₀, text', htext₀, htext', hfile⟩
  · rw [htext] at hnone
    cases hnone
  · rw [htext, Option.some.injEq] at htext₀
    exact ⟨text', htext', htext₀ ▸ hfile⟩

theorem RepeatsIn.exists_of_get?_repeated {store store' : FileStore} {path text' : String}
    (h : RepeatsIn p store store') (htext' : store'.get? path = some text') :
    ∃ text, store.get? path = some text ∧
      Repeats p (Text.lines text.toList) (Text.lines text'.toList) := by
  rcases h path with ⟨-, hnone⟩ | ⟨text, text₀, htext, htext₀, hfile⟩
  · rw [htext'] at hnone
    cases hnone
  · rw [htext', Option.some.injEq] at htext₀
    exact ⟨text, htext, htext₀ ▸ hfile⟩

/-- A store in which one line of one file is repeated. -/
theorem repeatsIn_insert {store : FileStore} {file text text' : String}
    (htext : store.get? file = some text) (hline : p line)
    (hlines : Text.lines text.toList = before ++ line :: after)
    (hlines' : Text.lines text'.toList = before ++ line :: line :: after) :
    RepeatsIn p store (store.insert file text') := by
  intro path
  rw [FileStore.get?_insert]
  by_cases hpath : Path.normalize path = Path.normalize file
  · have hfile : store.get? path = some text := by
      rw [← htext, FileStore.get?, hpath]
      rfl
    rw [if_pos hpath]
    refine Or.inr ⟨text, text', hfile, rfl, ?_⟩
    rw [hlines, hlines']
    exact repeats_append_cons hline before after
  · rw [if_neg hpath]
    exact repeatsIn_refl p store path

namespace Expansion

variable {store store' : FileStore} {path file : String} {number number' depth : Nat}
  {e e' e₁ e₁' e₂ : Expansion} {d : Declaration}

/-- What has been gathered but for the lines. -/
def withoutLines (e : Expansion) : Expansion := { e with lines := [] }

theorem hasRequested_eq (h : e.withoutLines = e'.withoutLines) (path : String) :
    e.hasRequested path = e'.hasRequested path := by
  show e.withoutLines.hasRequested path = e'.withoutLines.hasRequested path
  rw [h]

theorem withoutLines_mark_eq (h : e.withoutLines = e'.withoutLines) (number number' : Nat)
    (path : String) : (e.mark number path).withoutLines = (e'.mark number' path).withoutLines := h

theorem withoutLines_request (h : e.withoutLines = e'.withoutLines) (path : String) (depth : Nat) :
    (e.request path depth).withoutLines = (e'.request path depth).withoutLines :=
  congrArg (request · path depth) h

section Steps

/-- What a line makes of an expansion depends on its lines no more than on its own number. -/
theorem exists_step_of_withoutLines (h : Step path number line e e₁)
    (halike : e.withoutLines = e'.withoutLines) (number' : Nat) :
    ∃ e₁', Step path number' line e' e₁' ∧ e₁.withoutLines = e₁'.withoutLines := by
  obtain ⟨ls, stage, name, format, ds, requests⟩ := e
  obtain ⟨ls', stage', name', format', ds', requests'⟩ := e'
  simp only [withoutLines, mk.injEq, true_and] at halike
  obtain ⟨rfl, rfl, rfl, rfl, rfl⟩ := halike
  cases h with
  | text hline => exact ⟨_, .text hline, rfl⟩
  | endif hline => exact ⟨_, .endif hline, rfl⟩
  | name hline hnew => exact ⟨_, .name hline hnew, rfl⟩
  | format hline hnew htoken => exact ⟨_, .format hline hnew htoken, rfl⟩
  | parameter hline hread hadd => exact ⟨_, .parameter hline hread hadd, rfl⟩
  | stage hline hword => exact ⟨_, .stage hline hword, rfl⟩

/-- A line that declares a parameter adds the declaration and changes nothing else. -/
theorem declare_of_step (h : Step path number line e e₁)
    (hline : Directive.ofLine line = .parameter argument)
    (hread : Declaration.read? argument = some d) :
    ∃ ds, Declaration.add? e.declarations d = some ds ∧
      e₁.withoutLines = { e.withoutLines with declarations := ds } := by
  cases h with
  | @parameter argument' d' ds hline' hread' hadd =>
      rw [hline, Directive.parameter.injEq] at hline'
      subst hline'
      rw [hread, Option.some.injEq] at hread'
      subst hread'
      exact ⟨ds, hadd, rfl⟩
  | text hline' => simp [hline] at hline'
  | endif hline' => simp [hline] at hline'
  | name hline' => simp [hline] at hline'
  | format hline' => simp [hline] at hline'
  | stage hline' => simp [hline] at hline'

/-- A declaration that is repeated agrees with itself, and repeating it changes nothing. -/
theorem agrees_of_step_of_step (h₁ : Step path number line e e₁)
    (h₂ : Step path number' line e₁ e₂) (hline : Directive.ofLine line = .parameter argument)
    (hread : Declaration.read? argument = some d) :
    d.agrees d = true ∧ e₂.withoutLines = e₁.withoutLines := by
  obtain ⟨ds, hadd, hdeclared⟩ := declare_of_step h₁ hline hread
  obtain ⟨ds', hagain, hdeclared'⟩ := declare_of_step h₂ hline hread
  have hds : e₁.declarations = ds := congrArg (·.declarations) hdeclared
  rw [hds, Declaration.add?_of_add? hadd] at hagain
  split at hagain
  · next hagrees =>
      cases hagain
      rw [hdeclared', hdeclared]
      exact ⟨hagrees, rfl⟩
  · cases hagain

/-- A declaration that agrees with itself can be repeated. -/
theorem exists_step_of_agrees (h : Step path number line e e₁)
    (hline : Directive.ofLine line = .parameter argument)
    (hread : Declaration.read? argument = some d) (hself : d.agrees d = true) (number' : Nat) :
    ∃ e₂, Step path number' line e₁ e₂ ∧ e₂.withoutLines = e₁.withoutLines := by
  obtain ⟨ds, hadd, hdeclared⟩ := declare_of_step h hline hread
  have hds : e₁.declarations = ds := congrArg (·.declarations) hdeclared
  have hagain : Declaration.add? e₁.declarations d = some e₁.declarations := by
    rw [hds, Declaration.add?_of_add? hadd, if_pos hself]
  exact ⟨_, .parameter hline hread hagain, rfl⟩

end Steps

section Derivations

theorem exists_step_of_expands_cons {rest : List (List Char)}
    (h : Expands store depth path number (line :: rest) e e')
    (hline : Directive.ofLine line = .parameter argument) :
    ∃ e₁, Step path number line e e₁ ∧ Expands store depth path (number + 1) rest e₁ e' := by
  have hpath : includedPath? path line = none := by simp [includedPath?, hline]
  cases h with
  | step hstep hrest => exact ⟨_, hstep, hrest⟩
  | again htarget => simp [hpath] at htarget
  | inclusion htarget => simp [hpath] at htarget

theorem exists_expands_of_append
    (h : Expands store depth path number (before ++ after) e e') :
    ∃ number' e₁, Expands store depth path number' after e₁ e' := by
  induction before generalizing number e with
  | nil => exact ⟨number, e, h⟩
  | cons line before ih =>
      cases h with
      | step _ hrest => exact ih hrest
      | again _ _ hrest => exact ih hrest
      | inclusion _ _ _ _ hrest => exact ih hrest

/-- Whether lines lead whatever is like `e` but for its lines to something that is like `e₁`. -/
def Leads (store : FileStore) (depth : Nat) (path : String) (lines : List (List Char))
    (e e₁ : Expansion) : Prop :=
  ∀ e' : Expansion, e.withoutLines = e'.withoutLines → ∀ number,
    ∃ e₁', Expands store depth path number lines e' e₁' ∧ e₁.withoutLines = e₁'.withoutLines

namespace Leads

variable {rest : List (List Char)} {target text : String}

theorem nil : Leads store depth path [] e e :=
  fun e' halike _ => ⟨e', .nil, halike⟩

theorem of_withoutLines_eq (h : Leads store depth path lines e e₁)
    (halike : e'.withoutLines = e.withoutLines) : Leads store depth path lines e' e₁ :=
  fun e'' halike' => h e'' (halike.symm.trans halike')

theorem step (hstep : Step path number line e e₂) (hrest : Leads store depth path rest e₂ e₁) :
    Leads store depth path (line :: rest) e e₁ := by
  intro e' halike number'
  obtain ⟨e₂', hstep', halike'⟩ := exists_step_of_withoutLines hstep halike number'
  obtain ⟨e₁', hexpands, hend⟩ := hrest e₂' halike' (number' + 1)
  exact ⟨e₁', .step hstep' hexpands, hend⟩

theorem again (htarget : includedPath? path line = some target)
    (hseen : e.hasRequested target = true)
    (hrest : Leads store depth path rest (e.mark number path) e₁) :
    Leads store depth path (line :: rest) e e₁ := by
  intro e' halike number'
  obtain ⟨e₁', hexpands, hend⟩ :=
    hrest _ (withoutLines_mark_eq halike _ (number' + 1) _) (number' + 1)
  exact ⟨e₁', .again htarget (hasRequested_eq halike _ ▸ hseen) hexpands, hend⟩

theorem inclusion (htarget : includedPath? path line = some target)
    (hnew : e.hasRequested target = false) (htext : store.get? target = some text)
    (hinner : Leads store (depth + 1) target (Text.lines text.toList)
      ((e.request target depth).mark 1 target) e₂)
    (hrest : Leads store depth path rest (e₂.mark number path) e₁) :
    Leads store depth path (line :: rest) e e₁ := by
  intro e' halike number'
  obtain ⟨e₂', hexpands, halike'⟩ :=
    hinner _ (withoutLines_mark_eq (withoutLines_request halike _ _) _ 1 _) 1
  obtain ⟨e₁', hexpands', hend⟩ :=
    hrest _ (withoutLines_mark_eq halike' _ (number' + 1) _) (number' + 1)
  exact ⟨e₁', .inclusion htarget (hasRequested_eq halike _ ▸ hnew) htext hexpands hexpands', hend⟩

end Leads

/-- By induction on the derivation: with lines repeated whose declarations agree with themselves,
files are expanded to the same but for the lines. -/
theorem leads_of_repeats (hstore : RepeatsIn p store store')
    (hself : Declare p fun d => d.agrees d = true)
    (h : Expands store depth path number lines e e₁) (hlines : Repeats p lines lines') :
    Leads store' depth path lines' e e₁ := by
  induction h generalizing lines' with
  | nil =>
      cases hlines
      exact .nil
  | @step _ _ number _ _ _ _ _ hstep _ ih =>
      cases hlines with
      | cons hrest => exact .step hstep (ih hrest)
      | twice hline hrest =>
          obtain ⟨argument, d, hdirective, hread, hagrees⟩ := hself _ hline
          obtain ⟨e₂, hagain, hsame⟩ :=
            exists_step_of_agrees hstep hdirective hread hagrees (number + 1)
          exact .step hstep (.step hagain ((ih hrest).of_withoutLines_eq hsame))
  | again htarget hseen _ ih =>
      cases hlines with
      | cons hrest => exact .again htarget hseen (ih hrest)
      | twice hline _ =>
          rw [hself.includedPath?_eq_none hline] at htarget
          cases htarget
  | inclusion htarget hnew htext _ _ ihinner ihrest =>
      cases hlines with
      | cons hrest =>
          obtain ⟨text', htext', hfile⟩ := hstore.exists_of_get? htext
          exact .inclusion htarget hnew htext' (ihinner hfile) (ihrest hrest)
      | twice hline _ =>
          rw [hself.includedPath?_eq_none hline] at htarget
          cases htarget

/-- Expansions that differ in their lines go on alike. -/
theorem leads_of_expands (h : Expands store depth path number lines e e₁) :
    Leads store depth path lines e e₁ :=
  leads_of_repeats (p := fun _ => False) (repeatsIn_refl _ store)
    (fun _ hline => absurd hline id) h (repeats_refl _ lines)

/-- The first of two lines that are the same can be left out. Behind it the second one is expanded
all the same, and there it is seen to change nothing. -/
theorem Leads.of_twice (hstep : Step path number line e e₂)
    (hline : Directive.ofLine line = .parameter argument)
    (hread : Declaration.read? argument = some d)
    (h : Leads store depth path (line :: lines) e₂ e₁) :
    Leads store depth path (line :: lines) e e₁ := by
  intro e' halike number'
  obtain ⟨e₂', hstep', halike'⟩ := exists_step_of_withoutLines hstep halike number'
  obtain ⟨e₁', htwice, hend⟩ := h e₂' halike' (number' + 1)
  obtain ⟨e₃, hagain, hexpands⟩ := exists_step_of_expands_cons htwice hline
  have hsame := (agrees_of_step_of_step hstep' hagain hline hread).2
  obtain ⟨e₁'', hexpands', hend'⟩ := leads_of_expands hexpands e₂' hsame (number' + 1)
  exact ⟨e₁'', .step hstep' hexpands', hend.trans hend'⟩

/-- By induction on the derivation: without the repeated lines, files are expanded to the same
but for the lines. -/
theorem leads_of_repeated (hstore : RepeatsIn p store store') (hdeclare : Declare p q)
    (h : Expands store' depth path number lines' e e₁) (hlines : Repeats p lines lines') :
    Leads store depth path lines e e₁ := by
  induction h generalizing lines with
  | nil =>
      cases hlines
      exact .nil
  | step hstep _ ih =>
      cases hlines with
      | cons hrest => exact .step hstep (ih hrest)
      | twice hline hrest =>
          obtain ⟨argument, d, hdirective, hread, -⟩ := hdeclare _ hline
          exact .of_twice hstep hdirective hread (ih (.cons hrest))
  | again htarget hseen _ ih =>
      cases hlines with
      | cons hrest => exact .again htarget hseen (ih hrest)
      | twice hline _ =>
          rw [hdeclare.includedPath?_eq_none hline] at htarget
          cases htarget
  | inclusion htarget hnew htext' _ _ ihinner ihrest =>
      cases hlines with
      | cons hrest =>
          obtain ⟨text, htext, hfile⟩ := hstore.exists_of_get?_repeated htext'
          exact .inclusion htarget hnew htext (ihinner hfile) (ihrest hrest)
      | twice hline _ =>
          rw [hdeclare.includedPath?_eq_none hline] at htarget
          cases htarget

/-- The lines of a file that has been requested have been expanded. -/
theorem exists_expands_of_hasRequested (h : Expands store depth path number lines e e₁)
    (hseen : e₁.hasRequested file = true) :
    e.hasRequested file = true ∨ ∃ text depth e₂ e₃, store.get? file = some text ∧
      Expands store depth file 1 (Text.lines text.toList) e₂ e₃ := by
  induction h with
  | nil => exact Or.inl hseen
  | step hstep _ ih =>
      rcases ih hseen with hfirst | hexpanded
      · rw [hasRequested, requests_step hstep] at hfirst
        exact Or.inl hfirst
      · exact Or.inr hexpanded
  | again _ _ _ ih => exact ih hseen
  | inclusion _ _ htext hinner _ ihinner ihrest =>
      rcases ihrest hseen with hfirst | hexpanded
      · rcases ihinner hfirst with hfirst | hexpanded
        · rw [hasRequested_mark, hasRequested_request, Bool.or_eq_true, beq_iff_eq] at hfirst
          rcases hfirst with hfirst | rfl
          · exact Or.inl hfirst
          · exact Or.inr ⟨_, _, _, _, htext, hinner⟩
        · exact Or.inr hexpanded
      · exact Or.inr hexpanded

/-- Where a repeated line is expanded, its declaration agrees with itself. -/
theorem agrees_of_expands_twice
    (h : Expands store depth path number (before ++ line :: line :: after) e e₁)
    (hline : Directive.ofLine line = .parameter argument)
    (hread : Declaration.read? argument = some d) : d.agrees d = true := by
  obtain ⟨number', e₂, htwice⟩ := exists_expands_of_append h
  obtain ⟨e₃, hfirst, hagain⟩ := exists_step_of_expands_cons htwice hline
  obtain ⟨e₄, hsecond, -⟩ := exists_step_of_expands_cons hagain hline
  exact (agrees_of_step_of_step hfirst hsecond hline hread).1

end Derivations

section Files

variable {text text' : String} {version : List Char} {rest : List (List Char)}

/-- A version line declares nothing. -/
theorem not_of_version (hversion : versionKeyword.isPrefixOf version = true)
    (hdeclare : Declare p q) : ¬ p version := by
  intro hline
  obtain ⟨argument, d, hdirective, -⟩ := hdeclare version hline
  rw [directive_of_version hversion] at hdirective
  cases hdirective

theorem exists_ofFile_of_repeats (hstore : RepeatsIn p store store')
    (hself : Declare p fun d => d.agrees d = true)
    (h : ofFile store path = .ok e) :
    ∃ e', ofFile store' path = .ok e' ∧ e.withoutLines = e'.withoutLines := by
  obtain ⟨text, version, rest, htext, hlines, hversion, hexpands⟩ := ofFile_eq_ok_iff.1 h
  obtain ⟨text', htext', hfile⟩ := hstore.exists_of_get? htext
  rw [hlines] at hfile
  generalize hlines' : Text.lines text'.toList = lines' at hfile
  cases hfile with
  | cons hrest =>
      obtain ⟨e', hexpands', hend⟩ := leads_of_repeats hstore hself hexpands hrest _ rfl 2
      exact ⟨e', ofFile_eq_ok_iff.2 ⟨text', version, _, htext', hlines', hversion, hexpands'⟩,
        hend⟩
  | twice hline _ => exact absurd hline (not_of_version hversion hself)

theorem exists_ofFile_of_repeated (hstore : RepeatsIn p store store')
    (hdeclare : Declare p q)
    (h : ofFile store' path = .ok e') :
    ∃ e, ofFile store path = .ok e ∧ e'.withoutLines = e.withoutLines := by
  obtain ⟨text', version, rest', htext', hlines', hversion, hexpands⟩ := ofFile_eq_ok_iff.1 h
  obtain ⟨text, htext, hfile⟩ := hstore.exists_of_get?_repeated htext'
  rw [hlines'] at hfile
  generalize hlines : Text.lines text.toList = lines at hfile
  cases hfile with
  | cons hrest =>
      obtain ⟨e, hexpands', hend⟩ := leads_of_repeated hstore hdeclare hexpands hrest _ rfl 2
      exact ⟨e, ofFile_eq_ok_iff.2 ⟨text, version, _, htext, hlines, hversion, hexpands'⟩, hend⟩
  | twice hline _ => exact absurd hline (not_of_version hversion hdeclare)

/-- If a line is repeated in a file that has been requested, its declaration agrees with
itself. -/
theorem agrees_of_ofFile_twice (h : ofFile store path = .ok e) (hseen : e.hasRequested file = true)
    (htext : store.get? file = some text)
    (hlines : Text.lines text.toList = before ++ line :: line :: after)
    (hline : Directive.ofLine line = .parameter argument)
    (hread : Declaration.read? argument = some d) : d.agrees d = true := by
  obtain ⟨root, version, rest, hroot, hrest, hversion, hexpands⟩ := ofFile_eq_ok_iff.1 h
  rcases exists_expands_of_hasRequested hexpands hseen with
    hfirst | ⟨text₀, _, _, _, htext₀, hinner⟩
  · have hpath : path = file := by
      simpa [opened, empty, request, hasRequested, keep, mark] using hfirst
    subst hpath
    rw [hroot, Option.some.injEq] at htext
    subst htext
    rw [hrest] at hlines
    cases before with
    | nil =>
        rw [List.nil_append, List.cons.injEq] at hlines
        rw [← hlines.1, directive_of_version hversion] at hline
        cases hline
    | cons x before =>
        rw [List.cons_append, List.cons.injEq] at hlines
        exact agrees_of_expands_twice (hlines.2 ▸ hexpands) hline hread
  · rw [htext, Option.some.injEq] at htext₀
    subst htext₀
    exact agrees_of_expands_twice (hlines ▸ hinner) hline hread

end Files

end Expansion

/-- A source in which a line is repeated that declares a parameter is annotated exactly if the
numbers of the declaration can be compared, and then with the same parameters. -/
theorem Annotation.exists_ofFile_insert_iff {store : FileStore} {path file text text' : String}
    {a : Annotation} {e : Expansion} {d : Declaration} (h : ofFile store path = .ok a)
    (he : Expansion.ofFile store (Path.normalize path) = .ok e)
    (hseen : e.hasRequested file = true) (htext : store.get? file = some text)
    (hlines : Text.lines text.toList = before ++ line :: after)
    (hlines' : Text.lines text'.toList = before ++ line :: line :: after)
    (hline : Directive.ofLine line = .parameter argument)
    (hread : Declaration.read? argument = some d) :
    ((∃ a', ofFile (store.insert file text') path = .ok a') ↔
      ∀ x ∈ d.numbers, x.isNaN = false) ∧
      ∀ a', ofFile (store.insert file text') path = .ok a' → a'.declarations = a.declarations := by
  have hstore : RepeatsIn (· = line) store (store.insert file text') :=
    repeatsIn_insert htext rfl hlines hlines'
  obtain ⟨e₀, he₀, rfl⟩ := ofFile_eq_ok_iff.1 h
  obtain rfl : e₀ = e := Except.ok.inj (he₀.symm.trans he)
  -- Without the repeated line the source is expanded to what it was before.
  have hback (e' : Expansion)
      (he' : Expansion.ofFile (store.insert file text') (Path.normalize path) = .ok e') :
      e'.withoutLines = e₀.withoutLines := by
    obtain ⟨e₁, he₁, halike⟩ := Expansion.exists_ofFile_of_repeated hstore
      (q := fun _ => True) (fun x hx => ⟨argument, d, hx ▸ hline, hread, trivial⟩) he'
    obtain rfl : e₁ = e₀ := Except.ok.inj (he₁.symm.trans he)
    exact halike
  rw [← Declaration.agrees_self_iff]
  refine ⟨⟨?_, ?_⟩, ?_⟩
  · rintro ⟨a', ha'⟩
    obtain ⟨e', he', -⟩ := ofFile_eq_ok_iff.1 ha'
    have hseen' : e'.hasRequested file = true :=
      Expansion.hasRequested_eq (hback e' he') file ▸ hseen
    exact Expansion.agrees_of_ofFile_twice he' hseen' (FileStore.get?_insert_self _ _ _) hlines'
      hline hread
  · intro hself
    obtain ⟨e', he', -⟩ := Expansion.exists_ofFile_of_repeats hstore
      (fun x hx => ⟨argument, d, hx ▸ hline, hread, hself⟩) he
    exact ⟨_, ofFile_eq_ok_iff.2 ⟨e', he', rfl⟩⟩
  · intro a' ha'
    obtain ⟨e', he', rfl⟩ := ofFile_eq_ok_iff.1 ha'
    exact congrArg (·.declarations) (hback e' he')

end Source

end ShaderChain
