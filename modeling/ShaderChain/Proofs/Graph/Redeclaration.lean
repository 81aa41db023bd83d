import ShaderChain.Proofs.Source.Repetition

/-!
# Declaring a parameter again

What becomes of a parameter that is declared several times, in the passes of a chain or in the
lines of a source. Declarations are compared number by number, so that declaring a parameter in
the same words conflicts if one of its numbers is a NaN, and declaring it with another zero does
not.
-/

namespace ShaderChain

open Declaration Source

/-- With an annotation for each pass, an assembly fails for a parameter exactly if two
declarations of one name differ in their descriptions or in numbers that are neither the same,
and no NaN, nor both zeros. A source in which a line that declares a parameter is repeated is
annotated exactly if no number of the declaration is a NaN, and then with the same parameters. -/
theorem declared_again_iff {m : Preset.Model} {as : List Annotation}
    (hcount : m.passes.length = as.length) :
    ((∃ name, Graph.assemble m as = .error (.parameterConflict name)) ↔
      Conflict (fun x y => x = y ∧ x.isNaN = false ∨ x.isZero = true ∧ y.isZero = true)
        (as.flatMap (·.declarations))) ∧
    ∀ (store : FileStore) (path file text text' : String) (a : Annotation) (e : Expansion)
      (before after : List (List Char)) (line argument : List Char) (d : Declaration),
      Annotation.ofFile store path = .ok a →
        Expansion.ofFile store (Path.normalize path) = .ok e →
          e.hasRequested file = true → store.get? file = some text →
            Text.lines text.toList = before ++ line :: after →
              Text.lines text'.toList = before ++ line :: line :: after →
                Directive.ofLine line = .parameter argument → read? argument = some d →
      ((∃ a', Annotation.ofFile (store.insert file text') path = .ok a') ↔
        ∀ x ∈ d.numbers, x.isNaN = false) ∧
      ∀ a', Annotation.ofFile (store.insert file text') path = .ok a' →
        a'.declarations = a.declarations := by
  constructor
  · rw [Graph.exists_assemble_eq_parameterConflict_iff hcount]
    simp only [Single.numEq_iff]
  · intro store path file text text' a e before after line argument d h he hseen htext hlines
      hlines' hline hread
    exact Annotation.exists_ofFile_insert_iff h he hseen htext hlines hlines' hline hread

section Examples

/-- A pass with nothing set. -/
def plainPass : Preset.Pass :=
  ⟨0, "pass", none, .unset, .border, .unspecified, 0, false, false, false⟩

/-- A source that declares parameters and has no text. -/
def declaring (ds : List Declaration) : Annotation := ⟨"pass", none, none, ds, "", "", 0⟩

/-- A declaration with the given initial value. -/
def gain (initial : Single) : Declaration :=
  ⟨"GAIN", "Gain", initial, .zero false, .one, .tenth⟩

def gainLine : String := "#pragma parameter GAIN \"Gain\" 0.5 0 1 0.1"

/-- A file that includes one with this line. -/
def gainStore : FileStore :=
  .ofList [("root", "#version 450\n#include \"gain\"\n"), ("gain", gainLine)]

theorem declared_again_gain :
    (∃ name, Graph.assemble ⟨[plainPass, plainPass], [], [], []⟩
        [declaring [gain .tenth], declaring [gain .one]] = .error (.parameterConflict name)) ∧
      ∃ a a', Annotation.ofFile gainStore "root" = .ok a ∧ a.declarations ≠ [] ∧
        Annotation.ofFile (gainStore.insert "gain" (gainLine ++ "\n" ++ gainLine)) "root" =
          .ok a' ∧ a'.declarations = a.declarations := by
  obtain ⟨hassemble, hrepeat⟩ :=
    @declared_again_iff ⟨[plainPass, plainPass], [], [], []⟩
      [declaring [gain .tenth], declaring [gain .one]] rfl
  constructor
  · refine hassemble.2 ?_
    refine ⟨0, 1, gain .tenth, gain .one, Nat.zero_lt_one, rfl, rfl, rfl, ?_⟩
    rintro ⟨-, hnumbers⟩
    cases hnumbers with
    | cons h _ => exact absurd h (by decide)
  · have ha : ∃ a, Annotation.ofFile gainStore "root" = .ok a ∧
        decide (a.declarations ≠ []) = true := Success.map_iff.1 (by decide +kernel)
    have he : ∃ e, Expansion.ofFile gainStore (Path.normalize "root") = .ok e ∧
        e.hasRequested "gain" = true := Success.map_iff.1 (by decide +kernel)
    obtain ⟨a, ha, hne⟩ := ha
    obtain ⟨e, he, hseen⟩ := he
    have hread : ∃ d, read? " GAIN \"Gain\" 0.5 0 1 0.1".toList = some d ∧
        decide (∀ x ∈ d.numbers, x.isNaN = false) = true :=
      Option.map_eq_some_iff.1 (by decide +kernel)
    obtain ⟨d, hread, hnumbers⟩ := hread
    obtain ⟨hiff, hsame⟩ := hrepeat gainStore "root" "gain" gainLine
      (gainLine ++ "\n" ++ gainLine) a e [] [] gainLine.toList
      " GAIN \"Gain\" 0.5 0 1 0.1".toList d ha he hseen (by decide +kernel) (by decide +kernel)
      (by decide +kernel) (by decide +kernel) hread
    obtain ⟨a', ha'⟩ := hiff.2 (of_decide_eq_true hnumbers)
    exact ⟨a, a', ha, of_decide_eq_true hne, ha', hsame a' ha'⟩

/-- A line that declares a parameter of infinite range, whose step is a NaN. -/
def endlessLine : String := "#pragma parameter GAIN \"Gain\" 0 inf inf"

def endlessStore : FileStore := .ofList [("root", "#version 450\n" ++ endlessLine)]

/-- Two passes that declare the same do not fit together if a number is a NaN, passes that
declare different zeros do, and a line with a NaN cannot be repeated. -/
theorem exists_same_declarations_refused :
    (∃ (m : Preset.Model) (as : List Annotation) (name : String),
      m.passes.length = as.length ∧ Graph.assemble m as = .error (.parameterConflict name) ∧
        ¬ Conflict Single.IsSame (as.flatMap (·.declarations))) ∧
    (∃ (m : Preset.Model) (as : List Annotation) (g : Graph),
      m.passes.length = as.length ∧ Graph.assemble m as = .ok g ∧
        Conflict Single.IsSame (as.flatMap (·.declarations))) ∧
    (∃ a, Annotation.ofFile endlessStore "root" = .ok a) ∧
      Annotation.ofFile
        (endlessStore.insert "root" ("#version 450\n" ++ endlessLine ++ "\n" ++ endlessLine))
        "root" = .error (.conflictingParameter "GAIN") := by
  refine ⟨?_, ?_, ?_, by decide +kernel⟩
  · refine ⟨⟨[plainPass, plainPass], [], [], []⟩,
      [declaring [gain .nan], declaring [gain .nan]], "GAIN", rfl, by decide +kernel, ?_⟩
    exact not_conflict_of_forall_eq (d := gain .nan) (fun x => Or.inl rfl) (by simp [declaring])
  · refine ⟨⟨[plainPass, plainPass], [], [], []⟩,
      [declaring [gain (.zero false)], declaring [gain (.zero true)]], _, rfl, rfl, ?_⟩
    refine ⟨0, 1, gain (.zero false), gain (.zero true), Nat.zero_lt_one, rfl, rfl, rfl, ?_⟩
    rintro ⟨-, hnumbers⟩
    cases hnumbers with
    | cons h _ =>
        rcases h with h | ⟨h, -⟩
        · exact absurd h (by decide)
        · exact absurd h (by decide)
  · have h : ∃ a, Annotation.ofFile endlessStore "root" = .ok a ∧ a.name = none :=
      Success.map_iff.1 (by decide +kernel)
    obtain ⟨a, ha, -⟩ := h
    exact ⟨a, ha⟩

end Examples

end ShaderChain
