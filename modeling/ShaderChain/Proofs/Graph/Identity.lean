import ShaderChain.Proofs.Graph.Partition

/-!
# The identity of a parameter

Merging goes through the declarations of all passes in order and keeps the first of each name, so
what is kept after some of them has exactly their names, each once and where it first occurs. This
is the invariant `Collects`. A parameter is numbered by its place among the names and is otherwise
as its first declaration says, but for its initial value: of the preset's values the last one for
its name counts. A value for a name that no pass declares is never looked at.
-/

namespace ShaderChain

/-- Whether a declaration is the first of its name among some. -/
def Declaration.IsFirstIn (d : Declaration) (ds : List Declaration) : Prop :=
  ∃ before after, ds = before ++ d :: after ∧ ∀ a ∈ before, a.name ≠ d.name

/-- Whether an override is the last one for a name among some. -/
def Preset.Override.IsLastFor (o : Override) (name : String) (os : List Override) : Prop :=
  ∃ before after, os = before ++ o :: after ∧ o.name = name ∧ ∀ x ∈ after, x.name ≠ name

theorem Declaration.IsFirstIn.append {d : Declaration} {ds : List Declaration}
    (h : d.IsFirstIn ds) (rest : List Declaration) : d.IsFirstIn (ds ++ rest) := by
  obtain ⟨before, after, rfl, hbefore⟩ := h
  exact ⟨before, after ++ rest, by simp, hbefore⟩

namespace Graph

section Merging

variable {seen kept kept' rest : List Declaration} {d : Declaration}

/-- Whether `kept` has the first declaration of each name among those seen, in their order. -/
structure Collects (seen kept : List Declaration) : Prop where
  map_name : kept.map (·.name) = (seen.map (·.name)).eraseDups
  isFirstIn : ∀ d ∈ kept, d.IsFirstIn seen

theorem collects_nil : Collects [] [] := ⟨rfl, by simp⟩

theorem Collects.exists_name_iff (h : Collects seen kept) (name : String) :
    (∃ a ∈ kept, a.name = name) ↔ ∃ a ∈ seen, a.name = name := by
  rw [← List.mem_map, ← List.mem_map, h.map_name, List.mem_eraseDups]

theorem collects_add? (h : Collects seen kept) (hadd : Declaration.add? kept d = some kept') :
    Collects (seen ++ [d]) kept' := by
  have hseen := h.exists_name_iff d.name
  rcases Declaration.add?_cases hadd with ⟨rfl, hnew⟩ | ⟨rfl, first, hfirst, hagrees⟩
  · have hunseen : ∀ a ∈ seen, a.name ≠ d.name := by
      intro a ha hname
      obtain ⟨b, hb, hname'⟩ := hseen.2 ⟨a, ha, hname⟩
      exact hnew b hb hname'
    constructor
    · have hmem : d.name ∉ seen.map (·.name) := by simpa using hunseen
      simp only [List.map_append, List.map_cons, List.map_nil, eraseDups_append_singleton,
        if_neg hmem, h.map_name]
    · intro a ha
      rcases List.mem_append.1 ha with hold | hlast
      · exact (h.isFirstIn a hold).append [d]
      · rw [List.mem_singleton.1 hlast]
        exact ⟨seen, [], rfl, hunseen⟩
  · have hname : first.name = d.name := (Declaration.agrees_iff.1 hagrees).1
    have hmem : d.name ∈ seen.map (·.name) := List.mem_map.2 (hseen.1 ⟨first, hfirst, hname⟩)
    constructor
    · simp only [List.map_append, List.map_cons, List.map_nil, eraseDups_append_singleton,
        if_pos hmem, h.map_name]
    · exact fun a ha => (h.isFirstIn a ha).append [d]

theorem collects_mergeDeclarations (h : Collects seen kept)
    (hmerge : mergeDeclarations kept rest = .ok kept') : Collects (seen ++ rest) kept' := by
  induction rest generalizing seen kept with
  | nil =>
      cases hmerge
      rwa [List.append_nil]
  | cons d rest ih =>
      rw [mergeDeclarations] at hmerge
      split at hmerge
      · cases hmerge
      · next kept₁ hadd =>
          have hstep := ih (collects_add? h hadd) hmerge
          rwa [List.append_assoc] at hstep

end Merging

section Overrides

variable {os : List Preset.Override} {d : Declaration}

/-- A parameter starts with the last value that the preset has for it, or as it is declared. -/
theorem initialValue_cases (os : List Preset.Override) (d : Declaration) :
    (∃ o : Preset.Override, o.IsLastFor d.name os ∧ initialValue os d = o.value) ∨
      (∀ o ∈ os, o.name ≠ d.name) ∧ initialValue os d = d.initial := by
  rw [initialValue]
  cases hfind : os.reverse.find? (·.name == d.name) with
  | none =>
      right
      exact ⟨by simpa using hfind, rfl⟩
  | some o =>
      left
      obtain ⟨hname, after, before, hos, hafter⟩ := List.find?_eq_some_iff_append.1 hfind
      refine ⟨o, ⟨before.reverse, after.reverse, ?_, by simpa using hname, ?_⟩, rfl⟩
      · simpa using congrArg List.reverse hos
      · simpa using hafter

/-- The values for other names do not matter. -/
theorem initialValue_filter {names : List String} (h : d.name ∈ names) :
    initialValue (os.filter fun o => o.name ∈ names) d = initialValue os d := by
  have hfind : (os.reverse.filter fun o => o.name ∈ names).find? (·.name == d.name) =
      os.reverse.find? (·.name == d.name) := by
    rw [List.find?_filter]
    congr 1
    funext o
    by_cases ho : o.name = d.name
    · simp [ho, h]
    · simp [ho]
  rw [initialValue, initialValue, ← List.filter_reverse, hfind]

end Overrides

/-- Whether the parameters of a graph are those that the given declarations declare, with the
given values of the preset. -/
structure IsIdentifiedBy (g : Graph) (declared : List Declaration)
    (overrides : List Preset.Override) : Prop where
  /-- There is one parameter for each declared name, in the order of first occurrence. -/
  map_name : g.parameters.map (·.name) = (declared.map (·.name)).eraseDups
  index_eq : ∀ (i : Nat) (p : Parameter), g.parameters[i]? = some p → p.index = i
  /-- A parameter is as its name is first declared, and starts with the preset's last value for
  its name, if there is one. -/
  exists_isFirstIn : ∀ p ∈ g.parameters, ∃ d : Declaration, d.IsFirstIn declared ∧
    p.name = d.name ∧ p.description = d.description ∧ p.minimum = d.minimum ∧
      p.maximum = d.maximum ∧ p.step = d.step ∧
        ((∃ o : Preset.Override, o.IsLastFor p.name overrides ∧ p.initial = o.value) ∨
          (∀ o ∈ overrides, o.name ≠ p.name) ∧ p.initial = d.initial)

variable {m : Preset.Model} {as : List Source.Annotation} {g : Graph}

/-- The parameters of an assembled graph are those that the annotations declare, in the order of
the passes, and of the preset's values only those for declared names count. -/
theorem isIdentifiedBy_of_assemble (h : assemble m as = .ok g) :
    g.IsIdentifiedBy (as.flatMap (·.declarations)) m.overrides ∧
      ∀ overrides : List Preset.Override,
        overrides.filter (fun o => o.name ∈ (as.flatMap (·.declarations)).map (·.name)) =
            m.overrides.filter (fun o => o.name ∈ (as.flatMap (·.declarations)).map (·.name)) →
          assemble { m with overrides := overrides } as = .ok g := by
  obtain ⟨hcount, ds, hds, rfl⟩ := assemble_eq_ok_iff.1 h
  have hcollects : Collects (as.flatMap (·.declarations)) ds :=
    collects_mergeDeclarations collects_nil hds
  constructor
  · refine ⟨?_, fun i p hp => index_parameter_of_assemble h hp, ?_⟩
    · rw [map_name_ofDeclarations, hcollects.map_name]
    · intro p hp
      obtain ⟨⟨d, i⟩, hd, rfl⟩ := List.mem_map.1 hp
      have hfirst := hcollects.isFirstIn d (List.fst_mem_of_mem_zipIdx hd)
      exact ⟨d, hfirst, rfl, rfl, rfl, rfl, rfl, initialValue_cases m.overrides d⟩
  · intro overrides hoverrides
    refine assemble_eq_ok_iff.2 ⟨hcount, ds, hds, ?_⟩
    rw [ofDeclarations, ofDeclarations, Graph.mk.injEq]
    refine ⟨rfl, rfl, List.map_congr_left ?_, rfl⟩
    rintro ⟨d, i⟩ hd
    have hname : d.name ∈ (as.flatMap (·.declarations)).map (·.name) := by
      have hkept := List.fst_mem_of_mem_zipIdx hd
      exact List.mem_map.2 ((hcollects.exists_name_iff d.name).1 ⟨d, hkept, rfl⟩)
    have hvalue : initialValue overrides d = initialValue m.overrides d := by
      rw [← initialValue_filter hname, hoverrides, initialValue_filter hname]
    simp only [parameterOf, hvalue]

/-- Values of a preset for a parameter, twice, and for a name that no pass declares. -/
def tunedOverrides : List Preset.Override :=
  [⟨"B", .one⟩, ⟨"Missing", .one⟩, ⟨"B", .tenth⟩]

theorem isIdentifiedBy_of_assemble_tuned :
    ∃ m g, Preset.Model.ofString "shaders = 2\nshader0 = a.slang\nshader1 = b.slang\n" = .ok m ∧
      assemble { m with overrides := tunedOverrides }
        [declaringNames ["B", "A"], declaringNames ["A", "C", "B"]] = .ok g ∧
      g.parameters.map (fun p => (p.name, p.index, p.initial)) =
        [("B", 0, .tenth), ("A", 1, .zero false), ("C", 2, .zero false)] ∧
      g.IsIdentifiedBy
        (declaringNames ["B", "A", "A", "C", "B"]).declarations tunedOverrides ∧
      assemble { m with overrides := [⟨"B", .one⟩, ⟨"B", .tenth⟩] }
        [declaringNames ["B", "A"], declaringNames ["A", "C", "B"]] = .ok g := by
  have h : ((Preset.Model.ofString "shaders = 2\nshader0 = a.slang\nshader1 = b.slang\n").mapError
      fun _ => ()).bind (fun m => ((assemble { m with overrides := tunedOverrides }
        [declaringNames ["B", "A"], declaringNames ["A", "C", "B"]]).map fun g =>
          g.parameters.map fun p => (p.name, p.index, p.initial)).mapError fun _ => ()) =
      .ok [("B", 0, .tenth), ("A", 1, .zero false), ("C", 2, .zero false)] := by
    decide +kernel
  obtain ⟨m, hm, h⟩ := Success.bind_iff.1 h
  obtain ⟨g, hg, hparameters⟩ := Success.map_iff.1 (Success.mapError_iff.1 h)
  obtain ⟨hidentified, hoverrides⟩ := isIdentifiedBy_of_assemble hg
  exact ⟨m, g, Success.mapError_iff.1 hm, hg, hparameters, hidentified,
    hoverrides _ rfl⟩

end Graph

end ShaderChain
