import ShaderChain.Proofs.Binding.Causality
import ShaderChain.Proofs.Graph.Partition

/-!
# Names that a preset gives

The textures that a preset names are kept in one list: of each named pass its name and its name
followed by `Feedback`, then the lookup textures. The last entry of a name counts, so that a
lookup texture comes before any pass, and of two passes the later one counts whichever of the two
names it has. Parameters have names of their own in an assembled graph, and there the last entry
is the only one.
-/

namespace ShaderChain

/-- Whether a pass is known by a name: its own, or its own followed by `Feedback`. -/
def Graph.Pass.IsKnownAs (p : Graph.Pass) (name : String) : Prop :=
  p.name ≠ "" ∧ (p.name = name ∨ p.name ++ "Feedback" = name)

/-- Whether the preset of a graph gives a name to a texture. -/
def Graph.Gives (g : Graph) (name : String) : Prop :=
  (∃ p ∈ g.passes, p.IsKnownAs name) ∨ ∃ l ∈ g.luts, l.name = name

/-- Whether a name stands for a value in every graph, or is that of a parameter. -/
def Graph.IsReserved (g : Graph) (name : String) : Prop :=
  (∃ s : GlobalSemantic, s.uniformName = name) ∨ ∃ p ∈ g.parameters, p.name = name

instance (g : Graph) (name : String) : Decidable (g.Gives name) :=
  inferInstanceAs (Decidable ((∃ p ∈ g.passes,
    p.name ≠ "" ∧ (p.name = name ∨ p.name ++ "Feedback" = name)) ∨ ∃ l ∈ g.luts, l.name = name))

section LastGiven

variable {α : Type} {entries before after : List (String × α)} {name : String} {a : α}

theorem lastGiven?_append (xs ys : List (String × α)) (name : String) :
    lastGiven? (xs ++ ys) name = (lastGiven? ys name).or (lastGiven? xs name) := by
  simp only [lastGiven?, List.reverse_append, List.find?_append]
  cases ys.reverse.find? (·.1 == name) <;> simp

theorem lastGiven?_eq_none_iff :
    lastGiven? entries name = none ↔ ∀ e ∈ entries, e.1 ≠ name := by
  simp [lastGiven?]

/-- The last entry of a name counts. -/
theorem lastGiven?_append_cons (h : ∀ e ∈ after, e.1 ≠ name) :
    lastGiven? (before ++ (name, a) :: after) name = some a := by
  have hcons : lastGiven? ((name, a) :: after) name = some a := by
    have happend := lastGiven?_append [(name, a)] after name
    rw [lastGiven?_eq_none_iff.2 h, Option.none_or] at happend
    simpa [lastGiven?] using happend
  rw [lastGiven?_append, hcons, Option.some_or]

/-- Where each name has one entry, it counts. -/
theorem lastGiven?_eq_some_iff (hnodup : (entries.map (·.1)).Nodup) :
    lastGiven? entries name = some a ↔ (name, a) ∈ entries := by
  constructor
  · exact mem_of_lastGiven?
  · intro h
    obtain ⟨before, after, rfl⟩ := List.append_of_mem h
    refine lastGiven?_append_cons fun e he hname => ?_
    rw [List.map_append, List.map_cons, List.nodup_middle, List.nodup_cons] at hnodup
    exact hnodup.1 (List.mem_append_right _ (List.mem_map.2 ⟨e, he, hname⟩))

/-- What some entry of a list has, a last one has. -/
theorem exists_eq_append_cons_of_last {β : Type} {p : β → Prop} {xs : List β}
    (h : ∃ x ∈ xs, p x) :
    ∃ before x after, xs = before ++ x :: after ∧ p x ∧ ∀ y ∈ after, ¬ p y := by
  induction xs with
  | nil => simp at h
  | cons x xs ih =>
      by_cases hrest : ∃ y ∈ xs, p y
      · obtain ⟨before, y, after, rfl, hy, hafter⟩ := ih hrest
        exact ⟨x :: before, y, after, rfl, hy, hafter⟩
      · obtain ⟨y, hy, hpy⟩ := h
        rcases List.mem_cons.1 hy with rfl | hy
        · exact ⟨[], y, xs, rfl, hpy, fun z hz hpz => hrest ⟨z, hz, hpz⟩⟩
        · exact absurd ⟨y, hy, hpy⟩ hrest

end LastGiven

theorem GlobalSemantic.ofUniformName?_eq_none_iff {name : String} :
    ofUniformName? name = none ↔ ∀ s : GlobalSemantic, s.uniformName ≠ name := by
  simp [ofUniformName?, Named.mem_all]

theorem Graph.not_isReserved_iff {g : Graph} {name : String} :
    ¬ g.IsReserved name ↔
      GlobalSemantic.ofUniformName? name = none ∧ ∀ p ∈ g.parameters, p.name ≠ name := by
  rw [IsReserved, not_or, not_exists, GlobalSemantic.ofUniformName?_eq_none_iff]
  simp

namespace SymbolTable

variable {g : Graph} {name : String} {p : Graph.Pass} {l : Lut} {i : Nat}

/-! ### Textures -/

theorem exists_mem_passNames_iff :
    (∃ e ∈ passNames p, e.1 = name) ↔ p.IsKnownAs name := by
  unfold passNames Graph.Pass.IsKnownAs
  by_cases h : p.name = ""
  · simp [h]
  · simp [h]

/-- The own name of a pass is that of its output, and the other one that of its output in the
frame before. -/
theorem lastGiven?_passNames (h : p.IsKnownAs name) :
    (p.name = name ∧ lastGiven? (passNames p) name = some ⟨.passOutput, p.preset.index⟩) ∨
      (p.name ++ "Feedback" = name ∧
        lastGiven? (passNames p) name = some ⟨.passFeedback, p.preset.index⟩) := by
  obtain ⟨hne, rfl | rfl⟩ := h
  · rw [passNames, if_neg hne]
    exact Or.inl ⟨rfl, @lastGiven?_append_cons _ [] _ _ _ (by simp)⟩
  · rw [passNames, if_neg hne]
    exact Or.inr ⟨rfl, @lastGiven?_append_cons _ [(p.name, _)] _ _ _ (by simp)⟩

/-- The entries of lookup textures. -/
def lutNames (ls : List Lut) : List (String × TextureRef) :=
  ls.zipIdx.map fun (l, i) => (l.name, ⟨.user, i⟩)

theorem map_fst_lutNames (ls : List Lut) : (lutNames ls).map (·.1) = ls.map (·.name) := by
  conv_rhs => rw [← List.zipIdx_map_fst 0 ls]
  simp only [lutNames, List.map_map, Function.comp_def]

theorem lutNames_append_cons (before : List Lut) (l : Lut) (after : List Lut) :
    lutNames (before ++ l :: after) =
      lutNames before ++ (l.name, ⟨.user, before.length⟩) ::
        (after.zipIdx (before.length + 1)).map fun (l, i) => (l.name, ⟨.user, i⟩) := by
  simp [lutNames, List.zipIdx_append, List.zipIdx_cons]

theorem lastGiven?_lutNames_eq_none_iff {ls : List Lut} :
    lastGiven? (lutNames ls) name = none ↔ ∀ l ∈ ls, l.name ≠ name := by
  rw [lastGiven?_eq_none_iff, ← List.forall_mem_map (P := (· ≠ name)), map_fst_lutNames,
    List.forall_mem_map]

theorem lastGiven?_passNames_eq_none_iff {ps : List Graph.Pass} :
    lastGiven? (ps.flatMap passNames) name = none ↔ ∀ p ∈ ps, ¬ p.IsKnownAs name := by
  simp only [lastGiven?_eq_none_iff, ← exists_mem_passNames_iff, List.mem_flatMap]
  constructor
  · rintro h p hp ⟨e, he, hname⟩
    exact h e ⟨p, hp, he⟩ hname
  · rintro h e ⟨p, hp, he⟩ hname
    exact h p hp ⟨e, he, hname⟩

/-- Lookup textures come before passes. -/
theorem given?_eq (g : Graph) (name : String) :
    (ofGraph g).given? name =
      (lastGiven? (lutNames g.luts) name).or (lastGiven? (g.passes.flatMap passNames) name) :=
  lastGiven?_append _ _ _

theorem given?_eq_none_iff : (ofGraph g).given? name = none ↔ ¬ g.Gives name := by
  rw [given?_eq, Option.or_eq_none_iff, lastGiven?_lutNames_eq_none_iff,
    lastGiven?_passNames_eq_none_iff, Graph.Gives, not_or, and_comm]
  simp

theorem exists_given?_iff : (∃ r, (ofGraph g).given? name = some r) ↔ g.Gives name := by
  rw [← Option.isSome_iff_exists, Option.isSome_iff_ne_none, ne_eq, given?_eq_none_iff, not_not]

/-- The last lookup texture of a name has it. -/
theorem given?_of_lut {before after : List Lut} (hluts : g.luts = before ++ l :: after)
    (hafter : ∀ x ∈ after, x.name ≠ l.name) :
    (ofGraph g).given? l.name = some ⟨.user, before.length⟩ := by
  have hlast : lastGiven? (lutNames g.luts) l.name = some ⟨.user, before.length⟩ := by
    rw [hluts, lutNames_append_cons]
    refine lastGiven?_append_cons fun e he hname => ?_
    obtain ⟨⟨x, i⟩, hx, rfl⟩ := List.mem_map.1 he
    have hmem : x ∈ after := by
      rw [← List.zipIdx_map_fst (before.length + 1) after]
      exact List.mem_map_of_mem hx
    exact hafter x hmem hname
  rw [given?_eq, hlast, Option.some_or]

/-- Where no lookup texture has a name, the last pass that is known by it has it. -/
theorem given?_of_pass {before after : List Graph.Pass} (hluts : ∀ l ∈ g.luts, l.name ≠ name)
    (hpasses : g.passes = before ++ p :: after) (hp : p.IsKnownAs name)
    (hafter : ∀ q ∈ after, ¬ q.IsKnownAs name) :
    (ofGraph g).given? name = lastGiven? (passNames p) name := by
  have hknown : ∃ r, lastGiven? (passNames p) name = some r := by
    rcases lastGiven?_passNames hp with ⟨-, h⟩ | ⟨-, h⟩ <;> exact ⟨_, h⟩
  obtain ⟨r, hr⟩ := hknown
  rw [given?_eq, lastGiven?_lutNames_eq_none_iff.2 hluts, Option.none_or, hpasses,
    List.flatMap_append, List.flatMap_cons, lastGiven?_append, lastGiven?_append,
    lastGiven?_passNames_eq_none_iff.2 hafter, Option.none_or, hr, Option.some_or]

theorem texture?_of_given? {r : TextureRef} (h : (ofGraph g).given? name = some r) :
    (ofGraph g).texture? name = some r := by
  rw [texture?, h, Option.some_or]

/-! ### Uniforms -/

/-- A name stands for a parameter if it is no value in every graph and a parameter has it. -/
theorem uniform?_eq_parameter_iff :
    (ofGraph g).uniform? name = some (.parameter i) ↔
      (∀ s : GlobalSemantic, s.uniformName ≠ name) ∧
        lastGiven? (ofGraph g).parameters name = some i := by
  rw [← GlobalSemantic.ofUniformName?_eq_none_iff, uniform?]
  cases GlobalSemantic.ofUniformName? name with
  | some s => simp
  | none =>
      cases lastGiven? (ofGraph g).parameters name with
      | some j => simp
      | none => simp

/-- Any other name asks for the size of a texture. -/
theorem uniform?_of_not_isReserved (h : ¬ g.IsReserved name) :
    (ofGraph g).uniform? name = ((ofGraph g).sizedTexture? name).map .textureSize := by
  obtain ⟨hglobal, hparameters⟩ := Graph.not_isReserved_iff.1 h
  have hparameter : lastGiven? (ofGraph g).parameters name = none := by
    rwa [lastGiven?_eq_none_iff, ofGraph, List.forall_mem_map]
  rw [uniform?, hglobal, hparameter]
  rfl

/-- Parameters with names of their own are found by these. -/
theorem lastGiven?_parameters_eq_some_iff (hnodup : (g.parameters.map (·.name)).Nodup) :
    lastGiven? (ofGraph g).parameters name = some i ↔
      ∃ p ∈ g.parameters, p.name = name ∧ p.index = i := by
  have hentries : ((ofGraph g).parameters.map (·.1)).Nodup := by
    simpa [ofGraph, Function.comp_def] using hnodup
  rw [lastGiven?_eq_some_iff hentries, ofGraph, List.mem_map]
  simp

/-- Whether a symbol table resolves the names that a graph gives: those of parameters, where no
value has them in every graph, to the parameters; those of lookup textures to the last ones that
have them; and those of passes, where no lookup texture has them, to the last passes that are
known by them. -/
structure ResolvesGiven (t : SymbolTable) (g : Graph) : Prop where
  parameter : ∀ p ∈ g.parameters, (∀ s : GlobalSemantic, s.uniformName ≠ p.name) →
    t.uniform? p.name = some (.parameter p.index)
  of_parameter : ∀ name i, t.uniform? name = some (.parameter i) →
    ∃ p, g.parameters[i]? = some p ∧ p.name = name
  lut : ∀ name, (∃ l ∈ g.luts, l.name = name) → ∃ before l after,
    g.luts = before ++ l :: after ∧ l.name = name ∧ (∀ x ∈ after, x.name ≠ name) ∧
      t.texture? name = some ⟨.user, before.length⟩
  pass : ∀ name, (∀ l ∈ g.luts, l.name ≠ name) → (∃ p ∈ g.passes, p.IsKnownAs name) →
    ∃ before p after,
      g.passes = before ++ p :: after ∧ p.IsKnownAs name ∧ (∀ q ∈ after, ¬ q.IsKnownAs name) ∧
        ((p.name = name ∧ t.texture? name = some ⟨.passOutput, before.length⟩) ∨
          (p.name ++ "Feedback" = name ∧ t.texture? name = some ⟨.passFeedback, before.length⟩))

theorem resolvesGiven_ofGraph (hnumbered : g.IsNumbered)
    (hnodup : (g.parameters.map (·.name)).Nodup) : (ofGraph g).ResolvesGiven g where
  parameter := by
    intro p hp hglobal
    rw [uniform?_eq_parameter_iff, lastGiven?_parameters_eq_some_iff hnodup]
    exact ⟨hglobal, p, hp, rfl, rfl⟩
  of_parameter := by
    intro name i h
    rw [uniform?_eq_parameter_iff, lastGiven?_parameters_eq_some_iff hnodup] at h
    obtain ⟨-, p, hp, hname, rfl⟩ := h
    obtain ⟨i, hi⟩ := List.mem_iff_getElem?.1 hp
    rw [hnumbered.index_parameter i p hi]
    exact ⟨p, hi, hname⟩
  lut := by
    intro name h
    obtain ⟨before, l, after, hluts, rfl, hafter⟩ := exists_eq_append_cons_of_last h
    exact ⟨before, l, after, hluts, rfl, hafter, texture?_of_given? (given?_of_lut hluts hafter)⟩
  pass := by
    intro name hluts h
    obtain ⟨before, p, after, hpasses, hp, hafter⟩ := exists_eq_append_cons_of_last h
    refine ⟨before, p, after, hpasses, hp, hafter, ?_⟩
    have hindex : p.preset.index = before.length :=
      hnumbered.index_pass before.length p (by simp [hpasses])
    have hgiven := given?_of_pass hluts hpasses hp hafter
    rw [← hindex]
    exact (lastGiven?_passNames hp).imp
      (fun ⟨hname, hlast⟩ => ⟨hname, texture?_of_given? (hgiven.trans hlast)⟩)
      (fun ⟨hname, hlast⟩ => ⟨hname, texture?_of_given? (hgiven.trans hlast)⟩)

/-- The names that a parsed preset and its sources give stand for what has them. -/
theorem resolvesGiven_of_assemble {text : String} {m : Preset.Model} {base : Option String}
    {as : List Source.Annotation} (hm : Preset.Model.ofString text = .ok m)
    (h : Graph.assemble (m.inDirectory base) as = .ok g) : (ofGraph g).ResolvesGiven g := by
  obtain ⟨-, hnumbered⟩ :=
    Graph.assemble_ok h fun i p => Preset.Model.index_inDirectory hm base
  refine resolvesGiven_ofGraph hnumbered ?_
  obtain ⟨-, ds, hds, rfl⟩ := Graph.assemble_eq_ok_iff.1 h
  rw [Graph.map_name_ofDeclarations]
  exact Graph.nodup_mergeDeclarations (by simp) hds

/-- A preset that gives one name to two lookup textures, and `Blur` and its echo to several
passes. -/
def echoPreset : String :=
  "shaders = 3\nshader0 = a\nshader1 = b\nshader2 = c\n" ++
    "alias0 = Blur\nalias1 = BlurFeedback\nalias2 = Blur\n" ++
    "textures = \"mask;mask\"\nmask = mask.png\n"

open ShaderChain.Graph (declaringNames) in
theorem resolvesGiven_of_assemble_echo :
    ∃ m g, Preset.Model.ofString echoPreset = .ok m ∧
      Graph.assemble (m.inDirectory none)
        [declaringNames ["MVP", "Gain"], declaringNames [], declaringNames ["Gain"]] = .ok g ∧
      [(ofGraph g).texture? "mask", (ofGraph g).texture? "Blur",
          (ofGraph g).texture? "BlurFeedback"] =
        [some ⟨.user, 1⟩, some ⟨.passOutput, 2⟩, some ⟨.passFeedback, 2⟩] ∧
      [(ofGraph g).uniform? "MVP", (ofGraph g).uniform? "Gain"] =
        [some (.global .mvp), some (.parameter 1)] ∧
      (ofGraph g).ResolvesGiven g := by
  have h : ((Preset.Model.ofString echoPreset).mapError fun _ => ()).bind (fun m =>
      ((Graph.assemble (m.inDirectory none)
        [declaringNames ["MVP", "Gain"], declaringNames [], declaringNames ["Gain"]]).map
          fun g => ([(ofGraph g).texture? "mask", (ofGraph g).texture? "Blur",
            (ofGraph g).texture? "BlurFeedback"],
            [(ofGraph g).uniform? "MVP", (ofGraph g).uniform? "Gain"])).mapError fun _ => ()) =
      .ok ([some ⟨.user, 1⟩, some ⟨.passOutput, 2⟩, some ⟨.passFeedback, 2⟩],
        [some (.global .mvp), some (.parameter 1)]) := by
    decide +kernel
  obtain ⟨m, hm, h⟩ := Success.bind_iff.1 h
  obtain ⟨g, hg, hparts⟩ := Success.map_iff.1 (Success.mapError_iff.1 h)
  rw [Prod.mk.injEq] at hparts
  have hm := Success.mapError_iff.1 hm
  exact ⟨m, g, hm, hg, hparts.1, hparts.2, resolvesGiven_of_assemble hm hg⟩

end SymbolTable

end ShaderChain
