import ShaderChain.Compiler.Compile
import ShaderChain.Proofs.Preset.Passes

/-!
# Numbered passes

A graph has as many passes as the last value of the preset's `shaders` key says, and it
numbers its passes and its parameters in their order.
-/

namespace ShaderChain

namespace Preset

variable {m : Model} {k : Nat} {p : Pass}

theorem Model.map_index_inDirectory (m : Model) (base : Option String) :
    (m.inDirectory base).passes.map (·.index) = m.passes.map (·.index) := by
  cases base with
  | none => rfl
  | some base => simp [inDirectory]

/-- The passes of a preset are numbered in their order, wherever their paths are read from. -/
theorem Model.index_inDirectory {text : String} (h : Model.ofString text = .ok m)
    (base : Option String) (hp : (m.inDirectory base).passes[k]? = some p) : p.index = k := by
  obtain ⟨-, hpasses⟩ := Model.ofAssignments_ok h
  have hk := congrArg (·[k]?) (m.map_index_inDirectory base)
  simp only [List.getElem?_map, hp, Option.map_some] at hk
  obtain ⟨q, hq, hpq⟩ := Option.map_eq_some_iff.1 hk.symm
  obtain ⟨path, -, rfl⟩ := passAt_eq_ok_iff.1 (hpasses k q hq)
  exact hpq.symm

end Preset

namespace Graph

/-- Whether the passes and the parameters are numbered in their order. -/
structure IsNumbered (g : Graph) : Prop where
  index_pass : ∀ (i : Nat) (p : Pass), g.passes[i]? = some p → p.preset.index = i
  index_parameter : ∀ (i : Nat) (p : Parameter), g.parameters[i]? = some p → p.index = i

variable {m : Preset.Model} {as : List Source.Annotation} {g : Graph} {store : FileStore}
  {path : String}

/-- The graph of a model and its annotations, with the merged declarations of these. -/
def ofDeclarations (m : Preset.Model) (as : List Source.Annotation) (ds : List Declaration) :
    Graph where
  passes := m.passes.zipWith passOf as
  luts := m.luts
  parameters := ds.zipIdx.map fun (d, i) =>
    parameterOf m.overrides (groupsOf (ds.map (·.name)) m.groups) d i
  groups := groupsOf (ds.map (·.name)) m.groups

theorem assemble_eq_ok_iff :
    assemble m as = .ok g ↔
      m.passes.length = as.length ∧
        ∃ ds, mergeDeclarations [] (as.flatMap (·.declarations)) = .ok ds ∧
          ofDeclarations m as ds = g := by
  unfold assemble
  rw [Success.unless_iff, not_not]
  refine and_congr_right fun _ => ?_
  rw [Success.bind_iff]
  exact exists_congr fun ds => and_congr_right fun _ => Success.pure_iff

theorem map_name_ofDeclarations (m : Preset.Model) (as : List Source.Annotation)
    (ds : List Declaration) :
    (ofDeclarations m as ds).parameters.map (·.name) = ds.map (·.name) := by
  refine List.ext_getElem? fun i => ?_
  simp [ofDeclarations, parameterOf, Function.comp_def]

theorem index_parameter_of_assemble (h : assemble m as = .ok g) {i : Nat} {p : Parameter}
    (hp : g.parameters[i]? = some p) : p.index = i := by
  obtain ⟨-, ds, -, rfl⟩ := assemble_eq_ok_iff.1 h
  rw [ofDeclarations, List.getElem?_map, List.getElem?_zipIdx] at hp
  obtain ⟨⟨d, j⟩, hd, rfl⟩ := Option.map_eq_some_iff.1 hp
  obtain ⟨d', -, hpair⟩ := Option.map_eq_some_iff.1 hd
  cases hpair
  exact Nat.zero_add i

theorem assemble_ok (h : assemble m as = .ok g)
    (hindex : ∀ (i : Nat) (p : Preset.Pass), m.passes[i]? = some p → p.index = i) :
    g.passes.length = m.passes.length ∧ g.IsNumbered := by
  obtain ⟨hlength, ds, -, hg⟩ := assemble_eq_ok_iff.1 h
  have hpasses : g.passes = m.passes.zipWith passOf as := by
    rw [← hg]
    rfl
  refine ⟨?_, ?_, ?_⟩
  · rw [hpasses, List.length_zipWith, hlength, Nat.min_self]
  · intro i p hp
    rw [hpasses] at hp
    obtain ⟨q, a, hq, -, rfl⟩ := List.getElem?_zipWith_eq_some.1 hp
    exact hindex i q hq
  · intro i p hp
    exact index_parameter_of_assemble h hp

/-- A graph is assembled from the model of its preset and the annotations of its sources. -/
theorem load_eq_ok (h : load store path = .ok g) :
    ∃ text model as, store.load path = .ok text ∧ Preset.Model.ofString text = .ok model ∧
      annotateAll store (model.inDirectory (Path.parent? path)).passes = .ok as ∧
        assemble (model.inDirectory (Path.parent? path)) as = .ok g := by
  unfold load at h
  obtain ⟨text, htext, h⟩ := Success.bind_iff.1 h
  obtain ⟨model, hmodel, h⟩ := Success.bind_iff.1 h
  obtain ⟨as, has, h⟩ := Success.bind_iff.1 h
  exact ⟨text, model, as, Success.mapError_iff.1 htext, Success.mapError_iff.1 hmodel, has,
    Success.mapError_iff.1 h⟩

/-- The graph of a preset has the passes that the preset counts, all in order. -/
theorem load_ok (h : load store path = .ok g) :
    (∃ text value, store.load path = .ok text ∧
        Preset.valueOf? (Preset.scan text).assignments "shaders" = some value ∧
        Text.count? value.toList = some g.passes.length) ∧
      g.IsNumbered := by
  obtain ⟨text, model, as, htext, hmodel, -, hassemble⟩ := load_eq_ok h
  obtain ⟨hcount, -⟩ := Preset.Model.ofAssignments_ok hmodel
  obtain ⟨hpasses, hnumbered⟩ :=
    assemble_ok hassemble fun i p => Preset.Model.index_inDirectory hmodel _
  refine ⟨?_, hnumbered⟩
  have hlength : g.passes.length = model.passes.length := by
    rw [hpasses]
    simpa using congrArg List.length (model.map_index_inDirectory (Path.parent? path))
  rw [← hlength] at hcount
  obtain ⟨value, hvalue, hvaluecount⟩ := Preset.passCount_eq_ok_iff.1 hcount
  exact ⟨text, value, htext, hvalue, hvaluecount⟩

end Graph

end ShaderChain
