import ShaderChain.Frame.Plan

/-!
# Plans of passes

Each plan is that of one pass, in order, whose source is as large as the pass before. A
plan says what its pass's targets are created for without looking at the output or at the
frame count, and only the last pass, if its output is not read a frame late, may render to
the output.
-/

namespace ShaderChain

/-- The pass that does nothing of its own: it has no rules and reads nothing. -/
def CompiledPass.plain (index : Nat) : CompiledPass where
  index := index
  name := ""
  vertexSource := ""
  fragmentSource := ""
  scale := .unset
  format := .native
  wrapMode := .border
  filter := .unspecified
  frameCountMod := 0
  mipmapInput := false
  isFeedback := false
  uniformBuffer := .empty .uniformBuffer
  pushConstant := .empty .pushConstant
  textures := []
  sourceHash := 0

/-- A chain of passes that do nothing of their own. -/
def CompiledShader.plain (count : Nat) : CompiledShader :=
  ⟨(List.range count).map .plain, [], [], [], 0⟩

namespace FrameSetting

variable {f g : FrameSetting} {passes : List CompiledPass} {pass : CompiledPass}
  {plan : PassPlan} {index i : Nat} {source : Extent}

theorem target_planPass_of_isFeedback (f : FrameSetting) (index : Nat) (source : Extent)
    (rest : List CompiledPass) (h : pass.isFeedback = true) :
    (f.planPass index source pass rest).target = .intermediate := by
  simp [planPass, isDirect, h]

theorem target_planPass_of_rest (f : FrameSetting) (index : Nat) (source : Extent)
    {rest : List CompiledPass} (h : rest ≠ []) :
    (f.planPass index source pass rest).target = .intermediate := by
  simp [planPass, isDirect, h]

/-- The plan of a pass, which knows the passes behind it. -/
theorem exists_getElem?_planFrom (f : FrameSetting) (index : Nat) (source : Extent)
    (h : passes[i]? = some pass) :
    ∃ own, (f.planFrom index source passes)[i]? =
      some (f.planPass (index + i) own pass (passes.drop (i + 1))) := by
  induction passes generalizing index source i with
  | nil => cases h
  | cons head rest ih =>
      cases i with
      | zero =>
          cases h
          exact ⟨source, rfl⟩
      | succ i =>
          obtain ⟨own, hown⟩ := ih (index + 1) (f.planPass index source head rest).size h
          refine ⟨own, ?_⟩
          rw [planFrom, List.getElem?_cons_succ, hown, Nat.add_right_comm, Nat.add_assoc,
            List.drop_succ_cons]

theorem exists_plan_of_getElem? (f : FrameSetting) (source : Extent)
    (h : passes[i]? = some pass) :
    ∃ plan, (f.plan source passes)[i]? = some plan ∧ plan.isFeedback = pass.isFeedback ∧
      (pass.isFeedback = true ∨ i + 1 < passes.length → plan.target = .intermediate) := by
  obtain ⟨own, hplan⟩ := exists_getElem?_planFrom f 0 source h
  refine ⟨_, hplan, rfl, ?_⟩
  rintro (hfeedback | hlt)
  · exact target_planPass_of_isFeedback f _ own _ hfeedback
  · apply target_planPass_of_rest
    intro hnil
    have := List.drop_eq_nil_iff.1 hnil
    omega

@[simp] theorem length_plan (f : FrameSetting) (source : Extent) (passes : List CompiledPass) :
    (f.plan source passes).length = passes.length :=
  length_planFrom f 0 source passes

theorem exists_pass_of_getElem?_plan (h : (f.plan source passes)[i]? = some plan) :
    ∃ pass, passes[i]? = some pass ∧ plan.isFeedback = pass.isFeedback ∧
      (pass.isFeedback = true ∨ i + 1 < passes.length → plan.target = .intermediate) := by
  have hlt := (List.getElem?_eq_some_iff.1 h).1
  rw [length_plan] at hlt
  have hpass := List.getElem?_eq_getElem hlt
  obtain ⟨plan', hplan', hfeedback, htarget⟩ := exists_plan_of_getElem? f source hpass
  cases h.symm.trans hplan'
  exact ⟨passes[i], hpass, hfeedback, htarget⟩

/-- Settings that differ in the output's format and the frame count alone plan targets
alike. -/
theorem map_spec_planFrom_congr (hoptions : f.options = g.options)
    (hviewport : f.viewport = g.viewport) (index : Nat) (source : Extent)
    (passes : List CompiledPass) :
    (f.planFrom index source passes).map (·.spec) =
      (g.planFrom index source passes).map (·.spec) := by
  induction passes generalizing index source with
  | nil => rfl
  | cons pass rest ih =>
      have hsize : (f.planPass index source pass rest).size =
          (g.planPass index source pass rest).size := by
        simp only [planPass, hoptions, hviewport]
      have hspec : (f.planPass index source pass rest).spec =
          (g.planPass index source pass rest).spec := by
        simp only [PassPlan.spec, planPass, hoptions, hviewport]
      simp only [planFrom, List.map_cons, hspec, hsize, ih]

end FrameSetting

end ShaderChain
