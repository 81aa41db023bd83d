import ShaderChain.Proofs.Preset.Passes
import ShaderChain.Proofs.Preset.Values

/-!
# Isolated passes

A pass is built from the values of its own keys: two presets that give the same values to the keys
of a pass have the same pass, whatever they give to other keys. The keys of two passes are
different, also where one number starts or ends with the other, or one stem with another stem.
-/

namespace ShaderChain.Preset

variable {as bs : List Assignment} {m m' : Model} {i : Nat} {own shared : String}

section Agreement

theorem axisValue_congr (rule : ScaleType) (hown : valueOf? as own = valueOf? bs own)
    (hshared : valueOf? as shared = valueOf? bs shared) :
    axisValue as rule own shared = axisValue bs rule own shared := by
  cases rule <;> simp only [axisValue, word?, single?, hown, hshared]

theorem AgreeOn.valueOf?_passKey (h : AgreeOn as bs (passKeys i)) (stem : String)
    (hstem : stem ∈ passStems) : valueOf? as (passKey stem i) = valueOf? bs (passKey stem i) :=
  h _ (List.mem_map_of_mem hstem)

theorem AgreeOn.axisRules_eq (h : AgreeOn as bs (passKeys i)) : axisRules as i = axisRules bs i := by
  simp (disch := decide) only [axisRules, scaleType?, h.valueOf?_passKey]

theorem AgreeOn.scaleOf_eq (h : AgreeOn as bs (passKeys i)) : scaleOf as i = scaleOf bs i := by
  rw [scaleOf, scaleOf, h.axisRules_eq]
  cases axisRules bs i with
  | none => rfl
  | some rules =>
      obtain ⟨x, y⟩ := rules
      have hshared := h.valueOf?_passKey "scale" (by decide)
      have hx := axisValue_congr x (h.valueOf?_passKey "scale_x" (by decide)) hshared
      have hy := axisValue_congr y (h.valueOf?_passKey "scale_y" (by decide)) hshared
      simp only [hx, hy]

theorem AgreeOn.passOf_eq (h : AgreeOn as bs (passKeys i)) (path : String) :
    passOf as i path = passOf bs i path := by
  simp (disch := decide) only [passOf, h.scaleOf_eq, word?, flag, flag?, wrapMode, filterMode,
    h.valueOf?_passKey]

theorem AgreeOn.passAt_eq (h : AgreeOn as bs (passKeys i)) : passAt as i = passAt bs i := by
  simp (disch := decide) only [passAt, h.valueOf?_passKey, h.passOf_eq]

end Agreement

/-- Two presets that give the same values to the keys of a pass have the same pass, whatever else
they say, and the keys of two passes are different. -/
theorem passes_eq_of_agreeOn (h : Model.ofAssignments as = .ok m)
    (h' : Model.ofAssignments bs = .ok m') (hi : i < m.passes.length) (hi' : i < m'.passes.length)
    (hagree : AgreeOn as bs (passKeys i)) :
    m.passes[i] = m'.passes[i] ∧ ∀ j k, j ≠ k → (passKeys j).Disjoint (passKeys k) := by
  refine ⟨?_, fun j k hjk => disjoint_passKeys hjk⟩
  obtain ⟨-, hpasses⟩ := Model.ofAssignments_ok h
  obtain ⟨-, hpasses'⟩ := Model.ofAssignments_ok h'
  have hpass := hpasses i _ (List.getElem?_eq_getElem hi)
  have hpass' := hpasses' i _ (List.getElem?_eq_getElem hi')
  rw [hagree.passAt_eq, hpass'] at hpass
  exact (Except.ok.inj hpass).symm

/-- Twelve passes, of which passes `1`, `10` and `11` have names and rules. -/
def twelvePasses : List Assignment :=
  ⟨"shaders", "12"⟩ :: (List.range 12).map (fun i => ⟨passKey "shader" i, "pass.slang"⟩) ++
    [⟨"alias1", "Blur"⟩, ⟨"alias11", "Mask"⟩, ⟨"scale_type11", "absolute"⟩,
      ⟨"scale_type_x1", "viewport"⟩, ⟨"scale_type_y10", "source"⟩]

/-- Two passes, of which pass `1` is as in `twelvePasses`. -/
def twoPasses : List Assignment :=
  [⟨"alias1", "Mask"⟩, ⟨"scale_type_x1", "viewport"⟩, ⟨"shader1", "pass.slang"⟩,
    ⟨"alias1", "Blur"⟩, ⟨"shader0", "first.slang"⟩, ⟨"scale0", "3"⟩, ⟨"shaders", "2"⟩]

theorem passes_eq_of_agreeOn_crossing :
    ∃ m m', Model.ofAssignments twelvePasses = .ok m ∧ Model.ofAssignments twoPasses = .ok m' ∧
      AgreeOn twelvePasses twoPasses (passKeys 1) ∧ m.passes[1]? = m'.passes[1]? ∧
      m.passes[1]?.map (fun p => (p.name, p.scale.x, p.scale.y)) =
        some (some "Blur", .viewport, .source) := by
  have htwelve : (Model.ofAssignments twelvePasses).map (fun m => (m.passes.length,
      m.passes[1]?.map fun p => (p.name, p.scale.x, p.scale.y))) =
        .ok (12, some (some "Blur", .viewport, .source)) := by decide +kernel
  have htwo : (Model.ofAssignments twoPasses).map (fun m => m.passes.length) = .ok 2 := by
    decide +kernel
  obtain ⟨m, hm, hpass⟩ := Success.map_iff.1 htwelve
  obtain ⟨m', hm', hlength'⟩ := Success.map_iff.1 htwo
  obtain ⟨hlength, hpass⟩ := Prod.mk.inj hpass
  have hagree : AgreeOn twelvePasses twoPasses (passKeys 1) := by
    unfold AgreeOn
    decide +kernel
  have hi : 1 < m.passes.length := by omega
  have hi' : 1 < m'.passes.length := by omega
  refine ⟨m, m', hm, hm', hagree, ?_, hpass⟩
  obtain ⟨hsame, -⟩ := passes_eq_of_agreeOn hm hm' hi hi' hagree
  rw [List.getElem?_eq_getElem hi, List.getElem?_eq_getElem hi', hsame]

end ShaderChain.Preset
