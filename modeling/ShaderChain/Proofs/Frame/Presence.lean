import ShaderChain.Proofs.Frame.Input
import ShaderChain.Proofs.Frame.Lag

/-!
# Which targets there are

A planned frame has a plan for each pass of the shader, in order. Only the last pass may render
straight to the output, and only if nothing stands between them. Behind the frame exactly the
passes that render to targets of their own have an output, and exactly those that are read a
frame late have a feedback. What was there before the frame does not matter: the pairs of the
passes are fitted to the shader first, so that neither another shader nor a refused frame leaves
anything behind.
-/

namespace ShaderChain

variable {σ τ ε : Type}

namespace FrameSetting

variable {f : FrameSetting} {passes : List CompiledPass} {pass : CompiledPass}
  {plan : PassPlan} {isLast : Bool} {size : Extent} {i : Nat}

theorem map_index_planFrom (f : FrameSetting) (index : Nat) (source : Extent)
    (passes : List CompiledPass) :
    (f.planFrom index source passes).map (·.index) = List.range' index passes.length := by
  induction passes generalizing index source with
  | nil => rfl
  | cons pass rest ih =>
      rw [planFrom, List.map_cons, ih, List.length_cons, List.range'_succ]
      rfl

theorem isDirect_iff :
    f.isDirect pass isLast size = true ↔
      isLast = true ∧ pass.scale.isScaled = false ∧ pass.isFeedback = false ∧
        pass.format = f.outputFormat ∧ size = f.viewport := by
  simp [isDirect, and_assoc]

/-- A pass renders to the output exactly if it is the last one and nothing stands between. -/
theorem target_eq_output_iff {source : Extent} (hpass : passes[i]? = some pass)
    (hplan : (f.plan source passes)[i]? = some plan) :
    plan.target = .output ↔
      i + 1 = passes.length ∧ pass.scale.isScaled = false ∧ pass.isFeedback = false ∧
        pass.format = f.outputFormat ∧ plan.size = f.viewport := by
  obtain ⟨own, hown⟩ := exists_getElem?_planFrom f 0 source hpass
  cases hplan.symm.trans hown
  have hlt : i < passes.length := (List.getElem?_eq_some_iff.1 hpass).1
  have hlast : (passes.drop (i + 1)).isEmpty = true ↔ i + 1 = passes.length := by
    rw [List.isEmpty_iff, List.drop_eq_nil_iff]
    omega
  rw [← hlast]
  simp only [planPass]
  rw [← isDirect_iff]
  split <;> simp_all

end FrameSetting

namespace Scheduler

variable {f : Factory σ τ ε} {s s' : Scheduler σ τ} {source : Extent} {format : PixelFormat}
  {plan : FramePlan} {i : Nat}

section Frame

theorem length_pairs_beginFrame_ok (h : s.beginFrame f source format = (.ok plan, s')) :
    s'.pairs.length = s.shader.passes.length := by
  obtain ⟨u, factory, -, -, -, hs'⟩ := beginFrame_ok h
  rw [hs']
  show (s.allocation f source format).value.length = _
  rw [allocation, TargetPair.length_allocateAll, length_stagedPairs]

theorem pairAt_eq_empty_of_length_le (h : s.pairs.length ≤ i) : s.pairAt i = .empty := by
  rw [pairAt, List.getElem?_eq_none h, Option.getD_none]

theorem length_passes_beginFrame_ok (h : s.beginFrame f source format = (.ok plan, s')) :
    plan.passes.length = s.shader.passes.length := by
  rw [passes_beginFrame h]
  exact FrameSetting.length_plan _ _ _

theorem index_beginFrame_ok (h : s.beginFrame f source format = (.ok plan, s')) :
    plan.passes.map (·.index) = List.range s.shader.passes.length := by
  rw [passes_beginFrame h, List.range_eq_range']
  exact FrameSetting.map_index_planFrom _ 0 source s.shader.passes

/-- Behind a planned frame, a pass has an output exactly if it does not render straight to
that of the frame. -/
theorem isSome_output?_beginFrame_ok (h : s.beginFrame f source format = (.ok plan, s')) (i : Nat) :
    (s'.output? i).isSome ↔ ∃ p, plan.passes[i]? = some p ∧ p.target = .intermediate := by
  rw [output?_eq]
  cases hp : plan.passes[i]? with
  | some p =>
      obtain ⟨hsettled, -⟩ := settled_beginFrame h hp
      rw [hsettled.output.isSome]
      simp
  | none =>
      have hlength := List.getElem?_eq_none_iff.1 hp
      rw [length_passes_beginFrame_ok h, ← length_pairs_beginFrame_ok h] at hlength
      rw [pairAt_eq_empty_of_length_le hlength]
      simp [TargetPair.empty]

/-- Behind a planned frame, a pass has a feedback exactly if it is read a frame late. -/
theorem isSome_feedback?_beginFrame_ok (h : s.beginFrame f source format = (.ok plan, s'))
    (i : Nat) :
    (s'.feedback? i).isSome ↔ ∃ pass, s.shader.passes[i]? = some pass ∧ pass.isFeedback = true := by
  cases hpass : s.shader.passes[i]? with
  | some pass =>
      rw [(isSome_beginFrame_ok h hpass).2]
      simp
  | none =>
      have hlength := List.getElem?_eq_none_iff.1 hpass
      rw [← length_pairs_beginFrame_ok h] at hlength
      rw [feedback?_eq, pairAt_eq_empty_of_length_le hlength]
      simp [TargetPair.empty]

end Frame

/-- Whatever a scheduler has been through, a planned frame has a plan for each pass of its
shader, in order; a pass renders straight to the output exactly if it is the last one, is not
scaled, is not read a frame late, and is of the output's format and size; and the passes with an
output are exactly those that do not, the passes with a feedback exactly those that are read a
frame late. -/
theorem isSome_output?_and_feedback?_iff (f : Factory σ τ ε) (s : Scheduler σ τ)
    (calls : List Call) (source : Extent) (format : PixelFormat) (plan : FramePlan)
    (s' : Scheduler σ τ)
    (h : (s.run f calls).beginFrame f source format = (.ok plan, s')) :
    plan.passes.map (·.index) = List.range (s.run f calls).shader.passes.length ∧
      (∀ (i : Nat) (p : PassPlan) (pass : CompiledPass), plan.passes[i]? = some p →
        (s.run f calls).shader.passes[i]? = some pass →
          (p.target = .output ↔
            i + 1 = (s.run f calls).shader.passes.length ∧ pass.scale.isScaled = false ∧
              pass.isFeedback = false ∧ pass.format = format ∧
                p.size = (s.run f calls).viewport)) ∧
      ∀ i : Nat,
        ((s'.output? i).isSome ↔ ∃ p, plan.passes[i]? = some p ∧ p.target = .intermediate) ∧
          ((s'.feedback? i).isSome ↔
            ∃ pass, (s.run f calls).shader.passes[i]? = some pass ∧ pass.isFeedback = true) := by
  refine ⟨index_beginFrame_ok h, ?_, ?_⟩
  · intro i p pass hp hpass
    rw [passes_beginFrame h] at hp
    exact FrameSetting.target_eq_output_iff hpass hp
  · intro i
    exact ⟨isSome_output?_beginFrame_ok h i, isSome_feedback?_beginFrame_ok h i⟩

/-- A frame of three passes is refused its second target. Of the shader with two passes in its
place, the first is read a frame late and the second renders straight to the output. -/
theorem isSome_output?_and_feedback?_reloaded :
    ∃ plan s',
      ((start (.plain 3) .standard ⟨0, some 1, []⟩ ⟨8, 8⟩ : Scheduler TextureStock Nat).run
          .numbered [.frame ⟨4, 4⟩ .native, .reload (.fixedLate 1)]).beginFrame .numbered
            ⟨4, 4⟩ .native = (.ok plan, s') ∧
        plan.passes.map (·.index) = [0, 1] ∧ plan.passes.map (·.target) = [.intermediate, .output] ∧
          (s'.output? 0).isSome ∧ (s'.feedback? 0).isSome ∧ ¬ (s'.output? 1).isSome ∧
            ¬ (s'.feedback? 1).isSome := by
  refine ⟨_, _, rfl, ?_⟩
  obtain ⟨hindex, htarget, hpresent⟩ :=
    isSome_output?_and_feedback?_iff .numbered (start (.plain 3) .standard ⟨0, some 1, []⟩ ⟨8, 8⟩)
      [.frame ⟨4, 4⟩ .native, .reload (.fixedLate 1)] ⟨4, 4⟩ .native _ _ rfl
  refine ⟨hindex, rfl, ?_, ?_, ?_, ?_⟩
  · exact (hpresent 0).1.2 ⟨_, rfl, rfl⟩
  · exact (hpresent 0).2.2 ⟨_, rfl, rfl⟩
  · rw [(hpresent 1).1]
    rintro ⟨p, hp, hintermediate⟩
    rw [(htarget 1 p _ hp rfl).2 ⟨rfl, rfl, rfl, rfl, by cases hp; rfl⟩] at hintermediate
    cases hintermediate
  · rw [(hpresent 1).2]
    rintro ⟨pass, hpass, hlate⟩
    cases hpass
    cases hlate

end Scheduler

end ShaderChain
