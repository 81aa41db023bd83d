import ShaderChain.Frame.Numbered
import ShaderChain.Proofs.Frame.Lag
import ShaderChain.Proofs.Frame.Recording

/-!
# Targets within the limit

The limit is one of scaling rules: a size that comes from a rule never exceeds it. A pass without a
rule is as large as its source, so the size of a rule is carried on to the passes behind it, and
the passes in front of the first rule carry on the size of the chain's input, however large this
is. The last pass, if it has no rule, is as large as the viewport. Where such a pass cannot render
to the output it has targets of its own, and these are as large as the input or the viewport too.
-/

namespace ShaderChain

section Sizes

variable {passes rest : List CompiledPass} {pass : CompiledPass} {i : Nat}
  {viewport source size : Extent} {bound : UInt32}

theorem ScaleType.boundedExtent_le (rule : ScaleType) (factor : Single)
    (absolute source viewport bound : UInt32) :
    rule.boundedExtent factor absolute source viewport bound ≤ bound :=
  Std.min_le_right

/-- Whether a size is within a bound on both axes. -/
structure Extent.IsWithin (size : Extent) (bound : UInt32) : Prop where
  width_le : size.width ≤ bound
  height_le : size.height ≤ bound

theorem Scale.targetSize_of_isScaled {scale : Scale} (h : scale.isScaled = true)
    (source viewport : Extent) (isLast : Bool) (bound : UInt32) :
    (scale.targetSize source viewport isLast bound).IsWithin bound := by
  rw [targetSize, if_pos h]
  exact ⟨ScaleType.boundedExtent_le _ _ _ _ _ _, ScaleType.boundedExtent_le _ _ _ _ _ _⟩

theorem Scale.targetSize_of_not_isScaled {scale : Scale} (h : scale.isScaled = false)
    (source viewport : Extent) (isLast : Bool) (bound : UInt32) :
    scale.targetSize source viewport isLast bound = if isLast then viewport else source := by
  simp [targetSize, h]

/-- Whether pass `i` is the last one and has no scaling rule. -/
def IsUnscaledLast (passes : List CompiledPass) (i : Nat) : Prop :=
  i + 1 = passes.length ∧ ∃ p, passes[i]? = some p ∧ p.scale.isScaled = false

/-- Whether the size of pass `i` comes from a scaling rule, its own or that of a pass before it. -/
def FollowsRule (passes : List CompiledPass) (i : Nat) : Prop :=
  ¬ IsUnscaledLast passes i ∧ ∃ p ∈ passes.take (i + 1), p.scale.isScaled = true

/-- Whether a size is one for pass `i` of a chain, with an input of size `source` and sizes by
rules bounded. -/
structure IsSizedFor (passes : List CompiledPass) (i : Nat) (viewport source : Extent)
    (bound : UInt32) (size : Extent) : Prop where
  isWithin : FollowsRule passes i → size.IsWithin bound
  eq_viewport : IsUnscaledLast passes i → size = viewport
  eq_source : ¬ FollowsRule passes i → ¬ IsUnscaledLast passes i → size = source

theorem isUnscaledLast_cons_zero :
    IsUnscaledLast (pass :: rest) 0 ↔ rest = [] ∧ pass.scale.isScaled = false := by
  simp [IsUnscaledLast, ← List.length_eq_zero_iff]

theorem isUnscaledLast_cons_succ :
    IsUnscaledLast (pass :: rest) (i + 1) ↔ IsUnscaledLast rest i := by
  simp [IsUnscaledLast]

theorem followsRule_cons_zero :
    FollowsRule (pass :: rest) 0 ↔ pass.scale.isScaled = true := by
  rw [FollowsRule, isUnscaledLast_cons_zero]
  cases h : pass.scale.isScaled <;> simp [h]

theorem followsRule_cons_succ :
    FollowsRule (pass :: rest) (i + 1) ↔
      ¬ IsUnscaledLast rest i ∧ (pass.scale.isScaled = true ∨
        ∃ p ∈ rest.take (i + 1), p.scale.isScaled = true) := by
  rw [FollowsRule, isUnscaledLast_cons_succ, List.take_succ_cons]
  simp

/-- The first pass is sized by its rule, or as the viewport or the input. -/
theorem isSizedFor_cons_zero (pass : CompiledPass) (rest : List CompiledPass)
    (viewport source : Extent) (bound : UInt32) :
    IsSizedFor (pass :: rest) 0 viewport source bound
      (pass.scale.targetSize source viewport rest.isEmpty bound) := by
  constructor
  · intro hrule
    exact Scale.targetSize_of_isScaled (followsRule_cons_zero.1 hrule) _ _ _ _
  · intro hlast
    obtain ⟨rfl, hunscaled⟩ := isUnscaledLast_cons_zero.1 hlast
    exact Scale.targetSize_of_not_isScaled hunscaled _ _ _ _
  · intro hrule hlast
    rw [followsRule_cons_zero, Bool.not_eq_true] at hrule
    have hrest : rest.isEmpty = false := by
      simpa [isUnscaledLast_cons_zero, hrule] using hlast
    rw [Scale.targetSize_of_not_isScaled hrule, hrest]
    rfl

/-- What is sized for a pass behind the first one, with the first one's target as the input, is
sized for it in the whole chain. -/
theorem IsSizedFor.cons_succ (hrest : rest ≠ [])
    (h : IsSizedFor rest i viewport (pass.scale.targetSize source viewport rest.isEmpty bound)
      bound size) :
    IsSizedFor (pass :: rest) (i + 1) viewport source bound size := by
  constructor
  · intro hrule
    obtain ⟨hlast, hscaled⟩ := followsRule_cons_succ.1 hrule
    by_cases hbehind : FollowsRule rest i
    · exact h.isWithin hbehind
    · have hpass := hscaled.resolve_right fun hsome => hbehind ⟨hlast, hsome⟩
      rw [h.eq_source hbehind hlast]
      exact Scale.targetSize_of_isScaled hpass _ _ _ _
  · intro hlast
    exact h.eq_viewport (isUnscaledLast_cons_succ.1 hlast)
  · intro hrule hlast
    rw [isUnscaledLast_cons_succ] at hlast
    rw [followsRule_cons_succ, not_and, not_or, Bool.not_eq_true] at hrule
    obtain ⟨hpass, hnone⟩ := hrule hlast
    rw [h.eq_source (fun hbehind => hnone hbehind.2) hlast, Scale.targetSize_of_not_isScaled hpass,
      List.isEmpty_eq_false_iff.2 hrest]
    rfl

/-- Every pass is planned with a size for it. -/
theorem FrameSetting.isSizedFor_planFrom (f : FrameSetting) (index : Nat) (source : Extent)
    {plan : PassPlan} (h : (f.planFrom index source passes)[i]? = some plan) :
    IsSizedFor passes i f.viewport source f.options.maxTextureDimension plan.size := by
  induction passes generalizing index source i with
  | nil => cases h
  | cons pass rest ih =>
      cases i with
      | zero =>
          cases h
          exact isSizedFor_cons_zero pass rest f.viewport source _
      | succ i =>
          -- The target of the first pass is the input of the passes behind it.
          have hrest : rest ≠ [] := by
            rintro rfl
            cases h
          exact (ih (index + 1) _ h).cons_succ hrest

end Sizes

variable {σ τ ε : Type}

/-! ### Requests -/

theorem Target.eq_of_mem_requests {renew wanted : Bool} {spec x : TargetSpec}
    {slot : Option (Target τ)} (h : x ∈ requests renew wanted spec slot) : x = spec := by
  rw [requests] at h
  split at h
  · exact List.mem_singleton.1 h
  · cases h

theorem TargetPair.eq_of_mem_requests {renew : Bool} {plan : PassPlan} {x : TargetSpec}
    {p : TargetPair τ} (h : x ∈ p.requests renew plan) : x = plan.spec := by
  rcases List.mem_append.1 h with houtput | hfeedback
  · exact Target.eq_of_mem_requests houtput
  · exact Target.eq_of_mem_requests hfeedback

namespace Scheduler

/-- Every target that a frame asks for is sized for its pass. -/
theorem isSizedFor_of_mem_passRequests (s : Scheduler σ τ) (source : Extent)
    (format : PixelFormat) {i : Nat} {own : List TargetSpec}
    (hown : (s.passRequests source format)[i]? = some own) {spec : TargetSpec}
    (hspec : spec ∈ own) :
    IsSizedFor s.shader.passes i s.viewport source s.options.maxTextureDimension spec.size := by
  obtain ⟨plan, p, hplan, -, rfl⟩ := List.getElem?_zipWith_eq_some.1 hown
  rw [TargetPair.eq_of_mem_requests hspec]
  exact (s.setting format).isSizedFor_planFrom 0 source hplan

/-- In every run, every frame asks the factory for targets of its passes, in order, and then for
those of the ring, until one is refused. A target for a pass whose size comes from a scaling rule
is within the limit; that of a last pass without a rule has the size of the viewport, and that of
any other pass has the size of the input. -/
theorem isSizedFor_of_run (f : Factory σ τ ε) (shader : CompiledShader)
    (options : SchedulerOptions) (factory : σ) (viewport : Extent) (calls : List Call)
    (source : Extent) (format : PixelFormat) (s : Scheduler (σ × List TargetSpec) τ)
    (hs : s = (start shader options (factory, []) viewport).run f.recording calls) :
    ∃ asked, (s.beginFrame f.recording source format).2.factory.2 = s.factory.2 ++ asked ∧
      asked <+: (s.passRequests source format).flatten ++
        HistoryUpdate.requests s.history s.ringLength source ∧
      ∀ (i : Nat) (own : List TargetSpec), (s.passRequests source format)[i]? = some own →
        ∀ spec ∈ own, IsSizedFor s.shader.passes i s.viewport source
          options.maxTextureDimension spec.size := by
  have hoptions : s.options = options := by
    rw [hs]
    exact options_run f.recording _ calls
  refine ⟨_, record_beginFrame f s source format, f.asked_isPrefix _ _, ?_⟩
  intro i own hown spec hspec
  rw [← hoptions]
  exact isSizedFor_of_mem_passRequests s source format hown hspec

/-- A size that runs over the limit by its rule is cut, also for the pass behind. The last pass
has no rule and cannot render to an output of another format. -/
theorem isSizedFor_of_run_fixedLate :
    ∃ s : Scheduler (TextureStock × List TargetSpec) Nat,
      s = (start (.fixedLate 2) ⟨false, 2, true⟩ (.full, []) ⟨32, 32⟩).run
        Factory.numbered.recording [.resize ⟨8, 8⟩] ∧
      (s.beginFrame Factory.numbered.recording ⟨16, 16⟩ .nativeFloat).2.factory.2.map (·.size) =
        [⟨2, 2⟩, ⟨2, 2⟩, ⟨2, 2⟩, ⟨8, 8⟩] ∧
      IsSizedFor s.shader.passes 1 ⟨8, 8⟩ ⟨16, 16⟩ 2 ⟨2, 2⟩ := by
  refine ⟨_, rfl, by decide, ?_⟩
  obtain ⟨_, -, -, hsized⟩ := isSizedFor_of_run .numbered (.fixedLate 2) ⟨false, 2, true⟩ .full
    ⟨32, 32⟩ [.resize ⟨8, 8⟩] ⟨16, 16⟩ .nativeFloat _ rfl
  exact hsized 1 [⟨⟨2, 2⟩, .native, false⟩] (by decide) _ List.mem_cons_self

/-- Without rules the targets of both passes run over the limit. -/
theorem not_isWithin_plain :
    ∃ s : Scheduler (TextureStock × List TargetSpec) Nat,
      s = (start (.plain 2) ⟨false, 8, true⟩ (.full, []) ⟨32, 32⟩).run
        Factory.numbered.recording [] ∧
      (s.beginFrame Factory.numbered.recording ⟨16, 16⟩ .nativeFloat).2.factory.2 =
        (s.passRequests ⟨16, 16⟩ .nativeFloat).flatten ∧
      s.passRequests ⟨16, 16⟩ .nativeFloat =
        [[⟨⟨16, 16⟩, .native, false⟩], [⟨⟨32, 32⟩, .native, false⟩]] ∧
      ¬ Extent.IsWithin ⟨16, 16⟩ 8 ∧ ¬ Extent.IsWithin ⟨32, 32⟩ 8 := by
  refine ⟨_, rfl, by decide, by decide, ?_, ?_⟩
  · rintro ⟨hwidth, -⟩
    exact absurd hwidth (by decide)
  · rintro ⟨hwidth, -⟩
    exact absurd hwidth (by decide)

end Scheduler

end ShaderChain
