import ShaderChain.Proofs.Frame.Limit
import ShaderChain.Proofs.Frame.Planned

/-!
# Targets with an area

Whatever the factor of a rule is, and also where it is not a number, an extent that comes to
nothing gives way to the viewport's before it is bounded. So an extent is zero only if the bound
is, or the viewport's extent together with that by the rule. If the bound, the viewports and the
sources are not zero, then no pass is planned for a target without an area, and none is asked of
the factory, neither for a pass nor for the ring, also where a frame is refused.
-/

namespace ShaderChain

/-- Whether a size is not zero on both axes. -/
structure Extent.HasArea (size : Extent) : Prop where
  width_ne_zero : size.width ≠ 0
  height_ne_zero : size.height ≠ 0

/-- Whether a call brings no source and no viewport without an area. -/
def Call.HasArea : Call → Prop
  | .frame source _ => source.HasArea
  | .resize viewport => viewport.HasArea
  | .reload _ => True
  | .clearHistory => True

/-- A chain with a ring whose passes have rules that come to nothing or to too much. -/
def CompiledShader.degenerate : CompiledShader :=
  { CompiledShader.plain 0 with
    passes :=
      [{ CompiledPass.plain 0 with
          scale := ⟨.source, .viewport, ⟨.nan, .infinity true⟩, ⟨0, 0⟩⟩ },
        { CompiledPass.plain 1 with
          scale := ⟨.absolute, .source, ⟨.one, .infinity false⟩, ⟨0, 0⟩⟩ }]
    historyCount := 1 }

section Sizes

variable {passes : List CompiledPass} {viewport source : Extent} {bound : UInt32}

/-- An extent is zero only if the bound is, or if the rule comes to nothing and the viewport's
extent in its place is zero too. -/
theorem ScaleType.boundedExtent_eq_zero_iff (rule : ScaleType) (factor : Single)
    (absolute source viewport bound : UInt32) :
    rule.boundedExtent factor absolute source viewport bound = 0 ↔
      bound = 0 ∨ viewport = 0 ∧ rule.extent factor absolute source viewport = 0 := by
  have hreplaced (value : UInt32) :
      (if value = 0 then viewport else value) = 0 ↔ viewport = 0 ∧ value = 0 := by
    split
    · next hzero => simp [hzero]
    · next hnonzero => simp [hnonzero]
  simp only [boundedExtent, ← UInt32.le_zero_iff, Std.min_le]
  simp only [UInt32.le_zero_iff, hreplaced, or_comm]

theorem Scale.hasArea_targetSize (scale : Scale) (hsource : source.HasArea)
    (hviewport : viewport.HasArea) (isLast : Bool) (hbound : bound ≠ 0) :
    (scale.targetSize source viewport isLast bound).HasArea := by
  unfold targetSize
  split
  · constructor
    · simp [ScaleType.boundedExtent_eq_zero_iff, hbound, hviewport.width_ne_zero]
    · simp [ScaleType.boundedExtent_eq_zero_iff, hbound, hviewport.height_ne_zero]
  · split
    · exact hviewport
    · exact hsource

/-- Every pass is planned for a target with an area, by induction on the passes: the target of
one is the source of the next. -/
theorem FrameSetting.hasArea_planFrom {f : FrameSetting} (hviewport : f.viewport.HasArea)
    (hbound : f.options.maxTextureDimension ≠ 0) (index : Nat) (hsource : source.HasArea) :
    ∀ p ∈ f.planFrom index source passes, p.size.HasArea := by
  induction passes generalizing index source with
  | nil => simp [planFrom]
  | cons pass rest ih =>
      have hsize : (f.planPass index source pass rest).size.HasArea :=
        pass.scale.hasArea_targetSize hsource hviewport rest.isEmpty hbound
      rw [planFrom, List.forall_mem_cons]
      exact ⟨hsize, ih (index + 1) hsize⟩

end Sizes

variable {σ τ ε : Type}

namespace Scheduler

/-- Whether a scheduler renders to a viewport with an area and creates targets with one. -/
structure HasArea (s : Scheduler σ τ) : Prop where
  viewport : s.viewport.HasArea
  bound_ne_zero : s.options.maxTextureDimension ≠ 0

variable {f : Factory σ τ ε} {s : Scheduler σ τ} {source : Extent} {c : Call} {calls : List Call}

theorem viewport_beginFrame (f : Factory σ τ ε) (s : Scheduler σ τ) (source : Extent)
    (format : PixelFormat) : (s.beginFrame f source format).2.viewport = s.viewport := by
  rcases h : s.beginFrame f source format with ⟨e | plan, s'⟩
  · rw [beginFrame_error h]
  · obtain ⟨u, factory, -, -, -, hs'⟩ := beginFrame_ok h
    rw [hs']

theorem hasArea_call (h : s.HasArea) (hc : c.HasArea) : (s.call f c).2.HasArea where
  bound_ne_zero := by
    rw [options_call]
    exact h.bound_ne_zero
  viewport := by
    cases c with
    | frame source format =>
        rw [call, viewport_beginFrame]
        exact h.viewport
    | resize viewport =>
        rw [call, resize_eq]
        exact hc
    | reload shader => exact h.viewport
    | clearHistory => exact h.viewport

theorem hasArea_plan (h : s.HasArea) (hsource : source.HasArea) (format : PixelFormat) :
    ∀ p ∈ s.plan source format, p.size.HasArea :=
  FrameSetting.hasArea_planFrom h.viewport h.bound_ne_zero 0 hsource

/-- A frame asks for targets with an area, for its passes and for the ring. -/
theorem hasArea_requests (h : s.HasArea) (hsource : source.HasArea) (format : PixelFormat) :
    ∀ spec ∈ s.requests source format, spec.size.HasArea := by
  intro spec hspec
  rcases List.mem_append.1 hspec with hpass | hring
  · obtain ⟨own, hown, hmem⟩ := List.mem_flatten.1 hpass
    obtain ⟨i, hi⟩ := List.mem_iff_getElem?.1 hown
    obtain ⟨plan, p, hplan, -, rfl⟩ := List.getElem?_zipWith_eq_some.1 hi
    rw [TargetPair.eq_of_mem_requests hmem]
    exact hasArea_plan h hsource format plan (List.mem_of_getElem? hplan)
  · rw [HistoryUpdate.requests] at hring
    split at hring
    · cases hring
    · rw [List.eq_of_mem_replicate hring]
      exact hsource

theorem hasArea_run (h : s.HasArea) (hcalls : ∀ c ∈ calls, c.HasArea) :
    (s.run f calls).HasArea := by
  induction calls generalizing s with
  | nil => exact h
  | cons c calls ih =>
      obtain ⟨hc, hrest⟩ := List.forall_mem_cons.1 hcalls
      exact ih (hasArea_call h hc) hrest

/-- A call adds targets with an area to the record, if it adds any. -/
theorem hasArea_record_call {s : Scheduler (σ × List TargetSpec) τ} (h : s.HasArea)
    (hc : c.HasArea) (hrecord : ∀ spec ∈ s.factory.2, spec.size.HasArea) :
    ∀ spec ∈ (s.call f.recording c).2.factory.2, spec.size.HasArea := by
  cases c with
  | frame source format =>
      intro spec hspec
      rw [call, record_beginFrame] at hspec
      rcases List.mem_append.1 hspec with hold | hasked
      · exact hrecord spec hold
      · have hlisted := (f.asked_isPrefix _ _).subset hasked
        exact hasArea_requests h hc format spec hlisted
  | resize viewport =>
      rw [call, resize_eq]
      exact hrecord
  | reload shader => exact hrecord
  | clearHistory => exact hrecord

theorem hasArea_record_run {s : Scheduler (σ × List TargetSpec) τ} (h : s.HasArea)
    (hcalls : ∀ c ∈ calls, c.HasArea) (hrecord : ∀ spec ∈ s.factory.2, spec.size.HasArea) :
    ∀ spec ∈ (s.run f.recording calls).factory.2, spec.size.HasArea := by
  induction calls generalizing s with
  | nil => exact hrecord
  | cons c calls ih =>
      obtain ⟨hc, hrest⟩ := List.forall_mem_cons.1 hcalls
      exact ih (hasArea_call h hc) hrest (hasArea_record_call h hc hrecord)

/-- In every run with a bound, viewports and sources that are not zero, whatever the scaling rules
of the shaders and whatever the factory refuses, the passes of every frame that is planned have
sizes with an area, and so has everything that the factory is asked for. The record of what it is
asked for changes nothing else. -/
theorem hasArea_of_run (f : Factory σ τ ε) (shader : CompiledShader) (options : SchedulerOptions)
    (factory : σ) (viewport : Extent) (calls : List Call)
    (hbound : options.maxTextureDimension ≠ 0) (hviewport : viewport.HasArea)
    (hcalls : ∀ c ∈ calls, c.HasArea) :
    (∀ frame ∈ (start shader options factory viewport : Scheduler σ τ).plannedFrames f calls,
        ∀ p ∈ frame.plan.passes, p.size.HasArea) ∧
      ((start shader options (factory, []) viewport).run f.recording calls).unrecorded =
        (start shader options factory viewport : Scheduler σ τ).run f calls ∧
      ∀ spec ∈ ((start shader options (factory, []) viewport :
          Scheduler (σ × List TargetSpec) τ).run f.recording calls).factory.2,
        spec.size.HasArea := by
  refine ⟨fun frame hframe => ?_, unrecorded_run f _ calls, ?_⟩
  · obtain ⟨k, hk⟩ := List.mem_iff_getElem?.1 hframe
    obtain ⟨before, source, format, after, rfl, -, -, hplan⟩ :=
      exists_beginFrame_of_getElem?_plannedFrames hk
    obtain ⟨hbefore, hrest⟩ := List.forall_mem_append.1 hcalls
    have hsource : source.HasArea := (List.forall_mem_cons.1 hrest).1
    rw [passes_beginFrame (Prod.ext hplan rfl)]
    exact hasArea_plan (hasArea_run ⟨hviewport, hbound⟩ hbefore) hsource format
  · exact hasArea_record_run ⟨hviewport, hbound⟩ hcalls (fun spec hspec => by cases hspec)

/-- Factors that are not a number or infinite, and an absolute extent of zero. The second frame is
refused a target for its ring. -/
theorem hasArea_of_run_degenerate :
    ((start .degenerate ⟨false, 16, true⟩ ⟨0, some 4, []⟩ ⟨8, 4⟩).plannedFrames .numbered
        [.frame ⟨2, 3⟩ .native, .frame ⟨5, 7⟩ .native]).map (·.plan.passes.map (·.size)) =
        [[⟨8, 4⟩, ⟨8, 16⟩]] ∧
      ((start .degenerate ⟨false, 16, true⟩ (⟨0, some 4, []⟩, []) ⟨8, 4⟩ :
          Scheduler (TextureStock × List TargetSpec) Nat).run Factory.numbered.recording
            [.frame ⟨2, 3⟩ .native, .frame ⟨5, 7⟩ .native]).factory.2.map (·.size) =
        [⟨8, 4⟩, ⟨8, 16⟩, ⟨2, 3⟩, ⟨2, 3⟩, ⟨5, 7⟩] ∧
      (∀ frame ∈ (start .degenerate ⟨false, 16, true⟩ ⟨0, some 4, []⟩ ⟨8, 4⟩ :
          Scheduler TextureStock Nat).plannedFrames .numbered
            [.frame ⟨2, 3⟩ .native, .frame ⟨5, 7⟩ .native],
        ∀ p ∈ frame.plan.passes, p.size.HasArea) ∧
      ∀ spec ∈ ((start .degenerate ⟨false, 16, true⟩ (⟨0, some 4, []⟩, []) ⟨8, 4⟩ :
          Scheduler (TextureStock × List TargetSpec) Nat).run Factory.numbered.recording
            [.frame ⟨2, 3⟩ .native, .frame ⟨5, 7⟩ .native]).factory.2,
        spec.size.HasArea := by
  refine ⟨by decide +kernel, by decide +kernel, ?_⟩
  have hcalls : ∀ c ∈ [Call.frame ⟨2, 3⟩ .native, .frame ⟨5, 7⟩ .native], c.HasArea := by
    simp only [List.forall_mem_cons, Call.HasArea]
    exact ⟨⟨by decide, by decide⟩, ⟨by decide, by decide⟩, by simp⟩
  obtain ⟨hplanned, -, hasked⟩ := hasArea_of_run .numbered .degenerate ⟨false, 16, true⟩
    ⟨0, some 4, []⟩ ⟨8, 4⟩ _ (by decide) ⟨by decide, by decide⟩ hcalls
  exact ⟨hplanned, hasked⟩

end Scheduler

end ShaderChain
