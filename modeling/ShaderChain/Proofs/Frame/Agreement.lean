import Mathlib.Data.List.Induction
import ShaderChain.Frame.Numbered
import ShaderChain.Frame.Run
import ShaderChain.Proofs.Frame.Step

/-!
# Agreement of targets with plans

A renderer relies on a planned frame's targets being as large as the plan says, and of
its format and mipmaps. They are if the frame renews its targets. If it does not, it keeps
what is there, so that the targets agree exactly if the ones it keeps do already.

Along a run, what is there agrees as long as no frame is refused for another source size
than that of the last frame planned. Such a frame leaves targets of its own size behind,
and as it does not count as planned, a frame of the old size takes them for its own.
-/

namespace ShaderChain

variable {σ τ ε : Type}

/-- The targets of a pass that a frame keeps if it does not renew them. -/
def PassPlan.kept (plan : PassPlan) (p : TargetPair τ) : List (Target τ) :=
  if plan.isFeedback then p.targets
  else if plan.target = .intermediate then p.output.toList
  else []

/-- The targets of a settled pass meet its plan exactly if they are renewed or the ones
kept meet it. -/
theorem TargetPair.Settled.agrees_iff {renew : Bool} {plan : PassPlan} {p q : TargetPair τ}
    (h : Settled renew plan (if plan.isFeedback then p.swap else p) q)
    (htarget : plan.isFeedback = true → plan.target = .intermediate) :
    (∀ t ∈ q.targets, t.spec = plan.spec) ↔
      renew = true ∨ ∀ t ∈ plan.kept p, t.spec = plan.spec := by
  have hhalves : (∀ t ∈ q.targets, t.spec = plan.spec) ↔
      (∀ t ∈ q.output, t.spec = plan.spec) ∧ ∀ t ∈ q.feedback, t.spec = plan.spec := by
    simp only [mem_targets, Option.mem_def]
    constructor
    · intro hq
      exact ⟨fun t ht => hq t (Or.inl ht), fun t ht => hq t (Or.inr ht)⟩
    · rintro ⟨ho, hf⟩ t (ht | ht)
      · exact ho t ht
      · exact hf t ht
  rw [hhalves, h.output.meets_iff, h.feedback.meets_iff]
  cases hf : plan.isFeedback with
  | true =>
      have hkept : plan.kept p = p.targets := by simp [PassPlan.kept, hf]
      simp only [hkept, htarget hf, mem_targets, swap, Option.mem_def, if_true, decide_true,
        reduceCtorEq, false_or]
      constructor
      · rintro ⟨hr | ho, hr | hp⟩
        · exact Or.inl hr
        · exact Or.inl hr
        · exact Or.inl hr
        · right
          rintro t (ht | ht)
          · exact hp t ht
          · exact ho t ht
      · rintro (hr | hp)
        · exact ⟨Or.inl hr, Or.inl hr⟩
        · exact ⟨Or.inr fun t ht => hp t (Or.inr ht), Or.inr fun t ht => hp t (Or.inl ht)⟩
  | false =>
      by_cases ht : plan.target = .intermediate
      · have hkept : plan.kept p = p.output.toList := by simp [PassPlan.kept, hf, ht]
        simp [hkept, ht]
      · have hkept : plan.kept p = [] := by simp [PassPlan.kept, hf, ht]
        simp [hkept, ht]

namespace Scheduler

variable {f : Factory σ τ ε} {s s' : Scheduler σ τ} {source : Extent} {format : PixelFormat}
  {plan : FramePlan} {e : ε}

/-- Whether the targets that are there are those of the plans. -/
def Agrees (s : Scheduler σ τ) (plans : List PassPlan) : Prop :=
  ∀ (i : Nat) (plan : PassPlan), plans[i]? = some plan →
    ∀ t, s.output? i = some t ∨ s.feedback? i = some t → t.spec = plan.spec

/-- Whether the targets that a frame with the given plans keeps are those of the plans. -/
def KeepsAgreeing (s : Scheduler σ τ) (plans : List PassPlan) : Prop :=
  ∀ (i : Nat) (plan : PassPlan), plans[i]? = some plan →
    ∀ t ∈ plan.kept (s.pairAt i), t.spec = plan.spec

/-- The targets of a planned frame agree with its plans exactly if the frame renews them
or those it keeps agree. -/
theorem agrees_iff_keepsAgreeing (h : s.beginFrame f source format = (.ok plan, s')) :
    s'.Agrees plan.passes ↔ s.needsRenewal source = true ∨ s.KeepsAgreeing plan.passes := by
  have hpass : ∀ i p, plan.passes[i]? = some p →
      ((∀ t, s'.output? i = some t ∨ s'.feedback? i = some t → t.spec = p.spec) ↔
        s.needsRenewal source = true ∨ ∀ t ∈ p.kept (s.pairAt i), t.spec = p.spec) := by
    intro i p hp
    obtain ⟨hsettled, htarget⟩ := settled_beginFrame h hp
    rw [← hsettled.agrees_iff htarget]
    simp only [mem_targets_pairAt]
  constructor
  · intro hagrees
    by_cases hr : s.needsRenewal source = true
    · exact Or.inl hr
    · right
      intro i p hp
      exact ((hpass i p hp).1 (hagrees i p hp)).resolve_left hr
  · intro hkept i p hp
    exact (hpass i p hp).2 (hkept.imp_right fun hk => hk i p hp)

/-- Whether what is there agrees with the plans of every frame that would not renew it. -/
def Steady (s : Scheduler σ τ) : Prop :=
  ∀ source format, s.needsRenewal source = false → s.Agrees (s.plan source format)

/-- Whether a call is a frame that is planned and renews its targets. -/
def Renews (f : Factory σ τ ε) (s : Scheduler σ τ) (c : Call) : Prop :=
  ∃ source format plan, c = .frame source format ∧ s.needsRenewal source = true ∧
    (s.beginFrame f source format).1 = .ok plan

/-- Whether a run holds a frame that was refused for another source size than that of the
last frame planned, with no frame behind it that renews its targets. -/
def RefusedAside (f : Factory σ τ ε) (s : Scheduler σ τ) (calls : List Call) : Prop :=
  ∃ before source format after, calls = before ++ .frame source format :: after ∧
    (∃ e, ((s.run f before).beginFrame f source format).1 = .error e) ∧
    (s.run f before).sourceSize ≠ some source ∧
    ∀ mid c rest, after = mid ++ c :: rest →
      ¬ (s.run f (before ++ .frame source format :: mid)).Renews f c

theorem run_append_singleton (f : Factory σ τ ε) (s : Scheduler σ τ) (calls : List Call)
    (c : Call) : s.run f (calls ++ [c]) = ((s.run f calls).call f c).2 := by
  rw [run_append]
  rfl

theorem refusedAside_append_singleton {calls : List Call} {c : Call}
    (h : RefusedAside f s calls) (hc : ¬ (s.run f calls).Renews f c) :
    RefusedAside f s (calls ++ [c]) := by
  obtain ⟨before, source, format, after, rfl, hrefused, hsize, hafter⟩ := h
  refine ⟨before, source, format, after ++ [c], by simp, hrefused, hsize, ?_⟩
  intro mid d rest hsplit
  rcases List.eq_nil_or_concat rest with rfl | ⟨rest, x, rfl⟩
  · obtain ⟨rfl, hd⟩ := List.append_inj' hsplit rfl
    cases hd
    exact hc
  · have hsplit' : after ++ [c] = (mid ++ d :: rest) ++ [x] := by
      rw [hsplit]
      simp
    exact hafter mid d rest (List.append_inj' hsplit' rfl).1

theorem map_spec_plan_congr (hoptions : s'.options = s.options)
    (hviewport : s'.viewport = s.viewport) (hshader : s'.shader = s.shader) (source : Extent)
    (format format' : PixelFormat) :
    (s'.plan source format).map (·.spec) = (s.plan source format').map (·.spec) := by
  unfold Scheduler.plan FrameSetting.plan
  rw [hshader]
  exact FrameSetting.map_spec_planFrom_congr hoptions hviewport 0 source s.shader.passes

/-- Agreement asks only for what the targets are created for. -/
theorem agrees_congr {plans plans' : List PassPlan}
    (h : plans.map (·.spec) = plans'.map (·.spec)) : s.Agrees plans ↔ s.Agrees plans' := by
  have hone : ∀ {plans plans' : List PassPlan}, plans.map (·.spec) = plans'.map (·.spec) →
      s.Agrees plans → s.Agrees plans' := by
    intro plans plans' h hagrees i p hp t ht
    have hspec : (plans.map (·.spec))[i]? = some p.spec := by
      rw [h, List.getElem?_map, hp]
      rfl
    rw [List.getElem?_map] at hspec
    obtain ⟨p', hp', hp's⟩ := Option.map_eq_some_iff.1 hspec
    rw [← hp's]
    exact hagrees i p' hp' t ht
  exact ⟨hone h, hone h.symm⟩

/-- What a frame keeps of a steady scheduler agrees. -/
theorem Steady.keepsAgreeing (hs : s.Steady) (hr : s.needsRenewal source = false)
    (format : PixelFormat) : s.KeepsAgreeing (s.plan source format) := by
  intro i p hp t ht
  refine hs source format hr i p hp t (mem_targets_pairAt.1 ?_)
  unfold PassPlan.kept at ht
  split at ht
  · exact ht
  · split at ht
    · exact List.mem_append_left _ ht
    · cases ht

/-- The targets of a frame agree if it renews them or the scheduler was steady. -/
theorem agrees_of_steady (h : s.beginFrame f source format = (.ok plan, s'))
    (hs : s.needsRenewal source = true ∨ s.Steady) : s'.Agrees plan.passes := by
  rw [agrees_iff_keepsAgreeing h]
  by_cases hr : s.needsRenewal source = true
  · exact Or.inl hr
  · right
    rw [passes_beginFrame h]
    exact (hs.resolve_left hr).keepsAgreeing (by simpa using hr) format

/-- A planned frame is steady if it renews its targets or was steady before. -/
theorem steady_beginFrame_ok (h : s.beginFrame f source format = (.ok plan, s'))
    (hs : s.needsRenewal source = true ∨ s.Steady) : s'.Steady := by
  obtain ⟨u, factory, -, -, -, hs'⟩ := beginFrame_ok h
  have hagrees := agrees_of_steady h hs
  rw [passes_beginFrame h] at hagrees
  intro source' format' hr
  have hsize : s'.sourceSize = some source := by rw [hs']
  obtain ⟨-, hsource⟩ := needsRenewal_eq_false_iff.1 hr
  cases hsize.symm.trans hsource
  refine (agrees_congr (map_spec_plan_congr ?_ ?_ ?_ source format' format)).2 hagrees
  all_goals rw [hs']

/-- A refused frame of the old size leaves a steady scheduler steady. -/
theorem steady_beginFrame_error (h : s.beginFrame f source format = (.error e, s'))
    (hsize : s.sourceSize = some source) (hs : s.Steady) : s'.Steady := by
  have hs' := beginFrame_error h
  intro source' format' hr
  have hold : s.needsRenewal source' = false := by
    rw [hs'] at hr
    exact hr
  cases hsize.symm.trans (needsRenewal_eq_false_iff.1 hold).2
  have hspecs : (s'.plan source format').map (·.spec) = (s.plan source format).map (·.spec) := by
    apply map_spec_plan_congr
    all_goals rw [hs']
  rw [agrees_congr hspecs]
  intro i p hp t ht
  rcases mem_targets_beginFrame_error h hp (mem_targets_pairAt.2 ht) with hold' | hnew
  · exact hs source format hold i p hp t (mem_targets_pairAt.1 hold')
  · exact hnew

theorem steady_of_isDirty (h : s.isDirty = true) : s.Steady := by
  intro source format hr
  rw [(needsRenewal_eq_false_iff.1 hr).1] at h
  cases h

theorem steady_resize (viewport : Extent) (h : s.Steady) : (s.resize viewport).Steady := by
  unfold resize
  split
  · exact h
  · exact steady_of_isDirty rfl

/-- Along a run, what is there agrees unless a frame was refused for another source size
than that of the last frame planned, with no frame behind it that renews its targets. -/
theorem steady_or_refusedAside (f : Factory σ τ ε) (hs : s.Steady) (calls : List Call) :
    (s.run f calls).Steady ∨ s.RefusedAside f calls := by
  induction calls using List.reverseRecOn with
  | nil => exact Or.inl hs
  | append_singleton calls c ih =>
      rw [run_append_singleton]
      cases c with
      | resize viewport =>
          refine ih.imp (steady_resize viewport) fun h => refusedAside_append_singleton h ?_
          rintro ⟨_, _, _, hc, -⟩
          cases hc
      | reload shader => exact Or.inl (steady_of_isDirty rfl)
      | clearHistory =>
          refine ih.imp (fun h => h) fun h => refusedAside_append_singleton h ?_
          rintro ⟨_, _, _, hc, -⟩
          cases hc
      | frame source format =>
          have hcall : ((s.run f calls).call f (.frame source format)).2 =
              ((s.run f calls).beginFrame f source format).2 := rfl
          rw [hcall]
          rcases hframe : (s.run f calls).beginFrame f source format with ⟨e | plan, s'⟩
          · by_cases hsize : (s.run f calls).sourceSize = some source
            · refine ih.imp (steady_beginFrame_error hframe hsize) fun h =>
                refusedAside_append_singleton h ?_
              rintro ⟨source', format', plan, hc, -, hplan⟩
              cases hc
              rw [hframe] at hplan
              cases hplan
            · right
              refine ⟨calls, source, format, [], rfl, ⟨e, by rw [hframe]⟩, hsize, ?_⟩
              intro mid d rest hsplit
              cases mid <;> cases hsplit
          · by_cases hr : (s.run f calls).needsRenewal source = true
            · exact Or.inl (steady_beginFrame_ok hframe (Or.inl hr))
            · refine ih.imp (fun h => steady_beginFrame_ok hframe (Or.inr h)) fun h =>
                refusedAside_append_singleton h ?_
              rintro ⟨source', format', plan', hc, hr', -⟩
              cases hc
              exact hr hr'

/-- After every planned frame of a run, the targets agree with the plan exactly if the
frame renews them or those it keeps agree; and what disagrees was left behind by a frame
that was refused for another source size than that of the last frame planned, with no
frame behind it that renews its targets. -/
theorem agrees_beginFrame_iff (f : Factory σ τ ε) (shader : CompiledShader)
    (options : SchedulerOptions) (factory : σ) (viewport : Extent) (calls : List Call)
    (source : Extent) (format : PixelFormat) (plan : FramePlan) (s' : Scheduler σ τ)
    (h : ((start shader options factory viewport).run f calls).beginFrame f source format =
      (.ok plan, s')) :
    (s'.Agrees plan.passes ↔
        ((start shader options factory viewport).run f calls).needsRenewal source = true ∨
          ((start shader options factory viewport).run f calls).KeepsAgreeing plan.passes) ∧
      (¬ s'.Agrees plan.passes →
        ((start shader options factory viewport).run f calls).needsRenewal source = false ∧
          (start shader options factory viewport : Scheduler σ τ).RefusedAside f calls) := by
  refine ⟨agrees_iff_keepsAgreeing h, ?_⟩
  intro hdisagrees
  have hstart : (start shader options factory viewport : Scheduler σ τ).Steady :=
    steady_of_isDirty rfl
  constructor
  · by_contra hr
    exact hdisagrees (agrees_of_steady h (Or.inl (by simpa using hr)))
  · refine (steady_or_refusedAside f hstart calls).resolve_left ?_
    intro hsteady
    exact hdisagrees (agrees_of_steady h (Or.inr hsteady))

/-- A frame of another size renews all targets, also behind one that was planned. -/
theorem agrees_beginFrame_plain :
    ∃ plan s',
      ((start (.plain 3) .standard .full ⟨8, 8⟩ : Scheduler TextureStock Nat).run .numbered
          [.frame ⟨4, 4⟩ .native]).beginFrame .numbered ⟨2, 2⟩ .native = (.ok plan, s') ∧
        s'.Agrees plan.passes :=
  ⟨_, _, rfl,
    (agrees_beginFrame_iff .numbered (.plain 3) .standard .full ⟨8, 8⟩ [.frame ⟨4, 4⟩ .native]
      ⟨2, 2⟩ .native _ _ rfl).1.2 (Or.inl (by decide))⟩

/-- Three passes are planned at one size. A frame of another size replaces the first target
and is refused the second. The next frame of the old size is planned with the replaced
target, whose size is the other one. -/
theorem not_agrees_refusedAside :
    ∃ plan s',
      ((start (.plain 3) .standard ⟨0, some 3, []⟩ ⟨8, 8⟩ : Scheduler TextureStock Nat).run
          .numbered [.frame ⟨4, 4⟩ .native, .frame ⟨2, 2⟩ .native]).beginFrame .numbered
            ⟨4, 4⟩ .native = (.ok plan, s') ∧
        ¬ s'.Agrees plan.passes := by
  refine ⟨_, _, rfl, ?_⟩
  intro hagrees
  have hspec := hagrees 0 _ rfl ⟨2, ⟨⟨2, 2⟩, .native, false⟩⟩ (Or.inl (by decide))
  exact absurd hspec (by decide)

end Scheduler

end ShaderChain
