import ShaderChain.Frame.Numbered
import ShaderChain.Frame.Run
import ShaderChain.Proofs.Frame.Agreement
import ShaderChain.Proofs.Frame.Run

/-!
# Reading a frame late

A pass that is read a frame late has two targets, and a frame lets them change places
before it renders. So its feedback is the output of the frame before, and it renders over
the feedback of the frame before, as long as the pair itself is kept. As no frame before was
refused, the pair meets the plan of the frame before. If the plan of the next frame asks for
the same, the pair stays, whatever becomes of the other passes.
-/

namespace ShaderChain

/-- A chain whose first pass is of a fixed size and read a frame late, before the given number
of plain passes. -/
def CompiledShader.fixedLate (count : Nat) : CompiledShader :=
  { CompiledShader.plain 0 with
    passes :=
      { CompiledPass.plain 0 with
        scale := ⟨.absolute, .absolute, ⟨.one, .one⟩, ⟨4, 4⟩⟩
        isFeedback := true } :: (List.range count).map fun i => .plain (i + 1) }

variable {σ τ ε : Type}

/-- Behind a frame that is not refused, a wanted target that met its specification before
is the same. -/
theorem Target.Settled.eq_of_meets {renew : Bool} {spec : TargetSpec} {t : Target τ}
    {new : Option (Target τ)} (h : Settled renew true spec (some t) new) (ht : t.spec = spec) :
    new = some t := by
  have hdue : isDue renew true spec (some t) = false := by simp [isDue, ht]
  simpa [Settled, hdue] using h

namespace Scheduler

variable {f : Factory σ τ ε} {s s' : Scheduler σ τ} {source : Extent} {format : PixelFormat}
  {plan : FramePlan} {calls : List Call} {pass : CompiledPass} {i : Nat}

/-- Whether no frame of a run is refused. -/
def NeverRefused (f : Factory σ τ ε) (s : Scheduler σ τ) : List Call → Prop
  | [] => True
  | c :: calls => (∀ e, (s.call f c).1 ≠ some (.error e)) ∧ (s.call f c).2.NeverRefused f calls

theorem steady_call {c : Call} (hs : s.Steady) (hc : ∀ e, (s.call f c).1 ≠ some (.error e)) :
    (s.call f c).2.Steady := by
  cases c with
  | frame source format =>
      rcases hframe : s.beginFrame f source format with ⟨e | plan, s'⟩
      · exact absurd (by simp [call, hframe]) (hc e)
      · have hcall : (s.call f (.frame source format)).2 = s' := by simp [call, hframe]
        rw [hcall]
        exact steady_beginFrame_ok hframe (Or.inr hs)
  | resize viewport => exact steady_resize viewport hs
  | reload shader => exact steady_of_isDirty rfl
  | clearHistory => exact hs

theorem steady_run (hs : s.Steady) (h : s.NeverRefused f calls) : (s.run f calls).Steady := by
  induction calls generalizing s with
  | nil => exact hs
  | cons c calls ih => exact ih (steady_call hs h.1) h.2

/-- Between two frames the pairs of the passes stay. -/
theorem pairs_run_of_forall_ne_frame
    (h : ∀ c ∈ calls, ∀ source format, c ≠ .frame source format) :
    (s.run f calls).pairs = s.pairs := by
  induction calls generalizing s with
  | nil => rfl
  | cons c calls ih =>
      have hcall : (s.call f c).2.pairs = s.pairs := by
        cases c with
        | frame source format => exact absurd rfl (h _ List.mem_cons_self source format)
        | resize viewport =>
            rw [call, resize_eq]
        | reload shader => rfl
        | clearHistory => rfl
      rw [run_cons, ih fun c hc => h c (List.mem_cons_of_mem _ hc), hcall]

/-- Behind a planned frame of a steady scheduler, a pass that is read a frame late has both of
its targets, and they meet its plan. -/
theorem exists_pairAt_eq_of_steady (h : s.beginFrame f source format = (.ok plan, s'))
    (hs : s.Steady) {p : PassPlan} (hp : plan.passes[i]? = some p) (hlate : p.isFeedback = true) :
    ∃ t u, s'.pairAt i = ⟨some t, some u⟩ ∧ t.spec = p.spec ∧ u.spec = p.spec := by
  obtain ⟨hsettled, htarget⟩ := settled_beginFrame h hp
  have hagrees := agrees_of_steady h (Or.inr hs) i p hp
  have houtput : (s'.pairAt i).output.isSome := by
    rw [hsettled.output.isSome, decide_eq_true_eq]
    exact htarget hlate
  have hfeedback : (s'.pairAt i).feedback.isSome := hsettled.feedback.isSome.trans hlate
  obtain ⟨t, ht⟩ := Option.isSome_iff_exists.1 houtput
  obtain ⟨u, hu⟩ := Option.isSome_iff_exists.1 hfeedback
  refine ⟨t, u, ?_, ?_, ?_⟩
  · rw [← ht, ← hu]
  · exact hagrees t (Or.inl ((output?_eq s' i).trans ht))
  · exact hagrees u (Or.inr ((feedback?_eq s' i).trans hu))

/-- A planned frame swaps a pair that meets the frame's plan, and keeps it. -/
theorem pairAt_beginFrame_of_meets (h : s.beginFrame f source format = (.ok plan, s'))
    {p : PassPlan} (hp : plan.passes[i]? = some p) (hlate : p.isFeedback = true)
    {t u : Target τ} (hpair : s.pairAt i = ⟨some t, some u⟩) (ht : t.spec = p.spec)
    (hu : u.spec = p.spec) : s'.pairAt i = ⟨some u, some t⟩ := by
  obtain ⟨⟨houtput, hfeedback⟩, htarget⟩ := settled_beginFrame h hp
  have hintermediate : decide (p.target = .intermediate) = true := decide_eq_true (htarget hlate)
  rw [hpair, hlate, if_pos rfl, TargetPair.swap, hintermediate] at houtput
  rw [hpair, hlate, if_pos rfl, TargetPair.swap] at hfeedback
  rw [← houtput.eq_of_meets hu, ← hfeedback.eq_of_meets ht]

/-- The plan of a pass of the shader says whether it is read a frame late. -/
theorem isFeedback_of_plan (h : s.beginFrame f source format = (.ok plan, s'))
    {p : PassPlan} (hp : plan.passes[i]? = some p) (hpass : s'.shader.passes[i]? = some pass) :
    p.isFeedback = pass.isFeedback := by
  rw [shader_eq_of_beginFrame h] at hpass
  rw [passes_beginFrame h] at hp
  obtain ⟨pass', hpass', hfeedback, -⟩ := FrameSetting.exists_pass_of_getElem?_plan hp
  cases hpass.symm.trans hpass'
  exact hfeedback

/-- In a run without refusals, a pass that is read a frame late in two frames one after the
other, and whose targets both frames plan alike, reads in the second what it rendered to in
the first, and renders to what it read. Between the two frames the viewport and the shader
may have changed. -/
theorem feedback?_eq_output?_of_run (f : Factory σ τ ε) (shader : CompiledShader)
    (options : SchedulerOptions) (factory : σ) (viewport : Extent) (before between : List Call)
    (source source' : Extent) (format format' : PixelFormat) (plan plan' : FramePlan)
    (s' s'' : Scheduler σ τ)
    (hbefore : (start shader options factory viewport : Scheduler σ τ).NeverRefused f before)
    (h : ((start shader options factory viewport).run f before).beginFrame f source format =
      (.ok plan, s'))
    (hbetween : ∀ c ∈ between, ∀ source format, c ≠ .frame source format)
    (h' : (s'.run f between).beginFrame f source' format' = (.ok plan', s''))
    (i : Nat) (pass pass' : CompiledPass) (hpass : s'.shader.passes[i]? = some pass)
    (hpass' : s''.shader.passes[i]? = some pass') (hlate : pass.isFeedback = true)
    (hlate' : pass'.isFeedback = true) (p p' : PassPlan) (hp : plan.passes[i]? = some p)
    (hp' : plan'.passes[i]? = some p') (hsize : p'.size = p.size) (hformat : p'.format = p.format)
    (hmipmapped : p'.mipmapped = p.mipmapped) :
    ∃ t u, s'.output? i = some t ∧ s'.feedback? i = some u ∧
      s''.feedback? i = some t ∧ s''.output? i = some u := by
  have hstart : (start shader options factory viewport : Scheduler σ τ).Steady :=
    steady_of_isDirty rfl
  have hplanned := (isFeedback_of_plan h hp hpass).trans hlate
  have hplanned' := (isFeedback_of_plan h' hp' hpass').trans hlate'
  have hspec : p'.spec = p.spec := by
    rw [PassPlan.spec, PassPlan.spec, hsize, hformat, hmipmapped]
  obtain ⟨t, u, hpair, ht, hu⟩ :=
    exists_pairAt_eq_of_steady h (steady_run hstart hbefore) hp hplanned
  have hkept : (s'.run f between).pairAt i = ⟨some t, some u⟩ := by
    rw [pairAt, pairs_run_of_forall_ne_frame hbetween]
    exact hpair
  have hswapped := pairAt_beginFrame_of_meets h' hp' hplanned' hkept (ht.trans hspec.symm)
    (hu.trans hspec.symm)
  refine ⟨t, u, ?_, ?_, ?_, ?_⟩
  · rw [output?_eq, hpair]
  · rw [feedback?_eq, hpair]
  · rw [feedback?_eq, hswapped]
  · rw [output?_eq, hswapped]

/-- Between two frames the viewport, the shader, the source size and the output's format
change, and the other passes get new targets. The first pass keeps its pair. -/
theorem feedback?_eq_output?_fixedLate :
    ∃ plan s' plan' s'',
      (start (.fixedLate 2) .standard .full ⟨8, 8⟩ : Scheduler TextureStock Nat).beginFrame
          .numbered ⟨6, 6⟩ .native = (.ok plan, s') ∧
        (s'.run .numbered [.resize ⟨9, 9⟩, .reload (.fixedLate 3), .clearHistory]).beginFrame
            .numbered ⟨2, 2⟩ .nativeSrgb = (.ok plan', s'') ∧
          plan'.resized = true ∧ s'.output? 0 = some ⟨0, ⟨⟨4, 4⟩, .native, false⟩⟩ ∧
            s''.feedback? 0 = s'.output? 0 ∧ s''.output? 0 = s'.feedback? 0 := by
  refine ⟨_, _, _, _, rfl, rfl, by decide, by decide, ?_⟩
  obtain ⟨t, u, ht, hu, ht', hu'⟩ :=
    feedback?_eq_output?_of_run .numbered (.fixedLate 2) .standard .full ⟨8, 8⟩ []
      [.resize ⟨9, 9⟩, .reload (.fixedLate 3), .clearHistory] ⟨6, 6⟩ ⟨2, 2⟩ .native .nativeSrgb
      _ _ _ _ trivial rfl (by simp) rfl 0 _ _ rfl rfl rfl rfl _ _ rfl rfl rfl rfl rfl
  exact ⟨ht'.trans ht.symm, hu'.trans hu.symm⟩

end Scheduler

end ShaderChain
