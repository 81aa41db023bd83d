import ShaderChain.Frame.Numbered
import ShaderChain.Proofs.Compiler.WellFormed
import ShaderChain.Proofs.Frame.Ring

/-!
# The inputs of passes

A planned frame leaves a target behind for every texture that a compiled pass samples and
that is the scheduler's: outputs for all passes but the last, earlier outputs for the
passes that are flagged, and a ring as deep as the history count. There is one exception.
A shader that samples no input but the newest one has a history count of zero, and then
there is no ring at all.
-/

namespace ShaderChain

/-- Whether the shader is the result of compiling a preset. -/
def CompiledShader.IsCompiled (s : CompiledShader) : Prop :=
  ∃ (ι : Type) (b : Backend ι) (config : CompilerConfig) (store : FileStore) (path : String),
    b.compilePreset config store path = .ok s

theorem CompiledShader.IsCompiled.exists_isWellFormed {s : CompiledShader} (h : s.IsCompiled) :
    ∃ maxBindings, s.IsWellFormed maxBindings := by
  obtain ⟨ι, b, config, store, path, h⟩ := h
  obtain ⟨g, hload, hcompile⟩ := Backend.compilePreset_ok h
  exact ⟨config.maxBindings, (Backend.compileGraph_ok (Graph.load_ok hload).2 hcompile).2⟩

/-- The files of a preset with one pass. -/
def FileStore.onePass : FileStore :=
  .ofList
    [("input.slangp", "shaders = 1\nshader0 = input.slang"), ("input.slang", "#version 450")]

/-- A fragment stage that samples one image. -/
def StageReflection.sampling (name : String) : StageReflection where
  inputs := [⟨"vTexCoord", 0⟩]
  outputs := [⟨"FragColor", 0⟩]
  resources := [⟨name, .sampledImage, 0, some 0, 0, []⟩]

/-- A compiled pass that samples the input some frames before, known by the given name. -/
def CompiledShader.readsInput (name : String) (frames : Nat) : CompiledShader where
  passes :=
    [{ CompiledPass.plain 0 with
      textures := [⟨.inputHistory, frames, 0, .border, .unspecified, name⟩]
      sourceHash := 2663681961942442230 }]
  parameters := []
  parameterGroups := []
  luts := []
  historyCount := frames

variable {σ τ ε : Type}

namespace Scheduler

variable {f : Factory σ τ ε} {s s' : Scheduler σ τ} {source : Extent} {format : PixelFormat}
  {plan : FramePlan} {pass : CompiledPass} {i : Nat}

section Frame

/-- Behind a planned frame, what is there of a pass's pair is what its plan wants. -/
theorem isSome_beginFrame_ok (h : s.beginFrame f source format = (.ok plan, s'))
    (hpass : s.shader.passes[i]? = some pass) :
    (i + 1 < s.shader.passes.length → (s'.output? i).isSome) ∧
      (s'.feedback? i).isSome = pass.isFeedback := by
  obtain ⟨p, hp, hfeedback, htarget⟩ :=
    FrameSetting.exists_plan_of_getElem? (s.setting format) source hpass
  have hp' : plan.passes[i]? = some p := by
    rw [passes_beginFrame h]
    exact hp
  obtain ⟨hsettled, -⟩ := settled_beginFrame h hp'
  rw [output?_eq, feedback?_eq]
  constructor
  · intro hlt
    rw [hsettled.output.isSome, decide_eq_true_eq]
    exact htarget (Or.inr hlt)
  · rw [hsettled.feedback.isSome, hfeedback]

theorem isSome_history?_beginFrame_ok (h : s.beginFrame f source format = (.ok plan, s'))
    (hhistory : s.options.history = true) (hcount : s.shader.historyCount + 1 < 2 ^ 64)
    {frames : Nat} (hframes : frames ≤ s.shader.historyCount) :
    (s'.history? frames).isSome ↔ s.shader.historyCount ≠ 0 := by
  have hlength := length_history_beginFrame_ok h
  rw [ringLength_eq hhistory hcount] at hlength
  rw [history?, Option.isSome_iff_ne_none, ne_eq, List.getElem?_eq_none_iff, hlength]
  split <;> omega

/-- A planned frame of a well-formed shader leaves a target behind for every texture of
the scheduler's that a pass samples, unless it is one of a ring that is not kept. -/
theorem isSome_input?_beginFrame_ok {maxBindings : UInt32} {t : TextureSlot}
    (hshader : s.shader.IsWellFormed maxBindings) (hhistory : s.options.history = true)
    (hcount : s.shader.historyCount + 1 < 2 ^ 64)
    (h : s.beginFrame f source format = (.ok plan, s'))
    (hpass : s.shader.passes[i]? = some pass) (ht : t ∈ pass.textures)
    (hinput : t.semantic ≠ .chainInput) (huser : t.semantic ≠ .user)
    (hsource : ¬ (t.semantic = .source ∧ i = 0)) :
    (s'.input? i t.reference).isSome ↔
      ¬ (t.semantic = .inputHistory ∧ s.shader.historyCount = 0) := by
  have hlt : i < s.shader.passes.length := (List.getElem?_eq_some_iff.1 hpass).1
  have hsampled : t.reference ∈ pass.sampledTextures := List.mem_map_of_mem ht
  have hprovides :=
    (hshader i pass hpass).provides t.reference (List.mem_append_right _ hsampled)
  rcases t with ⟨semantic, index, binding, wrapMode, filter, name⟩
  unfold input?
  cases semantic with
  | chainInput => exact absurd rfl hinput
  | user => exact absurd rfl huser
  | source =>
      have hi : i ≠ 0 := fun hi => hsource ⟨rfl, hi⟩
      have hbefore : i - 1 < s.shader.passes.length := by omega
      obtain ⟨houtput, -⟩ := isSome_beginFrame_ok h (List.getElem?_eq_getElem hbefore)
      simpa [TextureSlot.reference, hi] using houtput (by omega)
  | passOutput =>
      have hindex : index < i := hprovides.passOutput rfl
      have hbefore : index < s.shader.passes.length := Nat.lt_trans hindex hlt
      obtain ⟨houtput, -⟩ := isSome_beginFrame_ok h (List.getElem?_eq_getElem hbefore)
      simpa [TextureSlot.reference] using houtput (by omega)
  | passFeedback =>
      have hindex : index < s.shader.passes.length := hprovides.passFeedback rfl
      have hread := List.getElem?_eq_getElem hindex
      obtain ⟨-, hfeedback⟩ := isSome_beginFrame_ok h hread
      have hflag := (hshader index _ hread).isFeedback_iff.2
        ⟨pass, List.mem_of_getElem? hpass, hsampled⟩
      simpa [TextureSlot.reference] using hfeedback.trans hflag
  | inputHistory =>
      have hindex := hprovides.inputHistory rfl
      simpa [TextureSlot.reference] using
        isSome_history?_beginFrame_ok h hhistory hcount hindex

end Frame

/-- In every run of compiled shaders, behind every planned frame, each texture that a pass
samples and that is the scheduler's is there, unless it is an earlier input and the
history count is zero. -/
theorem isSome_input?_iff (f : Factory σ τ ε) (shader : CompiledShader)
    (options : SchedulerOptions) (factory : σ) (viewport : Extent) (calls : List Call)
    (source : Extent) (format : PixelFormat) (plan : FramePlan) (s' : Scheduler σ τ)
    (hhistory : options.history = true)
    (hshaders : ∀ t, t = shader ∨ .reload t ∈ calls →
      t.IsCompiled ∧ t.historyCount + 1 < 2 ^ 64)
    (h : ((start shader options factory viewport).run f calls).beginFrame f source format =
      (.ok plan, s'))
    (i : Nat) (pass : CompiledPass) (hpass : s'.shader.passes[i]? = some pass)
    (t : TextureSlot) (ht : t ∈ pass.textures) (hinput : t.semantic ≠ .chainInput)
    (huser : t.semantic ≠ .user) (hsource : ¬ (t.semantic = .source ∧ i = 0)) :
    (s'.input? i t.reference).isSome ↔
      ¬ (t.semantic = .inputHistory ∧ s'.shader.historyCount = 0) := by
  have hoptions : ((start shader options factory viewport).run f calls).options = options :=
    options_run f _ calls
  have hshader := shader_run f (start shader options factory viewport) calls
  obtain ⟨hcompiled, hcount⟩ := hshaders _ hshader
  obtain ⟨maxBindings, hwellFormed⟩ := hcompiled.exists_isWellFormed
  rw [shader_eq_of_beginFrame h] at hpass ⊢
  rw [← hoptions] at hhistory
  exact isSome_input?_beginFrame_ok hwellFormed hhistory hcount h hpass ht hinput huser hsource

/-- The input before the newest is there for a pass that samples it. -/
theorem isSome_input?_readsInput :
    ∃ plan s',
      (start (.readsInput "OriginalHistory1" 1) .standard .full ⟨8, 8⟩ :
          Scheduler TextureStock Nat).beginFrame .numbered ⟨4, 4⟩ .native = (.ok plan, s') ∧
        (s'.input? 0 ⟨.inputHistory, 1⟩).isSome := by
  have hcompiled : (CompiledShader.readsInput "OriginalHistory1" 1).IsCompiled :=
    ⟨Unit, .reflecting (.sampling "OriginalHistory1"), .standard, .onePass, "input.slangp",
      by decide +kernel⟩
  refine ⟨_, _, rfl, ?_⟩
  refine (isSome_input?_iff .numbered (.readsInput "OriginalHistory1" 1) .standard .full ⟨8, 8⟩ []
    ⟨4, 4⟩ .native _ _ rfl ?_ rfl 0 _ rfl
    ⟨.inputHistory, 1, 0, .border, .unspecified, "OriginalHistory1"⟩ ?_ ?_ ?_ ?_).2 ?_
  · rintro t (rfl | hreload)
    · exact ⟨hcompiled, by decide⟩
    · cases hreload
  all_goals decide

/-- A pass that samples the newest input by its number, and no earlier one, finds
nothing. -/
theorem not_isSome_input?_readsInput :
    (CompiledShader.readsInput "OriginalHistory0" 0).IsCompiled ∧
      ∃ plan s' pass,
        (start (.readsInput "OriginalHistory0" 0) .standard .full ⟨8, 8⟩ :
            Scheduler TextureStock Nat).beginFrame .numbered ⟨4, 4⟩ .native = (.ok plan, s') ∧
          s'.shader.passes[0]? = some pass ∧
          ⟨.inputHistory, 0⟩ ∈ pass.sampledTextures ∧
          ¬ (s'.input? 0 ⟨.inputHistory, 0⟩).isSome := by
  have hcompiled : (CompiledShader.readsInput "OriginalHistory0" 0).IsCompiled :=
    ⟨Unit, .reflecting (.sampling "OriginalHistory0"), .standard, .onePass, "input.slangp",
      by decide +kernel⟩
  refine ⟨hcompiled, _, _, _, rfl, rfl, ?_, ?_⟩
  · decide
  · decide

end Scheduler

end ShaderChain
