import ShaderChain.Proofs.Binding.Causality
import ShaderChain.Proofs.Compiled.Usage

/-!
# Well-formed compiled shaders

A compiled shader has a pass for each one that the preset counts. Each pass has its place
as its number, its textures have bindings of their own in range, and it asks for nothing
that is not there, be it in a buffer or as a texture. A pass is flagged for feedback
exactly if some pass samples it a frame late.
-/

namespace ShaderChain

/-- Whether a texture is there for pass `pass` of a compiled shader. -/
structure CompiledShader.Provides (s : CompiledShader) (pass : Nat) (r : TextureRef) : Prop
    extends r.IsCausal pass s.passes.length s.luts.length where
  inputHistory : r.semantic = .inputHistory → r.index ≤ s.historyCount

/-- What holds of pass `i` of a compiled shader with texture bindings below the given
number. -/
structure CompiledPass.IsWellFormed (p : CompiledPass) (s : CompiledShader)
    (maxBindings : UInt32) (i : Nat) : Prop where
  index_eq : p.index = i
  binding_lt : ∀ t ∈ p.textures, t.binding < maxBindings
  nodup_binding : (p.textures.map (·.binding)).Nodup
  provides : ∀ r ∈ p.sizedTextures ++ p.sampledTextures, s.Provides i r
  parameter_lt : ∀ slot ∈ p.buffers.flatMap (·.slots), ∀ index,
    slot.role = .parameter index → index < s.parameters.length
  isFeedback_iff :
    p.isFeedback = true ↔ ∃ q ∈ s.passes, ⟨.passFeedback, i⟩ ∈ q.sampledTextures

/-- Whether every pass of a compiled shader is well-formed. -/
def CompiledShader.IsWellFormed (s : CompiledShader) (maxBindings : UInt32) : Prop :=
  ∀ (i : Nat) (p : CompiledPass), s.passes[i]? = some p → p.IsWellFormed s maxBindings i

namespace Backend

/-- A backend to which every fragment stage says the same about itself. -/
def reflecting (fragment : StageReflection) : Backend Unit where
  compile _ _ := .ok ()
  reflect
    | .vertex, _ => .ok (defaultReflection .vertex)
    | .fragment, _ => .ok fragment
  emit _ _ := .ok ""

/-- A fragment stage that samples its source and the earlier output of the second pass,
and asks for the size of the input two frames before. -/
def trail : StageReflection where
  inputs := [⟨"vTexCoord", 0⟩]
  outputs := [⟨"FragColor", 0⟩]
  resources :=
    [⟨"Trail", .pushConstant, 0, none, 24, [⟨"OriginalHistorySize2", 8, .vec4⟩]⟩,
      ⟨"PassFeedback1", .sampledImage, 0, some 1, 0, []⟩,
      ⟨"Source", .sampledImage, 0, some 2, 0, []⟩]

variable {ι : Type} {b : Backend ι} {config : CompilerConfig} {g : Graph} {s : CompiledShader}
  {p : Graph.Pass} {q : CompiledPass} {maxBindings : UInt32}

/-- A compiled pass is put together from the texts of its stages and its bindings. -/
theorem exists_bind_of_compilePass {binder : Binder} (h : b.compilePass binder p = .ok q) :
    ∃ vertex fragment vertexText fragmentText layouts,
      binder.bind p.preset.index vertex fragment = .ok layouts ∧
        q = assemblePass p vertexText fragmentText layouts := by
  unfold compilePass at h
  obtain ⟨⟨vertex, vertexText⟩, -, h⟩ := Success.bind_iff.1 h
  obtain ⟨⟨fragment, fragmentText⟩, -, h⟩ := Success.bind_iff.1 h
  obtain ⟨layouts, hlayouts, h⟩ := Success.bind_iff.1 h
  cases h
  exact ⟨vertex, fragment, vertexText, fragmentText, layouts, Success.mapError_iff.1 hlayouts, rfl⟩

theorem compilePass_ok (hg : g.IsNumbered)
    (h : b.compilePass (.ofGraph g maxBindings) p = .ok q) :
    q.index = p.preset.index ∧
      (∀ slot ∈ q.buffers.flatMap (·.slots), slot.role.IsCausal g p.preset.index) ∧
      (Binder.ofGraph g maxBindings).Admits p.preset.index q.textures := by
  obtain ⟨_, _, _, _, layouts, hlayouts, rfl⟩ := exists_bind_of_compilePass h
  obtain ⟨hroles, htextures⟩ := Binder.bind_ok hg hlayouts
  refine ⟨rfl, ?_, htextures⟩
  simpa [CompiledPass.buffers, assemblePass] using hroles

/-- The textures that a compiled pass asks for are there, as far as the graph goes. -/
theorem isCausal_of_compilePass (hg : g.IsNumbered)
    (h : b.compilePass (.ofGraph g maxBindings) p = .ok q) {r : TextureRef}
    (hr : r ∈ q.sizedTextures ++ q.sampledTextures) :
    r.IsCausal p.preset.index g.passes.length g.luts.length := by
  obtain ⟨-, hroles, htextures⟩ := compilePass_ok hg h
  rcases List.mem_append.1 hr with hsized | hsampled
  · obtain ⟨slot, hslot, hrole⟩ := CompiledPass.mem_sizedTextures_iff.1 hsized
    have hcausal := hroles slot hslot
    rw [hrole] at hcausal
    exact hcausal
  · obtain ⟨t, ht, rfl⟩ := List.mem_map.1 hsampled
    exact htextures.isCausal t ht

theorem compileGraph_ok (hg : g.IsNumbered) (h : b.compileGraph config g = .ok s) :
    s.passes.length = g.passes.length ∧ s.IsWellFormed config.maxBindings := by
  unfold compileGraph at h
  obtain ⟨passes, hpasses, h⟩ := Success.bind_iff.1 h
  have hlength := Success.length_mapM hpasses
  cases h
  refine ⟨(length_flagFeedback passes).trans hlength, ?_⟩
  intro i flagged hflagged
  rw [getElem?_flagFeedback] at hflagged
  obtain ⟨q, hq, rfl⟩ := Option.map_eq_some_iff.1 hflagged
  obtain ⟨p, hp, hcompile⟩ := Success.exists_of_getElem?_mapM hpasses hq
  obtain ⟨hindex, hroles, htextures⟩ := compilePass_ok hg hcompile
  have hi := hg.index_pass i p hp
  rw [hi] at hindex hroles htextures
  constructor
  · exact hindex
  · exact htextures.binding_lt
  · exact htextures.nodup_binding
  · intro r hr
    have hcausal := isCausal_of_compilePass hg hcompile hr
    rw [hi, ← hlength, ← length_flagFeedback passes] at hcausal
    exact ⟨hcausal, index_le_historyDepth (List.mem_of_getElem? hq) hr⟩
  · intro slot hslot index hrole
    have hcausal := hroles slot hslot
    rw [hrole] at hcausal
    exact hcausal
  · rw [← isSampledLate_flagFeedback, isSampledLate_iff]
    simp only [CompiledPass.samplesLate_iff]

/-- A preset that compiles has a graph that compiles. -/
theorem compilePreset_ok {store : FileStore} {path : String}
    (h : b.compilePreset config store path = .ok s) :
    ∃ g, Graph.load store path = .ok g ∧ b.compileGraph config g = .ok s :=
  Success.bind_iff.1 h

/-- A preset that compiles has as many compiled passes as the last value of its `shaders`
key says, all of them well-formed. -/
theorem isWellFormed_of_compilePreset (b : Backend ι) (config : CompilerConfig)
    (store : FileStore) (path : String) (s : CompiledShader)
    (h : b.compilePreset config store path = .ok s) :
    (∃ text value, store.load path = .ok text ∧
        Preset.valueOf? (Preset.scan text).assignments "shaders" = some value ∧
        Text.count? value.toList = some s.passes.length) ∧
      s.IsWellFormed config.maxBindings := by
  obtain ⟨g, hload, hcompile⟩ := compilePreset_ok h
  obtain ⟨⟨text, value, htext, hvalue, hcount⟩, hnumbered⟩ := Graph.load_ok hload
  obtain ⟨hlength, hwellFormed⟩ := compileGraph_ok hnumbered hcompile
  rw [← hlength] at hcount
  exact ⟨⟨text, value, htext, hvalue, hcount⟩, hwellFormed⟩

/-- Two passes that sample the output of the second a frame late compile. -/
theorem isWellFormed_trail :
    ∃ s,
      (reflecting trail).compilePreset .standard
          (.ofList
            [("trail.slangp", "shaders = 2\nshader0 = trail.slang\nshader1 = trail.slang"),
              ("trail.slang", "#version 450")])
          "trail.slangp" = .ok s ∧
        s.passes.length = 2 ∧ s.IsWellFormed 16 := by
  have h :
      ((reflecting trail).compilePreset .standard
          (.ofList
            [("trail.slangp", "shaders = 2\nshader0 = trail.slang\nshader1 = trail.slang"),
              ("trail.slang", "#version 450")])
          "trail.slangp").map (·.passes.length) = .ok 2 := rfl
  obtain ⟨s, hs, hlength⟩ := Success.map_iff.1 h
  exact ⟨s, hs, hlength, (isWellFormed_of_compilePreset _ _ _ _ s hs).2⟩

end Backend

end ShaderChain
