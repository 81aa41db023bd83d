import ShaderChain.Proofs.Binding.Fits
import ShaderChain.Proofs.Frame.Input

/-!
# The length of the ring

A name stands for an earlier input only by the word of its kind and a number, and a number fits
a word of 64 bits. So the history count of a compiled shader fits one too. The ring is one longer,
which is one too many for a single name: `OriginalHistory` with the highest number. No other kind
of texture may be numbered beyond what is there, but earlier inputs are not checked, so a shader
with this name compiles, and its length wraps to zero, which is the length for no history.
-/

namespace ShaderChain

namespace SymbolTable

variable {g : Graph} {name : String} {r : TextureRef} {frames : Nat}

/-- No name that a preset gives stands for an earlier input. -/
theorem semantic_ne_of_given? (h : (ofGraph g).given? name = some r) :
    r.semantic ≠ .inputHistory := by
  rcases List.mem_append.1 (mem_of_lastGiven? h) with hpass | hlut
  · obtain ⟨p, -, hname⟩ := List.mem_flatMap.1 hpass
    rw [passNames] at hname
    split at hname
    · cases hname
    · rcases List.mem_pair.1 hname with heq | heq <;> cases heq <;> simp
  · obtain ⟨⟨l, i⟩, -, heq⟩ := List.mem_map.1 hlut
    cases heq
    simp

theorem frames_lt_of_texture? (h : (ofGraph g).texture? name = some ⟨.inputHistory, frames⟩) :
    frames < 2 ^ 64 := by
  rcases Option.or_eq_some_iff.1 h with hgiven | ⟨-, hpositional⟩
  · exact absurd rfl (semantic_ne_of_given? hgiven)
  · exact positional?_lt hpositional

theorem frames_lt_of_uniform?
    (h : (ofGraph g).uniform? name = some (.textureSize ⟨.inputHistory, frames⟩)) :
    frames < 2 ^ 64 := by
  rcases Option.or_eq_some_iff.1 (sizedTexture?_of_uniform? h) with hgiven | ⟨-, hpositional⟩
  · obtain ⟨base, -, hbase⟩ := Option.bind_eq_some_iff.1 hgiven
    exact absurd rfl (semantic_ne_of_given? hbase)
  · exact positional?_lt hpositional

end SymbolTable

namespace Backend

variable {ι : Type} {b : Backend ι} {config : CompilerConfig} {g : Graph} {s : CompiledShader}
  {p : Graph.Pass} {q : CompiledPass} {maxBindings : UInt32} {frames : Nat}

/-- The number of an input that a compiled pass asks for fits a word. -/
theorem frames_lt_of_compilePass (h : b.compilePass (.ofGraph g maxBindings) p = .ok q)
    (hasks : q.AsksForInput frames) : frames < 2 ^ 64 := by
  obtain ⟨_, _, _, _, layouts, hlayouts, rfl⟩ := exists_bind_of_compilePass h
  obtain ⟨hroles, htextures⟩ := Binder.exists_name_of_bind hlayouts
  rcases hasks with ⟨t, ht, hreference⟩ | ⟨l, hl, slot, hslot, hrole⟩
  · obtain ⟨name, hname⟩ := htextures t ht
    rw [hreference] at hname
    exact SymbolTable.frames_lt_of_texture? hname
  · obtain ⟨name, hname⟩ := hroles l hl slot hslot
    rw [hrole] at hname
    exact SymbolTable.frames_lt_of_uniform? hname

/-- The history count of a compiled shader is the depth that its passes ask for, and it fits a
word. -/
theorem historyCount_of_compileGraph (h : b.compileGraph config g = .ok s) :
    s.historyCount = historyDepth s.passes ∧ s.historyCount < 2 ^ 64 := by
  unfold compileGraph at h
  obtain ⟨passes, hpasses, h⟩ := Success.bind_iff.1 h
  cases h
  refine ⟨(historyDepth_flagFeedback passes).symm, ?_⟩
  show historyDepth passes < 2 ^ 64
  rcases Nat.eq_zero_or_pos (historyDepth passes) with hzero | hpos
  · rw [hzero]
    decide
  · obtain ⟨q, hq, hasks⟩ := exists_asksForInput_historyDepth hpos.ne'
    obtain ⟨i, hi⟩ := List.mem_iff_getElem?.1 hq
    obtain ⟨p, -, hcompile⟩ := Success.exists_of_getElem?_mapM hpasses hi
    exact frames_lt_of_compilePass hcompile hasks

end Backend

namespace CompiledShader

variable {s : CompiledShader}

theorem IsCompiled.historyCount_eq (h : s.IsCompiled) :
    s.historyCount = historyDepth s.passes ∧ s.historyCount < 2 ^ 64 := by
  obtain ⟨ι, b, config, store, path, h⟩ := h
  obtain ⟨g, -, hcompile⟩ := Backend.compilePreset_ok h
  exact Backend.historyCount_of_compileGraph hcompile

/-- Whether some pass asks for the input that is as many frames back as a word can say. -/
def AsksForLast (s : CompiledShader) : Prop := ∃ p ∈ s.passes, p.AsksForInput (2 ^ 64 - 1)

/-- One more than the history count of a compiled shader fits a word, unless some pass asks for
the last input that has a number. -/
theorem IsCompiled.historyCount_add_one (h : s.IsCompiled) :
    s.historyCount + 1 ≤ 2 ^ 64 ∧ (s.historyCount + 1 = 2 ^ 64 ↔ s.AsksForLast) := by
  obtain ⟨hdepth, hlt⟩ := h.historyCount_eq
  refine ⟨hlt, ?_, ?_⟩
  · intro heq
    have hcount : historyDepth s.passes = 2 ^ 64 - 1 := by omega
    rw [AsksForLast, ← hcount]
    exact exists_asksForInput_historyDepth (by rw [hcount]; decide)
  · intro hasks
    have hle : 2 ^ 64 - 1 ≤ historyDepth s.passes := (isLUB_historyDepth s.passes).1 hasks
    omega

end CompiledShader

variable {σ τ ε : Type}

namespace Scheduler

variable {s : Scheduler σ τ}

/-- One more than the highest word is zero. -/
theorem ringLength_of_historyCount_eq (h : s.shader.historyCount + 1 = 2 ^ 64) :
    s.ringLength = 0 := by
  have hcount : s.shader.historyCount = 2 ^ 64 - 1 := by omega
  rw [ringLength, hcount]
  split <;> rfl

/-- With the history enabled, a frame of a compiled shader that asks for earlier inputs leaves a
ring behind that is one longer than the history count, if its requests are served and no pass asks
for the last input that has a number. If some pass does, the length overflows and there is no
ring. -/
theorem length_history_of_isCompiled (f : Factory σ τ ε) (s : Scheduler σ τ) (source : Extent)
    (format : PixelFormat) (hshader : s.shader.IsCompiled) (hhistory : s.options.history = true)
    (hcount : 0 < s.shader.historyCount)
    (hserved : (f.serve (s.requests source format) s.factory).refusal = none) :
    s.shader.historyCount + 1 ≤ 2 ^ 64 ∧
      (s.shader.historyCount + 1 = 2 ^ 64 ↔ s.shader.AsksForLast) ∧
      ∃ plan s', s.beginFrame f source format = (.ok plan, s') ∧
        (¬ s.shader.AsksForLast → s'.history.length = s.shader.historyCount + 1) ∧
        (s.shader.AsksForLast → s'.history = []) := by
  obtain ⟨hle, hlast⟩ := hshader.historyCount_add_one
  obtain ⟨plan, s', hframe⟩ := exists_beginFrame_ok hserved
  have hlength := length_history_beginFrame_ok hframe
  refine ⟨hle, hlast, plan, s', hframe, ?_, ?_⟩
  · intro hasks
    have hlt : s.shader.historyCount + 1 < 2 ^ 64 := hle.lt_of_ne fun heq => hasks (hlast.1 heq)
    rw [hlength, ringLength_eq hhistory hlt, if_neg hcount.ne']
  · intro hasks
    rw [ringLength_of_historyCount_eq (hlast.2 hasks)] at hlength
    exact List.eq_nil_of_length_eq_zero hlength

/-- A pass that samples the input of the frame before has a ring of two. -/
theorem length_history_readsInput :
    ∃ plan s',
      (start (.readsInput "OriginalHistory1" 1) .standard .full ⟨8, 8⟩ :
          Scheduler TextureStock Nat).beginFrame .numbered ⟨4, 4⟩ .native = (.ok plan, s') ∧
        s'.history.length = 2 := by
  have hcompiled : (CompiledShader.readsInput "OriginalHistory1" 1).IsCompiled :=
    ⟨Unit, .reflecting (.sampling "OriginalHistory1"), .standard, .onePass, "input.slangp",
      by decide +kernel⟩
  obtain ⟨-, hlast, plan, s', hframe, hlength, -⟩ :=
    length_history_of_isCompiled .numbered
      (start (.readsInput "OriginalHistory1" 1) .standard .full ⟨8, 8⟩ : Scheduler TextureStock Nat)
      ⟨4, 4⟩ .native hcompiled rfl (by decide) rfl
  refine ⟨plan, s', hframe, hlength fun hasks => ?_⟩
  exact absurd (hlast.2 hasks) (by decide)

/-- A pass that samples the last input that has a number compiles, and it has no ring. -/
theorem history_eq_nil_readsInput :
    (CompiledShader.readsInput "OriginalHistory18446744073709551615" (2 ^ 64 - 1)).IsCompiled ∧
      ∃ plan s',
        (start (.readsInput "OriginalHistory18446744073709551615" (2 ^ 64 - 1)) .standard .full
            ⟨8, 8⟩ : Scheduler TextureStock Nat).beginFrame .numbered ⟨4, 4⟩ .native =
          (.ok plan, s') ∧
        s'.options.history = true ∧ 0 < s'.shader.historyCount ∧ s'.history = [] := by
  refine ⟨⟨Unit, .reflecting (.sampling "OriginalHistory18446744073709551615"), .standard,
    .onePass, "input.slangp", by decide +kernel⟩, _, _, rfl, ?_, ?_, ?_⟩
  · decide
  · decide
  · decide

end Scheduler

end ShaderChain
