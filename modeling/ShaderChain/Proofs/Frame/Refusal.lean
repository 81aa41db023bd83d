import Mathlib.Logic.Basic
import ShaderChain.Frame.Numbered
import ShaderChain.Frame.Run
import ShaderChain.Proofs.Frame.Step

/-!
# Refused frames

A refused frame leaves the ring of earlier inputs and the frame count as they were. The
pairs that changed places change back, but a texture that was created before the refusal
stays where it was put. So the pair of a pass that is read a frame late is the same as
before exactly if no texture was created for the pass: if the pass asks for none, or if
the refusal comes before any of its requests is met.
-/

namespace ShaderChain

variable {σ τ ε : Type}

theorem length_flatten_take_add_le {α : Type} {xss : List (List α)} {i : Nat} {xs : List α}
    (h : xss[i]? = some xs) : (xss.take i).flatten.length + xs.length ≤ xss.flatten.length := by
  obtain ⟨hlt, rfl⟩ := List.getElem?_eq_some_iff.1 h
  have hlength : xss.flatten.length =
      (xss.take i).flatten.length + (xss[i].length + (xss.drop (i + 1)).flatten.length) := by
    calc
      xss.flatten.length = (xss.take i ++ xss.drop i).flatten.length := by
        rw [List.take_append_drop]
      _ = (xss.take i).flatten.length + (xss[i] :: xss.drop (i + 1)).flatten.length := by
        rw [List.flatten_append, List.length_append, List.drop_eq_getElem_cons hlt]
      _ = _ := by rw [List.flatten_cons, List.length_append]
  omega

/-- Three passes, the second of which samples the output of the first a frame late. -/
def CompiledShader.lateFirst : CompiledShader where
  passes :=
    [{ CompiledPass.plain 0 with isFeedback := true },
      { CompiledPass.plain 1 with
        textures := [⟨.passFeedback, 0, 0, .border, .unspecified, "PassFeedback0"⟩] },
      .plain 2]
  parameters := []
  parameterGroups := []
  luts := []
  historyCount := 0

namespace Scheduler

variable {f : Factory σ τ ε} {s s' : Scheduler σ τ} {source : Extent} {format : PixelFormat}
  {pass : CompiledPass} {i : Nat} {e : ε}

/-- Whether the next frame gets a texture for pass `i`: the pass asks for one, and more
requests are met than the passes before it make. -/
def CreatesFor (f : Factory σ τ ε) (s : Scheduler σ τ) (source : Extent) (format : PixelFormat)
    (i : Nat) : Prop :=
  (s.passRequests source format)[i]?.getD [] ≠ [] ∧
    ((s.passRequests source format).take i).flatten.length <
      (f.serve (s.requests source format) s.factory).textures.length

/-- The ring's requests come last, so that those of the passes alone decide. -/
theorem createsFor_iff {own : List TargetSpec}
    (hown : (s.passRequests source format)[i]? = some own) :
    s.CreatesFor f source format i ↔
      own ≠ [] ∧ ((s.passRequests source format).take i).flatten.length <
        (f.serve (s.passRequests source format).flatten s.factory).textures.length := by
  unfold CreatesFor requests
  rw [hown, Option.getD_some]
  cases hr : (f.serve (s.passRequests source format).flatten s.factory).refusal with
  | some e => rw [Factory.serve_append_of_refusal hr]
  | none =>
      rw [Factory.serve_append_of_served hr, List.length_append,
        Factory.length_textures_of_served hr]
      have hle := length_flatten_take_add_le hown
      constructor
      · rintro ⟨hne, -⟩
        have := List.length_pos_iff.2 hne
        exact ⟨hne, by omega⟩
      · rintro ⟨hne, hlt⟩
        exact ⟨hne, by omega⟩

/-- The pair of a pass that is read a frame late survives a refused frame exactly if no
texture is created for the pass. -/
theorem pairAt_beginFrame_error_iff (h : s.beginFrame f source format = (.error e, s'))
    (hpass : s.shader.passes[i]? = some pass) (hfeedback : pass.isFeedback = true) :
    s'.pairAt i = s.pairAt i ↔ ¬ s.CreatesFor f source format i := by
  obtain ⟨plan, hplan, hplanfeedback, htarget⟩ :=
    FrameSetting.exists_plan_of_getElem? (s.setting format) source hpass
  have hstaged : s.stagedPairs[i]? = some (s.pairAt i).swap := by
    rw [getElem?_stagedPairs hpass, if_pos hfeedback]
  have hkeeps := TargetPair.getElem?_allocateAll_eq_iff f (s.needsRenewal source) s.factory
    hplan hstaged (htarget (Or.inl hfeedback)) (hplanfeedback.trans hfeedback)
  have hown : (s.passRequests source format)[i]? =
      some ((s.pairAt i).swap.requests (s.needsRenewal source) plan) := by
    unfold passRequests TargetPair.requestsOf
    rw [List.getElem?_zipWith, hstaged]
    unfold Scheduler.plan
    rw [hplan]
  rw [createsFor_iff hown]
  -- The pair is swapped back behind the refusal, so its swap is what the allocation left.
  obtain ⟨q, hq, hpair⟩ := pairAt_beginFrame_error h hpass
  rw [if_pos hfeedback] at hpair
  have hswap : s'.pairAt i = s.pairAt i ↔
      (s.allocation f source format).value[i]? = some (s.pairAt i).swap := by
    rw [hpair, hq, Option.some.injEq]
    constructor
    · intro hback
      rw [← hback, TargetPair.swap_swap]
    · intro hback
      rw [hback, TargetPair.swap_swap]
  rw [hswap]
  refine hkeeps.trans ?_
  rw [not_and_or, not_not, Nat.not_lt]
  rfl

/-- A refused frame leaves the ring of earlier inputs and the frame count as they were,
and it leaves the two targets of a pass that is read a frame late as they were exactly if
no texture was created for the pass before the refusal. -/
theorem beginFrame_error_keeps_iff (f : Factory σ τ ε) (s : Scheduler σ τ) (source : Extent)
    (format : PixelFormat) (e : ε) (s' : Scheduler σ τ)
    (h : s.beginFrame f source format = (.error e, s')) :
    (∀ k, s'.history? k = s.history? k) ∧ s'.frameCount = s.frameCount ∧
      ∀ i pass, s.shader.passes[i]? = some pass → pass.isFeedback = true →
        (s'.output? i = s.output? i ∧ s'.feedback? i = s.feedback? i ↔
          ¬ s.CreatesFor f source format i) := by
  have hs' := beginFrame_error h
  refine ⟨?_, ?_, ?_⟩
  · intro k
    rw [hs']
    rfl
  · rw [hs']
  · intro i pass hpass hfeedback
    rw [← pairAt_eq_iff]
    exact pairAt_beginFrame_error_iff h hpass hfeedback

/-- The first texture of a frame of another size is refused, and both targets of the first
pass are those of the frame before. -/
theorem beginFrame_error_keeps_lateFirst :
    ∃ s',
      ((start .lateFirst .standard ⟨0, some 3, []⟩ ⟨8, 8⟩ : Scheduler TextureStock Nat).run
          .numbered [.frame ⟨4, 4⟩ .native]).beginFrame .numbered ⟨2, 2⟩ .native =
        (.error .outOfMemory, s') ∧
        s'.output? 0 = some ⟨0, ⟨⟨4, 4⟩, .native, false⟩⟩ ∧
        s'.feedback? 0 = some ⟨1, ⟨⟨4, 4⟩, .native, false⟩⟩ := by
  refine ⟨_, rfl, ?_⟩
  obtain ⟨-, -, hkeeps⟩ := beginFrame_error_keeps_iff .numbered
    ((start .lateFirst .standard ⟨0, some 3, []⟩ ⟨8, 8⟩ : Scheduler TextureStock Nat).run
      .numbered [.frame ⟨4, 4⟩ .native]) ⟨2, 2⟩ .native _ _ rfl
  obtain ⟨houtput, hfeedback⟩ := (hkeeps 0 _ rfl rfl).2 (by unfold CreatesFor; decide)
  exact ⟨houtput.trans (by decide), hfeedback.trans (by decide)⟩

/-- The third texture of a frame of another size is refused, behind the two that were
created for the first pass: these stay in the place of those of the frame before. -/
theorem not_beginFrame_error_keeps :
    ∃ s',
      ((start .lateFirst .standard ⟨0, some 5, []⟩ ⟨8, 8⟩ : Scheduler TextureStock Nat).run
          .numbered [.frame ⟨4, 4⟩ .native]).beginFrame .numbered ⟨2, 2⟩ .native =
        (.error .outOfMemory, s') ∧
        ¬ s'.output? 0 =
          ((start .lateFirst .standard ⟨0, some 5, []⟩ ⟨8, 8⟩ : Scheduler TextureStock Nat).run
            .numbered [.frame ⟨4, 4⟩ .native]).output? 0 ∧
        ¬ s'.feedback? 0 =
          ((start .lateFirst .standard ⟨0, some 5, []⟩ ⟨8, 8⟩ : Scheduler TextureStock Nat).run
            .numbered [.frame ⟨4, 4⟩ .native]).feedback? 0 := by
  refine ⟨_, rfl, ?_, ?_⟩
  · decide
  · decide

end Scheduler

end ShaderChain
