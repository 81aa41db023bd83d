import Mathlib.Algebra.Group.Nat.Defs
import Mathlib.Data.List.Forall2
import ShaderChain.Frame.Numbered
import ShaderChain.Proofs.Frame.Run

/-!
# Counting planned frames

A frame is planned with the number of frames planned before it, in 64-bit arithmetic, and each
pass sees this number wrapped at its modulus or, without one, at the end of a word. No other call
counts: not a frame that is refused, whose plan was made before the refusal, nor a change of the
viewport or the shader, and the count is never set back. `Scheduler.plannedFrames` lists the frames
that are planned in a run, with the shader that is loaded when they are.
-/

namespace ShaderChain

variable {σ τ ε : Type}

namespace CompiledPass

/-- What a pass sees of a frame's number. -/
theorem toNat_frameCount (p : CompiledPass) (n : UInt64) :
    (p.frameCount n).toNat =
      if p.frameCountMod = 0 then n.toNat % 2 ^ 32 else n.toNat % p.frameCountMod.toNat := by
  unfold frameCount
  by_cases hmod : p.frameCountMod = 0
  · rw [if_neg (by simp [hmod]), if_pos hmod, UInt64.toNat_toUInt32]
  · have hpos : 0 < p.frameCountMod := UInt32.pos_iff_ne_zero.2 hmod
    have hlt : n.toNat % p.frameCountMod.toNat < 2 ^ 32 :=
      Nat.lt_trans (Nat.mod_lt _ hpos) p.frameCountMod.toNat_lt
    rw [if_pos hpos, if_neg hmod, UInt64.toNat_toUInt32, UInt64.toNat_mod, UInt32.toNat_toUInt64,
      Nat.mod_eq_of_lt hlt]

theorem frameCount_lt {p : CompiledPass} (h : p.frameCountMod ≠ 0) (n : UInt64) :
    p.frameCount n < p.frameCountMod := by
  rw [UInt32.lt_iff_toNat_lt, toNat_frameCount, if_neg h]
  exact Nat.mod_lt _ (UInt32.pos_iff_ne_zero.2 h)

end CompiledPass

/-- Whether a pass is planned with what it sees of frame `k`, where the first frame is number
zero. -/
structure PassPlan.CountsAt (k : Nat) (pass : CompiledPass) (p : PassPlan) : Prop where
  toNat_eq_mod : pass.frameCountMod ≠ 0 →
    p.frameCount.toNat = k % 2 ^ 64 % pass.frameCountMod.toNat
  lt_mod : pass.frameCountMod ≠ 0 → p.frameCount < pass.frameCountMod
  toNat_eq : pass.frameCountMod = 0 → p.frameCount.toNat = k % 2 ^ 32

/-- Every pass is planned with what it sees of the frame's number. -/
theorem FrameSetting.countsAt_planFrom {f : FrameSetting} {k : Nat}
    (h : f.frameCount.toNat = k % 2 ^ 64) (index : Nat) (source : Extent)
    (passes : List CompiledPass) :
    List.Forall₂ (PassPlan.CountsAt k) passes (f.planFrom index source passes) := by
  induction passes generalizing index source with
  | nil => exact .nil
  | cons pass rest ih =>
      refine .cons ⟨?_, ?_, ?_⟩ (ih _ _)
      · intro hmod
        show (pass.frameCount f.frameCount).toNat = _
        rw [CompiledPass.toNat_frameCount, if_neg hmod, h]
      · exact fun hmod => CompiledPass.frameCount_lt hmod f.frameCount
      · intro hmod
        show (pass.frameCount f.frameCount).toNat = _
        rw [CompiledPass.toNat_frameCount, if_pos hmod, h]
        exact Nat.mod_mod_of_dvd k (by decide)

/-- A frame that was planned, with the shader that was loaded. -/
structure PlannedFrame where
  shader : CompiledShader
  plan : FramePlan
  deriving DecidableEq, Repr

namespace Scheduler

/-- The frame that a call plans, if it plans one. -/
def plannedFrame? (f : Factory σ τ ε) (s : Scheduler σ τ) (c : Call) : Option PlannedFrame :=
  match (s.call f c).1 with
  | some (.ok plan) => some ⟨s.shader, plan⟩
  | _ => none

/-- The frames that are planned in a run, in order. -/
def plannedFrames (f : Factory σ τ ε) (s : Scheduler σ τ) : List Call → List PlannedFrame
  | [] => []
  | c :: calls => (s.plannedFrame? f c).toList ++ (s.call f c).2.plannedFrames f calls

variable {f : Factory σ τ ε} {s : Scheduler σ τ} {c : Call} {calls : List Call} {k : Nat}
  {frame : PlannedFrame}

theorem exists_beginFrame_of_plannedFrame? (h : s.plannedFrame? f c = some frame) :
    ∃ source format, c = .frame source format ∧ frame.shader = s.shader ∧
      (s.beginFrame f source format).1 = .ok frame.plan := by
  unfold plannedFrame? at h
  split at h
  · next plan hreply =>
      cases h
      cases c with
      | frame source format => exact ⟨source, format, rfl, rfl, Option.some.inj hreply⟩
      | resize viewport => cases hreply
      | reload shader => cases hreply
      | clearHistory => cases hreply
  · cases h

/-- A call counts one frame if it plans one. -/
theorem frameCount_call (f : Factory σ τ ε) (s : Scheduler σ τ) (c : Call) :
    (s.call f c).2.frameCount =
      s.frameCount + UInt64.ofNat (s.plannedFrame? f c).toList.length := by
  cases c with
  | frame source format =>
      rcases hframe : s.beginFrame f source format with ⟨e | plan, s'⟩
      · have hcount : s'.frameCount = s.frameCount := by rw [beginFrame_error hframe]
        simp [plannedFrame?, call, hframe, hcount]
      · obtain ⟨u, factory, -, -, -, hs'⟩ := beginFrame_ok hframe
        simp [plannedFrame?, call, hframe, hs']
  | resize viewport =>
      simp [plannedFrame?, call, resize_eq]
  | reload shader => simp [plannedFrame?, call, reload]
  | clearHistory => simp [plannedFrame?, call, clearHistory]

/-- A run counts the frames that are planned in it. -/
theorem frameCount_run (f : Factory σ τ ε) (s : Scheduler σ τ) (calls : List Call) :
    (s.run f calls).frameCount =
      s.frameCount + UInt64.ofNat (s.plannedFrames f calls).length := by
  induction calls generalizing s with
  | nil => simp [plannedFrames]
  | cons c calls ih =>
      rw [run_cons, ih, frameCount_call, plannedFrames, List.length_append, UInt64.ofNat_add,
        UInt64.add_assoc]

/-- A frame that is planned in a run is one of its calls, behind those that plan the frames
before it. -/
theorem exists_beginFrame_of_getElem?_plannedFrames
    (h : (s.plannedFrames f calls)[k]? = some frame) :
    ∃ before source format after, calls = before ++ .frame source format :: after ∧
      (s.plannedFrames f before).length = k ∧ frame.shader = (s.run f before).shader ∧
      ((s.run f before).beginFrame f source format).1 = .ok frame.plan := by
  induction calls generalizing s k with
  | nil => cases h
  | cons c calls ih =>
      rw [plannedFrames] at h
      by_cases hk : k < (s.plannedFrame? f c).toList.length
      · rw [List.getElem?_append_left hk] at h
        have hframe := Option.mem_toList.1 (List.mem_of_getElem? h)
        obtain ⟨source, format, rfl, hshader, hplan⟩ := exists_beginFrame_of_plannedFrame? hframe
        have hzero : k = 0 := by
          have := Option.length_toList_le (o := s.plannedFrame? f (.frame source format))
          omega
        exact ⟨[], source, format, calls, rfl, hzero.symm, hshader, hplan⟩
      · rw [Nat.not_lt] at hk
        rw [List.getElem?_append_right hk] at h
        obtain ⟨before, source, format, after, rfl, hlength, hshader, hplan⟩ := ih h
        refine ⟨c :: before, source, format, after, rfl, ?_, hshader, hplan⟩
        rw [plannedFrames, List.length_append, hlength]
        omega

/-- In every run, whatever the factory refuses and whatever is called in between, the frames that
are planned are numbered from zero on, in 64-bit arithmetic, and each pass of the shader that is
loaded counts its frame. The count behind the run is how many were planned. -/
theorem countsAt_of_run (f : Factory σ τ ε) (shader : CompiledShader)
    (options : SchedulerOptions) (factory : σ) (viewport : Extent) (calls : List Call) :
    ((start shader options factory viewport).run f calls).frameCount.toNat =
        ((start shader options factory viewport).plannedFrames f calls).length % 2 ^ 64 ∧
      ∀ (k : Nat) (frame : PlannedFrame),
        ((start shader options factory viewport).plannedFrames f calls)[k]? = some frame →
          frame.plan.frameCount.toNat = k % 2 ^ 64 ∧
            List.Forall₂ (PassPlan.CountsAt k) frame.shader.passes frame.plan.passes := by
  have hcount (before : List Call) :
      ((start shader options factory viewport).run f before).frameCount.toNat =
        ((start shader options factory viewport).plannedFrames f before).length % 2 ^ 64 := by
    simp [frameCount_run, start]
  refine ⟨hcount calls, fun k frame hframe => ?_⟩
  obtain ⟨before, source, format, after, -, rfl, hshader, hplan⟩ :=
    exists_beginFrame_of_getElem?_plannedFrames hframe
  obtain ⟨u, _, -, -, heq, -⟩ := beginFrame_ok (Prod.ext hplan rfl)
  rw [heq, hshader]
  exact ⟨hcount before, FrameSetting.countsAt_planFrom (hcount before) 0 source _⟩

/-- The frame in the middle asks for a texture of its new size and is refused. -/
example :
    ((start (.plain 2) ⟨false, 8, true⟩ ⟨0, some 1, []⟩ ⟨4, 4⟩).plannedFrames .numbered
        [.frame ⟨4, 4⟩ .native, .resize ⟨8, 8⟩, .frame ⟨8, 8⟩ .native, .reload (.plain 3),
          .frame ⟨8, 8⟩ .native]).map (fun frame =>
      (frame.plan.frameCount, frame.plan.passes.map (·.frameCount))) =
      [(0, [0, 0]), (1, [1, 1, 1])] := by
  decide

end Scheduler

end ShaderChain
