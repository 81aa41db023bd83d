import ShaderChain.Compiled.Basic
import ShaderChain.Config.Scheduler
import ShaderChain.Frame.Sizing
import ShaderChain.Frame.Target

/-!
# Planning a frame

A plan says for each pass how large its target is, where it renders to, and what its
frame count is. The size of a pass is the source size of the next. The last pass
renders straight to the output if nothing stands between them: it is not scaled, its
result is not read a frame late, and its format and size are the output's.
-/

namespace ShaderChain

/-- Where a pass renders to. -/
inductive PassTarget where
  | intermediate
  | output
  deriving DecidableEq, Repr

structure PassPlan where
  index : Nat
  size : Extent
  format : PixelFormat
  frameCount : UInt32
  target : PassTarget
  mipmapped : Bool
  /-- Whether the result is read a frame late. -/
  isFeedback : Bool
  deriving DecidableEq, Repr

namespace PassPlan

/-- What the pass's own targets are created for. -/
def spec (p : PassPlan) : TargetSpec := ⟨p.size, p.format, p.mipmapped⟩

end PassPlan

/-- What a renderer does for one frame. -/
structure FramePlan where
  frameCount : UInt64
  /-- Whether all earlier inputs must be cleared before they are read. -/
  historyReset : Bool
  /-- Whether a target was created for a pass. -/
  resized : Bool
  passes : List PassPlan
  deriving DecidableEq, Repr

/-- What all passes of a frame have in common. -/
structure FrameSetting where
  options : SchedulerOptions
  viewport : Extent
  outputFormat : PixelFormat
  frameCount : UInt64
  deriving DecidableEq, Repr

namespace FrameSetting

/-- Whether a pass of the given size renders straight to the output. -/
def isDirect (f : FrameSetting) (p : CompiledPass) (isLast : Bool) (size : Extent) : Bool :=
  isLast && !p.scale.isScaled && !p.isFeedback && p.format = f.outputFormat && size = f.viewport

/-- The plan of pass `index`, which is followed by the passes `rest`. -/
def planPass (f : FrameSetting) (index : Nat) (source : Extent) (p : CompiledPass)
    (rest : List CompiledPass) : PassPlan :=
  let size := p.scale.targetSize source f.viewport rest.isEmpty f.options.maxTextureDimension
  { index, size
    format := p.format
    frameCount := p.frameCount f.frameCount
    target := if f.isDirect p rest.isEmpty size then .output else .intermediate
    mipmapped := !f.options.forceNoMipmaps && rest.head?.any (·.mipmapInput)
    isFeedback := p.isFeedback }

/-- The plans of the passes from number `index` on. -/
def planFrom (f : FrameSetting) : Nat → Extent → List CompiledPass → List PassPlan
  | _, _, [] => []
  | index, source, p :: rest =>
      let plan := f.planPass index source p rest
      plan :: f.planFrom (index + 1) plan.size rest

def plan (f : FrameSetting) (source : Extent) (passes : List CompiledPass) : List PassPlan :=
  f.planFrom 0 source passes

@[simp] theorem length_planFrom (f : FrameSetting) (index : Nat) (source : Extent)
    (passes : List CompiledPass) : (f.planFrom index source passes).length = passes.length := by
  induction passes generalizing index source with
  | nil => rfl
  | cons p rest ih => simp [planFrom, ih]

end FrameSetting

end ShaderChain
