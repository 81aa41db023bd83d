import ShaderChain.Frame.History
import ShaderChain.Frame.Pair

/-!
# Scheduling frames

A scheduler holds a compiled shader and the targets it needs, and plans one frame after
the other. Targets are renewed only in a frame that differs from the last one planned:
in its viewport, its shader or its source size. A frame may fail because the factory
refuses a texture; what was created until then stays, and the pairs that changed places
change back.
-/

namespace ShaderChain

/-- A scheduler over a factory with states `σ` and textures `τ`. -/
structure Scheduler (σ τ : Type) where
  shader : CompiledShader
  options : SchedulerOptions
  factory : σ
  viewport : Extent
  /-- The source size of the last frame planned. -/
  sourceSize : Option Extent
  pairs : List (TargetPair τ)
  history : List (Target τ)
  frameCount : UInt64
  /-- Whether the viewport or the shader is new since the last frame planned. -/
  isDirty : Bool
  /-- Whether the history is to be cleared in the next frame. -/
  clearsHistory : Bool
  deriving DecidableEq, Repr

variable {σ τ ε : Type}

namespace Scheduler

/-- A scheduler that has not planned a frame. -/
def start (shader : CompiledShader) (options : SchedulerOptions) (factory : σ)
    (viewport : Extent) : Scheduler σ τ where
  shader := shader
  options := options
  factory := factory
  viewport := viewport
  sourceSize := none
  pairs := []
  history := []
  frameCount := 0
  isDirty := true
  clearsHistory := false

/-- The target that a pass renders to, unless it renders to the output. -/
def output? (s : Scheduler σ τ) (pass : Nat) : Option (Target τ) :=
  (s.pairs[pass]?).bind (·.output)

/-- The output of a pass in the frame before. -/
def feedback? (s : Scheduler σ τ) (pass : Nat) : Option (Target τ) :=
  (s.pairs[pass]?).bind (·.feedback)

/-- The input of some frames ago; at 0 it is the one for the current input. -/
def history? (s : Scheduler σ τ) (frames : Nat) : Option (Target τ) := s.history[frames]?

/-- The target that a pass reads a texture from. The chain's input and the lookup
textures are not the scheduler's. -/
def input? (s : Scheduler σ τ) (pass : Nat) (r : TextureRef) : Option (Target τ) :=
  match r.semantic with
  | .source => if pass = 0 then none else s.output? (pass - 1)
  | .passOutput => s.output? r.index
  | .passFeedback => s.feedback? r.index
  | .inputHistory => s.history? r.index
  | .chainInput => none
  | .user => none

def resize (s : Scheduler σ τ) (viewport : Extent) : Scheduler σ τ :=
  if s.viewport = viewport then s else { s with viewport := viewport, isDirty := true }

/-- Change the shader. Frames are counted on. -/
def reload (s : Scheduler σ τ) (shader : CompiledShader) : Scheduler σ τ :=
  { s with shader := shader, isDirty := true }

def clearHistory (s : Scheduler σ τ) : Scheduler σ τ := { s with clearsHistory := true }

/-- Swap the pairs of the passes that are read a frame late. -/
def swapLate (s : Scheduler σ τ) : Scheduler σ τ :=
  { s with pairs := TargetPair.swapLate s.shader.passes s.pairs }

/-- What the passes of the next frame have in common. -/
def setting (s : Scheduler σ τ) (format : PixelFormat) : FrameSetting :=
  ⟨s.options, s.viewport, format, s.frameCount⟩

def plan (s : Scheduler σ τ) (source : Extent) (format : PixelFormat) : List PassPlan :=
  (s.setting format).plan source s.shader.passes

/-- Whether a frame with the given source differs from the last one planned. -/
def needsRenewal (s : Scheduler σ τ) (source : Extent) : Bool :=
  s.isDirty || s.sourceSize ≠ some source

/-- The length of the history ring: one more than the history count, in 64-bit
arithmetic, or nothing if no inputs are kept. -/
def ringLength (s : Scheduler σ τ) : Nat :=
  if s.options.history && 0 < s.shader.historyCount then
    (UInt64.ofNat s.shader.historyCount + 1).toNat
  else 0

def allocate (f : Factory σ τ ε) (s : Scheduler σ τ) (renew : Bool) (plans : List PassPlan) :
    Except ε Bool × Scheduler σ τ :=
  let a :=
    TargetPair.allocateAll f renew plans (TargetPair.fit s.shader.passes.length s.pairs) s.factory
  (a.result, { s with pairs := a.value, factory := a.factory })

def stageHistory (f : Factory σ τ ε) (s : Scheduler σ τ) (source : Extent) :
    Except ε (HistoryUpdate τ) × Scheduler σ τ :=
  let (r, factory) :=
    HistoryUpdate.stage f s.history s.ringLength source s.clearsHistory s.factory
  (r, { s with factory := factory })

/-- The scheduler behind a planned frame. -/
def advance (s : Scheduler σ τ) (source : Extent) (u : HistoryUpdate τ) : Scheduler σ τ :=
  { s with
    sourceSize := some source
    history := u.apply s.history
    frameCount := s.frameCount + 1
    isDirty := false
    clearsHistory := false }

def beginFrame (f : Factory σ τ ε) (s : Scheduler σ τ) (source : Extent) (format : PixelFormat) :
    Except ε FramePlan × Scheduler σ τ :=
  let renew := s.needsRenewal source
  let swapped := s.swapLate
  let plans := swapped.plan source format
  match swapped.allocate f renew plans with
  | (.error e, allocated) => (.error e, allocated.swapLate)
  | (.ok resized, allocated) =>
      match allocated.stageHistory f source with
      | (.error e, staged) => (.error e, staged.swapLate)
      | (.ok update, staged) =>
          (.ok ⟨s.frameCount, update.isReset, resized, plans⟩, staged.advance source update)

end Scheduler

end ShaderChain
