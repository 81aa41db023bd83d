import ShaderChain.Frame.Scheduler

/-!
# Runs

A run is a list of calls to a scheduler. Only a frame has a reply: its plan, or the
refusal of the factory.
-/

namespace ShaderChain

inductive Call where
  | frame (source : Extent) (format : PixelFormat)
  | resize (viewport : Extent)
  | reload (shader : CompiledShader)
  | clearHistory
  deriving DecidableEq, Repr

variable {σ τ ε : Type}

namespace Scheduler

def call (f : Factory σ τ ε) (s : Scheduler σ τ) :
    Call → Option (Except ε FramePlan) × Scheduler σ τ
  | .frame source format =>
      let (r, s) := s.beginFrame f source format
      (some r, s)
  | .resize viewport => (none, s.resize viewport)
  | .reload shader => (none, s.reload shader)
  | .clearHistory => (none, s.clearHistory)

def run (f : Factory σ τ ε) (s : Scheduler σ τ) (calls : List Call) : Scheduler σ τ :=
  calls.foldl (fun s c => (s.call f c).2) s

@[simp] theorem run_nil (f : Factory σ τ ε) (s : Scheduler σ τ) : s.run f [] = s := rfl

theorem run_cons (f : Factory σ τ ε) (s : Scheduler σ τ) (c : Call) (cs : List Call) :
    s.run f (c :: cs) = (s.call f c).2.run f cs := rfl

theorem run_append (f : Factory σ τ ε) (s : Scheduler σ τ) (cs ds : List Call) :
    s.run f (cs ++ ds) = (s.run f cs).run f ds := by
  simp [run]

end Scheduler

end ShaderChain
