import ShaderChain.Binding.Binder
import ShaderChain.Graph.Assembly
import ShaderChain.Preset.Build

/-!
# Compile errors

Each error names the step that failed and holds the cause. An error of one pass names
the pass.
-/

namespace ShaderChain

/-- Why a preset cannot be compiled, or a document cannot be read. -/
inductive CompileError where
  | unreadablePreset (path : String) (cause : LoadError)
  | preset (cause : Preset.BuildError)
  | source (pass : Nat) (cause : Source.Error)
  | graph (cause : Graph.AssemblyError)
  | backend (pass : Nat) (stage : Stage) (cause : String)
  | binding (pass : Nat) (cause : BindError)
  | document
  deriving DecidableEq, Repr

namespace CompileError

def message : CompileError → String
  | unreadablePreset path _ => "unable to read preset " ++ path
  | preset _ => "preset configuration error"
  | source pass _ => "shader source error in pass " ++ toString pass
  | graph _ => "shader graph error"
  | backend pass stage _ =>
      Named.name stage ++ " shader backend failed in pass " ++ toString pass
  | binding pass _ => "reflection error in pass " ++ toString pass
  | document => "invalid compiled shader document"

/-- The pass that an error belongs to, if it belongs to one. -/
def pass? : CompileError → Option Nat
  | source pass _ => some pass
  | backend pass _ _ => some pass
  | binding pass _ => some pass
  | _ => none

end CompileError

end ShaderChain
