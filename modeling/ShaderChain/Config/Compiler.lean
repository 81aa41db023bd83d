/-!
# Compiler configuration
-/

namespace ShaderChain

/-- How presets are compiled. Whether passes are compiled side by side, and how large
the stacks for it are, changes no result. -/
structure CompilerConfig where
  parallel : Bool
  threadStackSize : UInt64
  /-- Texture bindings lie below this number. -/
  maxBindings : UInt32
  deriving DecidableEq, Repr

namespace CompilerConfig

def standard : CompilerConfig := ⟨true, 10485760, 16⟩

end CompilerConfig

end ShaderChain
