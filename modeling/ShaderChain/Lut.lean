import ShaderChain.FilePath
import ShaderChain.Sampling

/-!
# Lookup textures
-/

namespace ShaderChain

/-- A lookup texture, read from a file. -/
structure Lut where
  name : String
  path : FilePath
  wrapMode : WrapMode
  filter : FilterMode
  mipmap : Bool
  deriving DecidableEq, Repr

end ShaderChain
