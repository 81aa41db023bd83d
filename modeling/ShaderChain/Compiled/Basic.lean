import ShaderChain.Binding.Layout
import ShaderChain.Graph.Basic

/-!
# Compiled shaders

A compiled shader is all that a renderer needs of a preset: the text of every stage,
the place of every uniform and texture, and the parameters of the chain.
-/

namespace ShaderChain

structure CompiledPass where
  index : Nat
  name : String
  vertexSource : String
  fragmentSource : String
  scale : Scale
  format : PixelFormat
  wrapMode : WrapMode
  filter : FilterMode
  frameCountMod : UInt32
  mipmapInput : Bool
  isFeedback : Bool
  uniformBuffer : BufferLayout
  pushConstant : BufferLayout
  textures : List TextureSlot
  sourceHash : UInt64
  deriving DecidableEq, Repr

namespace CompiledPass

/-- The frame count as the pass sees it: wrapped at its modulus, if it has one, and
otherwise at the end of the words. -/
def frameCount (p : CompiledPass) (n : UInt64) : UInt32 :=
  if 0 < p.frameCountMod then (n % p.frameCountMod.toUInt64).toUInt32 else n.toUInt32

def buffers (p : CompiledPass) : List BufferLayout := [p.uniformBuffer, p.pushConstant]

end CompiledPass

/-- A compiled shader. The history count is the highest number of an earlier input
that a pass asks for. -/
structure CompiledShader where
  passes : List CompiledPass
  parameters : List Parameter
  parameterGroups : List ParameterGroup
  luts : List Lut
  historyCount : Nat
  deriving DecidableEq, Repr

namespace CompiledShader

/-- Whether any pass is read a frame late. -/
def usesFeedback (s : CompiledShader) : Bool := s.passes.any (·.isFeedback)

end CompiledShader

end ShaderChain
