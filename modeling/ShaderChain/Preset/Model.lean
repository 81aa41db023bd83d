import ShaderChain.Lut
import ShaderChain.Preset.Scale

/-!
# The preset model

What a preset declares, typed, before any source is read: its passes, its lookup
textures, its parameter values and its parameter groups.
-/

namespace ShaderChain.Preset

/-- A pass as the preset declares it. -/
structure Pass where
  index : Nat
  path : String
  name : Option String
  scale : Scale
  wrapMode : WrapMode
  filter : FilterMode
  frameCountMod : UInt32
  srgbFramebuffer : Bool
  floatFramebuffer : Bool
  mipmapInput : Bool
  deriving DecidableEq, Repr

/-- A value that the preset gives to a parameter. -/
structure Override where
  name : String
  value : Single
  deriving DecidableEq, Repr

/-- A group that the preset declares, with the parameters it lists. -/
structure Group where
  key : String
  description : String
  parameters : List String
  deriving DecidableEq, Repr

structure Model where
  passes : List Pass
  luts : List Lut
  overrides : List Override
  groups : List Group
  deriving DecidableEq, Repr

end ShaderChain.Preset
