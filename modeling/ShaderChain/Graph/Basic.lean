import ShaderChain.Preset.Model
import ShaderChain.Source.Annotation

/-!
# Shader graphs

A graph joins a preset with the annotations of its sources: each pass has one name
and one format, parameters have one identity across all passes, and every parameter
belongs to one group.
-/

namespace ShaderChain

structure Parameter where
  index : Nat
  name : String
  description : String
  initial : Single
  minimum : Single
  maximum : Single
  step : Single
  group : String
  deriving DecidableEq, Repr

structure ParameterGroup where
  key : String
  label : String
  parameters : List String
  deriving DecidableEq, Repr

namespace Graph

/-- A pass as its preset and its source declare it. The preset's name for the pass
comes before the source's, and a pass without either has the empty name. -/
structure Pass where
  preset : Preset.Pass
  source : Source.Annotation
  name : String
  format : PixelFormat
  deriving DecidableEq, Repr

end Graph

/-- A preset joined with its sources. -/
structure Graph where
  passes : List Graph.Pass
  luts : List Lut
  parameters : List Parameter
  groups : List ParameterGroup
  deriving DecidableEq, Repr

namespace Graph

def parameter? (g : Graph) (name : String) : Option Parameter :=
  g.parameters.find? (·.name == name)

end Graph

end ShaderChain
