import ShaderChain.Named
import ShaderChain.Single.Arithmetic
import ShaderChain.Size

/-!
# Scaling rules

A pass sizes each axis of its target by a rule: a share of its source, a share of
the viewport, or a fixed number of pixels. A pass without rules is not scaled.
-/

namespace ShaderChain

/-- How one axis of a target is sized. -/
inductive ScaleType where
  | unset
  | source
  | viewport
  | absolute
  deriving DecidableEq, Repr

namespace ScaleType

instance : Named ScaleType where
  all := [unset, source, viewport, absolute]
  name
    | unset => "unset"
    | source => "source"
    | viewport => "viewport"
    | absolute => "absolute"
  find_name t := by cases t <;> rfl

/-- The rule that a preset's word asks for. -/
def ofWord? (word : String) : Option ScaleType :=
  if word = "source" then some source
  else if word = "viewport" then some viewport
  else if word = "absolute" then some absolute
  else none

end ScaleType

/-- The rules of both axes. The factors belong to the source and viewport rules,
the absolute sizes to the absolute rule. -/
structure Scale where
  x : ScaleType
  y : ScaleType
  factor : Size Single
  absolute : Extent
  deriving DecidableEq, Repr

namespace Scale

def unset : Scale := ⟨.unset, .unset, ⟨Single.zero false, Single.zero false⟩, ⟨0, 0⟩⟩

def isScaled (s : Scale) : Bool := s.x ≠ .unset || s.y ≠ .unset

end Scale

end ShaderChain
