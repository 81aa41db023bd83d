import ShaderChain.Named

/-!
# Sampling

How a texture is read outside of its borders and between its pixels, and the
words that presets use for it.
-/

namespace ShaderChain

/-- How a texture is read outside of its borders. -/
inductive WrapMode where
  | border
  | edge
  | repeated
  | mirroredRepeat
  deriving DecidableEq, Repr

namespace WrapMode

instance : Named WrapMode where
  all := [border, edge, repeated, mirroredRepeat]
  name
    | border => "border"
    | edge => "edge"
    | repeated => "repeat"
    | mirroredRepeat => "mirroredRepeat"
  find_name a := by cases a <;> rfl

/-- The wrap mode that a preset's word asks for. -/
def ofWord? (word : String) : Option WrapMode :=
  if word = "clamp_to_border" then some border
  else if word = "clamp_to_edge" then some edge
  else if word = "repeat" then some repeated
  else if word = "mirrored_repeat" then some mirroredRepeat
  else none

end WrapMode

/-- How a texture is read between its pixels. An unspecified filter leaves the
choice to the renderer. -/
inductive FilterMode where
  | unspecified
  | linear
  | nearest
  deriving DecidableEq, Repr

namespace FilterMode

instance : Named FilterMode where
  all := [unspecified, linear, nearest]
  name
    | unspecified => "unspecified"
    | linear => "linear"
    | nearest => "nearest"
  find_name a := by cases a <;> rfl

/-- The filter for an optional wish for linear reading. -/
def ofLinear : Option Bool → FilterMode
  | none => unspecified
  | some true => linear
  | some false => nearest

end FilterMode

end ShaderChain
