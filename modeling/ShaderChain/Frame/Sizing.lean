import ShaderChain.Preset.Scale

/-!
# Sizing targets

The size of a pass's target follows from its scaling rules, the size of its source and
the viewport. A pass without rules is as large as its source, the last one as large as
the viewport. An axis that comes to nothing takes the viewport's extent, and only a
size by rules is bounded.
-/

namespace ShaderChain

/-- The extent of one axis by its rule: a share of the source or of the viewport,
rounded, or the fixed extent. -/
def ScaleType.extent (rule : ScaleType) (factor : Single) (absolute source viewport : UInt32) :
    UInt32 :=
  match rule with
  | .source | .unset => (Single.ofNat source.toNat * factor).toWord
  | .viewport => (Single.ofNat viewport.toNat * factor).toWord
  | .absolute => absolute

/-- The extent of one axis: by its rule, or the viewport's where the rule comes to
nothing, and never above the bound. -/
def ScaleType.boundedExtent (rule : ScaleType) (factor : Single)
    (absolute source viewport bound : UInt32) : UInt32 :=
  let value := rule.extent factor absolute source viewport
  min (if value = 0 then viewport else value) bound

def Scale.targetSize (s : Scale) (source viewport : Extent) (isLast : Bool) (bound : UInt32) :
    Extent :=
  if s.isScaled then
    ⟨s.x.boundedExtent s.factor.width s.absolute.width source.width viewport.width bound,
      s.y.boundedExtent s.factor.height s.absolute.height source.height viewport.height bound⟩
  else if isLast then viewport
  else source

end ShaderChain
