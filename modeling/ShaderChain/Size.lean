/-!
# Sizes

A size has a width and a height. An `Extent` counts pixels.
-/

namespace ShaderChain

structure Size (α : Type) where
  width : α
  height : α
  deriving DecidableEq, Repr

abbrev Extent := Size UInt32

end ShaderChain
