import ShaderChain.Binding.Semantic
import ShaderChain.Binding.StageMask
import ShaderChain.Sampling

/-!
# Layouts

Where a renderer writes the uniforms of a pass and where it binds its textures. Both
stages share one layout of each kind of buffer; a layout that neither stage declares
is empty.
-/

namespace ShaderChain

inductive BufferKind where
  | uniformBuffer
  | pushConstant
  deriving DecidableEq, Repr

namespace BufferKind

instance : Named BufferKind where
  all := [uniformBuffer, pushConstant]
  name
    | uniformBuffer => "uniformBuffer"
    | pushConstant => "pushConstant"
  find_name k := by cases k <;> rfl

end BufferKind

/-- Where a uniform is written. -/
structure UniformSlot where
  role : UniformRole
  offset : UInt64
  size : UInt64
  name : String
  deriving DecidableEq, Repr

structure BufferLayout where
  kind : BufferKind
  vertexBinding : Option UInt32
  fragmentBinding : Option UInt32
  stages : StageMask
  size : UInt64
  slots : List UniformSlot
  deriving DecidableEq, Repr

namespace BufferLayout

/-- The layout of a buffer that no stage declares. -/
def empty (kind : BufferKind) : BufferLayout := ⟨kind, none, none, .empty, 0, []⟩

def isDeclared (l : BufferLayout) : Bool := l.stages ≠ .empty

/-- Where a role is written, if it is. -/
def offset? (l : BufferLayout) (role : UniformRole) : Option UInt64 :=
  (l.slots.find? (·.role = role)).map (·.offset)

end BufferLayout

/-- Where a texture is bound, and how it is read. -/
structure TextureSlot where
  semantic : TextureSemantic
  index : Nat
  binding : UInt32
  wrapMode : WrapMode
  filter : FilterMode
  name : String
  deriving DecidableEq, Repr

def TextureSlot.reference (s : TextureSlot) : TextureRef := ⟨s.semantic, s.index⟩

structure PassBindings where
  uniformBuffer : BufferLayout
  pushConstant : BufferLayout
  textures : List TextureSlot
  deriving DecidableEq, Repr

end ShaderChain
