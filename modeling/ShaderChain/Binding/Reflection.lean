import ShaderChain.Named

/-!
# Reflections

What a compiled stage says about itself: its inputs and outputs by location, and its
resources with their sets, bindings, sizes and members.
-/

namespace ShaderChain

inductive ScalarKind where
  | float
  | int
  | uint
  | other
  deriving DecidableEq, Repr

namespace ScalarKind

instance : Named ScalarKind where
  all := [float, int, uint, other]
  name
    | float => "float"
    | int => "int"
    | uint => "uint"
    | other => "other"
  find_name k := by cases k <;> rfl

end ScalarKind

/-- The numeric shape of a member: columns of vectors of numbers. -/
structure MemberType where
  scalar : ScalarKind
  vecSize : UInt32
  columns : UInt32
  deriving DecidableEq, Repr

namespace MemberType

/-- The bytes of a member, four for each number. -/
def byteSize (t : MemberType) : UInt64 := 4 * t.vecSize.toUInt64 * t.columns.toUInt64

def float : MemberType := ⟨.float, 1, 1⟩
def int : MemberType := ⟨.int, 1, 1⟩
def uint : MemberType := ⟨.uint, 1, 1⟩
def vec4 : MemberType := ⟨.float, 4, 1⟩
def mat4 : MemberType := ⟨.float, 4, 4⟩

end MemberType

/-- A member of a buffer, by its offset in bytes. -/
structure BufferMember where
  name : String
  offset : UInt64
  type : MemberType
  deriving DecidableEq, Repr

inductive ResourceKind where
  | uniformBuffer
  | pushConstant
  | sampledImage
  | storageBuffer
  | storageImage
  | subpassInput
  | atomicCounter
  deriving DecidableEq, Repr

namespace ResourceKind

instance : Named ResourceKind where
  all :=
    [uniformBuffer, pushConstant, sampledImage, storageBuffer, storageImage, subpassInput,
      atomicCounter]
  name
    | uniformBuffer => "uniformBuffer"
    | pushConstant => "pushConstant"
    | sampledImage => "sampledImage"
    | storageBuffer => "storageBuffer"
    | storageImage => "storageImage"
    | subpassInput => "subpassInput"
    | atomicCounter => "atomicCounter"
  find_name k := by cases k <;> rfl

def isAllowed : ResourceKind → Bool
  | uniformBuffer | pushConstant | sampledImage => true
  | storageBuffer | storageImage | subpassInput | atomicCounter => false

def word : ResourceKind → String
  | uniformBuffer => "UniformBuffer"
  | pushConstant => "PushConstant"
  | sampledImage => "SampledImage"
  | storageBuffer => "StorageBuffer"
  | storageImage => "StorageImage"
  | subpassInput => "SubpassInput"
  | atomicCounter => "AtomicCounter"

end ResourceKind

/-- A resource of a stage. A resource that is not used has no binding. -/
structure Resource where
  name : String
  kind : ResourceKind
  set : UInt32
  binding : Option UInt32
  size : UInt64
  members : List BufferMember
  deriving DecidableEq, Repr

structure StageVariable where
  name : String
  location : UInt32
  deriving DecidableEq, Repr

/-- What a compiled stage says about itself. -/
structure StageReflection where
  inputs : List StageVariable
  outputs : List StageVariable
  resources : List Resource
  deriving DecidableEq, Repr

namespace StageReflection

def resourcesOf (r : StageReflection) (kind : ResourceKind) : List Resource :=
  r.resources.filter (·.kind = kind)

end StageReflection

end ShaderChain
