import ShaderChain.Binding.Layout
import ShaderChain.Binding.Reflection
import ShaderChain.Binding.SymbolTable

/-!
# Binding a pass

A binder checks what the two stages of a pass say about themselves and lays out their
buffers and textures. The stages must have the shape of a pass; every member and every
sampled image must resolve; a texture must exist by the time the pass runs, or in the
frame before; and what stands for the same role in both stages must stand at the same
place.
-/

namespace ShaderChain

/-- Why a pass cannot be bound. -/
inductive BindError where
  | unknownPass (pass count : Nat)
  | disallowedResource (stage : Stage) (kind : ResourceKind) (name : String)
  | invalidVertexInputs
  | invalidFragmentOutputs
  | vertexTexture (name : String)
  | duplicateBuffer (stage : Stage) (kind : BufferKind)
  | invalidDescriptorSet (name : String) (set : UInt32)
  | unknownUniform (name : String)
  | mismatchedShape (name : String) (role : UniformRole)
  | mismatchedOffset (name : String) (kind : BufferKind) (expected actual : UInt64)
  | nonCausalReference (name : String) (index pass : Nat)
  | bindingOutOfRange (name : String) (binding max : UInt32)
  | duplicateBinding (name : String) (binding : UInt32)
  | unknownTexture (name : String)
  | indexOutOfRange (reference : TextureRef)
  deriving DecidableEq, Repr

namespace BufferKind

/-- The kind of the resources that declare a buffer. -/
def resourceKind : BufferKind → ResourceKind
  | uniformBuffer => .uniformBuffer
  | pushConstant => .pushConstant

def word (k : BufferKind) : String := k.resourceKind.word

end BufferKind

namespace BindError

def message : BindError → String
  | unknownPass pass count =>
      "pass " ++ toString pass ++ " is not part of a graph with " ++ toString count ++ " passes"
  | disallowedResource stage kind name =>
      Named.name stage ++ " stage declares a disallowed " ++ kind.word ++ " resource `" ++ name ++
        "`"
  | invalidVertexInputs =>
      "vertex stage must declare exactly two inputs at locations 0 and 1"
  | invalidFragmentOutputs =>
      "fragment stage must declare exactly one output at location 0"
  | vertexTexture name =>
      "vertex stage samples texture `" ++ name ++ "`, textures are fragment-only"
  | duplicateBuffer stage kind =>
      Named.name stage ++ " stage declares more than one " ++ kind.word
  | invalidDescriptorSet name set =>
      "resource `" ++ name ++ "` uses descriptor set " ++ toString set.toNat ++
        ", only set 0 is allowed"
  | unknownUniform name =>
      "uniform `" ++ name ++ "` does not name a known semantic or parameter"
  | mismatchedShape name role =>
      "uniform `" ++ name ++ "` has the wrong type for " ++ role.text
  | mismatchedOffset name kind expected actual =>
      "uniform `" ++ name ++ "` is at offset " ++ toString actual.toNat ++ " in the " ++
        kind.word ++ ", but was already placed at " ++ toString expected.toNat
  | nonCausalReference name index pass =>
      "`" ++ name ++ "` refers to pass " ++ toString index ++ ", which does not precede pass " ++
        toString pass
  | bindingOutOfRange name binding max =>
      "texture `" ++ name ++ "` binding " ++ toString binding.toNat ++ " exceeds the maximum of " ++
        toString max.toNat
  | duplicateBinding name binding =>
      "texture `" ++ name ++ "` reuses binding " ++ toString binding.toNat
  | unknownTexture name =>
      "texture `" ++ name ++ "` does not name a known texture semantic"
  | indexOutOfRange reference => reference.text ++ " is out of range"

end BindError

/-- The shape that a role asks of a member. -/
def UniformRole.memberType : UniformRole → MemberType
  | global .mvp => .mat4
  | global .frameCount => .uint
  | global .frameDirection => .int
  | global .outputSize => .vec4
  | global .finalViewportSize => .vec4
  | parameter _ => .float
  | textureSize _ => .vec4

/-- A graph with the names it resolves and the number of texture bindings. -/
structure Binder where
  graph : Graph
  symbols : SymbolTable
  maxBindings : UInt32

namespace Binder

def ofGraph (graph : Graph) (maxBindings : UInt32) : Binder where
  graph := graph
  symbols := .ofGraph graph
  maxBindings := maxBindings

/-- Check that a stage declares allowed resources only. -/
def checkAllowed (stage : Stage) (r : StageReflection) : Except BindError Unit :=
  match r.resources.find? fun x => !x.kind.isAllowed with
  | some x => .error (.disallowedResource stage x.kind x.name)
  | none => .ok ()

def areVertexLocations (locations : List UInt32) : Bool :=
  locations = [0, 1] || locations = [1, 0]

def checkShape (vertex fragment : StageReflection) : Except BindError Unit := do
  checkAllowed .vertex vertex
  checkAllowed .fragment fragment
  if !areVertexLocations (vertex.inputs.map (·.location)) then throw .invalidVertexInputs
  if fragment.outputs.map (·.location) ≠ [0] then throw .invalidFragmentOutputs
  match vertex.resourcesOf .sampledImage with
  | texture :: _ => throw (.vertexTexture texture.name)
  | [] => return ()

/-- The one buffer of a kind that a stage declares, if it declares one. -/
def buffer? (stage : Stage) (r : StageReflection) (kind : BufferKind) :
    Except BindError (Option Resource) :=
  match r.resourcesOf kind.resourceKind with
  | [] => .ok none
  | [x] => if x.set = 0 then .ok (some x) else .error (.invalidDescriptorSet x.name x.set)
  | _ => .error (.duplicateBuffer stage kind)

/-- Check that a texture exists when a pass runs: the output of a pass before it, or
one of the others within the chain. -/
def checkReference (b : Binder) (pass : Nat) (name : String) (r : TextureRef) :
    Except BindError Unit :=
  match r.semantic with
  | .passOutput => if r.index < pass then .ok () else .error (.nonCausalReference name r.index pass)
  | .passFeedback =>
      if r.index < b.graph.passes.length then .ok () else .error (.indexOutOfRange r)
  | .user => if r.index < b.graph.luts.length then .ok () else .error (.indexOutOfRange r)
  | _ => .ok ()

/-- The role of a member, if it has the shape for it. -/
def role (b : Binder) (pass : Nat) (m : BufferMember) : Except BindError UniformRole := do
  match b.symbols.uniform? m.name with
  | none => throw (.unknownUniform m.name)
  | some role =>
      if m.type ≠ role.memberType then throw (.mismatchedShape m.name role)
      if let .textureSize r := role then b.checkReference pass m.name r
      return role

/-- Place a member behind the slots of the members before it. A role that has a slot
must be placed there again. -/
def place (b : Binder) (pass : Nat) (kind : BufferKind) (slots : List UniformSlot)
    (m : BufferMember) : Except BindError (List UniformSlot) := do
  let role ← b.role pass m
  match slots.find? (·.role = role) with
  | none => return slots ++ [⟨role, m.offset, m.type.byteSize, m.name⟩]
  | some slot =>
      if slot.offset = m.offset then return slots
      else throw (.mismatchedOffset m.name kind slot.offset m.offset)

def placeAll (b : Binder) (pass : Nat) (kind : BufferKind) :
    List UniformSlot → List BufferMember → Except BindError (List UniformSlot)
  | slots, [] => .ok slots
  | slots, m :: ms => (b.place pass kind slots m).bind (b.placeAll pass kind · ms)

/-- The least multiple of 16 that is not below a size. -/
def roundUp (size : UInt64) : UInt64 := (size + 15) / 16 * 16

/-- The set of the stage alone if it declares a buffer. -/
def maskOf (stage : Stage) (x : Option Resource) : StageMask :=
  if x.isSome then .ofStage stage else .empty

def merge (b : Binder) (pass : Nat) (kind : BufferKind) (vertex fragment : Option Resource) :
    Except BindError BufferLayout :=
  let size (x : Option Resource) : UInt64 := (x.map (·.size)).getD 0
  let members (x : Option Resource) := (x.map (·.members)).getD []
  (b.placeAll pass kind [] (members vertex ++ members fragment)).map fun slots =>
    { kind
      vertexBinding := vertex.bind (·.binding)
      fragmentBinding := fragment.bind (·.binding)
      stages := (maskOf .vertex vertex).union (maskOf .fragment fragment)
      size := roundUp (max (size vertex) (size fragment))
      slots }

def layout (b : Binder) (pass : Nat) (kind : BufferKind) (vertex fragment : StageReflection) :
    Except BindError BufferLayout := do
  b.merge pass kind (← buffer? .vertex vertex kind) (← buffer? .fragment fragment kind)

/-- How a texture is read: a lookup texture in its own way, any other in the way of
the pass that reads it. -/
def sampling (b : Binder) (settings : Preset.Pass) (r : TextureRef) : WrapMode × FilterMode :=
  match r.semantic, b.graph.luts[r.index]? with
  | .user, some lut => (lut.wrapMode, lut.filter)
  | _, _ => (settings.wrapMode, settings.filter)

/-- The slot of a sampled image with the given binding, behind the slots of the images
before it. -/
def textureSlot (b : Binder) (pass : Nat) (settings : Preset.Pass) (slots : List TextureSlot)
    (x : Resource) (binding : UInt32) : Except BindError TextureSlot := do
  if x.set ≠ 0 then throw (.invalidDescriptorSet x.name x.set)
  if b.maxBindings ≤ binding then throw (.bindingOutOfRange x.name binding b.maxBindings)
  if slots.any (·.binding == binding) then throw (.duplicateBinding x.name binding)
  match b.symbols.texture? x.name with
  | none => throw (.unknownTexture x.name)
  | some r =>
      b.checkReference pass x.name r
      let (wrapMode, filter) := b.sampling settings r
      return ⟨r.semantic, r.index, binding, wrapMode, filter, x.name⟩

/-- The slots of sampled images. An image without a binding has none. -/
def textureSlots (b : Binder) (pass : Nat) (settings : Preset.Pass) :
    List TextureSlot → List Resource → Except BindError (List TextureSlot)
  | slots, [] => .ok slots
  | slots, x :: xs =>
      match x.binding with
      | none => b.textureSlots pass settings slots xs
      | some binding =>
          (b.textureSlot pass settings slots x binding).bind fun slot =>
            b.textureSlots pass settings (slots ++ [slot]) xs

def bind (b : Binder) (pass : Nat) (vertex fragment : StageReflection) :
    Except BindError PassBindings := do
  match b.graph.passes[pass]? with
  | none => throw (.unknownPass pass b.graph.passes.length)
  | some p =>
      checkShape vertex fragment
      let uniformBuffer ← b.layout pass .uniformBuffer vertex fragment
      let pushConstant ← b.layout pass .pushConstant vertex fragment
      let textures ← b.textureSlots pass p.preset [] (fragment.resourcesOf .sampledImage)
      return { uniformBuffer, pushConstant, textures }

end Binder

end ShaderChain
