import ShaderChain.Compiled.Basic
import ShaderChain.Compiler.Error
import ShaderChain.Json.Number
import ShaderChain.Json.Reader
import ShaderChain.Json.Writer

/-!
# Compiled shaders as documents

A compiled shader is stored as a JSON document. Every structure is an object with its
keys in a fixed order. Values of finite types are written by their names, whole numbers
in decimal, singles by their shortest decimals, and paths as text: a compiled shader with
a path that is no text has no document.

The reader takes more than the writer gives: the fields of an object in any order and
among others, a structure as an array of its fields, and a name as an object with null
under that name. A whole number must fit its word, and a single must be finite.
-/

namespace ShaderChain

namespace Json

def ofNamed {α : Type} [Named α] (a : α) : Json := ofString (Named.name a)

/-- A named value, by its name or as an object with null under its name. -/
def named? {α : Type} [Named α] : Json → Option α
  | .string s => (unescape? s).bind fun n => Named.ofName? (String.ofList n)
  | .object [(k, .null)] => (unescape? k).bind fun n => Named.ofName? (String.ofList n)
  | _ => none

def ofWord (n : UInt32) : Json := ofNat n.toNat

def word? (j : Json) : Option UInt32 := (j.nat? (Nat.pow 2 32)).map UInt32.ofNat

def ofLong (n : UInt64) : Json := ofNat n.toNat

def long? (j : Json) : Option UInt64 := (j.nat? (Nat.pow 2 64)).map UInt64.ofNat

/-- A number of something in a list. -/
def index? (j : Json) : Option Nat := j.nat? (Nat.pow 2 64)

def ofOptional {α : Type} (f : α → Json) : Option α → Json
  | none => .null
  | some a => f a

end Json

namespace Document

/-- A record: its keys in order, each with its value. -/
def record (keys : List String) (values : List Json) : Json := Json.ofFields (keys.zip values)

def sizeKeys : List String := ["width", "height"]

def ofExtent (s : Extent) : Json := record sizeKeys [Json.ofWord s.width, Json.ofWord s.height]

def extent? (j : Json) : Option Extent := do
  match ← j.record? sizeKeys with
  | [some w, some h] => return ⟨← w.word?, ← h.word?⟩
  | _ => none

def ofFactor (s : Size Single) : Json :=
  record sizeKeys [Json.ofSingle s.width, Json.ofSingle s.height]

def factor? (j : Json) : Option (Size Single) := do
  match ← j.record? sizeKeys with
  | [some w, some h] => return ⟨← w.single?, ← h.single?⟩
  | _ => none

def scaleKeys : List String := ["x", "y", "factor", "absolute"]

def ofScale (s : Scale) : Json :=
  record scaleKeys [Json.ofNamed s.x, Json.ofNamed s.y, ofFactor s.factor, ofExtent s.absolute]

def scale? (j : Json) : Option Scale := do
  match ← j.record? scaleKeys with
  | [some x, some y, some f, some a] =>
      return ⟨← x.named?, ← y.named?, ← factor? f, ← extent? a⟩
  | _ => none

def referenceKeys : List String := ["semantic", "index"]

def ofReference (r : TextureRef) : Json :=
  record referenceKeys [Json.ofNamed r.semantic, Json.ofNat r.index]

def reference? (j : Json) : Option TextureRef := do
  match ← j.record? referenceKeys with
  | [some s, some i] => return ⟨← s.named?, ← i.index?⟩
  | _ => none

/-- A role is an object with its value under the key of its kind. -/
def ofRole : UniformRole → Json
  | .global s => record ["global"] [Json.ofNamed s]
  | .parameter i => record ["parameter"] [Json.ofNat i]
  | .textureSize r => record ["textureSize"] [ofReference r]

def role? : Json → Option UniformRole
  | .object [(k, j)] => do
      let kind := String.ofList (← Json.unescape? k)
      if kind = "global" then return .global (← j.named?)
      else if kind = "parameter" then return .parameter (← j.index?)
      else if kind = "textureSize" then return .textureSize (← reference? j)
      else none
  | _ => none

def slotKeys : List String := ["role", "offset", "size", "name"]

def ofSlot (s : UniformSlot) : Json :=
  record slotKeys [ofRole s.role, Json.ofLong s.offset, Json.ofLong s.size, Json.ofString s.name]

def slot? (j : Json) : Option UniformSlot := do
  match ← j.record? slotKeys with
  | [some r, some o, some s, some n] =>
      return ⟨← role? r, ← o.long?, ← s.long?, ← n.string?⟩
  | _ => none

def bufferKeys : List String :=
  ["kind", "vertexBinding", "fragmentBinding", "stages", "size", "slots"]

def ofBuffer (l : BufferLayout) : Json :=
  record bufferKeys
    [Json.ofNamed l.kind, Json.ofOptional Json.ofWord l.vertexBinding,
      Json.ofOptional Json.ofWord l.fragmentBinding, Json.ofString l.stages.text,
      Json.ofLong l.size, .array (l.slots.map ofSlot)]

/-- A binding is none if its key is missing. -/
def binding? : Option Json → Option (Option UInt32)
  | none => some none
  | some j => j.optional? Json.word?

def buffer? (j : Json) : Option BufferLayout := do
  match ← j.record? bufferKeys with
  | [some k, v, f, some m, some s, some slots] =>
      return {
        kind := ← k.named?
        vertexBinding := ← binding? v
        fragmentBinding := ← binding? f
        stages := ← StageMask.ofText? (← m.string?)
        size := ← s.long?
        slots := ← slots.list? slot? }
  | _ => none

def textureKeys : List String := ["semantic", "index", "binding", "wrapMode", "filter", "name"]

def ofTexture (t : TextureSlot) : Json :=
  record textureKeys
    [Json.ofNamed t.semantic, Json.ofNat t.index, Json.ofWord t.binding, Json.ofNamed t.wrapMode,
      Json.ofNamed t.filter, Json.ofString t.name]

def texture? (j : Json) : Option TextureSlot := do
  match ← j.record? textureKeys with
  | [some s, some i, some b, some w, some f, some n] =>
      return ⟨← s.named?, ← i.index?, ← b.word?, ← w.named?, ← f.named?, ← n.string?⟩
  | _ => none

/-- A format is written by its token, and only so. -/
def format? (j : Json) : Option PixelFormat := j.string?.bind Named.ofName?

def passKeys : List String :=
  ["index", "alias", "vertexSource", "fragmentSource", "scale", "format", "wrapMode", "filter",
    "frameCountMod", "mipmapInput", "isFeedback", "uniformBuffer", "pushConstant", "textures",
    "sourceHash"]

def ofPass (p : CompiledPass) : Json :=
  record passKeys
    [Json.ofNat p.index, Json.ofString p.name, Json.ofString p.vertexSource,
      Json.ofString p.fragmentSource, ofScale p.scale, Json.ofNamed p.format,
      Json.ofNamed p.wrapMode, Json.ofNamed p.filter, Json.ofWord p.frameCountMod,
      .bool p.mipmapInput, .bool p.isFeedback, ofBuffer p.uniformBuffer, ofBuffer p.pushConstant,
      .array (p.textures.map ofTexture), Json.ofLong p.sourceHash]

def pass? (j : Json) : Option CompiledPass := do
  match ← j.record? passKeys with
  | [some index, some name, some vertex, some fragment, some scale, some format, some wrap,
      some filter, some count, some mipmap, some feedback, some uniforms, some push,
      some textures, some hash] =>
      return {
        index := ← index.index?
        name := ← name.string?
        vertexSource := ← vertex.string?
        fragmentSource := ← fragment.string?
        scale := ← scale? scale
        format := ← format? format
        wrapMode := ← wrap.named?
        filter := ← filter.named?
        frameCountMod := ← count.word?
        mipmapInput := ← mipmap.bool?
        isFeedback := ← feedback.bool?
        uniformBuffer := ← buffer? uniforms
        pushConstant := ← buffer? push
        textures := ← textures.list? texture?
        sourceHash := ← hash.long? }
  | _ => none

def parameterKeys : List String :=
  ["index", "name", "description", "initial", "minimum", "maximum", "step", "group"]

def ofParameter (p : Parameter) : Json :=
  record parameterKeys
    [Json.ofNat p.index, Json.ofString p.name, Json.ofString p.description,
      Json.ofSingle p.initial, Json.ofSingle p.minimum, Json.ofSingle p.maximum,
      Json.ofSingle p.step, Json.ofString p.group]

def parameter? (j : Json) : Option Parameter := do
  match ← j.record? parameterKeys with
  | [some index, some name, some description, some initial, some minimum, some maximum,
      some step, some group] =>
      return {
        index := ← index.index?
        name := ← name.string?
        description := ← description.string?
        initial := ← initial.single?
        minimum := ← minimum.single?
        maximum := ← maximum.single?
        step := ← step.single?
        group := ← group.string? }
  | _ => none

def groupKeys : List String := ["key", "label", "parameters"]

def ofGroup (g : ParameterGroup) : Json :=
  record groupKeys
    [Json.ofString g.key, Json.ofString g.label, .array (g.parameters.map Json.ofString)]

def group? (j : Json) : Option ParameterGroup := do
  match ← j.record? groupKeys with
  | [some k, some l, some ps] => return ⟨← k.string?, ← l.string?, ← ps.list? Json.string?⟩
  | _ => none

def lutKeys : List String := ["name", "path", "wrapMode", "filter", "mipmap"]

/-- A lookup texture, if its path is text. -/
def ofLut? (l : Lut) : Option Json :=
  l.path.text?.map fun path =>
    record lutKeys
      [Json.ofString l.name, Json.ofString path, Json.ofNamed l.wrapMode, Json.ofNamed l.filter,
        .bool l.mipmap]

def lut? (j : Json) : Option Lut := do
  match ← j.record? lutKeys with
  | [some n, some p, some w, some f, some m] =>
      return ⟨← n.string?, .ofString (← p.string?), ← w.named?, ← f.named?, ← m.bool?⟩
  | _ => none

def shaderKeys : List String := ["passes", "parameters", "parameterGroups", "luts", "historyCount"]

/-- A compiled shader, if all its paths are text. -/
def ofShader? (s : CompiledShader) : Option Json :=
  (s.luts.mapM ofLut?).map fun luts =>
    record shaderKeys
      [.array (s.passes.map ofPass), .array (s.parameters.map ofParameter),
        .array (s.parameterGroups.map ofGroup), .array luts, Json.ofNat s.historyCount]

def shader? (j : Json) : Option CompiledShader := do
  match ← j.record? shaderKeys with
  | [some passes, some parameters, some groups, some luts, some history] =>
      return {
        passes := ← passes.list? pass?
        parameters := ← parameters.list? parameter?
        parameterGroups := ← groups.list? group?
        luts := ← luts.list? lut?
        historyCount := ← history.index? }
  | _ => none

end Document

namespace CompiledShader

/-- The document of a compiled shader. -/
def toJson (s : CompiledShader) : Except CompileError String :=
  match Document.ofShader? s with
  | some j => .ok j.write
  | none => .error .document

/-- The compiled shader of a document. -/
def ofJson (document : String) : Except CompileError CompiledShader :=
  match (Json.read? document).bind Document.shader? with
  | some s => .ok s
  | none => .error .document

end CompiledShader

end ShaderChain
