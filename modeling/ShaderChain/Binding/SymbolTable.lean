import ShaderChain.Binding.Semantic
import ShaderChain.Graph.Basic

/-!
# Resolving names

A symbol table resolves the names that a shader uses. The names that the preset
gives come first: a named pass is known by its name and, a frame late, by its name
followed by `Feedback`, and a lookup texture is known by its own name; of two equal
names the later one counts. Every other texture is known by the word of its kind and
its number. The size of a texture is known by a name with `Size` in it: behind a name
that the preset gives, and between the word and the number elsewhere.
-/

namespace ShaderChain

/-- The names that a preset gives, in the order in which they are given. -/
structure SymbolTable where
  parameters : List (String × Nat)
  textures : List (String × TextureRef)
  deriving DecidableEq, Repr

/-- The value that a list of pairs gives to a name last. -/
def lastGiven? {α : Type} (entries : List (String × α)) (name : String) : Option α :=
  (entries.reverse.find? (·.1 == name)).map (·.2)

namespace TextureSemantic

/-- The number in what follows the word of a kind. A kind without numbers has
nothing behind its word. -/
def number? (s : TextureSemantic) (rest : List Char) : Option Nat :=
  if s.isArray then (Text.index? rest).map UInt64.toNat
  else if rest = [] then some 0
  else none

end TextureSemantic

namespace SymbolTable

/-- What stands between the word and the number in the name of a texture's size. -/
def sizeWord : String := "Size"

def passNames (p : Graph.Pass) : List (String × TextureRef) :=
  if p.name = "" then []
  else
    [(p.name, ⟨.passOutput, p.preset.index⟩),
      (p.name ++ "Feedback", ⟨.passFeedback, p.preset.index⟩)]

def ofGraph (g : Graph) : SymbolTable where
  parameters := g.parameters.map fun p => (p.name, p.index)
  textures :=
    g.passes.flatMap passNames ++ g.luts.zipIdx.map fun (l, i) => (l.name, ⟨.user, i⟩)

/-- The texture of a name that the preset gives. -/
def given? (t : SymbolTable) (name : String) : Option TextureRef := lastGiven? t.textures name

/-- The texture of a name made of the word of its kind, the given text and its
number. -/
def positional? (between : String) (name : String) : Option TextureRef :=
  Named.all.findSome? fun s : TextureSemantic =>
    ((Text.after? (s.word ++ between).toList name.toList).bind s.number?).map (⟨s, ·⟩)

def texture? (t : SymbolTable) (name : String) : Option TextureRef :=
  (t.given? name).or (positional? "" name)

/-- A name without `Size` at its end. -/
def sizeBase? (name : String) : Option String :=
  (Text.after? sizeWord.toList.reverse name.toList.reverse).map fun r => String.ofList r.reverse

/-- The texture whose size a name asks for. -/
def sizedTexture? (t : SymbolTable) (name : String) : Option TextureRef :=
  ((sizeBase? name).bind t.given?).or (positional? sizeWord name)

def uniform? (t : SymbolTable) (name : String) : Option UniformRole :=
  ((GlobalSemantic.ofUniformName? name).map .global).or
    (((lastGiven? t.parameters name).map .parameter).or
      ((t.sizedTexture? name).map .textureSize))

end SymbolTable

end ShaderChain
