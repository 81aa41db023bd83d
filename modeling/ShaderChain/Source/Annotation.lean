import ShaderChain.Source.Expansion

/-!
# Annotated sources

The annotation of a source is all that a compiler asks of it: its name, format and
parameters, the text of each stage, and the digest of its lines.
-/

namespace ShaderChain.Source

/-- What a source says about its pass, and its text by stage. -/
structure Annotation where
  path : String
  name : Option String
  format : Option PixelFormat
  declarations : List Declaration
  vertex : String
  fragment : String
  hash : UInt64
  deriving DecidableEq, Repr

namespace Annotation

def text (a : Annotation) : Stage → String
  | .vertex => a.vertex
  | .fragment => a.fragment

def ofExpansion (path : String) (e : Expansion) : Annotation where
  path := path
  name := e.name
  format := e.format
  declarations := e.declarations
  vertex := extract .vertex e.lines
  fragment := extract .fragment e.lines
  hash := digest e.lines

def ofFile (store : FileStore) (path : String) : Except Error Annotation :=
  let path := Path.normalize path
  ((Expansion.ofFile store path).mapError (·.error)).map (ofExpansion path)

end Annotation

end ShaderChain.Source
