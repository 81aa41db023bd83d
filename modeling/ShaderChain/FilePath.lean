/-!
# File paths

A path is a list of bytes, as the system has it. The paths that presets and sources
name are text, and the bytes of a text are those of its characters; other paths need
not be the bytes of any text.
-/

namespace ShaderChain

structure FilePath where
  bytes : List UInt8
  deriving DecidableEq, Repr

namespace FilePath

def ofString (s : String) : FilePath := ⟨s.toList.flatMap String.utf8EncodeChar⟩

/-- The text of a path, if it is text. -/
def text? (p : FilePath) : Option String := String.fromUTF8? p.bytes.toByteArray

/-- The byte of a slash. -/
def slash : UInt8 := 0x2F

/-- The path `b` as read from the directory `a`. -/
def join (a b : FilePath) : FilePath :=
  if b.bytes.head? = some slash then b
  else if a.bytes = [] || a.bytes.getLast? = some slash then ⟨a.bytes ++ b.bytes⟩
  else ⟨a.bytes ++ slash :: b.bytes⟩

end FilePath

end ShaderChain
