import ShaderChain.Text.Space

/-!
# Cutting text into pieces

Words, lines and the items of a list are read off the pieces of a text between the
characters at which it is cut. The pieces keep their order, and empty ones among them
are dropped where they stand for nothing.
-/

namespace ShaderChain.Text

/-- The words of `s`: its longest runs without space. -/
def words (s : List Char) : List (List Char) := (s.splitOnP isSpace).filter (· ≠ [])

/-- Drop one carriage return at the end of a line, if there is one. -/
def dropReturn (line : List Char) : List Char :=
  if line.getLast? = some '\r' then line.dropLast else line

/-- The lines of `s`. A line ends at a line feed and loses one carriage return
before it; what follows the last line feed is a line only if it is not empty,
and keeps its carriage return. -/
def lines (s : List Char) : List (List Char) :=
  let ps := s.splitOn '\n'
  ps.dropLast.map dropReturn ++ ps.getLast?.toList.filter (· ≠ [])

@[simp] theorem lines_nil : lines [] = [] := rfl

def linesOf (s : String) : List String := (lines s.toList).map String.ofList

/-- The items of a list written with semicolons, trimmed; an empty item is
dropped. -/
def items (s : List Char) : List (List Char) :=
  ((s.splitOn ';').map trim).filter (· ≠ [])

end ShaderChain.Text
