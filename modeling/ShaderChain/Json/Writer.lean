import ShaderChain.Json.Value

/-!
# Writing JSON

A value is written over several lines, one element to a line and two spaces deeper
than what holds it. A list or an object without elements stands on one line.
-/

namespace ShaderChain.Json

/-- A line feed and the indentation of a level. -/
def newline (level : Nat) : List Char := '\n' :: List.replicate (2 * level) ' '

mutual

/-- Write a value that stands on the given level. -/
def render (level : Nat) : Json → List Char
  | .null => "null".toList
  | .bool true => "true".toList
  | .bool false => "false".toList
  | .number t => t
  | .string s => '"' :: (s ++ ['"'])
  | .array [] => ['[', ']']
  | .array (j :: js) =>
      '[' :: (newline (level + 1) ++ render (level + 1) j ++ renderItems (level + 1) js ++
        newline level ++ [']'])
  | .object [] => ['\x7b', '\x7d']
  | .object ((k, j) :: fs) =>
      '\x7b' :: (newline (level + 1) ++ '"' :: (k ++ ['"', ':', ' '] ++ render (level + 1) j) ++
        renderFields (level + 1) fs ++ newline level ++ ['\x7d'])

/-- Write items behind the first one. -/
def renderItems (level : Nat) : List Json → List Char
  | [] => []
  | j :: js => ',' :: (newline level ++ render level j ++ renderItems level js)

/-- Write fields behind the first one. -/
def renderFields (level : Nat) : List (List Char × Json) → List Char
  | [] => []
  | (k, j) :: fs =>
      ',' :: (newline level ++ '"' :: (k ++ ['"', ':', ' '] ++ render level j) ++
        renderFields level fs)

end

def write (j : Json) : String := String.ofList (render 0 j)

end ShaderChain.Json
