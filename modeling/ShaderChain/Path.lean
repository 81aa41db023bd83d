import ShaderChain.Text.Pieces

/-!
# Paths

A path is text whose components stand between slashes. Folding a path drops its
empty components and its `.` components and lets a `..` cancel the component
before it, all without looking at a file system. A path read from the root
swallows a `..` that has nothing to cancel; a relative one keeps it in front.

`Path.normalize` is the folded text, one spelling per file. `Path.join` and
`Path.parent?` work on the text as it is and fold nothing.
-/

namespace ShaderChain.Path

/-- A path is absolute when it starts with a slash. -/
def isAbsolute (p : List Char) : Bool := p.head? == some '/'

/-- The components of a path, without the empty ones and the dots. -/
def components (p : List Char) : List (List Char) :=
  (p.splitOn '/').filter fun c => c ≠ [] && c ≠ ['.']

/-- Take one more component onto a folded path, whose last component is the head
of the list. -/
def foldComponent (absolute : Bool) (folded : List (List Char)) (c : List Char) :
    List (List Char) :=
  if c = ['.', '.'] then
    match folded with
    | [] => if absolute then [] else [c]
    | last :: rest => if last = ['.', '.'] then c :: folded else rest
  else c :: folded

def folded (p : List Char) : List (List Char) :=
  ((components p).foldl (foldComponent (isAbsolute p)) []).reverse

/-- Components with a slash between each two, behind one for the root of an absolute path. -/
def render (absolute : Bool) (cs : List (List Char)) : List Char :=
  if absolute then '/' :: ['/'].intercalate cs else ['/'].intercalate cs

/-- The one spelling of a path. -/
def normalize (p : String) : String :=
  String.ofList (render (isAbsolute p.toList) (folded p.toList))

/-- The path `b` as read from the directory `a`. -/
def join (a b : String) : String :=
  if isAbsolute b.toList then b
  else if a = "" || a.toList.getLast? = some '/' then a ++ b
  else a ++ "/" ++ b

/-- Whether a piece of a path stands for no component. -/
def isIdle (piece : List Char) : Bool := piece = [] || piece = ['.']

/-- Drop the pieces at the end that stand for no component. -/
def dropIdleEnd (ps : List (List Char)) : List (List Char) :=
  (ps.reverse.dropWhile isIdle).reverse

/-- The directory that holds a path: its text without the last component and
without the slashes and dots before it. The root and the empty path have none. A
dot in front is a component here. -/
def parent? (p : String) : Option String :=
  let s := p.toList
  let lead :=
    if isAbsolute s then ['/'] else if s = ['.'] || s.take 2 = ['.', '/'] then ['.'] else []
  match dropIdleEnd ((s.drop lead.length).splitOn '/') with
  | [] => if lead = ['.'] then some "" else none
  | ps => some (String.ofList (lead ++ ['/'].intercalate (dropIdleEnd ps.dropLast)))

@[simp] theorem foldComponent_of_ne {absolute : Bool} {c : List Char} (h : c ≠ ['.', '.'])
    (cs : List (List Char)) : foldComponent absolute cs c = c :: cs := by
  simp [foldComponent, h]

end ShaderChain.Path
