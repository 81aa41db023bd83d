import ShaderChain.FileStore
import ShaderChain.PixelFormat
import ShaderChain.Source.Declaration
import ShaderChain.Source.Directive
import ShaderChain.Source.Line

/-!
# Expanding a source

A source is read line by line, with the lines of every included file in place of
the inclusion. A file is expanded once: an inclusion of a file that has been
requested before adds nothing. Directives are taken out of the text or noted in
passing, and wherever a line is missing or a file begins, a marker announces the
line that comes next. The stage set by a directive holds until the next one, across
the borders of files.

An `Expansion` is what has been gathered so far. It lists the files requested from
the store, in order, and this list alone decides which files are still to be
expanded, so that the expansion ends with the store's files.
-/

namespace ShaderChain.Source

/-- Why a source cannot be expanded. -/
inductive Error where
  | unreadable (path : String) (cause : LoadError)
  | missingVersion (path : String)
  | inclusionWithoutPath (path : String) (number : Nat)
  | unreadableInclusion (path : String)
  | repeatedName
  | unknownFormat (token : String)
  | repeatedFormat
  | conflictingParameter (name : String)
  | malformedParameter (line : String)
  | unknownStage (word : String)
  deriving DecidableEq, Repr

namespace Error

def message : Error → String
  | unreadable path _ => "unable to read " ++ path
  | missingVersion path => path ++ " does not start with a #version directive"
  | inclusionWithoutPath path number =>
      "#include without a quoted path in " ++ path ++ " at line " ++ toString number
  | unreadableInclusion path => "included file " ++ path ++ " could not be read"
  | repeatedName => "#pragma name declared more than once"
  | unknownFormat token => "#pragma format `" ++ token ++ "` is not a recognized format"
  | repeatedFormat => "#pragma format declared more than once"
  | conflictingParameter name =>
      "#pragma parameter `" ++ name ++ "` redeclared with different values"
  | malformedParameter line => "malformed #pragma parameter: " ++ line
  | unknownStage word => "#pragma stage `" ++ word ++ "` is neither vertex nor fragment"

end Error

/-- A file asked for, and how many files are open when its lines are read. -/
structure Request where
  path : String
  depth : Nat
  deriving DecidableEq, Repr

/-- What has been gathered of a source. -/
structure Expansion where
  lines : List Line
  stage : Option Stage
  name : Option String
  format : Option PixelFormat
  declarations : List Declaration
  requests : List Request
  deriving DecidableEq, Repr

/-- An error, and what had been gathered before it. -/
structure Failure where
  error : Error
  gathered : Expansion
  deriving DecidableEq, Repr

/-- A version line starts with this word. -/
def versionKeyword : List Char := "#version".toList

/-- The line that lets markers name files. -/
def extensionLine : String := "#extension GL_GOOGLE_cpp_style_line_directive : require"

namespace Expansion

def empty : Expansion := ⟨[], none, none, none, [], []⟩

def request (e : Expansion) (path : String) (depth : Nat) : Expansion :=
  { e with requests := e.requests ++ [⟨path, depth⟩] }

def hasRequested (e : Expansion) (path : String) : Bool := e.requests.any (·.path == path)

/-- Keep a line in the current stage. -/
def keep (e : Expansion) (text : String) (origin : Option Origin) : Expansion :=
  { e with lines := e.lines ++ [⟨text, .ofStage e.stage, origin⟩] }

/-- Announce line `number` of a file. -/
def mark (e : Expansion) (number : Nat) (path : String) : Expansion :=
  { e with lines := e.lines ++ [.marker number path] }

/-- Take over the name that a source gives its pass. -/
def setName (e : Expansion) (argument : List Char) : Except Error Expansion :=
  if e.name.isSome then .error .repeatedName
  else .ok { e with name := some (String.ofList (Text.trim argument)) }

/-- Take over the format that a source asks for. A second wish is refused before it
is read. -/
def setFormat (e : Expansion) (argument : List Char) : Except Error Expansion :=
  if e.format.isSome then .error .repeatedFormat
  else
    let token := String.ofList (Text.trim argument)
    match Named.ofName? token with
    | some format => .ok { e with format := some format }
    | none => .error (.unknownFormat token)

/-- Take over a parameter. Declaring one again adds nothing and must agree with the
first declaration. -/
def declare (e : Expansion) (line argument : List Char) : Except Error Expansion :=
  match Declaration.read? argument with
  | none => .error (.malformedParameter (String.ofList (Text.trim line)))
  | some d =>
      match Declaration.add? e.declarations d with
      | some ds => .ok { e with declarations := ds }
      | none => .error (.conflictingParameter d.name)

/-- Enter the stage that a directive names. -/
def setStage (e : Expansion) (argument : List Char) : Except Error Expansion :=
  let word := String.ofList (Text.trim argument)
  match Named.ofName? word with
  | some stage => .ok { e with stage := some stage }
  | none => .error (.unknownStage word)

/-- Expand a line, which was read as the given line of the file at `path`. Files are
opened by `enter`. -/
def expandLine (enter : String → Expansion → Except Failure Expansion) (path : String)
    (number : Nat) (line : List Char) (e : Expansion) : Except Failure Expansion :=
  let kept (e : Expansion) := e.keep (String.ofList line) (some ⟨path, number⟩)
  let marked (e : Expansion) := e.mark (number + 1) path
  let failing (r : Except Error Expansion) : Except Failure Expansion := r.mapError (⟨·, e⟩)
  match Directive.ofLine line with
  | .inclusion argument =>
      match Directive.quotedPath? argument with
      | none => failing (.error (.inclusionWithoutPath path number))
      | some quoted =>
          let directory := (Path.parent? path).getD ""
          (enter (Path.normalize (Path.join directory (String.ofList quoted))) e).map marked
  | .name argument => (failing (e.setName argument)).map marked
  | .format argument => (failing (e.setFormat argument)).map marked
  | .parameter argument => (failing (e.declare line argument)).map (marked ∘ kept)
  | .stage argument => (failing (e.setStage argument)).map marked
  | .endif => .ok (marked (kept e))
  | .text => .ok (kept e)

/-- Expand the lines of the file at `path` from line `number` on. -/
def expandLines (enter : String → Expansion → Except Failure Expansion) (path : String) :
    Nat → List (List Char) → Expansion → Except Failure Expansion
  | _, [], e => .ok e
  | number, line :: rest, e =>
      (expandLine enter path number line e).bind (expandLines enter path (number + 1) rest)

/-- Open the file at `path` and expand it, unless it has been requested before. The
budget bounds how many files can still be opened inside each other: with as many as
the store has files, a file for which none is left cannot be in the store. -/
def enter (store : FileStore) : Nat → Nat → String → Expansion → Except Failure Expansion
  | budget, depth, path, e =>
      if e.hasRequested path then .ok e
      else
        let e := e.request path depth
        match budget, store.get? path with
        | budget + 1, some text =>
            expandLines (enter store budget (depth + 1)) path 1 (Text.lines text.toList)
              (e.mark 1 path)
        | _, _ => .error ⟨.unreadableInclusion path, e⟩

/-- The expansion of the file at a normalized path. Its first line is the version
line, which the line for markers follows. -/
def ofFile (store : FileStore) (path : String) : Except Failure Expansion :=
  let start := empty.request path 1
  match store.load path with
  | .error cause => .error ⟨.unreadable path cause, start⟩
  | .ok text =>
      match Text.lines text.toList with
      | [] => .error ⟨.missingVersion path, start⟩
      | version :: rest =>
          if versionKeyword.isPrefixOf version then
            expandLines (enter store store.size 2) path 2 rest
              (((start.keep (String.ofList version) (some ⟨path, 1⟩)).keep extensionLine
                none).mark 2 path)
          else .error ⟨.missingVersion path, start⟩

end Expansion

end ShaderChain.Source
