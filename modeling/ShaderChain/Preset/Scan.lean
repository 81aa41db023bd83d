import ShaderChain.Text.Pieces

/-!
# Scanning preset text

A preset is a list of lines `key = value`. Blank lines and lines that start with
`#` or `//` say nothing. A value stands in quotes, where a backslash keeps the
character behind it from closing the quotes, or it is a bare word that ends at
space or at `#`; an unclosed quote runs to the end of its line. The first line of
any other form ends the scan, and the scan is then truncated.
-/

namespace ShaderChain.Preset

structure Assignment where
  key : String
  value : String
  deriving DecidableEq, Repr

inductive LineReading where
  | skip
  | assign (key value : List Char)
  | malformed
  deriving DecidableEq, Repr

/-- The blanks between the parts of a line. -/
def isBlank (c : Char) : Bool := c == ' ' || c == '\t' || c == '\r'

/-- A key is a letter followed by letters, digits and underscores, all ASCII. -/
def isKeyChar (c : Char) : Bool := c.isAlphanum || c == '_'

/-- A bare value ends at ASCII space or at a comment. -/
def endsBare (c : Char) : Bool :=
  c == ' ' || c == '\t' || c == '\n' || c == '\x0c' || c == '\r' || c == '#'

/-- The text before the closing quote, if there is one. -/
def closed? : List Char → Option (List Char)
  | [] => none
  | '"' :: _ => some []
  | '\\' :: c :: s => (closed? s).map fun v => '\\' :: c :: v
  | c :: s => (closed? s).map (c :: ·)

/-- The value in the text behind an opening quote. -/
def quotedValue (s : List Char) : List Char :=
  (closed? s).getD (s.reverse.dropWhile (· == '\r')).reverse

/-- The value that starts at the head of `s`; an empty one is no value. -/
def value? : List Char → Option (List Char)
  | [] => none
  | '"' :: s => some (quotedValue s)
  | s => some (s.takeWhile fun c => !endsBare c) |>.filter (· ≠ [])

/-- The value behind the equals sign that starts `s`. -/
def assigned? : List Char → Option (List Char)
  | '=' :: s => value? (s.dropWhile isBlank)
  | _ => none

def readLine (line : List Char) : LineReading :=
  match line.dropWhile isBlank with
  | [] => .skip
  | '#' :: _ => .skip
  | '/' :: '/' :: _ => .skip
  | c :: s =>
      if c.isAlpha then
        match assigned? ((s.dropWhile isKeyChar).dropWhile isBlank) with
        | some v => .assign (c :: s.takeWhile isKeyChar) v
        | none => .malformed
      else .malformed

/-- A scan under way: the lines still to be read, and whether a malformed line
has ended it. -/
structure Scanner where
  pending : List (List Char)
  truncated : Bool := false
  deriving DecidableEq, Repr

namespace Scanner

def ofString (text : String) : Scanner := { pending := Text.lines text.toList }

/-- The first assignment among the lines, and the scan after it. -/
def advance : List (List Char) → Option Assignment × Scanner
  | [] => (none, { pending := [] })
  | line :: rest =>
      match readLine line with
      | .skip => advance rest
      | .assign k v => (some ⟨String.ofList k, String.ofList v⟩, { pending := rest })
      | .malformed => (none, { pending := [], truncated := true })

/-- The next assignment. A scan that has ended stays as it is. -/
def next (s : Scanner) : Option Assignment × Scanner :=
  if s.pending = [] then (none, s) else advance s.pending

end Scanner

structure Scan where
  assignments : List Assignment
  truncated : Bool
  deriving DecidableEq, Repr

/-- Scan lines to the end, or to the first malformed one. -/
def Scan.ofLines : List (List Char) → Scan
  | [] => ⟨[], false⟩
  | line :: rest =>
      match readLine line with
      | .skip => ofLines rest
      | .assign k v =>
          let s := ofLines rest
          ⟨⟨String.ofList k, String.ofList v⟩ :: s.assignments, s.truncated⟩
      | .malformed => ⟨[], true⟩

def scan (text : String) : Scan := Scan.ofLines (Text.lines text.toList)

end ShaderChain.Preset
