import ShaderChain.Toml.Quoted
import ShaderChain.Toml.Scalar

/-!
# Reading TOML

`Toml.read?` reads a document into its entries. A document is a list of lines: a line
gives a key its value, or opens a table, or says nothing. Values in brackets may run
over several lines. Each reader below reads one thing at the head of a text and gives
back the rest; the length of the text bounds how often a reader can go on.
-/

namespace ShaderChain.Toml

def skipBlanks (s : List Char) : List Char := s.dropWhile fun c => c == ' ' || c == '\t'

/-- What follows a comment, if the text starts with one: the end of its line. -/
def skipComment? : List Char → Option (List Char)
  | '#' :: s =>
      let rest := s.dropWhile fun c => !isForbidden c
      match rest with
      | [] => some []
      | '\n' :: _ => some rest
      | '\r' :: '\n' :: _ => some rest
      | _ => none
  | s => some s

/-- What follows the end of a line, behind blanks and a comment. -/
def endLine? (s : List Char) : Option (List Char) :=
  match skipComment? (skipBlanks s) with
  | some [] => some []
  | some ('\n' :: s) => some s
  | some ('\r' :: '\n' :: s) => some s
  | _ => none

/-- What follows blanks, line ends and comments. -/
def skipLines? : Nat → List Char → Option (List Char)
  | 0, s => some s
  | fuel + 1, s =>
      match skipComment? (skipBlanks s) with
      | none => none
      | some ('\n' :: s) => skipLines? fuel s
      | some ('\r' :: '\n' :: s) => skipLines? fuel s
      | some s => some s

/-- The characters of a key without quotes. -/
def isKeyChar (c : Char) : Bool := c.isAlphanum || c == '_' || c == '-'

def keyPart? : List Char → Option (List Char × List Char)
  | '"' :: s => short? '"' s
  | '\'' :: s => short? '\'' s
  | s =>
      match s.takeWhile isKeyChar with
      | [] => none
      | k => some (k, s.dropWhile isKeyChar)

/-- How many parts a key may have, and how many brackets and braces may be open at a
time. -/
def maxDepth : Nat := 80

/-- Read a key of at most the given number of parts: its parts before the last one, the
last one, and the rest. -/
def keyUpTo? : Nat → List Char → Option (List (List Char) × List Char × List Char)
  | 0, _ => none
  | n + 1, s =>
      match keyPart? (skipBlanks s) with
      | none => none
      | some (k, s) =>
          match skipBlanks s with
          | '.' :: s => (keyUpTo? n s).map fun (path, last, r) => (k :: path, last, r)
          | s => some ([], k, s)

def key? (s : List Char) : Option (List (List Char) × List Char × List Char) :=
  keyUpTo? maxDepth s

mutual

/-- Read a value. Inside it, `depth` brackets and braces may be open at a time. -/
def value? : Nat → Nat → List Char → Option (Value × List Char)
  | 0, _, _ => none
  | fuel + 1, depth, s =>
      match s, depth with
      | '"' :: s, _ => (quoted? '"' s).map fun (t, r) => (.string t, r)
      | '\'' :: s, _ => (quoted? '\'' s).map fun (t, r) => (.string t, r)
      | '[' :: s, depth + 1 => (items? fuel depth s).map fun (vs, r) => (.array vs, r)
      | '\x7b' :: s, depth + 1 =>
          (braced? fuel depth [] s).map fun (es, r) => (.table .braced es, r)
      | s, _ =>
          let (word, rest) := scalarText s
          (scalar? word).map (·, rest)

/-- Read the items of an array up to its closing bracket. -/
def items? : Nat → Nat → List Char → Option (List Value × List Char)
  | 0, _, _ => none
  | fuel + 1, depth, s =>
      match skipLines? s.length s with
      | none => none
      | some (']' :: r) => some ([], r)
      | some s =>
          match value? fuel depth s with
          | none => none
          | some (v, r) =>
              match skipLines? r.length r with
              | some (',' :: r) => (items? fuel depth r).map fun (vs, r) => (v :: vs, r)
              | some (']' :: r) => some ([v], r)
              | _ => none

/-- Read the entries of a table in braces behind those read already, up to its closing
brace. The key, the equals sign and the value may stand on lines of their own. -/
def braced? : Nat → Nat → Entries → List Char → Option (Entries × List Char)
  | 0, _, _, _ => none
  | fuel + 1, depth, es, s =>
      match skipLines? s.length s with
      | none => none
      | some ('\x7d' :: r) => some (es, r)
      | some s =>
          match key? s with
          | none => none
          | some (path, last, r) =>
              match skipLines? r.length r with
              | some ('=' :: r) =>
                  match (skipLines? r.length r).bind (value? fuel depth) with
                  | none => none
                  | some (v, r) =>
                      match es.define path last v .header, skipLines? r.length r with
                      | some es, some (',' :: r) => braced? fuel depth es r
                      | some es, some ('\x7d' :: r) => some (es, r)
                      | _, _ => none
              | _ => none

end

/-- A document under way: its entries, and the path of the table that is open. -/
structure Draft where
  entries : Entries
  current : List (List Char)

namespace Draft

/-- Give a key of the open table a value. -/
def define (d : Draft) (path : List (List Char)) (key : List Char) (v : Value) : Option Draft :=
  (d.entries.descend .implied (fun kind es => es.define path key v kind) d.current .header).map
    fun es => { d with entries := es }

/-- Open the table of a header. -/
def openTable (d : Draft) (path : List (List Char)) (key : List Char) : Option Draft :=
  (d.entries.openTable path key).map fun es => ⟨es, path ++ [key]⟩

/-- Open one more table of a repeated header. -/
def openNext (d : Draft) (path : List (List Char)) (key : List Char) : Option Draft :=
  (d.entries.openNext path key).map fun es => ⟨es, path ++ [key]⟩

/-- Read a header behind its opening brackets, close it with `closing`, and end the
line. -/
def header? (closing : List Char) (s : List Char) :
    Option (List (List Char) × List Char × List Char) := do
  let (path, last, r) ← key? s
  let r ← endLine? (← Text.after? closing r)
  return (path, last, r)

/-- Read one line that is not empty. -/
def line? (d : Draft) (s : List Char) : Option (Draft × List Char) :=
  match s with
  | '[' :: '[' :: s => do
      let (path, last, r) ← header? [']', ']'] s
      return (← d.openNext path last, r)
  | '[' :: s => do
      let (path, last, r) ← header? [']'] s
      return (← d.openTable path last, r)
  | s => do
      let (path, last, r) ← key? s
      let r ← Text.after? ['='] r
      let (v, r) ← value? (r.length + 1) maxDepth (skipBlanks r)
      return (← d.define path last v, ← endLine? r)

def lines? : Nat → Draft → List Char → Option Draft
  | 0, _, _ => none
  | fuel + 1, d, s =>
      match skipLines? s.length s with
      | none => none
      | some [] => some d
      | some s =>
          match d.line? s with
          | none => none
          | some (d, r) => lines? fuel d r

end Draft

/-- Read a document. A byte order mark may stand in front. -/
def read? (text : String) : Option Entries :=
  let s := match text.toList with
    | '\uFEFF' :: s => s
    | s => s
  (Draft.lines? (s.length + 1) ⟨[], []⟩ s).map (·.entries)

namespace Entries

/-- A setting that may be absent: its value, or the one it has otherwise. -/
def setting? {α : Type} (es : Entries) (key : String) (otherwise : α) (f : Value → Option α) :
    Option α :=
  match es.get? key.toList with
  | none => some otherwise
  | some v => f v

end Entries

namespace Value

def boolean? : Value → Option Bool
  | .boolean b => some b
  | _ => none

/-- A whole number from zero up to a bound. -/
def natural? (bound : Nat) : Value → Option Nat
  | .integer n => if 0 ≤ n && n < bound then some n.toNat else none
  | _ => none

end Value

end ShaderChain.Toml
