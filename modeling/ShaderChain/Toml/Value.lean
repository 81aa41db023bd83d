/-!
# TOML values

A TOML document is a table. Tables come about in four ways: by a header of their own,
by a header of a table inside them, by a dotted key, and as a value in braces. How a
table has come about decides what may still be added to it, so every table remembers
it. A list of tables made by headers is told apart from an array for the same reason.

The numbers of a document that matter here are whole ones; a float and a date and time
only have to be well formed.
-/

namespace ShaderChain.Toml

inductive TableKind where
  | header
  /-- By the header of a table inside it. -/
  | implied
  | dotted
  | braced
  deriving DecidableEq, Repr

inductive Value where
  | string (s : List Char)
  | integer (n : Int)
  | float
  | boolean (b : Bool)
  | dateTime
  | array (items : List Value)
  /-- The tables of one repeated header, the latest first. -/
  | tables (items : List (List (List Char × Value)))
  | table (kind : TableKind) (entries : List (List Char × Value))

/-- The entries of a table, in the order of their keys. -/
abbrev Entries := List (List Char × Value)

namespace Entries

def get? (es : Entries) (key : List Char) : Option Value := es.lookup key

def update (es : Entries) (key : List Char) (change : Option Value → Option Value) :
    Option Entries :=
  match es with
  | [] => (change none).map fun v => [(key, v)]
  | (k, v) :: rest =>
      if k = key then (change (some v)).map fun v => (k, v) :: rest
      else (update rest key change).map ((k, v) :: ·)

/-- Change the table at a path. Tables that are missing on the way come about as
`missing`. A table in braces is closed, and a dotted key must not reach into a table
that has a header. The path leads through the latest of several tables. -/
def descend (missing : TableKind) (change : TableKind → Entries → Option Entries) :
    List (List Char) → TableKind → Entries → Option Entries
  | [], kind, es => change kind es
  | key :: path, _, es =>
      es.update key fun
        | none => (descend missing change path missing []).map (.table missing)
        | some (.table kind es) =>
            if kind = .braced || (missing = .dotted && kind = .header) then none
            else (descend missing change path kind es).map (.table kind)
        | some (.tables (es :: earlier)) =>
            (descend missing change path .header es).map fun es => .tables (es :: earlier)
        | some _ => none

/-- Give a new key a value. A dotted key adds to tables of dotted keys only, and a
plain key adds to the others. -/
def define (path : List (List Char)) (key : List Char) (v : Value) (kind : TableKind)
    (es : Entries) : Option Entries :=
  descend .dotted
    (fun kind es =>
      if decide (kind = .dotted) = path.isEmpty then none
      else
        es.update key fun
          | none => some v
          | some _ => none)
    path kind es

/-- Open the table of a header. A table that has only been implied so far is taken. -/
def openTable (path : List (List Char)) (key : List Char) (es : Entries) : Option Entries :=
  descend .implied
    (fun _ es =>
      es.update key fun
        | none => some (.table .header [])
        | some (.table .implied es) => some (.table .header es)
        | some _ => none)
    path .header es

/-- Open one more table of a repeated header. -/
def openNext (path : List (List Char)) (key : List Char) (es : Entries) : Option Entries :=
  descend .implied
    (fun _ es =>
      es.update key fun
        | none => some (.tables [[]])
        | some (.tables items) => some (.tables ([] :: items))
        | some _ => none)
    path .header es

end Entries

end ShaderChain.Toml
