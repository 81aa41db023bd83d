import ShaderChain.Json.Value

/-!
# Reading JSON

`Json.read?` reads a document: one value with space around it and nothing else. Each
reader below reads one thing at the head of a text and gives back the rest. Values
stand inside each other at most as deep as the text is long, and this bounds the
recursion.
-/

namespace ShaderChain.Json

def isSpace (c : Char) : Bool := c == ' ' || c == '\n' || c == '\t' || c == '\r'

def skipSpace (s : List Char) : List Char := s.dropWhile isSpace

/-- The text up to the closing quote, as it is written, and what follows the quote. -/
def readString? : List Char → Option (List Char × List Char)
  | [] => none
  | '"' :: s => some ([], s)
  | '\\' :: 'u' :: a :: b :: c :: d :: s =>
      if (hex? [a, b, c, d]).isSome then
        (readString? s).map fun (t, r) => ('\\' :: 'u' :: a :: b :: c :: d :: t, r)
      else none
  | '\\' :: c :: s =>
      if (simpleEscape? c).isSome then (readString? s).map fun (t, r) => ('\\' :: c :: t, r)
      else none
  | c :: s =>
      if c = '\\' || c.toNat < 0x20 then none
      else (readString? s).map fun (t, r) => (c :: t, r)

/-- The digits at the head of a text, if there are any. -/
def readDigits? (s : List Char) : Option (List Char × List Char) :=
  match s.takeWhile Char.isDigit with
  | [] => none
  | ds => some (ds, s.dropWhile Char.isDigit)

/-- The whole part of a number: a zero, or digits that start with another one. -/
def readWhole? : List Char → Option (List Char × List Char)
  | '0' :: s => some (['0'], s)
  | s => readDigits? s

/-- The part of a number behind its point, with the point, or nothing. -/
def readPart? : List Char → Option (List Char × List Char)
  | '.' :: s => (readDigits? s).map fun (ds, r) => ('.' :: ds, r)
  | s => some ([], s)

/-- An exponent with its letter and sign, or nothing. -/
def readExponent? : List Char → Option (List Char × List Char)
  | c :: s =>
      if c = 'e' || c = 'E' then
        match s with
        | '+' :: r => (readDigits? r).map fun (ds, r) => (c :: '+' :: ds, r)
        | '-' :: r => (readDigits? r).map fun (ds, r) => (c :: '-' :: ds, r)
        | r => (readDigits? r).map fun (ds, r) => (c :: ds, r)
      else some ([], c :: s)
  | [] => some ([], [])

def readMagnitude? (s : List Char) : Option (List Char × List Char) := do
  let (whole, s) ← readWhole? s
  let (part, s) ← readPart? s
  let (exponent, s) ← readExponent? s
  return (whole ++ part ++ exponent, s)

def readNumber? : List Char → Option (List Char × List Char)
  | '-' :: s => (readMagnitude? s).map fun (t, r) => ('-' :: t, r)
  | s => readMagnitude? s

/-- What follows a word, if the text starts with it. -/
def afterWord? (word : String) (s : List Char) : Option (List Char) :=
  word.toList.isPrefixOf? s

mutual

def readValue? : Nat → List Char → Option (Json × List Char)
  | 0, _ => none
  | fuel + 1, s =>
      match skipSpace s with
      | [] => none
      | c :: s =>
          if c = 'n' then (afterWord? "ull" s).map (.null, ·)
          else if c = 't' then (afterWord? "rue" s).map (.bool true, ·)
          else if c = 'f' then (afterWord? "alse" s).map (.bool false, ·)
          else if c = '"' then (readString? s).map fun (t, r) => (.string t, r)
          else if c = '[' then
            match skipSpace s with
            | ']' :: r => some (.array [], r)
            | r => (readItems? fuel r).map fun (js, r) => (.array js, r)
          else if c = '\x7b' then
            match skipSpace s with
            | '\x7d' :: r => some (.object [], r)
            | r => (readFields? fuel r).map fun (fs, r) => (.object fs, r)
          else (readNumber? (c :: s)).map fun (t, r) => (.number t, r)

/-- Read the items of an array, at least one, up to its closing bracket. -/
def readItems? : Nat → List Char → Option (List Json × List Char)
  | 0, _ => none
  | fuel + 1, s =>
      match readValue? fuel s with
      | none => none
      | some (j, r) =>
          match skipSpace r with
          | ',' :: r => (readItems? fuel r).map fun (js, r) => (j :: js, r)
          | ']' :: r => some ([j], r)
          | _ => none

/-- Read the fields of an object, at least one, up to its closing brace. -/
def readFields? : Nat → List Char → Option (List (List Char × Json) × List Char)
  | 0, _ => none
  | fuel + 1, s =>
      match skipSpace s with
      | '"' :: r =>
          match readString? r with
          | none => none
          | some (k, r) =>
              match skipSpace r with
              | ':' :: r =>
                  match readValue? fuel r with
                  | none => none
                  | some (j, r) =>
                      match skipSpace r with
                      | ',' :: r => (readFields? fuel r).map fun (fs, r) => ((k, j) :: fs, r)
                      | '\x7d' :: r => some ([(k, j)], r)
                      | _ => none
              | _ => none
      | _ => none

end

def read? (text : String) : Option Json :=
  let s := text.toList
  match readValue? (2 * s.length + 2) s with
  | some (j, r) => if skipSpace r = [] then some j else none
  | none => none

end ShaderChain.Json
