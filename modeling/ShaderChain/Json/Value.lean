import ShaderChain.Text.Numeral

/-!
# JSON values

A value keeps its numbers and strings as they are written. A string is unescaped and
a number is read only where a reader asks for it, so that a part of a document that
nobody asks for needs no more than the right form. The fields of an object keep their
order.
-/

namespace ShaderChain

/-- A JSON value. A number is its token, a string the text between its quotes. -/
inductive Json where
  | null
  | bool (b : Bool)
  | number (token : List Char)
  | string (written : List Char)
  | array (items : List Json)
  | object (fields : List (List Char × Json))
  deriving Repr

namespace Json

def hexDigit? (c : Char) : Option Nat :=
  if c.isDigit then some (c.toNat - '0'.toNat)
  else if 'a' ≤ c && c ≤ 'f' then some (c.toNat - 'a'.toNat + 10)
  else if 'A' ≤ c && c ≤ 'F' then some (c.toNat - 'A'.toNat + 10)
  else none

def hex? (ds : List Char) : Option Nat :=
  ds.foldl (fun n c => n.bind fun n => (hexDigit? c).map fun d => 16 * n + d) (some 0)

/-- A hexadecimal digit, of lower case. -/
def hexChar (n : Nat) : Char := Nat.digitChar n

/-- How a character is written in a string. -/
def escapeChar (c : Char) : List Char :=
  if c = '"' then ['\\', '"']
  else if c = '\\' then ['\\', '\\']
  else if c = '\x08' then ['\\', 'b']
  else if c = '\x0c' then ['\\', 'f']
  else if c = '\n' then ['\\', 'n']
  else if c = '\r' then ['\\', 'r']
  else if c = '\t' then ['\\', 't']
  else if c.toNat < 0x20 then
    ['\\', 'u', '0', '0', hexChar (c.toNat / 16), hexChar (c.toNat % 16)]
  else [c]

def escape (s : List Char) : List Char := s.flatMap escapeChar

/-- The character that stands for itself or for a control behind a backslash. -/
def simpleEscape? (c : Char) : Option Char :=
  match c with
  | '"' => some '"'
  | '\\' => some '\\'
  | '/' => some '/'
  | 'b' => some '\x08'
  | 'f' => some '\x0c'
  | 'n' => some '\n'
  | 'r' => some '\r'
  | 't' => some '\t'
  | _ => none

def isHighSurrogate (n : Nat) : Bool := 0xD800 ≤ n && n ≤ 0xDBFF

def isLowSurrogate (n : Nat) : Bool := 0xDC00 ≤ n && n ≤ 0xDFFF

/-- The text that a string stands for. A code unit that is half of a pair must stand
before or behind the other half. -/
def unescape? : List Char → Option (List Char)
  | [] => some []
  | '\\' :: 'u' :: a :: b :: c :: d :: s =>
      match hex? [a, b, c, d] with
      | none => none
      | some n =>
          if isHighSurrogate n then
            match s with
            | '\\' :: 'u' :: e :: f :: g :: h :: s =>
                match hex? [e, f, g, h] with
                | none => none
                | some m =>
                    if isLowSurrogate m then
                      (unescape? s).map
                        (Char.ofNat (0x10000 + (n - 0xD800) * 0x400 + (m - 0xDC00)) :: ·)
                    else none
            | _ => none
          else if isLowSurrogate n then none
          else (unescape? s).map (Char.ofNat n :: ·)
  | '\\' :: c :: s =>
      match simpleEscape? c with
      | none => none
      | some x => (unescape? s).map (x :: ·)
  | c :: s => if c = '\\' then none else (unescape? s).map (c :: ·)

def ofString (s : String) : Json := .string (escape s.toList)

def ofNat (n : Nat) : Json := .number (Text.decimal n)

def ofFields (fields : List (String × Json)) : Json :=
  .object (fields.map fun (k, v) => (escape k.toList, v))

def string? : Json → Option String
  | .string s => (unescape? s).map String.ofList
  | _ => none

def bool? : Json → Option Bool
  | .bool b => some b
  | _ => none

/-- A natural number below `bound`, written without a sign, point or exponent. -/
def nat? (bound : Nat) : Json → Option Nat
  | .number t => (Text.digits? t).filter (· < bound)
  | _ => none

/-- A list of values, each read by `f`. -/
def list? {α : Type} (f : Json → Option α) : Json → Option (List α)
  | .array items => items.mapM f
  | _ => none

/-- Nothing, written as null, or a value read by `f`. -/
def optional? {α : Type} (f : Json → Option α) : Json → Option (Option α)
  | .null => some none
  | j => (f j).map some

/-- The value of the only field among `fields` with the key. Two such fields are one
too many. -/
def uniqueField? (fields : List (String × Json)) (key : String) : Option (Option Json) :=
  match fields.filter (·.1 == key) with
  | [] => some none
  | [(_, v)] => some (some v)
  | _ => none

/-- The fields of an object, with their keys unescaped. -/
def keyed? (fields : List (List Char × Json)) : Option (List (String × Json)) :=
  fields.mapM fun (k, v) => (unescape? k).map fun k => (String.ofList k, v)

/-- The values of a record with the given keys: an object that has each key at most
once, other keys being ignored, or an array of exactly as many values. -/
def record? (keys : List String) : Json → Option (List (Option Json))
  | .object fields => (keyed? fields).bind fun fs => keys.mapM (uniqueField? fs)
  | .array items => if items.length = keys.length then some (items.map some) else none
  | _ => none

end Json

end ShaderChain
