import ShaderChain.Json.Value
import ShaderChain.Text.Space

/-!
# TOML strings

A string stands in single or double quotes, in one of them or in three. Double quotes
take escapes, single ones are literal. A string in three quotes may run over several
lines: a line feed right behind the opening quotes is dropped, and so is all space from
a backslash at the end of a line to the next character. Control characters other than a
tab, and lone carriage returns, are refused.
-/

namespace ShaderChain.Toml

/-- A control character that may not stand in a text. -/
def isForbidden (c : Char) : Bool := (c.toNat < 0x20 && c ≠ '\t') || c.toNat = 0x7F

/-- The character of an escape in one letter. -/
def letterEscape? (c : Char) : Option Char :=
  match c with
  | 'b' => some '\x08'
  | 't' => some '\t'
  | 'n' => some '\n'
  | 'f' => some '\x0c'
  | 'r' => some '\r'
  | 'e' => some '\x1b'
  | '"' => some '"'
  | '\\' => some '\\'
  | _ => none

/-- The character with a number, unless the number is half of a pair or too large. -/
def scalarChar? (n : Nat) : Option Char :=
  if n < 0xD800 || (0xDFFF < n && n < 0x110000) then some (Char.ofNat n) else none

/-- How many hexadecimal digits follow the letter of an escape by number. -/
def hexEscapeLength? (c : Char) : Option Nat :=
  match c with
  | 'x' => some 2
  | 'u' => some 4
  | 'U' => some 8
  | _ => none

/-- Read an escape behind its backslash. -/
def escape? : List Char → Option (Char × List Char)
  | [] => none
  | c :: s =>
      match letterEscape? c with
      | some x => some (x, s)
      | none =>
          match hexEscapeLength? c with
          | none => none
          | some n =>
              if (s.take n).length = n then
                ((Json.hex? (s.take n)).bind scalarChar?).map (·, s.drop n)
              else none

/-- Read a string in single quotes behind the opening quote. -/
def literal? : List Char → Option (List Char × List Char)
  | [] => none
  | '\'' :: s => some ([], s)
  | c :: s => if isForbidden c then none else (literal? s).map fun (t, r) => (c :: t, r)

/-- Read a string in double quotes behind the opening quote. -/
def basic? : Nat → List Char → Option (List Char × List Char)
  | 0, _ => none
  | fuel + 1, s =>
      match s with
      | [] => none
      | '"' :: s => some ([], s)
      | '\\' :: s =>
          match escape? s with
          | none => none
          | some (c, s) => (basic? fuel s).map fun (t, r) => (c :: t, r)
      | c :: s => if isForbidden c then none else (basic? fuel s).map fun (t, r) => (c :: t, r)

/-- Drop a line feed, with a carriage return before it, at the head of a text. -/
def dropNewline : List Char → List Char
  | '\n' :: s => s
  | '\r' :: '\n' :: s => s
  | s => s

/-- Whether nothing but space stands before the end of the line. -/
def endsLine (s : List Char) : Bool :=
  match s.dropWhile fun c => c == ' ' || c == '\t' with
  | '\n' :: _ => true
  | '\r' :: '\n' :: _ => true
  | _ => false

def dropSpace : List Char → List Char
  | '\r' :: '\n' :: s => dropSpace s
  | c :: s => if c == ' ' || c == '\t' || c == '\n' then dropSpace s else c :: s
  | [] => []

/-- Read a string in three quotes behind the opening ones. Up to two quotes may stand
right before the closing ones. -/
def multiline? (quote : Char) : Nat → List Char → Option (List Char × List Char)
  | 0, _ => none
  | fuel + 1, s =>
      match s with
      | [] => none
      | c :: s =>
          let more (x : Char) (s : List Char) : Option (List Char × List Char) :=
            (multiline? quote fuel s).map fun (t, r) => (x :: t, r)
          if c = quote then
            let run := (c :: s).takeWhile (· == quote)
            if run.length < 3 then more c s
            else if run.length ≤ 5 then
              some (List.replicate (run.length - 3) quote, (c :: s).drop run.length)
            else none
          else if c = '\\' && quote = '"' then
            if endsLine s then multiline? quote fuel (dropSpace s)
            else
              match escape? s with
              | none => none
              | some (x, s) => more x s
          else if c = '\n' then more c s
          else if c = '\r' then
            match s with
            | '\n' :: s => more '\n' s
            | _ => none
          else if isForbidden c then none
          else more c s

/-- Read a string on one line behind its opening quote. -/
def short? (quote : Char) (s : List Char) : Option (List Char × List Char) :=
  if quote = '"' then basic? (s.length + 1) s else literal? s

/-- Read a string, of one line or several, behind its first quote. -/
def quoted? (quote : Char) (s : List Char) : Option (List Char × List Char) :=
  match Text.after? [quote, quote] s with
  | some r => multiline? quote (r.length + 1) (dropNewline r)
  | none => short? quote s

end ShaderChain.Toml
