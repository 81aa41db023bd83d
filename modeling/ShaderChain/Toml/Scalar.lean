import ShaderChain.Json.Value
import ShaderChain.Single.Decimal
import ShaderChain.Text.Space
import ShaderChain.Toml.Value

/-!
# TOML scalars

Truth values, numbers, dates and times are words without space, apart from the one space
that may stand between a date and a time. Digits may be grouped by single underscores
between them. An integer must fit 128 bits, and a float must not overflow double
precision.
-/

namespace ShaderChain.Toml

/-- Digits with single underscores between them, without the underscores. -/
def ungrouped? (isDigit : Char → Bool) : List Char → Option (List Char)
  | [] => none
  | [c] => if isDigit c then some [c] else none
  | c :: '_' :: s => if isDigit c then (ungrouped? isDigit s).map (c :: ·) else none
  | c :: s => if isDigit c then (ungrouped? isDigit s).map (c :: ·) else none

/-- The sign in front, if there is one: whether it is a minus, and what follows. -/
def unsigned : List Char → Bool × List Char
  | '-' :: s => (true, s)
  | '+' :: s => (false, s)
  | s => (false, s)

/-- Decimal digits without a zero in front of others. -/
def plainDigits? (s : List Char) : Option (List Char) :=
  (ungrouped? Char.isDigit s).filter fun ds => ds.length = 1 || ds.head? ≠ some '0'

/-- The number of digits in a base below 17. -/
def inBase (base : Nat) (ds : List Char) : Nat :=
  ds.foldl (fun n c => base * n + (Json.hexDigit? c).getD 0) 0

/-- Whether a character is a digit in a base below 17. -/
def isBaseDigit (base : Nat) (c : Char) : Bool := (Json.hexDigit? c).any (· < base)

/-- Read an integer: a decimal one with an optional sign, or one in another base. -/
def integer? (s : List Char) : Option Int :=
  let based (base : Nat) (ds : List Char) : Option Int :=
    (ungrouped? (isBaseDigit base) ds).map fun ds => (inBase base ds : Int)
  let n := match s with
    | '0' :: 'x' :: ds => based 16 ds
    | '0' :: 'o' :: ds => based 8 ds
    | '0' :: 'b' :: ds => based 2 ds
    | s =>
        let (negative, ds) := unsigned s
        (plainDigits? ds).map fun ds =>
          if negative then - (inBase 10 ds : Int) else (inBase 10 ds : Int)
  n.filter fun n => -(Nat.pow 2 127 : Int) ≤ n && n < (Nat.pow 2 128 : Int)

/-- Whether a decimal is too large for double precision. -/
def overflowsDouble (d : Decimal) : Bool :=
  let places : Int := (Text.decimal d.digits).length + d.exponent
  if d.digits = 0 || places < 300 then false
  else if 320 < places then true
  else
    let bound := (Nat.pow 2 54 - 1) * Nat.pow 2 970
    if 0 ≤ d.exponent then bound ≤ d.digits * Nat.pow 10 d.exponent.toNat
    else bound * Nat.pow 10 (-d.exponent).toNat ≤ d.digits

/-- Read the part of a float behind its whole part: a point and digits, an exponent, or
both. The result is the digits behind the point and the exponent. -/
def fraction? (s : List Char) : Option (List Char × Int) :=
  let isMark (c : Char) : Bool := c == 'e' || c == 'E'
  let exponent? (s : List Char) : Option Int :=
    let (negative, ds) := unsigned s
    (ungrouped? Char.isDigit ds).map fun ds =>
      if negative then - (inBase 10 ds : Int) else (inBase 10 ds : Int)
  match s with
  | '.' :: s =>
      match ungrouped? Char.isDigit (s.takeWhile fun c => !isMark c) with
      | none => none
      | some ds =>
          match s.dropWhile fun c => !isMark c with
          | [] => some (ds, 0)
          | _ :: s => (exponent? s).map (ds, ·)
  | c :: s => if isMark c then (exponent? s).map ([], ·) else none
  | [] => none

def isFloat (s : List Char) : Bool :=
  let (_, s) := unsigned s
  if s = "inf".toList || s = "nan".toList then true
  else
    let isWhole (c : Char) : Bool := c.isDigit || c == '_'
    match plainDigits? (s.takeWhile isWhole), fraction? (s.dropWhile isWhole) with
    | some whole, some (part, exponent) =>
        !overflowsDouble ⟨inBase 10 (whole ++ part), exponent - part.length⟩
    | _, _ => false

/-- Exactly `n` digits at the head of a text, as a number. -/
def take? (n : Nat) (s : List Char) : Option (Nat × List Char) :=
  let ds := s.take n
  if ds.length = n && ds.all Char.isDigit then some (inBase 10 ds, s.drop n) else none

/-- The number of days in a month, or zero if there is no such month. -/
def daysIn (year month : Nat) : Nat :=
  if month = 2 then
    if year % 4 = 0 && (year % 100 ≠ 0 || year % 400 = 0) then 29 else 28
  else if month = 4 || month = 6 || month = 9 || month = 11 then 30
  else if 1 ≤ month && month ≤ 12 then 31
  else 0

/-- What follows a date at the head of a text. -/
def afterDate? (s : List Char) : Option (List Char) := do
  let (year, s) ← take? 4 s
  let (month, s) ← take? 2 (← Text.after? ['-'] s)
  let (day, s) ← take? 2 (← Text.after? ['-'] s)
  if 1 ≤ day && day ≤ daysIn year month then some s else none

/-- What follows a time at the head of a text. The seconds may be left out, and they may
have a fraction. -/
def afterTime? (s : List Char) : Option (List Char) := do
  let (hour, s) ← take? 2 s
  let (minute, s) ← take? 2 (← Text.after? [':'] s)
  if 23 < hour || 59 < minute then none
  else
    match s with
    | ':' :: s =>
        let (second, s) ← take? 2 s
        if 60 < second then none
        else
          match s with
          | '.' :: s =>
              if s.head?.any Char.isDigit then some (s.dropWhile Char.isDigit) else none
          | s => some s
    | s => some s

/-- Whether a text is nothing or the offset of a time. -/
def isOffset : List Char → Bool
  | [] => true
  | ['Z'] => true
  | ['z'] => true
  | c :: s =>
      if c == '+' || c == '-' then
        match take? 2 s with
        | some (hour, ':' :: s) =>
            match take? 2 s with
            | some (minute, []) => hour ≤ 23 && minute ≤ 59
            | _ => false
        | _ => false
      else false

/-- Whether a word is a date, a time, or both. -/
def isDateTime (s : List Char) : Bool :=
  match afterDate? s with
  | some [] => true
  | some (c :: t) =>
      (c == 'T' || c == 't' || c == ' ') && (afterTime? t).any isOffset
  | none => afterTime? s == some []

/-- Whether a character may stand in a scalar. -/
def isScalarChar (c : Char) : Bool :=
  c.isAlphanum || c == '+' || c == '-' || c == '.' || c == '_' || c == ':'

/-- The scalar at the head of a text: a word, or a date and a time with a space
between. -/
def scalarText (s : List Char) : List Char × List Char :=
  let word := s.takeWhile isScalarChar
  let rest := s.dropWhile isScalarChar
  match afterDate? word, rest with
  | some [], ' ' :: c :: r =>
      if c.isDigit then
        (word ++ ' ' :: (c :: r).takeWhile isScalarChar, (c :: r).dropWhile isScalarChar)
      else (word, rest)
  | _, _ => (word, rest)

def scalar? (s : List Char) : Option Value :=
  if s = "true".toList then some (.boolean true)
  else if s = "false".toList then some (.boolean false)
  else
    match integer? s with
    | some n => some (.integer n)
    | none =>
        if isFloat s then some .float
        else if isDateTime s then some .dateTime
        else none

end ShaderChain.Toml
