import ShaderChain.Single.Arithmetic
import ShaderChain.Text.Numeral

/-!
# Reading decimals

A `Decimal` is a whole number times a power of ten, and a `Numeral` is the text of one.
`Single.ofDecimal` rounds a decimal straight to single precision, and `Single.read?`
reads the text of a number: an optional sign, then digits with an optional point and an
optional exponent, or one of the words `inf`, `infinity` and `nan` in any case.
-/

namespace ShaderChain

structure Decimal where
  digits : Nat
  exponent : Int
  deriving DecidableEq, Repr

namespace Single

/-- The single nearest to a decimal with the given sign. A decimal of at least
`10 ^ 40` is infinity and one below `10 ^ -60` is zero, whatever its digits, so
that no large power is formed for them. -/
def ofDecimal (negative : Bool) (d : Decimal) : Single :=
  let places : Int := (Text.decimal d.digits).length + d.exponent
  if d.digits = 0 || places < -60 then zero negative
  else if 40 < places then infinity negative
  else if 0 ≤ d.exponent then
    ofQuanta negative (d.digits * Nat.pow 10 d.exponent.toNat * quantaPerOne) 1
  else
    ofQuanta negative (d.digits * quantaPerOne) (Nat.pow 10 (-d.exponent).toNat)

end Single

/-- A decimal as it is written without its sign: the digits before its point, the digits
behind it, and its exponent. -/
structure Numeral where
  whole : List Char
  part : List Char
  exponent : Int
  deriving DecidableEq, Repr

namespace Numeral

def digits (n : Numeral) : Nat := Nat.ofDigitChars 10 (n.whole ++ n.part) 0

def decimal (n : Numeral) : Decimal := ⟨n.digits, n.exponent - n.part.length⟩

/-- Read an exponent: nothing, or `e` or `E`, an optional sign and digits. -/
def readExponent? : List Char → Option Int
  | [] => some 0
  | c :: s =>
      if c == 'e' || c == 'E' then
        match s with
        | '-' :: r => (Text.digits? r).map fun n => - (n : Int)
        | '+' :: r => (Text.digits? r).map Int.ofNat
        | r => (Text.digits? r).map Int.ofNat
      else none

/-- Read digits with an optional point among or around them, and an optional
exponent. -/
def read? (s : List Char) : Option Numeral :=
  let whole := s.takeWhile Char.isDigit
  let rest := s.dropWhile Char.isDigit
  let (part, rest) := match rest with
    | '.' :: r => (r.takeWhile Char.isDigit, r.dropWhile Char.isDigit)
    | r => ([], r)
  if whole ++ part = [] then none
  else (readExponent? rest).map fun exponent => ⟨whole, part, exponent⟩

end Numeral

namespace Decimal

def read? (s : List Char) : Option Decimal := (Numeral.read? s).map Numeral.decimal

end Decimal

namespace Single

def readMagnitude? (negative : Bool) (s : List Char) : Option Single :=
  let word := s.map Char.toLower
  if word = "inf".toList || word = "infinity".toList then some (infinity negative)
  else if word = "nan".toList then some nan
  else (Decimal.read? s).map (ofDecimal negative)

/-- Read a number: an optional sign, then a decimal or one of the words. -/
def read? : List Char → Option Single
  | '-' :: s => readMagnitude? true s
  | '+' :: s => readMagnitude? false s
  | s => readMagnitude? false s

end Single

end ShaderChain
