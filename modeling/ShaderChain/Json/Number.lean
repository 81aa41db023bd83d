import ShaderChain.Json.Value
import ShaderChain.Single.Shortest

/-!
# Singles in JSON

A single is written by its shortest decimal: with a point and at least one digit behind
it while the first digit stands between the sixth place behind the point and the
thirteenth before it, and with an exponent elsewhere. What is not finite is null, and
null is not read back.

A number is rounded once when it is read, with two exceptions: a very long one is cut
first, and a negative whole number just beyond the signed words goes through double
precision.
-/

namespace ShaderChain.Json

def dropEndZeros (ds : List Char) : List Char := (ds.reverse.dropWhile (· == '0')).reverse

/-- The digits of a decimal without the zeros at their end. -/
def significantDigits (d : Decimal) : List Char := dropEndZeros (Text.decimal d.digits)

/-- The place of the first digit of a decimal. -/
def firstPlace (d : Decimal) : Int := (Text.decimal d.digits).length + d.exponent - 1

/-- Digits with a point behind the given number of them, and at least one digit
behind the point. -/
def pointed (ds : List Char) (before : Nat) : List Char :=
  if ds.length ≤ before then ds ++ List.replicate (before - ds.length) '0' ++ ['.', '0']
  else ds.take before ++ '.' :: ds.drop before

def signedExponent (e : Int) : List Char :=
  (if e < 0 then '-' else '+') :: Text.decimal e.natAbs

/-- The text of a decimal that is not zero. -/
def renderDecimal (d : Decimal) : List Char :=
  let ds := significantDigits d
  let e := firstPlace d
  if e < -6 || 12 < e then
    (match ds with
      | c :: c' :: rest => c :: '.' :: c' :: rest
      | rest => rest) ++ 'e' :: signedExponent e
  else if e < 0 then '0' :: '.' :: List.replicate (-e - 1).toNat '0' ++ ds
  else pointed ds (e + 1).toNat

def renderSingle (x : Single) : List Char :=
  let magnitude := if x.isZero then ['0', '.', '0'] else renderDecimal x.shortest
  if x.isNegative then '-' :: magnitude else magnitude

/-- The number of a single, or null. -/
def ofSingle (x : Single) : Json := if x.isFinite then .number (renderSingle x) else .null

/-- How many digits of a long number are read. No midpoint between two singles has as
many. -/
def digitLimit : Nat := 113

/-- The decimal of a numeral, cut behind its first `digitLimit` digits: a one stands for
all digits behind them, be they zeros or not. Zeros in front, and zeros at the end of the
part behind the point, are no digits here. -/
def cutDecimal (n : Numeral) : Decimal :=
  let part := dropEndZeros n.part
  let ds := (n.whole ++ part).dropWhile (· == '0')
  if ds.length ≤ digitLimit then n.decimal
  else
    ⟨10 * Nat.ofDigitChars 10 (ds.take digitLimit) 0 + 1,
      n.exponent - part.length + (ds.length - (digitLimit + 1))⟩

/-- A whole number of 64 bits in double precision, which keeps the first 53 of them. -/
def inDouble (n : Nat) : Nat := nearestEven n (Nat.pow 2 11) * Nat.pow 2 11

/-- The decimal of a token without its sign. A negative whole number that fits a word but
not a signed one is taken in double precision. -/
def magnitude? (negative : Bool) (t : List Char) : Option Decimal :=
  (Numeral.read? t).map fun n =>
    if negative && t.all Char.isDigit && Nat.pow 2 63 < n.digits && n.digits < Nat.pow 2 64 then
      ⟨inDouble n.digits, 0⟩
    else cutDecimal n

/-- A single. One that would be infinite is refused. -/
def single? : Json → Option Single
  | .number ('-' :: t) => ((magnitude? true t).map (Single.ofDecimal true)).filter (·.isFinite)
  | .number t => ((magnitude? false t).map (Single.ofDecimal false)).filter (·.isFinite)
  | _ => none

end ShaderChain.Json
