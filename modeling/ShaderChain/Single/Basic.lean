/-!
# Single-precision numbers

A `Single` is a word of the 32-bit binary interchange format. Its top bit is the
sign, and the other 31 bits are the code of its magnitude: codes count the
magnitudes upward from zero, infinity is the code `infinityCode`, and every
larger code is a NaN.

Every finite magnitude is a whole number of quanta, a quantum being `2 ^ -149`.
The code `c` stands for `significand c * 2 ^ shift c` quanta. All arithmetic of
the library is exact in quanta and rounded once at the end, so nothing here
depends on the floating-point unit.
-/

namespace ShaderChain

/-- A number of the 32-bit binary interchange format, by its word. -/
structure Single where
  bits : UInt32
  deriving DecidableEq, Repr, Inhabited

namespace Single

def infinityCode : Nat := 0x7F800000

/-- The code of the magnitude: the word without its sign. -/
def code (x : Single) : Nat := x.bits.toNat % Nat.pow 2 31

def isNegative (x : Single) : Bool := Nat.pow 2 31 ≤ x.bits.toNat

def ofCode (negative : Bool) (c : Nat) : Single :=
  ⟨UInt32.ofNat (if negative then Nat.pow 2 31 + c else c)⟩

def isNaN (x : Single) : Bool := infinityCode < x.code

def isInfinite (x : Single) : Bool := x.code == infinityCode

def isFinite (x : Single) : Bool := x.code < infinityCode

def isZero (x : Single) : Bool := x.code == 0

/-- The NaN that operations answer with. -/
def nan : Single := ⟨0x7FC00000⟩

def infinity (negative : Bool) : Single := ofCode negative infinityCode

def zero (negative : Bool) : Single := ofCode negative 0

def one : Single := ⟨0x3F800000⟩

/-- How many places the significand of the code `c` is shifted. -/
def shift (c : Nat) : Nat := c / Nat.pow 2 23 - 1

/-- The significand of the code `c`, below `2 ^ 24`. -/
def significand (c : Nat) : Nat := c - shift c * Nat.pow 2 23

/-- The magnitude of a finite number, in quanta of `2 ^ -149`. -/
def quanta (x : Single) : Nat := significand x.code * Nat.pow 2 (shift x.code)

/-- Equality of numbers: a NaN differs from everything, and the two zeros are
equal. -/
def numEq (x y : Single) : Bool :=
  !x.isNaN && !y.isNaN && (x == y || (x.isZero && y.isZero))

theorem significand_lt {c : Nat} : significand c < Nat.pow 2 24 := by
  simp only [significand, shift, Nat.pow_eq]
  omega

theorem shift_mul_add_significand (c : Nat) : shift c * Nat.pow 2 23 + significand c = c := by
  simp only [significand, shift, Nat.pow_eq]
  omega

theorem numEq_self {x : Single} : x.numEq x = !x.isNaN := by
  simp [numEq]

theorem numEq_comm (x y : Single) : x.numEq y = y.numEq x := by
  simp only [numEq, Bool.and_comm, Bool.beq_comm (a := x) (b := y)]

end Single

end ShaderChain
