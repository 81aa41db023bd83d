import ShaderChain.Single.Round

/-!
# Arithmetic on singles

Products and differences are exact in quanta and rounded once. The special
values follow the interchange standard: an invalid operation is a NaN, and a
difference that vanishes is plus zero unless minus zero loses plus zero.
-/

namespace ShaderChain

namespace Single

/-- Quanta in the number one. -/
def quantaPerOne : Nat := Nat.pow 2 149

def ofNat (n : Nat) : Single := ofQuanta false (n * quantaPerOne) 1

def mul (x y : Single) : Single :=
  let negative := x.isNegative != y.isNegative
  if x.isNaN || y.isNaN then nan
  else if x.isInfinite || y.isInfinite then
    if x.isZero || y.isZero then nan else infinity negative
  else ofQuanta negative (x.quanta * y.quanta) quantaPerOne

/-- The quanta of a finite number with its sign. -/
def signedQuanta (x : Single) : Int :=
  if x.isNegative then - (x.quanta : Int) else x.quanta

def sub (x y : Single) : Single :=
  if x.isNaN || y.isNaN then nan
  else if x.isInfinite then
    if y.isInfinite && x.isNegative == y.isNegative then nan else x
  else if y.isInfinite then infinity (!y.isNegative)
  else
    let d := x.signedQuanta - y.signedQuanta
    if d = 0 then zero (x.isZero && x.isNegative && !y.isNegative)
    else ofQuanta (d < 0) d.natAbs 1

/-- One tenth, rounded: the share of a range that a step takes by default. -/
def tenth : Single := ⟨0x3DCCCCCD⟩

/-- The nearest whole number as a word, a half going away from zero. What lies
below the words is 0, what lies above is the largest word, and a NaN is 0. -/
def toWord (x : Single) : UInt32 :=
  if x.isNaN || x.isNegative then 0
  else if x.isInfinite then 0xFFFFFFFF
  else
    UInt32.ofNat (min ((2 * x.quanta + quantaPerOne) / (2 * quantaPerOne)) 0xFFFFFFFF)

end Single

instance : Mul Single := ⟨Single.mul⟩

instance : Sub Single := ⟨Single.sub⟩

end ShaderChain
