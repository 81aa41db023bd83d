/-!
# Decimal numerals

Whole numbers are written in ASCII digits, with any number of leading zeros and
at most one sign in front. `digits?` reads the digits, `unsigned?` and `count?`
add the sign and the bound.
-/

namespace ShaderChain.Text

/-- The number written by a nonempty run of ASCII digits. -/
def digits? (s : List Char) : Option Nat :=
  if s ≠ [] && s.all Char.isDigit then some (Nat.ofDigitChars 10 s 0) else none

@[simp] theorem digits?_nil : digits? [] = none := rfl

theorem digits?_eq_some_iff {s : List Char} {n : Nat} :
    digits? s = some n ↔ s ≠ [] ∧ (∀ c ∈ s, c.isDigit) ∧ Nat.ofDigitChars 10 s 0 = n := by
  simp [digits?, and_assoc]

/-- Read a number below `bound`; a plus sign may stand in front. -/
def unsigned? (bound : Nat) (s : List Char) : Option Nat :=
  let ds := match s with
    | '+' :: r => r
    | r => r
  (digits? ds).filter (· < bound)

theorem unsigned?_lt {bound : Nat} {s : List Char} {n : Nat} (h : unsigned? bound s = some n) :
    n < bound := by
  simp only [unsigned?, Option.filter_eq_some_iff, decide_eq_true_eq] at h
  exact h.2

/-- Read a count: a signed 63-bit number that is not negative, so that minus
zero is zero. -/
def count? : List Char → Option Nat
  | '-' :: r => (digits? r).filter (· = 0)
  | r => unsigned? (Nat.pow 2 63) r

theorem count?_lt {s : List Char} {n : Nat} (h : count? s = some n) : n < Nat.pow 2 63 := by
  unfold count? at h
  split at h
  · simp only [Option.filter_eq_some_iff, decide_eq_true_eq] at h
    rw [h.2]
    decide
  · exact unsigned?_lt h

/-- Read an index below `2 ^ 64` written in digits alone. -/
def index? (s : List Char) : Option UInt64 :=
  ((digits? s).filter (· < Nat.pow 2 64)).map UInt64.ofNat

def decimal (n : Nat) : List Char := Nat.toDigits 10 n

end ShaderChain.Text
