import ShaderChain.Single.Decimal

/-!
# Shortest decimals

`Single.shortest` is the decimal with the fewest digits that reads back as the
same number and, of those, the one nearest to it. For each number of digits only
the two neighbours of the number on that decimal grid matter: if any decimal of
that many digits reads back, one of the two does. The search ends at the latest
with the exact value, which has finitely many decimal digits because a quantum
has.
-/

namespace ShaderChain

namespace Single

/-- The place of the first decimal digit: the largest `e` with `10 ^ e` at most
`num / den`, between -45 and 38. -/
def leadingPlace (num den : Nat) : Int :=
  match (List.range 84).find? fun k =>
      if k ≤ 38 then Nat.pow 10 (38 - k) * den ≤ num
      else den ≤ num * Nat.pow 10 (k - 38) with
  | some k => 38 - (k : Int)
  | none => -45

/-- The neighbours of `num / den` on the grid of multiples of `10 ^ e`, the
nearer one first, the even one in a tie. -/
def neighbours (num den : Nat) (e : Int) : List Decimal :=
  let (n, d) :=
    if 0 ≤ e then (num, den * Nat.pow 10 e.toNat) else (num * Nat.pow 10 (-e).toNat, den)
  let q := n / d
  let r := n % d
  if r = 0 then [⟨q, e⟩]
  else if 2 * r < d || (2 * r = d && q % 2 = 0) then [⟨q, e⟩, ⟨q + 1, e⟩]
  else [⟨q + 1, e⟩, ⟨q, e⟩]

/-- The shortest decimal of the magnitude of a finite number: the first one that
reads back as the magnitude, from one digit upward. -/
def shortest (x : Single) : Decimal :=
  let lead := leadingPlace x.quanta quantaPerOne
  let readsBack (d : Decimal) : Bool := (ofDecimal false d).code == x.code
  let found := (List.range 113).findSome? fun (k : Nat) =>
    (neighbours x.quanta quantaPerOne (lead - k)).find? readsBack
  if x.isZero then ⟨0, 0⟩ else found.getD ⟨x.quanta * Nat.pow 5 149, -149⟩

end Single

end ShaderChain
