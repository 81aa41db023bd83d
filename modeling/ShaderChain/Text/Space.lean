/-!
# Space and trimming

`isSpace` is the White_Space property of Unicode. Every trim and every split
into words of the library uses it; the preset scanner alone has narrower blanks
of its own. Trimming never looks inside: `trimStart` drops the longest run of
space in front, `trimEnd` the longest one behind.
-/

namespace ShaderChain.Text

/-- The White_Space property: 25 code points. -/
def isSpace (c : Char) : Bool :=
  let n := c.toNat
  (9 ≤ n && n ≤ 13) || n == 0x20 || n == 0x85 || n == 0xA0 || n == 0x1680 ||
    (0x2000 ≤ n && n ≤ 0x200A) || n == 0x2028 || n == 0x2029 || n == 0x202F ||
    n == 0x205F || n == 0x3000

def trimStart (s : List Char) : List Char := s.dropWhile isSpace

def trimEnd (s : List Char) : List Char := (s.reverse.dropWhile isSpace).reverse

def trim (s : List Char) : List Char := trimEnd (trimStart s)

@[simp] theorem trimStart_nil : trimStart [] = [] := rfl

@[simp] theorem trimEnd_nil : trimEnd [] = [] := rfl

theorem trimStart_cons (c : Char) (s : List Char) :
    trimStart (c :: s) = if isSpace c then trimStart s else c :: s := by
  simp [trimStart, List.dropWhile_cons]

/-- What follows `p` in `s`, if `s` starts with `p`. -/
def after? (p s : List Char) : Option (List Char) := p.isPrefixOf? s

@[simp] theorem after?_nil (s : List Char) : after? [] s = some s := by
  cases s <;> rfl

theorem after?_cons (c d : Char) (p s : List Char) :
    after? (c :: p) (d :: s) = if c = d then after? p s else none := by
  show (if c == d then after? p s else none) = if c = d then after? p s else none
  simp only [beq_iff_eq]

/-- Cut `s` before its first character with `stop`, if there is one. -/
def cutAt? (stop : Char → Bool) : List Char → Option (List Char × List Char)
  | [] => none
  | c :: s => if stop c then some ([], c :: s) else (cutAt? stop s).map fun (a, b) => (c :: a, b)

@[simp] theorem cutAt?_nil (stop : Char → Bool) : cutAt? stop [] = none := rfl

/-- A cut loses nothing. -/
theorem append_of_cutAt? {stop : Char → Bool} {s a b : List Char}
    (h : cutAt? stop s = some (a, b)) : a ++ b = s := by
  induction s generalizing a with
  | nil => simp [cutAt?] at h
  | cons c s ih =>
      unfold cutAt? at h
      split at h
      · simp_all
      · obtain ⟨⟨a', b'⟩, hs, hab⟩ := Option.map_eq_some_iff.1 h
        simp only [Prod.mk.injEq] at hab
        obtain ⟨rfl, rfl⟩ := hab
        simp [ih hs]

end ShaderChain.Text
