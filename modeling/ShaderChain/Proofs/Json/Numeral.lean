import ShaderChain.Json.Number
import ShaderChain.Json.Reader
import ShaderChain.Proofs.Text.Numeral
import ShaderChain.Proofs.Text.Runs

/-!
# Number tokens

Every number token that is written is the text of a numeral without a zero too many in front.
Such a text is read back as the numeral, and the reader of documents takes it whole in front of
whatever cannot continue it.
-/

namespace ShaderChain

/-- The text of a numeral: no point without digits behind it, and no exponent of zero. -/
def Numeral.text (n : Numeral) : List Char :=
  n.whole ++ ((if n.part = [] then [] else '.' :: n.part) ++
    if n.exponent = 0 then [] else 'e' :: Json.signedExponent n.exponent)

/-- A numeral that is a number in JSON: digits, and in front of the point a single zero or
digits that start with another one. -/
structure Numeral.IsNumber (n : Numeral) : Prop where
  whole : ∀ c ∈ n.whole, c.isDigit = true
  part : ∀ c ∈ n.part, c.isDigit = true
  ne_nil : n.whole ≠ []
  head : n.whole = ['0'] ∨ n.whole.head? ≠ some '0'

namespace Json

variable {n : Numeral} {ds r : List Char} {k : ℕ}

/-- What cannot continue a number. -/
def EndsNumber (r : List Char) : Prop :=
  ∀ c ∈ r.head?, c.isDigit = false ∧ c ≠ '.' ∧ c ≠ 'e' ∧ c ≠ 'E'

theorem endsNumber_nil : EndsNumber [] := by simp [EndsNumber]

theorem readDigits?_append (hne : ds ≠ []) (h : ∀ c ∈ ds, c.isDigit = true)
    (hr : ∀ c ∈ r.head?, c.isDigit = false) : readDigits? (ds ++ r) = some (ds, r) := by
  obtain ⟨c, cs, rfl⟩ := List.exists_cons_of_ne_nil hne
  rw [readDigits?, takeWhile_append_of_head? h hr, dropWhile_append_of_head? h hr]

theorem readWhole?_append (h : n.IsNumber) (hr : ∀ c ∈ r.head?, c.isDigit = false) :
    readWhole? (n.whole ++ r) = some (n.whole, r) := by
  rcases h.head with hzero | hhead
  · rw [hzero]
    rfl
  · obtain ⟨c, cs, hcs⟩ := List.exists_cons_of_ne_nil h.ne_nil
    have hc : c ≠ '0' := by
      rintro rfl
      exact hhead (by rw [hcs, List.head?_cons])
    have hread := readDigits?_append h.ne_nil h.whole hr
    rw [hcs] at hread ⊢
    rw [List.cons_append] at hread ⊢
    rw [readWhole?, hread]
    rintro s ⟨⟩
    exact hc rfl

/-- An exponent is read back after its letter. -/
theorem readExponent?_append {e : ℤ} (hr : EndsNumber r) :
    readExponent? ((if e = 0 then [] else 'e' :: signedExponent e) ++ r) =
      some (if e = 0 then [] else 'e' :: signedExponent e, r) := by
  split
  · rw [List.nil_append]
    cases r with
    | nil => rfl
    | cons c r =>
        obtain ⟨-, -, he, hE⟩ := hr c rfl
        simp [readExponent?, he, hE]
  · have hread := readDigits?_append (Text.decimal_ne_nil e.natAbs)
      (fun _ => Text.isDigit_of_mem_decimal) fun c hc => (hr c hc).1
    cases hneg : decide (e < 0) <;>
      simp only [decide_eq_true_eq, decide_eq_false_iff_not] at hneg <;>
      simp [readExponent?, signedExponent, hneg, hread]

theorem readPart?_append (h : ∀ c ∈ ds, c.isDigit = true)
    (hr : ∀ c ∈ r.head?, c.isDigit = false ∧ c ≠ '.') :
    readPart? ((if ds = [] then [] else '.' :: ds) ++ r) =
      some (if ds = [] then [] else '.' :: ds, r) := by
  split
  · cases r with
    | nil => rfl
    | cons c r =>
        rw [List.nil_append, readPart?]
        rintro s ⟨⟩
        exact (hr '.' rfl).2 rfl
  · rw [List.cons_append, readPart?, readDigits?_append ‹_› h fun c hc => (hr c hc).1]
    rfl

theorem head?_exponent {e : ℤ} (hr : EndsNumber r) :
    ∀ c ∈ ((if e = 0 then [] else 'e' :: signedExponent e) ++ r).head?,
      c.isDigit = false ∧ c ≠ '.' := by
  split
  · exact fun c hc => ⟨(hr c hc).1, (hr c hc).2.1⟩
  · rintro c ⟨⟩
    decide

theorem head?_part (ds : List Char) (hr : ∀ c ∈ r.head?, c.isDigit = false) :
    ∀ c ∈ ((if ds = [] then [] else '.' :: ds) ++ r).head?, c.isDigit = false := by
  split
  · exact hr
  · rintro c ⟨⟩
    rfl

theorem readMagnitude?_text (h : n.IsNumber) (hr : EndsNumber r) :
    readMagnitude? (n.text ++ r) = some (n.text, r) := by
  have hexponent := head?_exponent (e := n.exponent) hr
  have hpart := head?_part n.part fun c hc => (hexponent c hc).1
  rw [Numeral.text, List.append_assoc, List.append_assoc]
  simp [readMagnitude?, readWhole?_append h hpart, readPart?_append h.part hexponent,
    readExponent?_append hr]

/-- A number token, with a sign or without one, is taken whole. -/
theorem readNumber?_text (negative : Bool) (h : n.IsNumber) (hr : EndsNumber r) :
    readNumber? ((if negative then '-' :: n.text else n.text) ++ r) =
      some (if negative then '-' :: n.text else n.text, r) := by
  have hread := readMagnitude?_text h hr
  cases negative with
  | true => simp [readNumber?, hread]
  | false =>
      obtain ⟨c, cs, hcs⟩ := List.exists_cons_of_ne_nil h.ne_nil
      have hc : c.isDigit = true := h.whole c (by simp [hcs])
      rw [if_neg Bool.false_ne_true]
      rw [Numeral.text, hcs, List.cons_append, List.cons_append] at hread ⊢
      rw [readNumber?, hread]
      rintro s ⟨⟩
      exact absurd hc (by decide)

end Json

namespace Numeral

variable {n : Numeral}

theorem readExponent?_signed (e : ℤ) :
    readExponent? (if e = 0 then [] else 'e' :: Json.signedExponent e) = some e := by
  have hread := Text.digits?_decimal e.natAbs
  by_cases hzero : e = 0
  · rw [if_pos hzero, hzero]
    rfl
  · rw [if_neg hzero, Json.signedExponent]
    rcases Int.lt_or_le e 0 with hneg | hpos
    · have habs : -(e.natAbs : ℤ) = e := by omega
      rw [if_pos hneg]
      simp only [readExponent?, beq_self_eq_true, Bool.true_or, if_true, hread]
      exact congrArg some habs
    · rw [if_neg (Int.not_lt.2 hpos)]
      simp only [readExponent?, beq_self_eq_true, Bool.true_or, if_true, hread]
      exact congrArg some (Int.natAbs_of_nonneg hpos)

/-- The text of a number is read as the number. -/
theorem read?_text (h : n.IsNumber) : read? n.text = some n := by
  obtain ⟨whole, part, e⟩ := n
  have hexponent := Json.head?_exponent (e := e) Json.endsNumber_nil
  rw [List.append_nil] at hexponent
  have hpart := Json.head?_part part fun c hc => (hexponent c hc).1
  have hwhole := takeWhile_append_of_head? h.whole hpart
  have hrest := dropWhile_append_of_head? h.whole hpart
  have hread := readExponent?_signed e
  have hne : whole ≠ [] := h.ne_nil
  dsimp only at hwhole hrest
  rw [read?, text]
  dsimp only
  rw [hwhole, hrest]
  by_cases hnil : part = []
  · subst hnil
    by_cases he : e = 0
    · simp [hne, he, readExponent?]
    · rw [if_neg he] at hread
      simp [hne, he, hread]
  · have htake := takeWhile_append_of_head? h.part fun c hc => (hexponent c hc).1
    have hdrop := dropWhile_append_of_head? h.part fun c hc => (hexponent c hc).1
    rw [if_neg hnil, List.cons_append]
    simp [htake, hdrop, hne, hread]

end Numeral

end ShaderChain
