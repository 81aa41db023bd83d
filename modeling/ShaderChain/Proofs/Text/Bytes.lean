import Mathlib.Data.List.Basic
import ShaderChain.Proofs.Text.Pieces

/-!
# Bytes of characters

A character of ASCII is encoded by the byte of its number, and any other one by bytes that encode
no character of ASCII. So a character of ASCII is found among bytes exactly where it is, and a text
is cut at one where its bytes are.
-/

namespace ShaderChain.Text

section Encoding

variable {c d : Char} {s : List Char} {b : UInt8}

theorem utf8EncodeChar_of_lt (h : c.toNat < 128) :
    String.utf8EncodeChar c = [UInt8.ofNat c.toNat] := by
  have hc : c.toNat = c.val.toNat := rfl
  rw [hc] at h
  rw [String.utf8EncodeChar.eq_def]
  dsimp only
  rw [if_pos (by omega), hc]

theorem le_of_mem_utf8EncodeChar (h : 128 ≤ c.toNat) (hb : b ∈ String.utf8EncodeChar c) :
    128 ≤ b.toNat := by
  have hc : c.toNat = c.val.toNat := rfl
  rw [hc] at h
  rw [String.utf8EncodeChar.eq_def] at hb
  dsimp only at hb
  rw [if_neg (by omega)] at hb
  split at hb
  · simp only [List.mem_cons, List.not_mem_nil, or_false] at hb
    rcases hb with rfl | rfl <;> simp <;> omega
  · split at hb
    · simp only [List.mem_cons, List.not_mem_nil, or_false] at hb
      rcases hb with rfl | rfl | rfl <;> simp <;> omega
    · simp only [List.mem_cons, List.not_mem_nil, or_false] at hb
      rcases hb with rfl | rfl | rfl | rfl <;> simp <;> omega

/-- A character of ASCII is where its byte is. -/
theorem ofNat_mem_utf8EncodeChar_iff (hd : d.toNat < 128) :
    UInt8.ofNat d.toNat ∈ String.utf8EncodeChar c ↔ c = d := by
  constructor
  · intro hmem
    rcases Nat.lt_or_ge c.toNat 128 with hc | hc
    · rw [utf8EncodeChar_of_lt hc, List.mem_singleton] at hmem
      have hnat := congrArg UInt8.toNat hmem
      simp only [UInt8.toNat_ofNat'] at hnat
      exact Char.toNat_inj.1 (by omega)
    · have hle := le_of_mem_utf8EncodeChar hc hmem
      simp only [UInt8.toNat_ofNat'] at hle
      omega
  · rintro rfl
    rw [utf8EncodeChar_of_lt hd]
    exact List.mem_singleton_self _

theorem head?_flatMap_utf8EncodeChar_eq_iff (hd : d.toNat < 128) :
    (s.flatMap String.utf8EncodeChar).head? = some (UInt8.ofNat d.toNat) ↔ s.head? = some d := by
  cases s with
  | nil => simp
  | cons c s =>
      rw [List.flatMap_cons, List.head?_append_of_ne_nil _ String.utf8EncodeChar_ne_nil,
        List.head?_cons, Option.some_inj]
      constructor
      · intro h
        exact (ofNat_mem_utf8EncodeChar_iff hd).1 (List.mem_of_mem_head? h)
      · rintro rfl
        rw [utf8EncodeChar_of_lt hd]
        rfl

theorem getLast?_flatMap_utf8EncodeChar_eq_iff (hd : d.toNat < 128) :
    (s.flatMap String.utf8EncodeChar).getLast? = some (UInt8.ofNat d.toNat) ↔
      s.getLast? = some d := by
  rcases s.eq_nil_or_concat with rfl | ⟨t, c, rfl⟩
  · simp
  · rw [List.concat_eq_append, List.flatMap_append, List.flatMap_singleton, List.getLast?_concat,
      List.getLast?_append_of_ne_nil _ String.utf8EncodeChar_ne_nil, Option.some_inj]
    constructor
    · intro h
      exact (ofNat_mem_utf8EncodeChar_iff hd).1 (List.mem_of_mem_getLast? h)
    · rintro rfl
      rw [utf8EncodeChar_of_lt hd]
      rfl

end Encoding

section Bytewise

/-- A byte as the character of its number. -/
def byteChar (b : UInt8) : Char := Char.ofNat b.toNat

/-- The bytes of a character, each as the character of its number. -/
def byteChars (c : Char) : List Char := (String.utf8EncodeChar c).map byteChar

/-- The bytes of a text, each as the character of its number. -/
def bytewise (s : List Char) : List Char := s.flatMap byteChars

variable {b : UInt8} {c d : Char} {s : List Char} {p : Char → Bool}

theorem toNat_byteChar (b : UInt8) : (byteChar b).toNat = b.toNat := by
  have hlt := b.toNat_lt
  have hvalid : b.toNat.isValidChar := Or.inl (by omega)
  rw [byteChar, Char.ofNat, dif_pos hvalid]
  rfl

theorem byteChar_eq_iff (hd : d.toNat < 128) : byteChar b = d ↔ b = UInt8.ofNat d.toNat := by
  rw [← Char.toNat_inj, toNat_byteChar, ← UInt8.toNat_inj, UInt8.toNat_ofNat',
    Nat.mod_eq_of_lt (by omega)]

theorem bytewise_eq (s : List Char) :
    bytewise s = (s.flatMap String.utf8EncodeChar).map byteChar := by
  rw [List.map_flatMap]
  rfl

theorem byteChars_of_lt (h : c.toNat < 128) : byteChars c = [c] := by
  rw [byteChars, utf8EncodeChar_of_lt h, List.map_singleton, (byteChar_eq_iff h).2 rfl]

theorem le_of_mem_byteChars (h : 128 ≤ c.toNat) (hd : d ∈ byteChars c) : 128 ≤ d.toNat := by
  obtain ⟨b, hb, rfl⟩ := List.mem_map.1 hd
  rw [toNat_byteChar]
  exact le_of_mem_utf8EncodeChar h hb

theorem byteChars_ne_nil (c : Char) : byteChars c ≠ [] :=
  List.map_eq_nil_iff.not.2 String.utf8EncodeChar_ne_nil

@[simp] theorem bytewise_nil : bytewise [] = [] := rfl

theorem bytewise_cons (c : Char) (s : List Char) : bytewise (c :: s) = byteChars c ++ bytewise s :=
  rfl

theorem bytewise_cons_of_lt (h : c.toNat < 128) (s : List Char) :
    bytewise (c :: s) = c :: bytewise s := by
  rw [bytewise_cons, byteChars_of_lt h, List.singleton_append]

theorem bytewise_append (s t : List Char) : bytewise (s ++ t) = bytewise s ++ bytewise t :=
  List.flatMap_append

theorem bytewise_eq_nil_iff : bytewise s = [] ↔ s = [] := by
  cases s with
  | nil => simp
  | cons c s => simp [bytewise_cons, byteChars_ne_nil]

/-- The first byte of a character, and the others, which are not ASCII. -/
theorem exists_byteChars_eq_cons (c : Char) :
    ∃ b bs, byteChars c = b :: bs ∧ ∀ d ∈ bs, 128 ≤ d.toNat := by
  obtain ⟨b, bs, hbytes⟩ := List.exists_cons_of_ne_nil (byteChars_ne_nil c)
  refine ⟨b, bs, hbytes, fun d hd => ?_⟩
  rcases Nat.lt_or_ge c.toNat 128 with hc | hc
  · rw [byteChars_of_lt hc] at hbytes
    cases hbytes
    cases hd
  · exact le_of_mem_byteChars hc (hbytes ▸ List.mem_cons_of_mem b hd)

/-- What only characters of ASCII have, all bytes of a character have as it does. -/
theorem apply_eq_of_mem_byteChars (hp : ∀ c, 128 ≤ c.toNat → p c = false)
    (hd : d ∈ byteChars c) : p d = p c := by
  rcases Nat.lt_or_ge c.toNat 128 with hc | hc
  · rw [byteChars_of_lt hc, List.mem_singleton] at hd
    rw [hd]
  · rw [hp c hc, hp d (le_of_mem_byteChars hc hd)]

theorem takeWhile_bytewise (hp : ∀ c, ∀ d ∈ byteChars c, p d = p c) (s : List Char) :
    (bytewise s).takeWhile p = bytewise (s.takeWhile p) := by
  induction s with
  | nil => rfl
  | cons c s ih =>
      rw [bytewise_cons, List.takeWhile_cons]
      cases hc : p c with
      | true =>
          rw [List.takeWhile_append_of_pos fun d hd => (hp c d hd).trans hc, ih]
          rfl
      | false =>
          obtain ⟨b, bs, hbytes, -⟩ := exists_byteChars_eq_cons c
          have hb : p b = false := (hp c b (hbytes ▸ List.mem_cons_self)).trans hc
          rw [hbytes, List.cons_append, List.takeWhile_cons, hb]
          rfl

theorem dropWhile_bytewise (hp : ∀ c, ∀ d ∈ byteChars c, p d = p c) (s : List Char) :
    (bytewise s).dropWhile p = bytewise (s.dropWhile p) := by
  induction s with
  | nil => rfl
  | cons c s ih =>
      rw [bytewise_cons, List.dropWhile_cons]
      cases hc : p c with
      | true =>
          rw [List.dropWhile_append_of_pos fun d hd => (hp c d hd).trans hc, ih]
          rfl
      | false =>
          obtain ⟨b, bs, hbytes, -⟩ := exists_byteChars_eq_cons c
          have hb : p b = false := (hp c b (hbytes ▸ List.mem_cons_self)).trans hc
          rw [hbytes, List.cons_append, List.dropWhile_cons, hb, if_neg Bool.false_ne_true,
            if_neg Bool.false_ne_true, bytewise_cons, hbytes, List.cons_append]

/-- A character of ASCII is a byte of a text exactly if it is in the text. -/
theorem mem_bytewise_iff (hd : d.toNat < 128) : d ∈ bytewise s ↔ d ∈ s := by
  simp [bytewise_eq, byteChar_eq_iff hd, ofNat_mem_utf8EncodeChar_iff hd]

theorem head?_bytewise_eq_iff (hd : d.toNat < 128) :
    (bytewise s).head? = some d ↔ s.head? = some d := by
  simp [bytewise_eq, byteChar_eq_iff hd, head?_flatMap_utf8EncodeChar_eq_iff hd]

theorem getLast?_bytewise_eq_iff (hd : d.toNat < 128) :
    (bytewise s).getLast? = some d ↔ s.getLast? = some d := by
  simp [bytewise_eq, byteChar_eq_iff hd, getLast?_flatMap_utf8EncodeChar_eq_iff hd]

theorem bytewise_intercalate (ps : List (List Char)) :
    bytewise (['\n'].intercalate ps) = ['\n'].intercalate (ps.map bytewise) := by
  induction ps with
  | nil => rfl
  | cons p ps ih =>
      cases ps with
      | nil => simp
      | cons q qs =>
          have hfeed : bytewise ['\n'] = ['\n'] := by decide
          rw [List.intercalate_cons_cons, List.map_cons, List.map_cons, List.intercalate_cons_cons,
            bytewise_append, bytewise_append, hfeed, ih, List.map_cons]

/-- Bytes are cut at line feeds where the text is. -/
theorem splitOn_bytewise (s : List Char) :
    (bytewise s).splitOn '\n' = (s.splitOn '\n').map bytewise := by
  have hfree : ∀ p ∈ (s.splitOn '\n').map bytewise, '\n' ∉ p := by
    intro p hp
    obtain ⟨q, hq, rfl⟩ := List.mem_map.1 hp
    rw [mem_bytewise_iff (by decide)]
    intro hmem
    cases forall_of_mem_splitOn hq '\n' hmem
  have hne : (s.splitOn '\n').map bytewise ≠ [] :=
    List.map_eq_nil_iff.not.2 (List.splitOn_ne_nil '\n' s)
  have hpieces := List.splitOn_intercalate '\n' hfree hne
  rwa [← bytewise_intercalate, List.intercalate_splitOn] at hpieces

end Bytewise

end ShaderChain.Text
