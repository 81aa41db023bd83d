import Mathlib.Algebra.Group.Nat.Defs
import ShaderChain.Proofs.Binding.Given

/-!
# Positional names

A texture without a name of its own is known by its kind and its number, and so is its size.
`IsPositional` is the grammar of these names. The words of two kinds cannot both start a name,
except that `Original` starts `OriginalHistory`, and what follows `Original` is not free. So the
kinds may be tried in any order: a name stands for a texture exactly if the grammar says so, and
for one at most.
-/

namespace ShaderChain

namespace Text

variable {p s rest : List Char} {n : Nat}

theorem after?_eq_some_iff : after? p s = some rest ↔ p ++ rest = s :=
  List.isPrefixOf?_eq_some_iff_append_eq

/-- An index is a run of digits whose value can be counted in a word. -/
theorem map_toNat_index?_eq_some_iff :
    (index? s).map UInt64.toNat = some n ↔ digits? s = some n ∧ n < 2 ^ 64 := by
  rw [index?, Option.map_map, Option.map_eq_some_iff]
  constructor
  · rintro ⟨m, hm, rfl⟩
    obtain ⟨hdigits, hlt⟩ := Option.filter_eq_some_iff.1 hm
    have hlt : m < 2 ^ 64 := of_decide_eq_true hlt
    rw [Function.comp_apply, UInt64.toNat_ofNat_of_lt' hlt]
    exact ⟨hdigits, hlt⟩
  · rintro ⟨hdigits, hlt⟩
    exact ⟨n, Option.filter_eq_some_iff.2 ⟨hdigits, decide_eq_true hlt⟩,
      UInt64.toNat_ofNat_of_lt' hlt⟩

end Text

namespace TextureSemantic

variable {s s' : TextureSemantic} {rest rest' between : List Char} {n : Nat}

/-- The words of the kinds with numbers. -/
def numberedWords : List (String × TextureSemantic) :=
  [("OriginalHistory", .inputHistory), ("PassOutput", .passOutput),
    ("PassFeedback", .passFeedback), ("User", .user)]

theorem mem_numberedWords_iff {token : String} :
    (token, s) ∈ numberedWords ↔ s.isArray = true ∧ s.word = token := by
  cases s <;> simp [numberedWords, isArray, word, eq_comm]

theorem number?_eq_some_iff :
    s.number? rest = some n ↔
      (s.isArray = true ∧ Text.digits? rest = some n ∧ n < 2 ^ 64) ∨
        (s.isArray = false ∧ rest = [] ∧ n = 0) := by
  rw [number?]
  cases s.isArray with
  | true => simpa using Text.map_toNat_index?_eq_some_iff
  | false => simp [eq_comm]

theorem eq_nil_of_number? (h : s.number? rest = some n) (harray : s.isArray = false) :
    rest = [] := by
  rcases number?_eq_some_iff.1 h with ⟨htrue, -, -⟩ | ⟨-, hnil, -⟩
  · rw [harray] at htrue
    cases htrue
  · exact hnil

/-- A word shows its kind, but for the one that starts with another. -/
theorem word_append_ne (hne : s ≠ s') (hinput : s = .chainInput → s' ≠ .inputHistory)
    (hhistory : s = .inputHistory → s' ≠ .chainInput) :
    s.word.toList ++ rest ≠ s'.word.toList ++ rest' := by
  cases s <;> cases s' <;> simp_all [word]

/-- A name shows which kind its word is of and what follows the word, if nothing follows that of
a kind without numbers. -/
theorem word_append_inj
    (h : s.word.toList ++ (between ++ rest) = s'.word.toList ++ (between ++ rest'))
    (hrest : s.isArray = false → rest = []) (hrest' : s'.isArray = false → rest' = []) :
    s = s' ∧ rest = rest' := by
  have hlength := congrArg List.length h
  have hinput : chainInput.word.toList.length = 8 := rfl
  have hhistory : inputHistory.word.toList.length = 15 := rfl
  have hkind : s = s' := by
    by_contra hne
    refine word_append_ne hne ?_ ?_ h
    · rintro rfl rfl
      simp only [List.length_append, hrest rfl, hinput, hhistory, List.length_nil] at hlength
      omega
    · rintro rfl rfl
      simp only [List.length_append, hrest' rfl, hinput, hhistory, List.length_nil] at hlength
      omega
  subst hkind
  exact ⟨rfl, List.append_cancel_left (List.append_cancel_left h)⟩

end TextureSemantic

namespace SymbolTable

variable {g : Graph} {between name : String} {r : TextureRef} {s : TextureSemantic}
  {token : String} {digits : List Char}

/-- The grammar of the names that stand for textures by their kind and number, with some text
between these: the two kinds without numbers have a word each, and the others a word that a
number in ASCII digits follows, below `2 ^ 64`. -/
inductive IsPositional (between : String) : String → TextureRef → Prop
  | chainInput : IsPositional between ("Original" ++ between) ⟨.chainInput, 0⟩
  | source : IsPositional between ("Source" ++ between) ⟨.source, 0⟩
  | numbered {token : String} {s : TextureSemantic} {digits : List Char}
      (htoken : (token, s) ∈ TextureSemantic.numberedWords) (hne : digits ≠ [])
      (hdigits : ∀ c ∈ digits, c.isDigit = true)
      (hlt : Nat.ofDigitChars 10 digits 0 < 2 ^ 64) :
      IsPositional between (token ++ between ++ String.ofList digits)
        ⟨s, Nat.ofDigitChars 10 digits 0⟩

/-- A name is positional if a word starts it and the number of the texture ends it. -/
theorem isPositional_iff :
    IsPositional between name r ↔
      ∃ rest, r.semantic.word.toList ++ (between.toList ++ rest) = name.toList ∧
        r.semantic.number? rest = some r.index := by
  constructor
  · rintro (_ | _ | ⟨htoken, hne, hdigits, hlt⟩)
    · exact ⟨[], by simp [TextureSemantic.word], rfl⟩
    · exact ⟨[], by simp [TextureSemantic.word], rfl⟩
    · next token s digits =>
        obtain ⟨harray, rfl⟩ := TextureSemantic.mem_numberedWords_iff.1 htoken
        refine ⟨digits, by simp, TextureSemantic.number?_eq_some_iff.2 (Or.inl ?_)⟩
        exact ⟨harray, Text.digits?_eq_some_iff.2 ⟨hne, hdigits, rfl⟩, hlt⟩
  · rintro ⟨rest, hname, hnumber⟩
    obtain ⟨s, i⟩ := r
    have hname : name = s.word ++ between ++ String.ofList rest := by
      rw [← String.toList_inj, ← hname]
      simp
    subst hname
    rcases TextureSemantic.number?_eq_some_iff.1 hnumber with
      ⟨harray, hdigits, hlt⟩ | ⟨harray, rfl, hzero⟩
    · obtain ⟨hne, hall, rfl⟩ := Text.digits?_eq_some_iff.1 hdigits
      exact .numbered (TextureSemantic.mem_numberedWords_iff.2 ⟨harray, rfl⟩) hne hall hlt
    · rw [String.ofList_nil, String.append_empty]
      dsimp only at harray hzero
      subst hzero
      cases s with
      | chainInput => exact .chainInput
      | source => exact .source
      | inputHistory | passOutput | passFeedback | user => cases harray

/-- A name stands for one texture at most. -/
theorem isPositional_unique {r' : TextureRef} (h : IsPositional between name r)
    (h' : IsPositional between name r') : r = r' := by
  obtain ⟨s, i⟩ := r
  obtain ⟨s', i'⟩ := r'
  obtain ⟨rest, hname, hnumber⟩ := isPositional_iff.1 h
  obtain ⟨rest', hname', hnumber'⟩ := isPositional_iff.1 h'
  obtain ⟨hkind, hrest⟩ := TextureSemantic.word_append_inj (hname.trans hname'.symm)
    (TextureSemantic.eq_nil_of_number? hnumber) (TextureSemantic.eq_nil_of_number? hnumber')
  dsimp only at hkind hnumber hnumber'
  subst hkind hrest
  rw [hnumber, Option.some.injEq] at hnumber'
  rw [hnumber']

/-- The loop over the kinds finds what the grammar says. -/
theorem positional?_eq_some_iff :
    positional? between name = some r ↔ IsPositional between name r := by
  have hread : ∀ (s : TextureSemantic) (r : TextureRef),
      ((Text.after? (s.word ++ between).toList name.toList).bind s.number?).map (⟨s, ·⟩) = some r ↔
        s = r.semantic ∧ IsPositional between name r := by
    rintro s ⟨s', i⟩
    simp only [Option.map_eq_some_iff, Option.bind_eq_some_iff, Text.after?_eq_some_iff,
      isPositional_iff, String.toList_append, List.append_assoc, TextureRef.mk.injEq]
    constructor
    · rintro ⟨n, hn, rfl, rfl⟩
      exact ⟨rfl, hn⟩
    · rintro ⟨rfl, hn⟩
      exact ⟨i, hn, rfl, rfl⟩
  have hfound : ∀ r', positional? between name = some r' → IsPositional between name r' := by
    intro r' h
    obtain ⟨s, -, hs⟩ := List.exists_of_findSome?_eq_some h
    exact ((hread s r').1 hs).2
  constructor
  · exact hfound r
  · intro h
    -- Some kind is found, and no other texture than this one can be meant by the name.
    have hsome : (positional? between name).isSome := by
      rw [positional?, List.findSome?_isSome_iff]
      exact ⟨r.semantic, Named.mem_all _, Option.isSome_iff_exists.2 ⟨r, (hread _ _).2 ⟨rfl, h⟩⟩⟩
    obtain ⟨r', hr'⟩ := Option.isSome_iff_exists.1 hsome
    rw [hr', isPositional_unique h (hfound r' hr')]

/-- A word of a kind with numbers and what follows it stand for a texture exactly if the kind
has it for a number, whatever stands between them. -/
theorem isPositional_token_iff (htoken : (token, s) ∈ TextureSemantic.numberedWords) :
    IsPositional between (token ++ between ++ String.ofList digits) r ↔
      r.semantic = s ∧ s.number? digits = some r.index := by
  obtain ⟨harray, rfl⟩ := TextureSemantic.mem_numberedWords_iff.1 htoken
  rw [isPositional_iff]
  constructor
  · rintro ⟨rest, hname, hnumber⟩
    have hnumbered : s.isArray = false → digits = [] := by simp [harray]
    obtain ⟨hkind, rfl⟩ := TextureSemantic.word_append_inj
      (hname.trans (by simp)) (TextureSemantic.eq_nil_of_number? hnumber) hnumbered
    subst hkind
    exact ⟨rfl, hnumber⟩
  · rintro ⟨rfl, hnumber⟩
    exact ⟨digits, by simp, hnumber⟩

theorem texture?_of_not_gives (h : ¬ g.Gives name) :
    (ofGraph g).texture? name = some r ↔ IsPositional "" name r := by
  rw [texture?, given?_eq_none_iff.2 h, Option.none_or, positional?_eq_some_iff]

/-- A name that ends with `Size` is what stands before it followed by this. -/
theorem sizeBase?_eq_some_iff {base : String} :
    sizeBase? name = some base ↔ base ++ "Size" = name := by
  rw [sizeBase?, Option.map_eq_some_iff]
  constructor
  · rintro ⟨rest, hrest, rfl⟩
    rw [Text.after?_eq_some_iff, ← List.reverse_inj] at hrest
    rw [← String.toList_inj]
    simpa [sizeWord] using hrest
  · rintro rfl
    exact ⟨base.toList.reverse, by simp [Text.after?_eq_some_iff, sizeWord], by simp⟩

/-- What the preset does not name is resolved by the grammar alone: a texture by its word and
its number, and the size of a texture, where its name is no value or parameter, with `Size`
between these. Either way a name has one meaning at most. -/
theorem resolves_iff_isPositional (g : Graph) (name : String) :
    (¬ g.Gives name → ∀ r, (ofGraph g).texture? name = some r ↔ IsPositional "" name r) ∧
    (¬ g.IsReserved name → (∀ base, base ++ "Size" = name → ¬ g.Gives base) →
      ∀ role, (ofGraph g).uniform? name = some role ↔
        ∃ r, role = .textureSize r ∧ IsPositional "Size" name r) ∧
    ∀ between r r', IsPositional between name r → IsPositional between name r' → r = r' := by
  refine ⟨fun hgiven r => texture?_of_not_gives hgiven, ?_,
    fun between r r' => isPositional_unique⟩
  intro hreserved hgiven role
  have hbase : (sizeBase? name).bind (ofGraph g).given? = none := by
    rw [Option.bind_eq_none_iff]
    intro base h
    exact given?_eq_none_iff.2 (hgiven base (sizeBase?_eq_some_iff.1 h))
  rw [uniform?_of_not_isReserved hreserved, sizedTexture?, hbase, Option.none_or,
    Option.map_eq_some_iff]
  simp only [sizeWord, positional?_eq_some_iff]
  exact exists_congr fun r => by rw [and_comm, eq_comm]

/-- A chain with a named pass, a lookup texture and a parameter. -/
def maskChain : Graph where
  passes :=
    [⟨⟨0, "blur.slang", none, .unset, .border, .unspecified, 0, false, false, false⟩,
      ⟨"blur.slang", none, none, [], "", "", 0⟩, "Blur", .native⟩]
  luts := [⟨"mask", .ofString "mask.png", .border, .unspecified, false⟩]
  parameters := [⟨0, "Gain", "Gain", .zero false, .zero false, .one, .tenth, "default"⟩]
  groups := []

theorem resolves_iff_isPositional_mask :
    ¬ maskChain.Gives "OriginalHistory007" ∧
      (ofGraph maskChain).texture? "OriginalHistory007" = some ⟨.inputHistory, 7⟩ ∧
      IsPositional "" "OriginalHistory007" ⟨.inputHistory, 7⟩ ∧
    ¬ maskChain.IsReserved "UserSize12" ∧
      (∀ base, base ++ "Size" = "UserSize12" → ¬ maskChain.Gives base) ∧
      (ofGraph maskChain).uniform? "UserSize12" = some (.textureSize ⟨.user, 12⟩) ∧
      ∃ r, UniformRole.textureSize ⟨.user, 12⟩ = .textureSize r ∧
        IsPositional "Size" "UserSize12" r := by
  have hgiven : ¬ maskChain.Gives "OriginalHistory007" := by decide +kernel
  have htexture : (ofGraph maskChain).texture? "OriginalHistory007" = some ⟨.inputHistory, 7⟩ := by
    decide +kernel
  have hreserved : ¬ maskChain.IsReserved "UserSize12" :=
    Graph.not_isReserved_iff.2 (by decide +kernel)
  have hbase : ∀ base, base ++ "Size" = "UserSize12" → ¬ maskChain.Gives base := by
    intro base h
    have hnone : sizeBase? "UserSize12" = none := by decide +kernel
    rw [sizeBase?_eq_some_iff.2 h] at hnone
    cases hnone
  have huniform : (ofGraph maskChain).uniform? "UserSize12" = some (.textureSize ⟨.user, 12⟩) := by
    decide +kernel
  exact ⟨hgiven, htexture, ((resolves_iff_isPositional maskChain _).1 hgiven _).1 htexture,
    hreserved, hbase, huniform,
    ((resolves_iff_isPositional maskChain _).2.1 hreserved hbase _).1 huniform⟩

end SymbolTable

end ShaderChain
