import ShaderChain.Proofs.Binding.Positional

/-!
# Names of sizes

A pass reads the size of a texture that it samples by a name of its own, which is made of the
texture's name: with `Size` behind a name that the preset gives, and between the word and the
number of any other. The two names agree as far as they are of one sort. A preset may also give
a name that looks like a word and a number; then sampling follows the preset, and reading the
size, where `Size` stands before the number, follows the number.
-/

namespace ShaderChain.SymbolTable

variable {g : Graph} {name text token : String} {r : TextureRef} {s : TextureSemantic}
  {digits : List Char}

/-- The size of a texture that the preset names is known by that name with `Size` behind it. -/
theorem uniform?_append_size (hgiven : (ofGraph g).given? name = some r)
    (hreserved : ¬ g.IsReserved (name ++ "Size")) :
    (ofGraph g).uniform? (name ++ "Size") = some (.textureSize r) := by
  rw [uniform?_of_not_isReserved hreserved, sizedTexture?, sizeBase?_eq_some_iff.2 rfl,
    Option.bind_some, hgiven, Option.some_or, Option.map_some]

/-- A name that ends with a digit does not end with `Size`. -/
theorem sizeBase?_append_digits (hne : digits ≠ []) (hdigits : ∀ c ∈ digits, c.isDigit = true) :
    sizeBase? (text ++ String.ofList digits) = none := by
  rw [Option.eq_none_iff_forall_ne_some]
  intro base h
  obtain ⟨front, c, rfl⟩ := (List.eq_nil_or_concat digits).resolve_left hne
  have hlast := congrArg (·.toList.getLast?) (sizeBase?_eq_some_iff.1 h)
  have hc : c = 'e' := by simpa using hlast.symm
  have hdigit := hdigits c (by simp)
  rw [hc] at hdigit
  cases hdigit

/-- Of a word and a number, with `Size` between them, the number counts. -/
theorem uniform?_token_iff (htoken : (token, s) ∈ TextureSemantic.numberedWords)
    (hne : digits ≠ []) (hdigits : ∀ c ∈ digits, c.isDigit = true)
    (hreserved : ¬ g.IsReserved (token ++ "Size" ++ String.ofList digits)) :
    (ofGraph g).uniform? (token ++ "Size" ++ String.ofList digits) = some (.textureSize r) ↔
      IsPositional "" (token ++ String.ofList digits) r := by
  have hsame : IsPositional "Size" (token ++ "Size" ++ String.ofList digits) r ↔
      IsPositional "" (token ++ "" ++ String.ofList digits) r := by
    rw [isPositional_token_iff htoken, isPositional_token_iff htoken]
  rw [String.append_empty] at hsame
  rw [uniform?_of_not_isReserved hreserved, sizedTexture?, sizeBase?_append_digits hne hdigits,
    Option.bind_none, Option.none_or, ← hsame, ← positional?_eq_some_iff, sizeWord]
  simp

/-- A word alone stands for a texture only if the preset names one so. -/
theorem given?_token (htoken : (token, s) ∈ TextureSemantic.numberedWords)
    (h : (ofGraph g).texture? token = some r) : (ofGraph g).given? token = some r := by
  rcases Option.or_eq_some_iff.1 h with hgiven | ⟨-, hpositional⟩
  · exact hgiven
  · have hname : token = token ++ "" ++ String.ofList [] := by simp
    rw [positional?_eq_some_iff, hname, isPositional_token_iff htoken] at hpositional
    rcases TextureSemantic.number?_eq_some_iff.1 hpositional.2 with ⟨-, hnil, -⟩ | ⟨hnot, -, -⟩
    · cases hnil
    · rw [(TextureSemantic.mem_numberedWords_iff.1 htoken).1] at hnot
      cases hnot

/-- The size of a texture that the preset names is read by this name with `Size` behind it. By a
word and a number, with `Size` before the number, the size of the texture is read that the word
and the number stand for, unless the preset gives this name to another texture. -/
theorem uniform?_size_iff (g : Graph) :
    (∀ name, g.Gives name → ¬ g.IsReserved (name ++ "Size") →
      ∃ r, (ofGraph g).texture? name = some r ∧
        (ofGraph g).uniform? (name ++ "Size") = some (.textureSize r)) ∧
    ∀ token s digits r, (token, s) ∈ TextureSemantic.numberedWords →
      (∀ c ∈ digits, c.isDigit = true) →
      (ofGraph g).texture? (token ++ String.ofList digits) = some r →
      ¬ g.IsReserved (token ++ "Size" ++ String.ofList digits) →
      ((ofGraph g).uniform? (token ++ "Size" ++ String.ofList digits) = some (.textureSize r) ↔
        digits = [] ∨ ¬ g.Gives (token ++ String.ofList digits) ∨
          IsPositional "" (token ++ String.ofList digits) r) := by
  constructor
  · intro name hgives hreserved
    obtain ⟨r, hr⟩ := exists_given?_iff.2 hgives
    exact ⟨r, texture?_of_given? hr, uniform?_append_size hr hreserved⟩
  · intro token s digits r htoken hdigits htexture hreserved
    by_cases hne : digits = []
    · subst hne
      rw [String.ofList_nil, String.append_empty] at *
      simpa using uniform?_append_size (given?_token htoken htexture) hreserved
    · rw [uniform?_token_iff htoken hne hdigits hreserved]
      constructor
      · exact fun hpositional => Or.inr (Or.inr hpositional)
      · rintro (hnil | hgives | hpositional)
        · exact absurd hnil hne
        · exact (texture?_of_not_gives hgives).1 htexture
        · exact hpositional

theorem uniform?_size_iff_mask :
    maskChain.Gives "BlurFeedback" ∧ ¬ maskChain.IsReserved ("BlurFeedback" ++ "Size") ∧
      (∃ r, (ofGraph maskChain).texture? "BlurFeedback" = some r ∧
        (ofGraph maskChain).uniform? ("BlurFeedback" ++ "Size") = some (.textureSize r)) ∧
    (ofGraph maskChain).texture? "User01" = some ⟨.user, 1⟩ ∧ ¬ maskChain.Gives "User01" ∧
      ¬ maskChain.IsReserved "UserSize01" ∧
      (ofGraph maskChain).uniform? "UserSize01" = some (.textureSize ⟨.user, 1⟩) := by
  have hgives : maskChain.Gives "BlurFeedback" := by decide +kernel
  have hreserved : ¬ maskChain.IsReserved ("BlurFeedback" ++ "Size") :=
    Graph.not_isReserved_iff.2 (by decide +kernel)
  have htexture : (ofGraph maskChain).texture? "User01" = some ⟨.user, 1⟩ := by decide +kernel
  have hgives' : ¬ maskChain.Gives "User01" := by decide +kernel
  have hreserved' : ¬ maskChain.IsReserved "UserSize01" :=
    Graph.not_isReserved_iff.2 (by decide +kernel)
  have hdigits : ∀ c ∈ ['0', '1'], c.isDigit = true := List.all_eq_true.1 rfl
  refine ⟨hgives, hreserved, (uniform?_size_iff maskChain).1 _ hgives hreserved, htexture, hgives',
    hreserved', ?_⟩
  exact ((uniform?_size_iff maskChain).2 "User" .user _ ⟨.user, 1⟩ (by decide) hdigits htexture
    hreserved').2 (Or.inr (Or.inl hgives'))

/-- A preset that names its second pass as the output of the first is named elsewhere. -/
def imitatingPreset : String :=
  "shaders = 2\nshader0 = a\nshader1 = b\nalias1 = PassOutput0\n"

open ShaderChain.Graph (declaringNames) in
/-- Sampling by a name may follow the preset and reading the size the number: the second pass is
sampled, and the size of the first is read. -/
theorem not_uniform?_size_imitating :
    ∃ m g, Preset.Model.ofString imitatingPreset = .ok m ∧
      Graph.assemble m [declaringNames [], declaringNames []] = .ok g ∧
      (ofGraph g).texture? "PassOutput0" = some ⟨.passOutput, 1⟩ ∧
      ¬ g.IsReserved "PassOutputSize0" ∧
      (ofGraph g).uniform? "PassOutputSize0" = some (.textureSize ⟨.passOutput, 0⟩) := by
  have h : ((Preset.Model.ofString imitatingPreset).mapError fun _ => ()).bind (fun m =>
      ((Graph.assemble m [declaringNames [], declaringNames []]).map fun g =>
        ((ofGraph g).texture? "PassOutput0", g.parameters,
          (ofGraph g).uniform? "PassOutputSize0")).mapError fun _ => ()) =
      .ok (some ⟨.passOutput, 1⟩, [], some (.textureSize ⟨.passOutput, 0⟩)) := by
    decide +kernel
  obtain ⟨m, hm, h⟩ := Success.bind_iff.1 h
  obtain ⟨g, hg, hparts⟩ := Success.map_iff.1 (Success.mapError_iff.1 h)
  simp only [Prod.mk.injEq] at hparts
  obtain ⟨htexture, hparameters, huniform⟩ := hparts
  refine ⟨m, g, Success.mapError_iff.1 hm, hg, htexture, ?_, huniform⟩
  rw [Graph.not_isReserved_iff, hparameters]
  exact ⟨by decide +kernel, by simp⟩

end ShaderChain.SymbolTable
