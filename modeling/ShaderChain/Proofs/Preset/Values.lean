import ShaderChain.Preset.Values

/-!
# Values of keys

The value of a key is the one that is assigned to it last, and a key has a value exactly if
anything is assigned to it.
-/

namespace ShaderChain.Preset

/-- Whether a key has a value among assignments: its last one. -/
def IsValueOf (as : List Assignment) (key value : String) : Prop :=
  ∃ before after, as = before ++ ⟨key, value⟩ :: after ∧ ∀ a ∈ after, a.key ≠ key

/-- Whether anything is assigned to a key. -/
def HasKey (as : List Assignment) (key : String) : Prop := ∃ a ∈ as, a.key = key

/-- Whether two lists of assignments give the same values to some keys, or none. -/
def AgreeOn (as bs : List Assignment) (keys : List String) : Prop :=
  ∀ key ∈ keys, valueOf? as key = valueOf? bs key

variable {as : List Assignment} {key value : String}

theorem valueOf?_eq_some_iff : valueOf? as key = some value ↔ IsValueOf as key value := by
  rw [valueOf?, Option.map_eq_some_iff]
  constructor
  · rintro ⟨a, ha, rfl⟩
    obtain ⟨hkey, after, before, has, hafter⟩ := List.find?_eq_some_iff_append.1 ha
    obtain rfl := beq_iff_eq.1 hkey
    rw [List.reverse_eq_append_iff, List.reverse_cons, List.append_assoc] at has
    exact ⟨before.reverse, after.reverse, has, by simpa using hafter⟩
  · rintro ⟨before, after, rfl, hafter⟩
    refine ⟨⟨key, value⟩, List.find?_eq_some_iff_append.2 ⟨by simp, after.reverse, before.reverse,
      by simp, ?_⟩, rfl⟩
    simpa using hafter

theorem valueOf?_eq_none_iff : valueOf? as key = none ↔ ¬ HasKey as key := by
  simp [valueOf?, HasKey]

theorem isSome_valueOf?_iff : (valueOf? as key).isSome ↔ HasKey as key := by
  simp [valueOf?, HasKey]

end ShaderChain.Preset
