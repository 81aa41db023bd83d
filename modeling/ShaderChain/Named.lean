/-!
# Named values

A type whose finitely many values each have a name of their own. Presets,
sources and documents write such values by name, and `ofName?` reads them back:
`ofName?_eq_some_iff` says that it accepts exactly the names.
-/

namespace ShaderChain

/-- A type of finitely many values, each known by its own name. -/
class Named (α : Type) where
  all : List α
  name : α → String
  /-- Each value is listed, and no value before it has its name. -/
  find_name : ∀ a, all.find? (fun b => name b == name a) = some a

namespace Named

variable {α : Type} [Named α]

theorem mem_all (a : α) : a ∈ all := List.mem_of_find?_eq_some (find_name a)

def ofName? (s : String) : Option α := all.find? fun a => name a == s

@[simp] theorem ofName?_name (a : α) : ofName? (name a) = some a := find_name a

theorem ofName?_eq_some_iff {s : String} {a : α} : ofName? s = some a ↔ name a = s := by
  constructor
  · intro h
    simpa using List.find?_some h
  · rintro rfl
    simp

theorem ofName?_eq_none_iff {s : String} :
    (ofName? s : Option α) = none ↔ ∀ a : α, name a ≠ s := by
  rw [Option.eq_none_iff_forall_ne_some]
  exact forall_congr' fun a => not_congr ofName?_eq_some_iff

theorem name_injective {a b : α} (h : name a = name b) : a = b := by
  have := ofName?_name a
  rw [h, ofName?_name, Option.some.injEq] at this
  exact this.symm

end Named

end ShaderChain
