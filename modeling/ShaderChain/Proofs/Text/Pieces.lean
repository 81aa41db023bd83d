import ShaderChain.Text.Pieces

/-!
# Pieces

A text is cut into pieces that have nothing in them at which it is cut.
-/

namespace ShaderChain.Text

theorem forall_of_mem_splitOnP {stop : Char → Bool} {s p : List Char} (hp : p ∈ s.splitOnP stop) :
    ∀ c ∈ p, stop c = false := by
  induction s generalizing p with
  | nil =>
      rw [List.splitOnP_nil, List.mem_singleton] at hp
      simp [hp]
  | cons d s ih =>
      rw [List.splitOnP_cons_eq_if_modifyHead] at hp
      split at hp
      · rcases List.mem_cons.1 hp with rfl | hp
        · simp
        · exact ih hp
      · next hd =>
          -- a character at which the text is not cut joins the first piece
          obtain ⟨first, rest, hrest⟩ := List.exists_cons_of_ne_nil (List.splitOnP_ne_nil stop s)
          rw [hrest] at ih
          rw [hrest, List.modifyHead_cons] at hp
          rcases List.mem_cons.1 hp with rfl | hp
          · exact List.forall_mem_cons.2 ⟨by simpa using hd, ih List.mem_cons_self⟩
          · exact ih (List.mem_cons_of_mem first hp)

theorem forall_of_mem_splitOn {c : Char} {s p : List Char} (hp : p ∈ s.splitOn c) :
    ∀ d ∈ p, (d == c) = false :=
  forall_of_mem_splitOnP hp

end ShaderChain.Text
