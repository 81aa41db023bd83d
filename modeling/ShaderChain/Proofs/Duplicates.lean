import Mathlib.Data.List.Induction
import Mathlib.Data.List.Nodup

/-!
# First occurrences

`List.eraseDups` keeps each entry of a list where it first occurs.
-/

namespace ShaderChain

variable {α : Type} [DecidableEq α]

/-- An entry behind others is kept where it is none of them. -/
theorem eraseDups_append_singleton (xs : List α) (x : α) :
    (xs ++ [x]).eraseDups = if x ∈ xs then xs.eraseDups else xs.eraseDups ++ [x] := by
  rw [List.eraseDups_append]
  by_cases hx : x ∈ xs
  · simp [List.removeAll, hx]
  · simp [List.removeAll, hx, List.eraseDups_cons]

theorem nodup_eraseDups (xs : List α) : xs.eraseDups.Nodup := by
  induction xs using List.reverseRecOn with
  | nil => simp
  | append_singleton xs x ih =>
      rw [eraseDups_append_singleton]
      split
      · exact ih
      · next hx =>
          rw [List.nodup_append]
          refine ⟨ih, List.nodup_singleton x, ?_⟩
          rintro a ha b hb rfl
          rw [List.mem_singleton] at hb
          subst hb
          exact hx (List.mem_eraseDups.1 ha)

end ShaderChain
