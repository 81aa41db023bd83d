import Mathlib.Data.List.TakeWhile

/-!
# Runs at the start of a list

The longest run of entries with a property, in front of whatever does not start with one.
-/

namespace ShaderChain

variable {α : Type} {p : α → Bool} {run rest s : List α}

theorem takeWhile_append_of_head? (hrun : ∀ a ∈ run, p a = true)
    (hrest : ∀ a ∈ rest.head?, p a = false) : (run ++ rest).takeWhile p = run := by
  rw [List.takeWhile_append_of_pos hrun]
  cases rest with
  | nil => simp
  | cons a rest => simp [hrest a rfl]

theorem dropWhile_append_of_head? (hrun : ∀ a ∈ run, p a = true)
    (hrest : ∀ a ∈ rest.head?, p a = false) : (run ++ rest).dropWhile p = rest := by
  rw [List.dropWhile_append_of_pos hrun]
  cases rest with
  | nil => rfl
  | cons a rest => simp [hrest a rfl]

theorem head?_dropWhile (p : α → Bool) (s : List α) :
    ∀ a ∈ (s.dropWhile p).head?, p a = false := by
  intro a ha
  have hhead := List.head?_dropWhile_not p s
  rw [Option.mem_def.1 ha] at hhead
  exact hhead

/-- A run is what stands in a list in front of something that does not continue it. -/
theorem takeWhile_eq_iff :
    s.takeWhile p = run ↔
      ∃ rest, s = run ++ rest ∧ (∀ a ∈ run, p a = true) ∧ ∀ a ∈ rest.head?, p a = false := by
  constructor
  · rintro rfl
    exact ⟨s.dropWhile p, List.takeWhile_append_dropWhile.symm,
      fun _ => List.mem_takeWhile_imp, head?_dropWhile p s⟩
  · rintro ⟨rest, rfl, hrun, hrest⟩
    exact takeWhile_append_of_head? hrun hrest

/-- What is left behind a run is what follows it in the list and does not continue it. -/
theorem dropWhile_eq_iff :
    s.dropWhile p = rest ↔
      ∃ run, s = run ++ rest ∧ (∀ a ∈ run, p a = true) ∧ ∀ a ∈ rest.head?, p a = false := by
  constructor
  · rintro rfl
    exact ⟨s.takeWhile p, List.takeWhile_append_dropWhile.symm,
      fun _ => List.mem_takeWhile_imp, head?_dropWhile p s⟩
  · rintro ⟨run, rfl, hrun, hrest⟩
    exact dropWhile_append_of_head? hrun hrest

end ShaderChain
