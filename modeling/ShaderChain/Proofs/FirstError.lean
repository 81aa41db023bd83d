import Mathlib.Data.List.Basic
import ShaderChain.Proofs.Success

/-!
# First errors

A result that is put together from others fails with the first error among these. A function
with results that goes through a list fails with the error of the first entry at which it does,
so that all entries may as well be looked at before any error is.
-/

namespace ShaderChain.FirstError

variable {ε ε' α β : Type}

theorem bind_iff {x : Except ε α} {f : α → Except ε β} {e : ε} :
    x >>= f = .error e ↔ x = .error e ∨ ∃ a, x = .ok a ∧ f a = .error e := by
  cases x with
  | error e' =>
      show Except.error e' = .error e ↔ _
      simp
  | ok a =>
      show f a = .error e ↔ _
      simp

theorem mapError_iff {x : Except ε α} {f : ε → ε'} {e : ε'} :
    x.mapError f = .error e ↔ ∃ cause, x = .error cause ∧ f cause = e := by
  cases x <;> simp [Except.mapError]

/-- What follows a check fails if the check does, or else if it fails itself. -/
theorem unless_iff {p : Prop} [Decidable p] {e e' : ε} {f : PUnit → Except ε α} :
    (if p then throw e >>= f else f ⟨⟩) = .error e' ↔ p ∧ e = e' ∨ ¬ p ∧ f ⟨⟩ = .error e' := by
  by_cases h : p
  · rw [if_pos h]
    show Except.error e = .error e' ↔ _
    simp [h]
  · rw [if_neg h]
    simp [h]

/-- What holds of an entry with nothing before it, or of one behind a first entry. -/
theorem exists_getElem?_cons_iff {a : α} {as : List α} {p : Nat → α → Prop} :
    (∃ (i : Nat) (x : α), (a :: as)[i]? = some x ∧ p i x) ↔
      p 0 a ∨ ∃ (i : Nat) (x : α), as[i]? = some x ∧ p (i + 1) x := by
  constructor
  · rintro ⟨i, x, hx, hp⟩
    cases i with
    | zero =>
        cases hx
        exact Or.inl hp
    | succ i => exact Or.inr ⟨i, x, hx, hp⟩
  · rintro (hp | ⟨i, x, hx, hp⟩)
    · exact ⟨0, a, rfl, hp⟩
    · exact ⟨i + 1, x, hx, hp⟩

/-- A function with results fails on a list with the error of the first entry at which it
fails. -/
theorem mapM_iff {f : α → Except ε β} {as : List α} {e : ε} :
    as.mapM f = .error e ↔
      ∃ (i : Nat) (a : α), as[i]? = some a ∧ f a = .error e ∧
        ∀ (j : Nat) (a' : α), j < i → as[j]? = some a' → ∃ b, f a' = .ok b := by
  induction as with
  | nil =>
      rw [List.mapM_nil]
      constructor
      · intro h
        cases h
      · rintro ⟨i, a, ha, -⟩
        cases ha
  | cons a as ih =>
      rw [List.mapM_cons, bind_iff, exists_getElem?_cons_iff]
      refine or_congr ?_ ?_
      · simp
      · constructor
        · rintro ⟨b, hb, hrest⟩
          rcases bind_iff.1 hrest with hrest | ⟨bs, -, hpure⟩
          · obtain ⟨i, x, hx, hfail, hbefore⟩ := ih.1 hrest
            refine ⟨i, x, hx, hfail, ?_⟩
            intro j a' hj ha'
            cases j with
            | zero =>
                cases ha'
                exact ⟨b, hb⟩
            | succ j => exact hbefore j a' (by omega) ha'
          · cases hpure
        · rintro ⟨i, x, hx, hfail, hbefore⟩
          obtain ⟨b, hb⟩ := hbefore 0 a (Nat.succ_pos i) rfl
          refine ⟨b, hb, bind_iff.2 (Or.inl (ih.2 ⟨i, x, hx, hfail, ?_⟩))⟩
          intro j a' hj ha'
          exact hbefore (j + 1) a' (by omega) ha'

/-- Whether all errors of a result have a property. -/
def Within (p : ε → Prop) (x : Except ε α) : Prop := ∀ e, x = .error e → p e

section Within

variable {p : ε → Prop} {x : Except ε α}

theorem within_ok (p : ε → Prop) (a : α) : Within p (.ok a : Except ε α) := by
  intro e h
  cases h

theorem within_error {e : ε} (h : p e) : Within p (.error e : Except ε α) := by
  intro e' he'
  cases he'
  exact h

theorem Within.bind {f : α → Except ε β} (hx : Within p x) (hf : ∀ a, Within p (f a)) :
    Within p (x >>= f) := by
  intro e h
  rcases bind_iff.1 h with h | ⟨a, -, h⟩
  · exact hx e h
  · exact hf a e h

theorem Within.map {f : α → β} (hx : Within p x) : Within p (x.map f) := by
  cases x with
  | error e => exact within_error (hx e rfl)
  | ok a => exact within_ok p _

theorem within_unless {c : Prop} [Decidable c] {e : ε} {f : PUnit → Except ε α} (he : p e)
    (hf : Within p (f ⟨⟩)) : Within p (if c then throw e >>= f else f ⟨⟩) := by
  intro e' h
  rcases unless_iff.1 h with ⟨-, rfl⟩ | ⟨-, h⟩
  · exact he
  · exact hf e' h

end Within

end ShaderChain.FirstError
