import Mathlib.Data.List.Induction
import ShaderChain.Source.Declaration

/-!
# Parameters and their declarations

A parameter may be declared again if the declarations agree. `Declaration.firstByName` keeps
the first declaration of each name, and `AreDeclaredBy` says that a list of parameters is what
its declarations, taken in order, amount to.
-/

namespace ShaderChain.Declaration

/-- The first declaration of each name, in order. -/
def firstByName (ds : List Declaration) : List Declaration :=
  ds.eraseDupsBy (·.name == ·.name)

/-- Whether parameters are those of some declarations: of each name the first, which the others
of the name agree with. -/
def AreDeclaredBy (parameters ds : List Declaration) : Prop :=
  parameters = firstByName ds ∧
    ∀ d ∈ ds, ∃ first ∈ parameters, first = d ∨ first.agrees d = true

section

variable {a d : Declaration} {ds parameters parameters' : List Declaration}

@[simp] theorem firstByName_nil : firstByName [] = [] := rfl

theorem firstByName_cons (a : Declaration) (ds : List Declaration) :
    firstByName (a :: ds) = a :: firstByName (ds.filter (·.name ≠ a.name)) := by
  simp [firstByName, List.eraseDupsBy_cons]

theorem any_name_filter (h : a.name ≠ d.name) (ds : List Declaration) :
    (ds.filter (·.name ≠ a.name)).any (·.name == d.name) = ds.any (·.name == d.name) := by
  induction ds with
  | nil => rfl
  | cons b ds ih =>
      rw [List.any_cons, ← ih]
      by_cases hb : b.name = a.name
      · simp [hb, h]
      · simp [hb]

/-- One more declaration counts if it is the first of its name. -/
theorem firstByName_append_singleton (ds : List Declaration) (d : Declaration) :
    firstByName (ds ++ [d]) =
      firstByName ds ++ if ds.any (·.name == d.name) then [] else [d] := by
  match ds with
  | [] => simp [firstByName_cons]
  | a :: ds =>
      have ih := firstByName_append_singleton (ds.filter (·.name ≠ a.name)) d
      rw [List.cons_append, firstByName_cons, firstByName_cons, List.filter_append,
        List.any_cons]
      by_cases h : a.name = d.name
      · simp [h]
      · have hkeep : [d].filter (·.name ≠ a.name) = [d] := by simp [Ne.symm h]
        rw [hkeep, ih, any_name_filter h, List.cons_append, beq_eq_false_iff_ne.2 h,
          Bool.false_or]
termination_by ds.length
decreasing_by exact Nat.lt_succ_of_le (List.length_filter_le _ _)

theorem any_firstByName (ds : List Declaration) (name : String) :
    (firstByName ds).any (·.name == name) = ds.any (·.name == name) := by
  induction ds using List.reverseRecOn with
  | nil => rfl
  | append_singleton ds d ih =>
      rw [firstByName_append_singleton, List.any_append, List.any_append, ih]
      by_cases h : ds.any (·.name == d.name) = true
      · by_cases hname : d.name = name
        · rw [← hname, h, Bool.true_or, Bool.true_or]
        · simp [h, hname]
      · simp [h]

/-- By taking one more declaration, the parameters become those of one more. -/
theorem areDeclaredBy_append_singleton (h : AreDeclaredBy parameters ds)
    (hadd : add? parameters d = some parameters') : AreDeclaredBy parameters' (ds ++ [d]) := by
  obtain ⟨rfl, hagree⟩ := h
  unfold add? at hadd
  split at hadd
  · next hfind =>
      have hnew : ds.any (·.name == d.name) = false := by
        rw [← any_firstByName]
        simpa using hfind
      rw [Option.some.injEq] at hadd
      subst hadd
      refine ⟨by simp [firstByName_append_singleton, hnew], ?_⟩
      intro d' hd'
      rcases List.mem_append.1 hd' with hd' | hd'
      · obtain ⟨first, hfirst, hd⟩ := hagree d' hd'
        exact ⟨first, List.mem_append_left _ hfirst, hd⟩
      · exact ⟨d, by simp, Or.inl (List.mem_singleton.1 hd').symm⟩
  · next first hfind =>
      have hfirst := List.mem_of_find?_eq_some hfind
      have hold : ds.any (·.name == d.name) = true := by
        rw [← any_firstByName]
        exact List.any_eq_true.2 ⟨first, hfirst, by simpa using List.find?_some hfind⟩
      split at hadd
      · next hagrees =>
          rw [Option.some.injEq] at hadd
          subst hadd
          refine ⟨by simp [firstByName_append_singleton, hold], ?_⟩
          intro d' hd'
          rcases List.mem_append.1 hd' with hd' | hd'
          · exact hagree d' hd'
          · rw [List.mem_singleton.1 hd']
            exact ⟨first, hfirst, Or.inr hagrees⟩
      · cases hadd

end

end ShaderChain.Declaration
