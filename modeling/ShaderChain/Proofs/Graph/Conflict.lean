import Mathlib.Data.List.Nodup
import Mathlib.Data.List.Pairwise
import ShaderChain.Graph.Assembly
import ShaderChain.Proofs.FirstError

/-!
# Conflicting declarations

Declarations are merged one after the other, each being compared with the first one of its name.
As agreement is symmetric and transitive, it does not matter which of the earlier ones is taken:
merging succeeds exactly if any two declarations of one name agree, and an assembly fails for
its parameters exactly if two of them do not. Agreement is not reflexive. A declaration with a
NaN does not even agree with itself, and the two zeros agree.
-/

namespace ShaderChain

namespace Single

/-- Whether two words stand for the same number, every NaN being the same. -/
def IsSame (x y : Single) : Prop := x = y ∨ x.isNaN = true ∧ y.isNaN = true

theorem isNaN_of_isZero {x : Single} (h : x.isZero = true) : x.isNaN = false := by
  rw [isZero, beq_iff_eq] at h
  simp [isNaN, h]

/-- Numbers are equal if they are the same and no NaN, or else if both are zeros. -/
theorem numEq_iff {x y : Single} :
    x.numEq y = true ↔ x = y ∧ x.isNaN = false ∨ x.isZero = true ∧ y.isZero = true := by
  simp only [numEq, Bool.and_eq_true, Bool.or_eq_true, Bool.not_eq_true', beq_iff_eq]
  constructor
  · rintro ⟨⟨hx, -⟩, rfl | hzeros⟩
    · exact Or.inl ⟨rfl, hx⟩
    · exact Or.inr hzeros
  · rintro (⟨rfl, hx⟩ | ⟨hx, hy⟩)
    · exact ⟨⟨hx, hx⟩, Or.inl rfl⟩
    · exact ⟨⟨isNaN_of_isZero hx, isNaN_of_isZero hy⟩, Or.inr ⟨hx, hy⟩⟩

theorem numEq_trans {x y z : Single} (hxy : x.numEq y = true) (hyz : y.numEq z = true) :
    x.numEq z = true := by
  simp only [numEq, Bool.and_eq_true, Bool.or_eq_true, Bool.not_eq_true', beq_iff_eq] at *
  obtain ⟨⟨hx, -⟩, hxy⟩ := hxy
  obtain ⟨⟨-, hz⟩, hyz⟩ := hyz
  refine ⟨⟨hx, hz⟩, ?_⟩
  rcases hxy with rfl | ⟨hx, hy⟩
  · exact hyz
  · rcases hyz with rfl | ⟨-, hz⟩
    · exact Or.inr ⟨hx, hy⟩
    · exact Or.inr ⟨hx, hz⟩

end Single

namespace Declaration

variable {a b c d first : Declaration} {ds ds' rest : List Declaration}
  {same : Single → Single → Prop}

/-- The numbers of a declaration, in the order of its text. -/
def numbers (d : Declaration) : List Single := [d.initial, d.minimum, d.maximum, d.step]

/-- Whether two declarations are alike but for their names, where `same` says of two numbers
that they are the same. -/
def IsLike (same : Single → Single → Prop) (a b : Declaration) : Prop :=
  a.description = b.description ∧ List.Forall₂ same a.numbers b.numbers

/-- Whether two of some declarations have the same name and are not alike. -/
def Conflict (same : Single → Single → Prop) (ds : List Declaration) : Prop :=
  ∃ (i j : Nat) (a b : Declaration), i < j ∧ ds[i]? = some a ∧ ds[j]? = some b ∧
    a.name = b.name ∧ ¬ a.IsLike same b

/-- Declarations that are all the same do not conflict, if each number is the same as itself. -/
theorem not_conflict_of_forall_eq (hsame : ∀ x, same x x) (h : ∀ a ∈ ds, a = d) :
    ¬ Conflict same ds := by
  rintro ⟨i, j, a, b, -, ha, hb, -, hlike⟩
  rw [h a (List.mem_of_getElem? ha), h b (List.mem_of_getElem? hb)] at hlike
  exact hlike ⟨rfl, List.forall₂_same.2 fun x _ => hsame x⟩

theorem agrees_iff :
    a.agrees b = true ↔ a.name = b.name ∧ a.IsLike (fun x y => x.numEq y = true) b := by
  simp [agrees, IsLike, numbers, and_assoc]

theorem agrees_self_iff : d.agrees d = true ↔ ∀ x ∈ d.numbers, x.isNaN = false := by
  simp [agrees, numbers, Single.numEq_self, and_assoc]

theorem agrees_symm (h : a.agrees b = true) : b.agrees a = true := by
  simp only [agrees, Bool.and_eq_true, beq_iff_eq] at *
  obtain ⟨⟨⟨⟨⟨hname, hdescription⟩, hinitial⟩, hminimum⟩, hmaximum⟩, hstep⟩ := h
  exact ⟨⟨⟨⟨⟨hname.symm, hdescription.symm⟩, Single.numEq_comm _ _ ▸ hinitial⟩,
    Single.numEq_comm _ _ ▸ hminimum⟩, Single.numEq_comm _ _ ▸ hmaximum⟩,
    Single.numEq_comm _ _ ▸ hstep⟩

theorem agrees_trans (hab : a.agrees b = true) (hbc : b.agrees c = true) :
    a.agrees c = true := by
  simp only [agrees, Bool.and_eq_true, beq_iff_eq] at *
  obtain ⟨⟨⟨⟨⟨hname, hdescription⟩, hinitial⟩, hminimum⟩, hmaximum⟩, hstep⟩ := hab
  obtain ⟨⟨⟨⟨⟨hname', hdescription'⟩, hinitial'⟩, hminimum'⟩, hmaximum'⟩, hstep'⟩ := hbc
  exact ⟨⟨⟨⟨⟨hname.trans hname', hdescription.trans hdescription'⟩,
    Single.numEq_trans hinitial hinitial'⟩, Single.numEq_trans hminimum hminimum'⟩,
    Single.numEq_trans hmaximum hmaximum'⟩, Single.numEq_trans hstep hstep'⟩

/-- Whether two declarations can stand side by side: they agree if they have the same name. -/
def StandTogether (a b : Declaration) : Prop := a.name = b.name → a.agrees b = true

theorem not_conflict_iff_pairwise :
    ¬ Conflict (fun x y => x.numEq y = true) ds ↔ ds.Pairwise StandTogether := by
  rw [List.pairwise_iff_getElem]
  constructor
  · intro h i j hi hj hij hname
    by_contra hagrees
    refine h ⟨i, j, ds[i], ds[j], hij, List.getElem?_eq_getElem hi, List.getElem?_eq_getElem hj,
      hname, ?_⟩
    intro hlike
    exact hagrees (agrees_iff.2 ⟨hname, hlike⟩)
  · rintro h ⟨i, j, a, b, hij, ha, hb, hname, hlike⟩
    obtain ⟨hi, rfl⟩ := List.getElem?_eq_some_iff.1 ha
    obtain ⟨hj, rfl⟩ := List.getElem?_eq_some_iff.1 hb
    exact hlike (agrees_iff.1 (h i j hi hj hij hname)).2

theorem standTogether_iff_of_agrees (h : first.agrees d = true) :
    first.StandTogether b ↔ d.StandTogether b := by
  have hname : first.name = d.name := (agrees_iff.1 h).1
  rw [StandTogether, StandTogether, hname]
  constructor
  · intro hfirst hb
    exact agrees_trans (agrees_symm h) (hfirst hb)
  · intro hd hb
    exact agrees_trans h (hd hb)

section Add

/-- A declaration of a new name is added. -/
theorem add?_of_new (h : ∀ a ∈ ds, a.name ≠ d.name) : add? ds d = some (ds ++ [d]) := by
  have hfind : ds.find? (·.name == d.name) = none := by simpa using h
  rw [add?, hfind]

/-- A declaration of a name that is there adds nothing, and must agree with the one there. -/
theorem add?_of_mem (hnodup : (ds.map (·.name)).Nodup) (hfirst : first ∈ ds)
    (hname : first.name = d.name) :
    add? ds d = if first.agrees d then some ds else none := by
  have hfind : ds.find? (·.name == d.name) = some first := by
    induction ds with
    | nil => cases hfirst
    | cons a ds ih =>
        rw [List.map_cons, List.nodup_cons] at hnodup
        rcases List.mem_cons.1 hfirst with rfl | hfirst
        · simp [hname]
        · have hne : a.name ≠ d.name := by
            intro ha
            exact hnodup.1 (List.mem_map.2 ⟨first, hfirst, hname.trans ha.symm⟩)
          rw [List.find?_cons_of_neg (by simpa using hne), ih hnodup.2 hfirst]
  rw [add?, hfind]

/-- By adding a declaration, those that are there become those and this one, or it is like one
of those. -/
theorem add?_cases (h : add? ds d = some ds') :
    (ds' = ds ++ [d] ∧ ∀ a ∈ ds, a.name ≠ d.name) ∨
      (ds' = ds ∧ ∃ first ∈ ds, first.agrees d = true) := by
  rw [add?] at h
  split at h
  · next hfind =>
      cases h
      exact Or.inl ⟨rfl, by simpa using hfind⟩
  · next first hfind =>
      split at h
      · next hagrees =>
          cases h
          exact Or.inr ⟨rfl, first, List.mem_of_find?_eq_some hfind, hagrees⟩
      · cases h

/-- A declaration can be added exactly if it can stand beside all that are there. -/
theorem exists_add?_iff (hnodup : (ds.map (·.name)).Nodup) :
    (∃ ds', add? ds d = some ds') ↔ ∀ a ∈ ds, a.StandTogether d := by
  by_cases hold : ∃ first ∈ ds, first.name = d.name
  · obtain ⟨first, hfirst, hname⟩ := hold
    constructor
    · rintro ⟨ds', hadd⟩ a ha hname'
      rw [add?_of_mem hnodup ha hname'] at hadd
      by_contra hagrees
      simp [hagrees] at hadd
    · intro h
      exact ⟨ds, by rw [add?_of_mem hnodup hfirst hname, if_pos (h first hfirst hname)]⟩
  · have hnew : ∀ a ∈ ds, a.name ≠ d.name := fun a ha hname => hold ⟨a, ha, hname⟩
    constructor
    · intro _ a ha hname
      exact absurd hname (hnew a ha)
    · intro _
      exact ⟨_, add?_of_new hnew⟩

theorem nodup_add? (hnodup : (ds.map (·.name)).Nodup) (h : add? ds d = some ds') :
    (ds'.map (·.name)).Nodup := by
  rcases add?_cases h with ⟨rfl, hnew⟩ | ⟨rfl, -⟩
  · rw [List.map_append, List.nodup_append]
    refine ⟨hnodup, List.nodup_singleton _, ?_⟩
    intro x hx y hy
    obtain ⟨a, ha, rfl⟩ := List.mem_map.1 hx
    rw [List.mem_singleton.1 hy]
    exact hnew a ha
  · exact hnodup

/-- What stands beside all that are there with one more stands beside those before and beside
this one. -/
theorem forall_standTogether_add?_iff (h : add? ds d = some ds') (b : Declaration) :
    (∀ a ∈ ds', a.StandTogether b) ↔ (∀ a ∈ ds, a.StandTogether b) ∧ d.StandTogether b := by
  rcases add?_cases h with ⟨rfl, -⟩ | ⟨rfl, first, hfirst, hagrees⟩
  · simp [or_imp, forall_and]
  · rw [iff_self_and]
    intro hall
    exact (standTogether_iff_of_agrees hagrees).1 (hall first hfirst)

/-- What has been declared can be declared again exactly if it agrees with itself, and then
nothing is added. -/
theorem add?_of_add? (h : add? ds d = some ds') :
    add? ds' d = if d.agrees d then some ds' else none := by
  rw [add?] at h
  split at h
  · next hfind =>
      cases h
      have hlast : (ds ++ [d]).find? (·.name == d.name) = some d := by
        rw [List.find?_append, hfind]
        simp
      rw [add?, hlast]
  · next first hfind =>
      split at h
      · next hagrees =>
          cases h
          rw [add?, hfind, if_pos (agrees_trans (agrees_symm hagrees) hagrees)]
          exact if_pos hagrees
      · cases h

end Add

end Declaration

namespace Graph

open Declaration

variable {m : Preset.Model} {as : List Source.Annotation} {ds rest : List Declaration}
  {e : AssemblyError}

/-- Declarations are merged exactly if any two of them can stand side by side, and each with
those before. -/
theorem exists_mergeDeclarations_iff (hnodup : (ds.map (·.name)).Nodup) :
    (∃ out, mergeDeclarations ds rest = .ok out) ↔
      (∀ b ∈ rest, ∀ a ∈ ds, a.StandTogether b) ∧ rest.Pairwise StandTogether := by
  induction rest generalizing ds with
  | nil => simp [mergeDeclarations]
  | cons d rest ih =>
      rw [mergeDeclarations, List.pairwise_cons, List.forall_mem_cons, ← exists_add?_iff hnodup]
      cases hadd : add? ds d with
      | none => simp
      | some ds' =>
          show (∃ out, mergeDeclarations ds' rest = .ok out) ↔ _
          rw [ih (nodup_add? hnodup hadd)]
          simp only [forall_standTogether_add?_iff hadd, forall_and, and_assoc]
          simp

/-- Merged declarations have names of their own. -/
theorem nodup_mergeDeclarations {out : List Declaration} (hnodup : (ds.map (·.name)).Nodup)
    (h : mergeDeclarations ds rest = .ok out) : (out.map (·.name)).Nodup := by
  induction rest generalizing ds with
  | nil =>
      cases h
      exact hnodup
  | cons d rest ih =>
      rw [mergeDeclarations] at h
      split at h
      · cases h
      · next ds' hadd => exact ih (nodup_add? hnodup hadd) h

/-- Merging fails for a parameter only. -/
theorem exists_of_mergeDeclarations_error (h : mergeDeclarations ds rest = .error e) :
    ∃ name, e = .parameterConflict name := by
  induction rest generalizing ds with
  | nil => cases h
  | cons d rest ih =>
      rw [mergeDeclarations] at h
      split at h
      · cases h
        exact ⟨d.name, rfl⟩
      · exact ih h

theorem assemble_eq_error_iff :
    assemble m as = .error e ↔
      m.passes.length ≠ as.length ∧ .passCountMismatch m.passes.length as.length = e ∨
        m.passes.length = as.length ∧
          mergeDeclarations [] (as.flatMap (·.declarations)) = .error e := by
  unfold assemble
  rw [FirstError.unless_iff, not_not]
  refine or_congr_right (and_congr_right fun _ => ?_)
  rw [FirstError.bind_iff]
  refine or_iff_left ?_
  rintro ⟨ds, -, hpure⟩
  cases hpure

/-- With an annotation for each pass, an assembly fails for a parameter exactly if two
declarations of one name differ, as numbers or in their descriptions. -/
theorem exists_assemble_eq_parameterConflict_iff (hcount : m.passes.length = as.length) :
    (∃ name, assemble m as = .error (.parameterConflict name)) ↔
      Conflict (fun x y => x.numEq y = true) (as.flatMap (·.declarations)) := by
  rw [← not_not (a := Conflict _ _), not_conflict_iff_pairwise]
  have hmerge := @exists_mergeDeclarations_iff [] (as.flatMap (·.declarations)) List.nodup_nil
  simp only [List.not_mem_nil, false_implies, implies_true, true_and] at hmerge
  rw [← hmerge]
  constructor
  · rintro ⟨name, h⟩ ⟨out, hout⟩
    rcases assemble_eq_error_iff.1 h with ⟨hne, -⟩ | ⟨-, herror⟩
    · exact hne hcount
    · rw [hout] at herror
      cases herror
  · intro h
    cases hout : mergeDeclarations [] (as.flatMap (·.declarations)) with
    | ok out => exact absurd ⟨out, hout⟩ h
    | error e =>
        obtain ⟨name, rfl⟩ := exists_of_mergeDeclarations_error hout
        exact ⟨name, assemble_eq_error_iff.2 (Or.inr ⟨hcount, hout⟩)⟩

end Graph

end ShaderChain
