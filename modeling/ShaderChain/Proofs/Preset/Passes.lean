import ShaderChain.Preset.Build
import ShaderChain.Proofs.Success
import ShaderChain.Proofs.Text.Numeral
import ShaderChain.Proofs.Text.Runs

/-!
# Passes and their keys

A preset has as many passes as the last value of its `shaders` key says, and each of them is built
from its own keys. A key of a pass is a stem followed by a decimal. No stem ends in a digit, so a
key shows where its stem ends, and with it which pass it belongs to.
-/

namespace ShaderChain.Preset

/-- The stems of the keys of a pass. -/
def passStems : List String :=
  ["shader", "alias", "scale_type", "scale_type_x", "scale_type_y", "scale", "scale_x", "scale_y",
    "wrap_mode", "filter_linear", "frame_count_mod", "srgb_framebuffer", "float_framebuffer",
    "mipmap_input"]

/-- The keys of pass `i`. -/
def passKeys (i : Nat) : List String := passStems.map (passKey · i)

variable {as : List Assignment} {m : Model} {i j n : Nat} {p : Pass}

section Keys

variable {stem stem' : String}

/-- Whether a text can be a stem: no digit ends it. -/
def IsStem (stem : String) : Prop := ∀ c ∈ stem.toList.getLast?, c.isDigit = false

theorem toList_passKey (stem : String) (i : Nat) :
    (passKey stem i).toList = stem.toList ++ Text.decimal i := by
  simp [passKey]

/-- The number of a pass is the longest run of digits at the end of a key. -/
theorem takeWhile_reverse_passKey (h : IsStem stem) (i : Nat) :
    (passKey stem i).toList.reverse.takeWhile Char.isDigit = (Text.decimal i).reverse := by
  rw [toList_passKey, List.reverse_append]
  refine takeWhile_append_of_head? ?_ ?_
  · intro c hc
    exact Text.isDigit_of_mem_decimal (List.mem_reverse.1 hc)
  · rw [List.head?_reverse]
    exact h

/-- A key shows its stem and its number. -/
theorem passKey_inj (h : IsStem stem) (h' : IsStem stem') :
    passKey stem i = passKey stem' j ↔ stem = stem' ∧ i = j := by
  constructor
  · intro heq
    have hdigits : (Text.decimal i).reverse = (Text.decimal j).reverse := by
      rw [← takeWhile_reverse_passKey h, ← takeWhile_reverse_passKey h', heq]
    have hdecimal := List.reverse_injective hdigits
    have hnumber : i = j := by
      rw [← Text.ofDigitChars_decimal i, hdecimal, Text.ofDigitChars_decimal]
    subst hnumber
    have hlist := congrArg String.toList heq
    rw [toList_passKey, toList_passKey] at hlist
    exact ⟨String.toList_inj.1 (List.append_cancel_right hlist), rfl⟩
  · rintro ⟨rfl, rfl⟩
    rfl

theorem isStem_of_mem_passStems (h : stem ∈ passStems) : IsStem stem := by
  have hall : ∀ stem ∈ passStems, (stem.toList.getLast?.all fun c => !c.isDigit) = true := by
    decide
  have hlast := hall stem h
  rw [Option.all_eq_true] at hlast
  intro c hc
  simpa using hlast c hc

/-- The keys of two passes are different. -/
theorem disjoint_passKeys (h : i ≠ j) : (passKeys i).Disjoint (passKeys j) := by
  intro key hi hj
  obtain ⟨stem, hmem, rfl⟩ := List.mem_map.1 hi
  obtain ⟨stem', hmem', heq⟩ := List.mem_map.1 hj
  have hstem := isStem_of_mem_passStems hmem
  have hstem' := isStem_of_mem_passStems hmem'
  exact h ((passKey_inj hstem' hstem).1 heq).2.symm

end Keys

section Passes

/-- A pass, if its source is named. -/
def passAt (as : List Assignment) (i : Nat) : Except BuildError Pass :=
  match valueOf? as (passKey "shader" i) with
  | none => .error (.missingKey (passKey "shader" i))
  | some path => .ok (passOf as i path)

theorem passAt_eq_ok_iff :
    passAt as i = .ok p ↔
      ∃ path, valueOf? as (passKey "shader" i) = some path ∧ passOf as i path = p := by
  unfold passAt
  cases valueOf? as (passKey "shader" i) <;> simp

theorem fst_visitFrom (as : List Assignment) (i n : Nat) :
    (visitFrom as i n).1 = (List.range' i n).mapM (passAt as) := by
  induction n generalizing i with
  | zero => rfl
  | succ n ih =>
      rw [visitFrom, List.range'_succ, List.mapM_cons, passAt, ← ih]
      cases valueOf? as (passKey "shader" i) with
      | none => rfl
      | some path =>
          show (visitFrom as (i + 1) n).1.map (passOf as i path :: ·) = _
          cases (visitFrom as (i + 1) n).1 <;> rfl

theorem passCount_eq_ok_iff :
    passCount as = .ok n ↔
      ∃ value, valueOf? as "shaders" = some value ∧ Text.count? value.toList = some n := by
  unfold passCount
  cases valueOf? as "shaders" with
  | none => simp
  | some value => cases hcount : Text.count? value.toList <;> simp [hcount]

/-- Without a note of what it visits, a build counts the passes, builds each in its place, and then
the groups. -/
theorem Model.ofAssignments_eq (as : List Assignment) :
    ofAssignments as = do
      let count ← passCount as
      let passes ← (List.range' 0 count).mapM (passAt as)
      let groups ← groupsOf as (listOf as "parameter_groups")
      return assemble as passes groups := by
  unfold ofAssignments visiting
  cases passCount as with
  | error e => rfl
  | ok count => simp only [fst_visitFrom]; rfl

/-- A model has the passes that its assignments count, each in its place. -/
theorem Model.ofAssignments_ok (h : Model.ofAssignments as = .ok m) :
    passCount as = .ok m.passes.length ∧
      ∀ (k : Nat) (p : Pass), m.passes[k]? = some p → passAt as k = .ok p := by
  rw [Model.ofAssignments_eq] at h
  obtain ⟨count, hcount, h⟩ := Success.bind_iff.1 h
  obtain ⟨passes, hpasses, h⟩ := Success.bind_iff.1 h
  obtain ⟨groups, -, h⟩ := Success.bind_iff.1 h
  cases h
  have hlength : passes.length = count := by
    rw [Success.length_mapM hpasses, List.length_range']
  refine ⟨hcount.trans (congrArg Except.ok hlength.symm), fun k p hp => ?_⟩
  obtain ⟨i, hi, hpass⟩ := Success.exists_of_getElem?_mapM hpasses hp
  obtain ⟨hlt, rfl⟩ := List.getElem?_eq_some_iff.1 hi
  rwa [List.getElem_range', Nat.zero_add, Nat.one_mul] at hpass

end Passes

end ShaderChain.Preset
