import Mathlib.Data.Finset.Card
import ShaderChain.Proofs.FirstError
import ShaderChain.Proofs.Preset.Passes
import ShaderChain.Proofs.Preset.Values

/-!
# Gaps in presets

A preset is complete if it counts its passes, names the source of each and describes each group
that it lists. Nothing else is asked for: a model is built from every complete preset, and the
build of any other one fails with the first gap, in this order. So whether and how it fails is
settled by which keys there are and by the values of two of them, and no other value is ever looked
at for it.

The count may be as large as `2 ^ 63 - 1`. The sources are looked for one after the other, up to
the first that is missing, and all before it are keys of the preset: the number of passes that are
visited is bounded by the number of keys.
-/

namespace ShaderChain.Preset

/-- Whether assignments count `n` passes: the value of `shaders` is a signed word that is not
negative. -/
def Counts (as : List Assignment) (n : Nat) : Prop :=
  ∃ text, IsValueOf as "shaders" text ∧ Text.IsInteger text.toList n ∧ n < 2 ^ 63

/-- Whether assignments are a complete preset of `n` passes. -/
structure IsComplete (as : List Assignment) (n : Nat) : Prop where
  counts : Counts as n
  sources : ∀ i < n, HasKey as (passKey "shader" i)
  descriptions : ∀ g ∈ listOf as "parameter_groups", HasKey as (g ++ "_group_desc")

/-- Whether something is the first gap in assignments. -/
inductive IsFirstGap (as : List Assignment) : BuildError → Prop
  | count (h : ¬ HasKey as "shaders") : IsFirstGap as (.missingKey "shaders")
  | number {text : String} (h : IsValueOf as "shaders" text)
      (hcount : ∀ n : Nat, n < 2 ^ 63 → ¬ Text.IsInteger text.toList n) :
      IsFirstGap as (.invalidCount text)
  | source {n i : Nat} (hcount : Counts as n) (hi : i < n)
      (h : ¬ HasKey as (passKey "shader" i))
      (hbefore : ∀ j < i, HasKey as (passKey "shader" j)) :
      IsFirstGap as (.missingKey (passKey "shader" i))
  | description {n k : Nat} {g : String} (hcount : Counts as n)
      (hsources : ∀ i < n, HasKey as (passKey "shader" i))
      (hg : (listOf as "parameter_groups")[k]? = some g) (h : ¬ HasKey as (g ++ "_group_desc"))
      (hbefore : ∀ (j : Nat) (g' : String), j < k → (listOf as "parameter_groups")[j]? = some g' →
        HasKey as (g' ++ "_group_desc")) :
      IsFirstGap as (.missingGroupDescription g)

variable {as bs : List Assignment} {m : Model} {e : BuildError} {i n : Nat}

section Counting

theorem passCount_eq_ok_iff_counts : passCount as = .ok n ↔ Counts as n := by
  simp only [passCount_eq_ok_iff, valueOf?_eq_some_iff, Text.count?_eq_some_iff, Counts]

theorem passCount_eq_error_iff :
    passCount as = .error e ↔
      ¬ HasKey as "shaders" ∧ .missingKey "shaders" = e ∨
        ∃ text, IsValueOf as "shaders" text ∧
          (∀ n : Nat, n < 2 ^ 63 → ¬ Text.IsInteger text.toList n) ∧ .invalidCount text = e := by
  have hcount : ∀ text : String, Text.count? text.toList = none ↔
      ∀ n : Nat, n < 2 ^ 63 → ¬ Text.IsInteger text.toList n := by
    intro text
    simp only [Option.eq_none_iff_forall_ne_some, ne_eq, Text.count?_eq_some_iff, not_and']
  simp only [← hcount, ← valueOf?_eq_some_iff, ← valueOf?_eq_none_iff]
  unfold passCount
  cases valueOf? as "shaders" with
  | none => simp
  | some text => cases hcount : Text.count? text.toList <;> simp [hcount]

end Counting

section Sources

theorem passAt_eq_error_iff :
    passAt as i = .error e ↔
      ¬ HasKey as (passKey "shader" i) ∧ .missingKey (passKey "shader" i) = e := by
  rw [← valueOf?_eq_none_iff, passAt]
  cases valueOf? as (passKey "shader" i) <;> simp

theorem exists_passAt_iff : (∃ p, passAt as i = .ok p) ↔ HasKey as (passKey "shader" i) := by
  rw [← isSome_valueOf?_iff, passAt]
  cases valueOf? as (passKey "shader" i) <;> simp

theorem getElem?_range'_zero_iff {k a : Nat} : (List.range' 0 n)[k]? = some a ↔ k < n ∧ k = a := by
  simp [List.getElem?_eq_some_iff]

theorem mapM_passAt_eq_error_iff :
    (List.range' 0 n).mapM (passAt as) = .error e ↔
      ∃ i < n, ¬ HasKey as (passKey "shader" i) ∧ .missingKey (passKey "shader" i) = e ∧
        ∀ j < i, HasKey as (passKey "shader" j) := by
  simp only [FirstError.mapM_iff, getElem?_range'_zero_iff, passAt_eq_error_iff, exists_passAt_iff]
  constructor
  · rintro ⟨i, _, ⟨hi, rfl⟩, ⟨h, he⟩, hbefore⟩
    exact ⟨i, hi, h, he, fun j hj => hbefore j j hj ⟨hj.trans hi, rfl⟩⟩
  · rintro ⟨i, hi, h, he, hbefore⟩
    refine ⟨i, i, ⟨hi, rfl⟩, ⟨h, he⟩, ?_⟩
    rintro j _ hj ⟨-, rfl⟩
    exact hbefore j hj

theorem exists_mapM_passAt_iff :
    (∃ ps, (List.range' 0 n).mapM (passAt as) = .ok ps) ↔
      ∀ i < n, HasKey as (passKey "shader" i) := by
  simp only [Success.exists_mapM_iff, getElem?_range'_zero_iff, exists_passAt_iff]
  constructor
  · exact fun h i hi => h i i ⟨hi, rfl⟩
  · rintro h i _ ⟨hi, rfl⟩
    exact h i hi

end Sources

section Descriptions

/-- A group, if it is described. -/
def groupAt (as : List Assignment) (g : String) : Except BuildError Group :=
  match valueOf? as (g ++ "_group_desc") with
  | none => .error (.missingGroupDescription g)
  | some description => .ok ⟨g, description, listOf as (g ++ "_group_parameters")⟩

theorem groupsOf_eq_mapM (as : List Assignment) (gs : List String) :
    groupsOf as gs = gs.mapM (groupAt as) := by
  induction gs with
  | nil => rfl
  | cons g gs ih =>
      rw [groupsOf, List.mapM_cons, groupAt, ih]
      cases valueOf? as (g ++ "_group_desc") with
      | none => rfl
      | some description => cases gs.mapM (groupAt as) <;> rfl

theorem groupAt_eq_error_iff {g : String} :
    groupAt as g = .error e ↔ ¬ HasKey as (g ++ "_group_desc") ∧ .missingGroupDescription g = e := by
  rw [← valueOf?_eq_none_iff, groupAt]
  cases valueOf? as (g ++ "_group_desc") <;> simp

theorem exists_groupAt_iff {g : String} :
    (∃ group, groupAt as g = .ok group) ↔ HasKey as (g ++ "_group_desc") := by
  rw [← isSome_valueOf?_iff, groupAt]
  cases valueOf? as (g ++ "_group_desc") <;> simp

theorem exists_groupsOf_iff {gs : List String} :
    (∃ groups, groupsOf as gs = .ok groups) ↔ ∀ g ∈ gs, HasKey as (g ++ "_group_desc") := by
  simp only [groupsOf_eq_mapM, Success.exists_mapM_iff, exists_groupAt_iff, List.mem_iff_getElem?]
  exact ⟨fun h g ⟨k, hk⟩ => h k g hk, fun h k g hk => h g ⟨k, hk⟩⟩

end Descriptions

section Build

/-- A build fails when it counts, or else at a pass, or else at a group. -/
theorem ofAssignments_eq_error_iff :
    Model.ofAssignments as = .error e ↔
      passCount as = .error e ∨ ∃ n, Counts as n ∧
        ((List.range' 0 n).mapM (passAt as) = .error e ∨ (∀ i < n, HasKey as (passKey "shader" i)) ∧
          groupsOf as (listOf as "parameter_groups") = .error e) := by
  have hpure : ∀ m : Model, ¬ (pure m : Except BuildError Model) = .error e := fun m h => by
    cases h
  simp only [Model.ofAssignments_eq, FirstError.bind_iff, passCount_eq_ok_iff_counts, hpure,
    and_false, exists_false, or_false, ← exists_mapM_passAt_iff, exists_and_right]

/-- A model is built from every complete preset, and from no other one. -/
theorem exists_ofAssignments_iff :
    (∃ m, Model.ofAssignments as = .ok m) ↔ ∃ n, IsComplete as n := by
  simp only [Model.ofAssignments_eq, Success.exists_bind_iff, passCount_eq_ok_iff_counts]
  constructor
  · rintro ⟨n, hcount, ps, hps, gs, hgs, -⟩
    exact ⟨n, hcount, exists_mapM_passAt_iff.1 ⟨ps, hps⟩, exists_groupsOf_iff.1 ⟨gs, hgs⟩⟩
  · rintro ⟨n, hcount, hsources, hdescriptions⟩
    obtain ⟨ps, hps⟩ := exists_mapM_passAt_iff.2 hsources
    obtain ⟨gs, hgs⟩ := exists_groupsOf_iff.2 hdescriptions
    exact ⟨n, hcount, ps, hps, gs, hgs, _, rfl⟩

theorem ofAssignments_eq_error_iff_isFirstGap :
    Model.ofAssignments as = .error e ↔ IsFirstGap as e := by
  rw [ofAssignments_eq_error_iff, passCount_eq_error_iff]
  simp only [mapM_passAt_eq_error_iff]
  simp only [groupsOf_eq_mapM, FirstError.mapM_iff, groupAt_eq_error_iff, exists_groupAt_iff]
  constructor
  · rintro ((⟨h, rfl⟩ | ⟨text, h, hcount, rfl⟩) |
      ⟨n, hcount, ⟨i, hi, h, rfl, hbefore⟩ | ⟨hsources, k, g, hg, ⟨h, rfl⟩, hbefore⟩⟩)
    · exact .count h
    · exact .number h hcount
    · exact .source hcount hi h hbefore
    · exact .description hcount hsources hg h hbefore
  · rintro (h | ⟨h, hcount⟩ | ⟨hcount, hi, h, hbefore⟩ | ⟨hcount, hsources, hg, h, hbefore⟩)
    · exact Or.inl (Or.inl ⟨h, rfl⟩)
    · exact Or.inl (Or.inr ⟨_, h, hcount, rfl⟩)
    · exact Or.inr ⟨_, hcount, Or.inl ⟨_, hi, h, rfl, hbefore⟩⟩
    · exact Or.inr ⟨_, hcount, Or.inr ⟨hsources, _, _, hg, ⟨h, rfl⟩, hbefore⟩⟩

/-- The first gap is settled by the keys that there are and by the values of two of them. -/
theorem IsFirstGap.of_agreeOn (h : IsFirstGap as e)
    (hkeys : ∀ key, HasKey bs key ↔ HasKey as key)
    (hagree : AgreeOn as bs ["shaders", "parameter_groups"]) : IsFirstGap bs e := by
  have hshaders : ∀ text, IsValueOf bs "shaders" text ↔ IsValueOf as "shaders" text := by
    intro text
    rw [← valueOf?_eq_some_iff, ← valueOf?_eq_some_iff, hagree "shaders" (by decide)]
  have hcounts : ∀ n, Counts bs n ↔ Counts as n := by
    intro n
    simp only [Counts, hshaders]
  have hgroups : listOf bs "parameter_groups" = listOf as "parameter_groups" := by
    rw [listOf, listOf, hagree "parameter_groups" (by decide)]
  cases h with
  | count h =>
      rw [← hkeys] at h
      exact .count h
  | number h hcount => exact .number ((hshaders _).2 h) hcount
  | source hcount hi h hbefore =>
      simp only [← hkeys] at h hbefore
      exact .source ((hcounts _).2 hcount) hi h hbefore
  | description hcount hsources hg h hbefore =>
      simp only [← hkeys, ← hgroups] at hsources hg h hbefore
      exact .description ((hcounts _).2 hcount) hsources hg h hbefore

end Build

section Visits

/-- Passes are visited in order, up to the first one without a source. -/
theorem exists_visitFrom_eq_range' (as : List Assignment) (i n : Nat) :
    ∃ k, (visitFrom as i n).2 = List.range' i k ∧
      ∀ j, j < k ↔ j < n ∧ ∀ l < j, HasKey as (passKey "shader" (i + l)) := by
  induction n generalizing i with
  | zero => exact ⟨0, rfl, fun j => by simp⟩
  | succ n ih =>
      rw [visitFrom]
      cases hpath : valueOf? as (passKey "shader" i) with
      | none =>
          have hmissing := valueOf?_eq_none_iff.1 hpath
          refine ⟨1, rfl, fun j => ?_⟩
          cases j with
          | zero => simp
          | succ j =>
              rw [Nat.forall_lt_succ_left]
              simp [hmissing]
      | some path =>
          have hsource : HasKey as (passKey "shader" i) := by
            rw [← isSome_valueOf?_iff, hpath]
            rfl
          obtain ⟨k, hk, hvisited⟩ := ih (i + 1)
          refine ⟨k + 1, ?_, fun j => ?_⟩
          · show i :: (visitFrom as (i + 1) n).2 = _
            rw [hk, List.range'_succ]
          · cases j with
            | zero => simp
            | succ j =>
                rw [Nat.forall_lt_succ_left, Nat.add_lt_add_iff_right, Nat.add_lt_add_iff_right,
                  hvisited]
                simp [hsource, Nat.add_assoc, Nat.add_comm 1]

/-- As many keys of sources as passes in a row have one. -/
theorem le_card_keys {k : Nat} (h : ∀ j < k, HasKey as (passKey "shader" j)) :
    k ≤ (as.map (·.key)).toFinset.card := by
  have hstem : IsStem "shader" := isStem_of_mem_passStems (by decide)
  have hcard : (Finset.range k).card ≤ (as.map (·.key)).toFinset.card := by
    refine Finset.card_le_card_of_injOn (passKey "shader") ?_ ?_
    · intro j hj
      have hsource := h j (Finset.mem_range.1 hj)
      simpa [HasKey] using hsource
    · intro i _ j _ hkeys
      exact ((passKey_inj hstem hstem).1 hkeys).2
  rwa [Finset.card_range] at hcard

/-- A build visits a counted pass if all before it have sources, so that it visits one pass more
than there are keys at most. -/
theorem Model.exists_visiting_eq_range (as : List Assignment) :
    ∃ k, (visiting as).2 = List.range k ∧ k ≤ (as.map (·.key)).toFinset.card + 1 ∧
      ∀ i, i < k ↔ ∃ n, Counts as n ∧ i < n ∧ ∀ j < i, HasKey as (passKey "shader" j) := by
  simp only [← passCount_eq_ok_iff_counts]
  unfold visiting
  cases passCount as with
  | error e => exact ⟨0, rfl, Nat.zero_le _, fun i => by simp⟩
  | ok count =>
      obtain ⟨k, hk, hvisited⟩ := exists_visitFrom_eq_range' as 0 count
      simp only [Nat.zero_add] at hvisited
      refine ⟨k, by rw [hk, List.range_eq_range'], ?_, fun i => by simp [hvisited]⟩
      -- the last pass that is visited may be the one without a source
      have hle : k - 1 ≤ (as.map (·.key)).toFinset.card := by
        refine le_card_keys fun j hj => ?_
        exact ((hvisited (k - 1)).1 (by omega)).2 j hj
      omega

end Visits

/-- A build succeeds exactly on the complete presets, with as many passes as these count, each in
its place and with its source, and on other assignments it fails with the first gap. It visits the
counted passes up to the first without a source, and so one more than there are keys at most.
Assignments to the same keys, with the same values of `shaders` and `parameter_groups`, fail alike,
whatever other values they give. -/
theorem isFirstGap_iff_and_isComplete_iff (as : List Assignment) :
    (∀ e, Model.ofAssignments as = .error e ↔ IsFirstGap as e) ∧
      ((∃ m, Model.ofAssignments as = .ok m) ↔ ∃ n, IsComplete as n) ∧
      (∀ m, Model.ofAssignments as = .ok m → Counts as m.passes.length ∧
        ∀ (i : Nat) (p : Pass), m.passes[i]? = some p →
          p.index = i ∧ IsValueOf as (passKey "shader" i) p.path) ∧
      (Model.visiting as).1 = Model.ofAssignments as ∧
      (∃ k, (Model.visiting as).2 = List.range k ∧ k ≤ (as.map (·.key)).toFinset.card + 1 ∧
        ∀ i, i < k ↔ ∃ n, Counts as n ∧ i < n ∧ ∀ j < i, HasKey as (passKey "shader" j)) ∧
      ∀ bs, (∀ key, HasKey bs key ↔ HasKey as key) →
        AgreeOn as bs ["shaders", "parameter_groups"] →
        ∀ e, Model.ofAssignments bs = .error e ↔ Model.ofAssignments as = .error e := by
  refine ⟨fun e => ofAssignments_eq_error_iff_isFirstGap, exists_ofAssignments_iff, fun m h => ?_,
    rfl, Model.exists_visiting_eq_range as, fun bs hkeys hagree e => ?_⟩
  · obtain ⟨hcount, hpasses⟩ := Model.ofAssignments_ok h
    refine ⟨passCount_eq_ok_iff_counts.1 hcount, fun i p hp => ?_⟩
    obtain ⟨path, hpath, rfl⟩ := passAt_eq_ok_iff.1 (hpasses i p hp)
    exact ⟨rfl, valueOf?_eq_some_iff.1 hpath⟩
  · rw [ofAssignments_eq_error_iff_isFirstGap, ofAssignments_eq_error_iff_isFirstGap]
    constructor
    · exact fun h => h.of_agreeOn (fun key => (hkeys key).symm) fun key hkey =>
        (hagree key hkey).symm
    · exact fun h => h.of_agreeOn hkeys hagree

/-- The largest count asks for two passes, if only the first has a source. -/
example :
    (Model.visiting [⟨"shaders", "9223372036854775807"⟩, ⟨"shader0", "pass.slang"⟩]) =
      (.error (.missingKey "shader1"), [0, 1]) := by
  decide +kernel

end ShaderChain.Preset
