import ShaderChain.Proofs.Preset.Passes
import ShaderChain.Proofs.Preset.Values

/-!
# Scaling rules of presets

Which rules a preset asks for, key by key. The rule of an axis comes from one of three keys, and a
rule reads a factor or a size from the first of two keys that has one in the right form. The two
axes have rules together or not at all: where neither has one nothing is scaled, and every factor
and size is zero.
-/

namespace ShaderChain.Preset

/-- The words for the rules. -/
def ruleWords : List (String × ScaleType) :=
  [("source", .source), ("viewport", .viewport), ("absolute", .absolute)]

/-- Whether the value of a key is the word for a rule. -/
def NamesRule (as : List Assignment) (key : String) (rule : ScaleType) : Prop :=
  ∃ word, IsValueOf as key word ∧ (word, rule) ∈ ruleWords

/-- Whether a rule is that of an axis: the rule of both axes is named by the key `shared`, that of
the axis by `own`, and that of the other axis by `other`. -/
inductive IsRuleOf (as : List Assignment) (shared own other : String) : ScaleType → Prop
  | shared {rule : ScaleType} (h : NamesRule as shared rule) : IsRuleOf as shared own other rule
  | own {rule : ScaleType} (hshared : ∀ r, ¬ NamesRule as shared r) (h : NamesRule as own rule) :
      IsRuleOf as shared own other rule
  | other {rule : ScaleType} (hshared : ∀ r, ¬ NamesRule as shared r)
      (hown : ∀ r, ¬ NamesRule as own r) (h : NamesRule as other rule) :
      IsRuleOf as shared own other .source
  | none (hshared : ∀ r, ¬ NamesRule as shared r) (hown : ∀ r, ¬ NamesRule as own r)
      (hother : ∀ r, ¬ NamesRule as other r) : IsRuleOf as shared own other .unset

/-- Whether something is read from the first of some keys that it can be read from, or is the
standard one, where it can be read from none. -/
inductive IsFirstOf {α : Type} (read : String → Option α) (standard : α) :
    List String → α → Prop
  | read {key : String} {keys : List String} {a : α} (h : read key = some a) :
      IsFirstOf read standard (key :: keys) a
  | next {key : String} {keys : List String} {a : α} (h : read key = none)
      (hnext : IsFirstOf read standard keys a) : IsFirstOf read standard (key :: keys) a
  | standard : IsFirstOf read standard [] standard

/-- Whether a factor and a size are those of an axis with some rule. -/
inductive IsAxis (as : List Assignment) (keys : List String) : ScaleType → Single → UInt32 → Prop
  | unset : IsAxis as keys .unset (Single.zero false) 0
  | source {factor : Single} (h : IsFirstOf (single? as) Single.one keys factor) :
      IsAxis as keys .source factor 0
  | viewport {factor : Single} (h : IsFirstOf (single? as) Single.one keys factor) :
      IsAxis as keys .viewport factor 0
  | absolute {size : UInt32} (h : IsFirstOf (word? as) 0 keys size) :
      IsAxis as keys .absolute Single.one size

/-- Whether a scale is that of pass `i`. -/
structure IsScaleOf (as : List Assignment) (i : Nat) (s : Scale) : Prop where
  x : IsRuleOf as (passKey "scale_type" i) (passKey "scale_type_x" i) (passKey "scale_type_y" i) s.x
  y : IsRuleOf as (passKey "scale_type" i) (passKey "scale_type_y" i) (passKey "scale_type_x" i) s.y
  horizontal : IsAxis as [passKey "scale_x" i, passKey "scale" i] s.x s.factor.width s.absolute.width
  vertical : IsAxis as [passKey "scale_y" i, passKey "scale" i] s.y s.factor.height s.absolute.height

variable {as : List Assignment} {m : Model} {p : Pass} {i : Nat} {s : Scale} {rule : ScaleType}
  {key shared own other : String} {factor : Single} {size : UInt32}

section Rules

theorem ofWord?_eq_some_iff {word : String} :
    ScaleType.ofWord? word = some rule ↔ (word, rule) ∈ ruleWords := by
  unfold ScaleType.ofWord?
  split
  · next h => simp [ruleWords, h, eq_comm]
  · split
    · next h => simp [ruleWords, h, eq_comm]
    · split
      · next h => simp [ruleWords, h, eq_comm]
      · simp_all [ruleWords]

theorem scaleType?_eq_some_iff : scaleType? as key = some rule ↔ NamesRule as key rule := by
  simp only [scaleType?, Option.bind_eq_some_iff, NamesRule, valueOf?_eq_some_iff,
    ofWord?_eq_some_iff]

theorem scaleType?_eq_none_iff : scaleType? as key = none ↔ ∀ r, ¬ NamesRule as key r := by
  simp only [Option.eq_none_iff_forall_ne_some, ne_eq, scaleType?_eq_some_iff]

theorem ne_unset_of_namesRule (h : NamesRule as key rule) : rule ≠ .unset := by
  obtain ⟨word, -, hword⟩ := h
  rintro rfl
  simp [ruleWords] at hword

theorem isRuleOf_iff :
    IsRuleOf as shared own other rule ↔
      (((scaleType? as shared).or (scaleType? as own)).or
        ((scaleType? as other).map fun _ => .source)).getD .unset = rule := by
  constructor
  · rintro (h | ⟨hshared, h⟩ | ⟨hshared, hown, h⟩ | ⟨hshared, hown, hother⟩)
    · simp [scaleType?_eq_some_iff.2 h]
    · simp [scaleType?_eq_none_iff.2 hshared, scaleType?_eq_some_iff.2 h]
    · simp [scaleType?_eq_none_iff.2 hshared, scaleType?_eq_none_iff.2 hown,
        scaleType?_eq_some_iff.2 h]
    · simp [scaleType?_eq_none_iff.2 hshared, scaleType?_eq_none_iff.2 hown,
        scaleType?_eq_none_iff.2 hother]
  · rintro rfl
    cases hshared : scaleType? as shared with
    | some r => exact .shared (scaleType?_eq_some_iff.1 hshared)
    | none =>
        have hshared := scaleType?_eq_none_iff.1 hshared
        cases hown : scaleType? as own with
        | some r => exact .own hshared (scaleType?_eq_some_iff.1 hown)
        | none =>
            have hown := scaleType?_eq_none_iff.1 hown
            cases hother : scaleType? as other with
            | some r => exact .other hshared hown (scaleType?_eq_some_iff.1 hother)
            | none => exact .none hshared hown (scaleType?_eq_none_iff.1 hother)

theorem IsRuleOf.eq {rule' : ScaleType} (h : IsRuleOf as shared own other rule)
    (h' : IsRuleOf as shared own other rule') : rule = rule' :=
  (isRuleOf_iff.1 h).symm.trans (isRuleOf_iff.1 h')

/-- An axis has no rule exactly if none of the three keys names one. -/
theorem isRuleOf_unset_iff :
    IsRuleOf as shared own other .unset ↔
      (∀ r, ¬ NamesRule as shared r) ∧ (∀ r, ¬ NamesRule as own r) ∧
        ∀ r, ¬ NamesRule as other r := by
  constructor
  · intro h
    cases h with
    | shared h => exact absurd rfl (ne_unset_of_namesRule h)
    | own hshared h => exact absurd rfl (ne_unset_of_namesRule h)
    | none hshared hown hother => exact ⟨hshared, hown, hother⟩
  · rintro ⟨hshared, hown, hother⟩
    exact .none hshared hown hother

end Rules

section Axes

theorem isFirstOf_iff {α : Type} {read : String → Option α} {standard a : α} {keys : List String} :
    IsFirstOf read standard keys a ↔ (keys.findSome? read).getD standard = a := by
  constructor
  · intro h
    induction h with
    | read h => simp [h]
    | next h _ ih => simpa [h] using ih
    | standard => rfl
  · rintro rfl
    induction keys with
    | nil => exact .standard
    | cons key keys ih =>
        cases h : read key with
        | some a => simpa [h] using IsFirstOf.read h
        | none => simpa [h] using IsFirstOf.next h ih

/-- The first of two keys. -/
theorem isFirstOf_pair_iff {α : Type} {read : String → Option α} {standard a : α} :
    IsFirstOf read standard [own, shared] a ↔ ((read own).or (read shared)).getD standard = a := by
  rw [isFirstOf_iff]
  cases h : read own <;> cases h' : read shared <;> simp [h, h']

theorem isAxis_iff :
    IsAxis as [own, shared] rule factor size ↔ axisValue as rule own shared = (factor, size) := by
  constructor
  · rintro (_ | h | h | h)
    · rfl
    · rw [axisValue, isFirstOf_pair_iff.1 h]
    · rw [axisValue, isFirstOf_pair_iff.1 h]
    · rw [axisValue, isFirstOf_pair_iff.1 h]
  · intro h
    cases rule with
    | unset =>
        cases h
        exact .unset
    | source =>
        obtain ⟨hfactor, rfl⟩ := Prod.mk.inj h
        exact .source (isFirstOf_pair_iff.2 hfactor)
    | viewport =>
        obtain ⟨hfactor, rfl⟩ := Prod.mk.inj h
        exact .viewport (isFirstOf_pair_iff.2 hfactor)
    | absolute =>
        obtain ⟨rfl, hsize⟩ := Prod.mk.inj h
        exact .absolute (isFirstOf_pair_iff.2 hsize)

end Axes

section Scales

theorem isRuleOf_scaleOf (as : List Assignment) (i : Nat) :
    IsRuleOf as (passKey "scale_type" i) (passKey "scale_type_x" i) (passKey "scale_type_y" i)
        (scaleOf as i).x ∧
      IsRuleOf as (passKey "scale_type" i) (passKey "scale_type_y" i) (passKey "scale_type_x" i)
        (scaleOf as i).y := by
  rw [isRuleOf_iff, isRuleOf_iff, scaleOf, axisRules]
  cases scaleType? as (passKey "scale_type" i) <;> cases scaleType? as (passKey "scale_type_x" i) <;>
    cases scaleType? as (passKey "scale_type_y" i) <;> exact ⟨rfl, rfl⟩

theorem isScaleOf_scaleOf (as : List Assignment) (i : Nat) : IsScaleOf as i (scaleOf as i) where
  x := (isRuleOf_scaleOf as i).1
  y := (isRuleOf_scaleOf as i).2
  horizontal := by
    rw [isAxis_iff, scaleOf]
    cases axisRules as i <;> rfl
  vertical := by
    rw [isAxis_iff, scaleOf]
    cases axisRules as i <;> rfl

/-- The keys of a pass ask for one scale only. -/
theorem IsScaleOf.eq {s' : Scale} (h : IsScaleOf as i s) (h' : IsScaleOf as i s') : s = s' := by
  obtain ⟨x, y, ⟨fx, fy⟩, ⟨ax, ay⟩⟩ := s
  obtain ⟨x', y', ⟨fx', fy'⟩, ⟨ax', ay'⟩⟩ := s'
  obtain rfl : x = x' := h.x.eq h'.x
  obtain rfl : y = y' := h.y.eq h'.y
  obtain ⟨rfl, rfl⟩ :=
    Prod.mk.inj ((isAxis_iff.1 h.horizontal).symm.trans (isAxis_iff.1 h'.horizontal))
  obtain ⟨rfl, rfl⟩ :=
    Prod.mk.inj ((isAxis_iff.1 h.vertical).symm.trans (isAxis_iff.1 h'.vertical))
  rfl

/-- One axis without a rule leaves the whole pass unscaled, since no key names a rule then. -/
theorem IsScaleOf.eq_unset_or (h : IsScaleOf as i s) :
    s = Scale.unset ∨ s.x ≠ .unset ∧ s.y ≠ .unset := by
  have hnone : (∀ r, ¬ NamesRule as (passKey "scale_type" i) r) →
      (∀ r, ¬ NamesRule as (passKey "scale_type_x" i) r) →
      (∀ r, ¬ NamesRule as (passKey "scale_type_y" i) r) → s = Scale.unset := by
    intro hshared hx hy
    exact h.eq ⟨.none hshared hx hy, .none hshared hy hx, .unset, .unset⟩
  by_cases hx : s.x = .unset
  · have hrule := h.x
    rw [hx] at hrule
    obtain ⟨hshared, hown, hother⟩ := isRuleOf_unset_iff.1 hrule
    exact Or.inl (hnone hshared hown hother)
  · by_cases hy : s.y = .unset
    · have hrule := h.y
      rw [hy] at hrule
      obtain ⟨hshared, hown, hother⟩ := isRuleOf_unset_iff.1 hrule
      exact Or.inl (hnone hshared hother hown)
    · exact Or.inr ⟨hx, hy⟩

theorem IsScaleOf.isScaled_iff (h : IsScaleOf as i s) :
    s.isScaled = true ↔ s.x ≠ .unset ∧ s.y ≠ .unset := by
  rcases h.eq_unset_or with rfl | ⟨hx, hy⟩
  · simp [Scale.isScaled, Scale.unset]
  · simp [Scale.isScaled, hx, hy]

end Scales

/-- Every pass of a model has the scale that its keys ask for, and no other one. It has rules on
both axes, or it is not scaled and all its factors and sizes are zero. -/
theorem isScaleOf_of_ofAssignments (h : Model.ofAssignments as = .ok m)
    (hp : m.passes[i]? = some p) :
    (∀ s, IsScaleOf as i s ↔ s = p.scale) ∧
      (p.scale = ⟨.unset, .unset, ⟨Single.zero false, Single.zero false⟩, ⟨0, 0⟩⟩ ∨
        p.scale.x ≠ .unset ∧ p.scale.y ≠ .unset) ∧
      (p.scale.isScaled = true ↔ p.scale.x ≠ .unset ∧ p.scale.y ≠ .unset) := by
  obtain ⟨-, hpasses⟩ := Model.ofAssignments_ok h
  obtain ⟨path, -, rfl⟩ := passAt_eq_ok_iff.1 (hpasses i p hp)
  have hscale : IsScaleOf as i (passOf as i path).scale := isScaleOf_scaleOf as i
  refine ⟨fun s => ⟨fun hs => hs.eq hscale, ?_⟩, hscale.eq_unset_or, hscale.isScaled_iff⟩
  rintro rfl
  exact hscale

/-- One pass. No rule is named `wide`, and no factor is `half`, so that its width is scaled by the
value of `scale0`. -/
def mixedScale : List Assignment :=
  [⟨"shaders", "1"⟩, ⟨"shader0", "pass.slang"⟩, ⟨"scale_type0", "wide"⟩,
    ⟨"scale_type_y0", "absolute"⟩, ⟨"scale_y0", "12.5"⟩, ⟨"scale0", "7"⟩, ⟨"scale_x0", "half"⟩]

theorem isScaleOf_of_ofAssignments_mixed :
    ∃ m p, Model.ofAssignments mixedScale = .ok m ∧ m.passes[0]? = some p ∧
      p.scale = ⟨.source, .absolute, ⟨⟨0x40E00000⟩, Single.one⟩, ⟨0, 7⟩⟩ ∧
      IsScaleOf mixedScale 0 p.scale ∧ p.scale.isScaled = true := by
  have hmixed : (Model.ofAssignments mixedScale).map (fun m => m.passes[0]?.map (·.scale)) =
      .ok (some ⟨.source, .absolute, ⟨⟨0x40E00000⟩, Single.one⟩, ⟨0, 7⟩⟩) := by decide +kernel
  obtain ⟨m, hm, hpass⟩ := Success.map_iff.1 hmixed
  obtain ⟨p, hp, hscale⟩ := Option.map_eq_some_iff.1 hpass
  obtain ⟨hiff, -, hscaled⟩ := isScaleOf_of_ofAssignments hm hp
  refine ⟨m, p, hm, hp, hscale, (hiff p.scale).2 rfl, hscaled.2 ?_⟩
  rw [hscale]
  decide

end ShaderChain.Preset
