import Mathlib.Data.List.Nodup
import ShaderChain.Compiled.Document
import ShaderChain.Proofs.Json.Number
import ShaderChain.Proofs.Json.RoundTrip

/-!
# Records read back

A record whose keys differ gives back each of its values, and a list gives back its items as
far as each item does. So much holds of every record; what the values are is read by others.
-/

namespace ShaderChain

namespace Json

variable {α : Type} {n bound : ℕ}

/-! ### Values -/

theorem nat?_ofNat (h : n < bound) : (ofNat n).nat? bound = some n := by
  simp [nat?, ofNat, Text.digits?_decimal, h]

@[simp] theorem word?_ofWord (w : UInt32) : (ofWord w).word? = some w := by
  simp [word?, ofWord, nat?_ofNat (show w.toNat < Nat.pow 2 32 from w.toNat_lt)]

@[simp] theorem long?_ofLong (w : UInt64) : (ofLong w).long? = some w := by
  simp [long?, ofLong, nat?_ofNat (show w.toNat < Nat.pow 2 64 from w.toNat_lt)]

theorem index?_ofNat (h : n < 2 ^ 64) : (ofNat n).index? = some n := nat?_ofNat h

@[simp] theorem bool?_bool (b : Bool) : (Json.bool b).bool? = some b := rfl

@[simp] theorem named?_ofNamed [Named α] (a : α) : (ofNamed a).named? = some a := by
  simp [ofNamed, ofString, named?, unescape?_escape]

/-- A single is read back exactly if it is finite. -/
theorem single?_ofSingle_eq (x : Single) :
    single? (ofSingle x) = if x.isFinite then some x else none := by
  by_cases h : x.isFinite = true
  · rw [if_pos h, single?_ofSingle h]
  · rw [if_neg h, ofSingle, if_neg h]
    rfl

/-- A list gives back its items if each item passes the test of its reader. -/
theorem list?_map {f : Json → Option α} {g : α → Json} {p : α → Bool} {as : List α}
    (h : ∀ a ∈ as, f (g a) = if p a then some a else none) :
    list? f (.array (as.map g)) = if as.all p then some as else none := by
  rw [list?]
  induction as with
  | nil => rfl
  | cons a as ih =>
      rw [List.map_cons, List.mapM_cons, h a (by simp), ih fun b hb => h b (by simp [hb])]
      cases hp : p a <;> cases hall : as.all p <;> simp [hp, hall]

theorem list?_map_some {f : Json → Option α} {g : α → Json} {as : List α}
    (h : ∀ a ∈ as, f (g a) = some a) : list? f (.array (as.map g)) = some as := by
  rw [list?_map (p := fun _ => true) (by simpa using h)]
  simp

/-! ### Written values -/

@[simp] theorem isWritten_ofString (s : String) : IsWritten (ofString s) := .string s.toList

theorem isWritten_ofNat (n : ℕ) : IsWritten (ofNat n) := by
  have hn : Numeral.IsNumber ⟨Text.decimal n, [], 0⟩ :=
    { whole := fun _ => Text.isDigit_of_mem_decimal
      part := by simp
      ne_nil := Text.decimal_ne_nil n
      head := by
        rcases Nat.eq_zero_or_pos n with rfl | hpos
        · exact Or.inl rfl
        · exact Or.inr (Text.head?_decimal_ne_zero hpos) }
  simpa [Numeral.text, ofNat] using IsWritten.number false hn

@[simp] theorem isWritten_ofWord (w : UInt32) : IsWritten (ofWord w) := isWritten_ofNat _

@[simp] theorem isWritten_ofLong (w : UInt64) : IsWritten (ofLong w) := isWritten_ofNat _

@[simp] theorem isWritten_ofNamed [Named α] (a : α) : IsWritten (ofNamed a) := isWritten_ofString _

@[simp] theorem isWritten_ofSingle (x : Single) : IsWritten (ofSingle x) := by
  by_cases h : x.isFinite = true
  · obtain ⟨n, hn, hrender⟩ := exists_renderSingle_eq h
    rw [ofSingle, if_pos h, hrender]
    exact .number _ hn
  · rw [ofSingle, if_neg h]
    exact .null

theorem isWritten_ofOptional {f : α → Json} (h : ∀ a, IsWritten (f a)) (a : Option α) :
    IsWritten (ofOptional f a) := by
  cases a with
  | none => exact .null
  | some a => exact h a

theorem isWritten_map {g : α → Json} (h : ∀ a, IsWritten (g a)) (as : List α) :
    IsWritten (.array (as.map g)) :=
  .array fun j hj => by
    obtain ⟨a, -, rfl⟩ := List.mem_map.1 hj
    exact h a

/-! ### Records -/

variable {keys : List String} {values : List Json} {fields : List (String × Json)}

/-- The only field with a key gives the value of the key. -/
theorem uniqueField?_of_mem {k : String} {v : Json} (hkeys : (fields.map Prod.fst).Nodup)
    (h : (k, v) ∈ fields) : uniqueField? fields k = some (some v) := by
  have hfilter : fields.filter (·.1 == k) = [(k, v)] := by
    induction fields with
    | nil => simp at h
    | cons f fields ih =>
        rw [List.map_cons, List.nodup_cons] at hkeys
        rcases List.mem_cons.1 h with rfl | hmem
        · have hnone : fields.filter (·.1 == k) = [] := by
            rw [List.filter_eq_nil_iff]
            rintro ⟨k', v'⟩ hf heq
            have hk : k' = k := by simpa using heq
            exact hkeys.1 (List.mem_map.2 ⟨(k', v'), hf, hk⟩)
          simp [hnone]
        · have hne : f.1 ≠ k := by
            rintro rfl
            exact hkeys.1 (List.mem_map.2 ⟨_, hmem, rfl⟩)
          simp [hne, ih hkeys.2 hmem]
  rw [uniqueField?, hfilter]

/-- Read by their own keys, fields give their values. -/
theorem mapM_uniqueField? {part : List (String × Json)}
    (hkeys : (fields.map Prod.fst).Nodup) (h : part ⊆ fields) :
    (part.map Prod.fst).mapM (uniqueField? fields) =
      some ((part.map Prod.snd).map some) := by
  induction part with
  | nil => rfl
  | cons f fs ih =>
      rw [List.cons_subset] at h
      rw [List.map_cons, List.mapM_cons, uniqueField?_of_mem hkeys h.1, ih h.2]
      rfl

theorem keyed?_escaped (fields : List (String × Json)) :
    keyed? (fields.map fun (k, v) => (escape k.toList, v)) = some fields := by
  induction fields with
  | nil => rfl
  | cons f fields ih =>
      rw [keyed?] at ih
      rw [keyed?, List.map_cons, List.mapM_cons, ih]
      simp [unescape?_escape]

end Json

namespace Document

variable {keys : List String} {values : List Json}

/-- A record gives back its values in the order of its keys. -/
theorem record?_record (hkeys : keys.Nodup) (hlen : keys.length = values.length) :
    (record keys values).record? keys = some (values.map some) := by
  have hfst : ((keys.zip values).map Prod.fst).Nodup := by
    rwa [List.map_fst_zip hlen.le]
  have hread := Json.mapM_uniqueField? hfst (List.Subset.refl _)
  rw [List.map_fst_zip hlen.le, List.map_snd_zip hlen.ge] at hread
  rw [record, Json.ofFields, Json.record?, Json.keyed?_escaped, Option.bind_some, hread]

theorem isWritten_record (h : ∀ v ∈ values, Json.IsWritten v) :
    Json.IsWritten (record keys values) := by
  refine .object ?_ ?_
  · rintro f hf
    obtain ⟨kv, -, rfl⟩ := List.mem_map.1 hf
    exact ⟨kv.1.toList, rfl⟩
  · rintro f hf
    obtain ⟨kv, hkv, rfl⟩ := List.mem_map.1 hf
    exact h kv.2 (List.of_mem_zip hkv).2

end Document

end ShaderChain
