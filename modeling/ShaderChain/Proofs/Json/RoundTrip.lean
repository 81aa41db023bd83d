import ShaderChain.Json.Writer
import ShaderChain.Proofs.Json.Numeral
import ShaderChain.Proofs.Json.Text

/-!
# Documents read back

A document whose strings are escaped and whose numbers are tokens is read back as it was
written. The induction is on the document. It carries the fuel as twice the length of what is
still to be read, which every step of the reader pays with a character of its own.
-/

namespace ShaderChain.Json

/-- The values that a writer makes: strings and keys are escaped, and numbers are the texts of
numerals. -/
inductive IsWritten : Json → Prop where
  | null : IsWritten .null
  | bool (b : Bool) : IsWritten (.bool b)
  | number (negative : Bool) {n : Numeral} (h : n.IsNumber) :
      IsWritten (.number (if negative then '-' :: n.text else n.text))
  | string (s : List Char) : IsWritten (.string (escape s))
  | array {items : List Json} (h : ∀ j ∈ items, IsWritten j) : IsWritten (.array items)
  | object {fields : List (List Char × Json)} (keys : ∀ f ∈ fields, ∃ k, f.1 = escape k)
      (h : ∀ f ∈ fields, IsWritten f.2) : IsWritten (.object fields)

variable {j : Json} {js : List Json} {level fuel : ℕ} {s r : List Char}

/-! ### Space -/

@[simp] theorem skipSpace_cons {c : Char} (h : isSpace c = false) : skipSpace (c :: s) = c :: s := by
  simp [skipSpace, h]

@[simp] theorem skipSpace_newline (level : ℕ) (s : List Char) :
    skipSpace (newline level ++ s) = skipSpace s := by
  have hspace : ∀ c ∈ newline level, isSpace c = true := by
    simp only [newline, List.mem_cons, List.mem_replicate]
    rintro c (rfl | ⟨-, rfl⟩) <;> rfl
  exact List.dropWhile_append_of_pos hspace

@[simp] theorem readValue?_newline (fuel level : ℕ) (s : List Char) :
    readValue? fuel (newline level ++ s) = readValue? fuel s := by
  cases fuel <;> simp [readValue?]

@[simp] theorem readItems?_newline (fuel level : ℕ) (s : List Char) :
    readItems? fuel (newline level ++ s) = readItems? fuel s := by
  cases fuel <;> simp [readItems?]

@[simp] theorem readFields?_newline (fuel level : ℕ) (s : List Char) :
    readFields? fuel (newline level ++ s) = readFields? fuel s := by
  cases fuel <;> simp [readFields?]

@[simp] theorem readValue?_space (fuel : ℕ) (s : List Char) :
    readValue? fuel (' ' :: s) = readValue? fuel s := by
  have hspace : skipSpace (' ' :: s) = skipSpace s := rfl
  cases fuel <;> simp [readValue?, hspace]

theorem endsNumber_newline (level : ℕ) (s : List Char) : EndsNumber (newline level ++ s) := by
  rintro c ⟨⟩
  decide

theorem endsNumber_comma (s : List Char) : EndsNumber (',' :: s) := by
  rintro c ⟨⟩
  decide

/-! ### Values -/

/-- A value is read back in front of whatever cannot continue a number, with fuel for twice
its length. -/
def ReadsBack (level : ℕ) (j : Json) : Prop :=
  ∀ fuel r, EndsNumber r → 2 * (render level j).length ≤ fuel →
    readValue? fuel (render level j ++ r) = some (j, r)

/-- A number starts with its sign or with a digit. -/
theorem exists_number_eq {n : Numeral} (negative : Bool) (h : n.IsNumber) :
    ∃ c t, (if negative then '-' :: n.text else n.text) = c :: t ∧
      (c = '-' ∨ c.isDigit = true) := by
  obtain ⟨c, cs, hcs⟩ := List.exists_cons_of_ne_nil h.ne_nil
  cases negative with
  | true => exact ⟨'-', n.text, rfl, Or.inl rfl⟩
  | false => exact ⟨c, _, congrArg (· ++ _) hcs, Or.inr (h.whole c (by simp [hcs]))⟩

/-- The first character of a number starts nothing else. -/
theorem number_head_ne {c : Char} (h : c = '-' ∨ c.isDigit = true) :
    ∀ d ∈ [' ', '\n', '\t', '\r', 'n', 't', 'f', '"', '[', ']', '\x7b'], c ≠ d := by
  have hnone : [' ', '\n', '\t', '\r', 'n', 't', 'f', '"', '[', ']', '\x7b'].all
      (fun d => !(d == '-' || d.isDigit)) = true := rfl
  rintro d hd rfl
  have hc := List.all_eq_true.1 hnone c hd
  rcases h with rfl | h
  · exact absurd hc (by decide)
  · simp [h] at hc

/-- A written value starts neither with space nor as a list ends. -/
theorem exists_render_eq (h : IsWritten j) (level : ℕ) :
    ∃ c t, render level j = c :: t ∧ isSpace c = false ∧ c ≠ ']' := by
  cases h with
  | null => exact ⟨_, _, rfl, rfl, by decide⟩
  | bool b => cases b <;> exact ⟨_, _, rfl, rfl, by decide⟩
  | number negative hn =>
      obtain ⟨c, t, hct, hc⟩ := exists_number_eq negative hn
      refine ⟨c, t, by rw [render, hct], ?_⟩
      have hne := number_head_ne hc
      exact ⟨by simp [isSpace, hne], hne ']' (by simp)⟩
  | string s => exact ⟨_, _, rfl, rfl, by decide⟩
  | @array items _ => cases items <;> exact ⟨_, _, rfl, rfl, by decide⟩
  | @object fields _ _ => rcases fields with _ | ⟨⟨k, v⟩, fs⟩ <;> exact ⟨_, _, rfl, rfl, by decide⟩

theorem readItems?_render (h : ∀ i ∈ j :: js, ReadsBack level i) (outer : ℕ)
    (hfuel : 2 * (render level j ++ renderItems level js).length + 1 ≤ fuel) :
    readItems? fuel (render level j ++ (renderItems level js ++ (newline outer ++ ']' :: r))) =
      some (j :: js, r) := by
  induction js generalizing j fuel with
  | nil =>
      obtain ⟨fuel, rfl⟩ : ∃ n, fuel = n + 1 := ⟨fuel - 1, by omega⟩
      have hread := h j (by simp) fuel (newline outer ++ ']' :: r) (endsNumber_newline _ _)
        (by simpa [renderItems] using hfuel)
      simp [renderItems, readItems?, hread, isSpace]
  | cons i js ih =>
      obtain ⟨fuel, rfl⟩ : ∃ n, fuel = n + 1 := ⟨fuel - 1, by omega⟩
      simp only [renderItems, List.length_append, List.length_cons] at hfuel
      have hread := h j (by simp) fuel (',' :: (newline level ++ (render level i ++
        (renderItems level js ++ (newline outer ++ ']' :: r))))) (endsNumber_comma _) (by omega)
      have hrest := ih (fun i hi => h i (List.mem_cons_of_mem _ hi))
        (show _ ≤ fuel by rw [List.length_append]; omega)
      simp [renderItems, readItems?, hread, hrest, isSpace]

theorem readFields?_render {k : List Char} {fs : List (List Char × Json)}
    (hkeys : ∀ f ∈ (k, j) :: fs, ∃ k, f.1 = escape k)
    (h : ∀ f ∈ (k, j) :: fs, ReadsBack level f.2) (outer : ℕ)
    (hfuel : 2 * (k ++ render level j ++ renderFields level fs).length + 1 ≤ fuel) :
    readFields? fuel ('"' :: (k ++ '"' :: ':' :: ' ' :: (render level j ++
      (renderFields level fs ++ (newline outer ++ '\x7d' :: r))))) = some ((k, j) :: fs, r) := by
  obtain ⟨t, rfl⟩ : ∃ t, k = escape t := hkeys (k, j) (by simp)
  induction fs generalizing t j fuel with
  | nil =>
      obtain ⟨fuel, rfl⟩ : ∃ n, fuel = n + 1 := ⟨fuel - 1, by omega⟩
      simp only [renderFields, List.length_append, List.length_nil] at hfuel
      have hread := h (escape t, j) (by simp) fuel (newline outer ++ '\x7d' :: r)
        (endsNumber_newline _ _) (by dsimp only; omega)
      simp [renderFields, readFields?, hread, readString?_escape, isSpace]
  | cons f fs ih =>
      obtain ⟨fuel, rfl⟩ : ∃ n, fuel = n + 1 := ⟨fuel - 1, by omega⟩
      obtain ⟨k', i⟩ := f
      obtain ⟨t', rfl⟩ : ∃ t, k' = escape t := hkeys (k', i) (by simp)
      simp only [renderFields, List.length_append, List.length_cons, List.length_nil] at hfuel
      have hread := h (escape t, j) (by simp) fuel (',' :: (newline level ++ '"' ::
        (escape t' ++ '"' :: ':' :: ' ' :: (render level i ++
          (renderFields level fs ++ (newline outer ++ '\x7d' :: r))))))
        (endsNumber_comma _) (by dsimp only; omega)
      have hrest := ih t' (fun f hf => hkeys f (List.mem_cons_of_mem _ hf))
        (fun f hf => h f (List.mem_cons_of_mem _ hf))
        (show _ ≤ fuel by rw [List.length_append, List.length_append]; omega)
      simp [renderFields, readFields?, hread, hrest, readString?_escape, isSpace]

/-- A value that is read back with some fuel left needs no case for none. -/
theorem readsBack_of_succ (hj : IsWritten j) (h : ∀ fuel r, EndsNumber r →
    2 * (render level j).length ≤ fuel + 1 →
      readValue? (fuel + 1) (render level j ++ r) = some (j, r)) : ReadsBack level j := by
  intro fuel r hr hfuel
  obtain ⟨c, t, hct, -⟩ := exists_render_eq hj level
  cases fuel with
  | zero => simp [hct] at hfuel
  | succ fuel => exact h fuel r hr hfuel

/-- Every written value is read back. -/
theorem readsBack_of_isWritten (h : IsWritten j) (level : ℕ) : ReadsBack level j := by
  induction h generalizing level with
  | null => exact readsBack_of_succ .null fun _ _ _ _ => rfl
  | bool b => exact readsBack_of_succ (.bool b) fun _ _ _ _ => by cases b <;> rfl
  | number negative hn =>
      refine readsBack_of_succ (.number negative hn) fun fuel r hr _ => ?_
      have hread := readNumber?_text negative hn hr
      obtain ⟨c, t, hct, hc⟩ := exists_number_eq negative hn
      have hne := number_head_ne hc
      have hspace : isSpace c = false := by simp [isSpace, hne]
      rw [hct, List.cons_append] at hread
      rw [render, hct, List.cons_append]
      simp [readValue?, hspace, hne, hread]
  | string s =>
      refine readsBack_of_succ (.string s) fun fuel r _ _ => ?_
      simp [render, readValue?, readString?_escape, isSpace]
  | @array items hitems ih =>
      refine readsBack_of_succ (.array hitems) fun fuel r _ hfuel => ?_
      cases items with
      | nil => rfl
      | cons j js =>
          simp only [render, List.length_append, List.length_cons, List.length_nil] at hfuel
          obtain ⟨c, t, hct, hspace, hc⟩ := exists_render_eq (hitems j (by simp)) (level + 1)
          have hread := readItems?_render (r := r) (fun i hi => ih i hi (level + 1)) level
            (show _ ≤ fuel by rw [List.length_append]; omega)
          rw [hct, List.cons_append] at hread
          have hbracket : isSpace '[' = false := rfl
          simp [render, readValue?, hbracket, hct, hspace, hc, hread]
  | @object fields hkeys hfields ih =>
      refine readsBack_of_succ (.object hkeys hfields) fun fuel r _ hfuel => ?_
      rcases fields with _ | ⟨⟨k, j⟩, fs⟩
      · rfl
      · simp only [render, List.length_append, List.length_cons, List.length_nil] at hfuel
        have hread := readFields?_render (r := r) hkeys (fun f hf => ih f hf (level + 1)) level
          (show _ ≤ fuel by rw [List.length_append, List.length_append]; omega)
        simp [render, readValue?, hread, isSpace]

/-- A written document is read as what was written. -/
theorem read?_write (h : IsWritten j) : read? j.write = some j := by
  have hread := readsBack_of_isWritten h 0 (2 * (render 0 j).length + 2) [] endsNumber_nil
    (by omega)
  rw [List.append_nil] at hread
  simp [read?, write, hread, skipSpace]

end ShaderChain.Json
