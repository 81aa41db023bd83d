import Mathlib.Data.List.Forall2

/-!
# Successful results

A result that is put together from others succeeds exactly if these do, one after the
other.
-/

namespace ShaderChain.Success

variable {ε ε' α β : Type}

theorem pure_iff {a b : α} : (pure a : Except ε α) = .ok b ↔ a = b := by
  constructor
  · intro h
    cases h
    rfl
  · rintro rfl
    rfl

theorem bind_iff {x : Except ε α} {f : α → Except ε β} {b : β} :
    x >>= f = .ok b ↔ ∃ a, x = .ok a ∧ f a = .ok b := by
  cases x with
  | error e =>
      constructor
      · intro h
        cases h
      · rintro ⟨a, h, -⟩
        cases h
  | ok a =>
      constructor
      · intro h
        exact ⟨a, rfl, h⟩
      · rintro ⟨a', h, hf⟩
        cases h
        exact hf

/-- Two parts succeed with something exactly if the first does and, on its result, the
second. -/
theorem exists_bind_iff {x : Except ε α} {f : α → Except ε β} :
    (∃ b, x >>= f = .ok b) ↔ ∃ a, x = .ok a ∧ ∃ b, f a = .ok b := by
  constructor
  · intro ⟨b, h⟩
    obtain ⟨a, ha, hb⟩ := bind_iff.1 h
    exact ⟨a, ha, b, hb⟩
  · intro ⟨a, ha, b, hb⟩
    exact ⟨b, bind_iff.2 ⟨a, ha, hb⟩⟩

theorem exists_map_iff {x : Except ε α} {f : α → β} :
    (∃ b, x.map f = .ok b) ↔ ∃ a, x = .ok a := by
  cases x <;> simp [Except.map]

theorem map_iff {x : Except ε α} {f : α → β} {b : β} :
    x.map f = .ok b ↔ ∃ a, x = .ok a ∧ f a = b := by
  cases x <;> simp [Except.map]

theorem mapError_iff {x : Except ε α} {f : ε → ε'} {a : α} :
    x.mapError f = .ok a ↔ x = .ok a := by
  cases x <;> simp [Except.mapError]

/-- The errors of two parts may as well be renamed in each. -/
theorem mapError_bind (h : ε → ε') (x : Except ε α) (f : α → Except ε β) :
    (x >>= f).mapError h = x.mapError h >>= fun a => (f a).mapError h := by
  cases x <;> rfl

/-- What follows a check succeeds only if the check does not fail. -/
theorem unless_iff {p : Prop} [Decidable p] {e : ε} {f : PUnit → Except ε α} {a : α} :
    (if p then throw e >>= f else f ⟨⟩) = .ok a ↔ ¬ p ∧ f ⟨⟩ = .ok a := by
  by_cases h : p
  · rw [if_pos h]
    constructor
    · intro hthrow
      cases hthrow
    · rintro ⟨hnot, -⟩
      exact absurd h hnot
  · rw [if_neg h]
    exact ⟨fun ha => ⟨h, ha⟩, fun ha => ha.2⟩

/-- What is made of a result behind a check is made of it where the check does not fail. -/
theorem map_unless {p : Prop} [Decidable p] {e : ε} {f : PUnit → Except ε α}
    {f' : PUnit → Except ε β} {g : α → β} (h : f' ⟨⟩ = (f ⟨⟩).map g) :
    (if p then throw e >>= f' else f' ⟨⟩) = (if p then throw e >>= f else f ⟨⟩).map g := by
  by_cases hp : p
  · rw [if_pos hp, if_pos hp]
    rfl
  · rw [if_neg hp, if_neg hp, h]

/-- A function with results goes through a list exactly if it does at every entry. -/
theorem mapM_iff {f : α → Except ε β} {as : List α} {bs : List β} :
    as.mapM f = .ok bs ↔ List.Forall₂ (fun a b => f a = .ok b) as bs := by
  induction as generalizing bs with
  | nil =>
      rw [List.mapM_nil, pure_iff, List.forall₂_nil_left_iff]
      exact eq_comm
  | cons a as ih =>
      rw [List.mapM_cons, bind_iff, List.forall₂_cons_left_iff]
      constructor
      · rintro ⟨b, hb, hrest⟩
        obtain ⟨rest, hmapM, hcons⟩ := bind_iff.1 hrest
        exact ⟨b, rest, hb, ih.1 hmapM, (pure_iff.1 hcons).symm⟩
      · rintro ⟨b, rest, hb, hrest, rfl⟩
        exact ⟨b, hb, bind_iff.2 ⟨rest, ih.2 hrest, rfl⟩⟩

/-- The same of a function that may have no value. -/
theorem mapM_eq_some_iff {f : α → Option β} {as : List α} {bs : List β} :
    as.mapM f = some bs ↔ List.Forall₂ (fun a b => f a = some b) as bs := by
  induction as generalizing bs with
  | nil =>
      rw [List.mapM_nil, List.forall₂_nil_left_iff]
      exact Option.some_inj.trans eq_comm
  | cons a as ih =>
      simp only [List.mapM_cons, List.forall₂_cons_left_iff, ← ih]
      constructor
      · intro h
        obtain ⟨b, hb, hrest⟩ := Option.bind_eq_some_iff.1 h
        obtain ⟨rest, hmapM, hcons⟩ := Option.bind_eq_some_iff.1 hrest
        exact ⟨b, rest, hb, hmapM, (Option.some.inj hcons).symm⟩
      · rintro ⟨b, rest, hb, hrest, rfl⟩
        exact Option.bind_eq_some_iff.2 ⟨b, hb, Option.bind_eq_some_iff.2 ⟨rest, hrest, rfl⟩⟩

/-- Such a function goes through a list with something exactly if it has a value at every entry. -/
theorem exists_mapM_eq_some_iff {f : α → Option β} {as : List α} :
    (∃ bs, as.mapM f = some bs) ↔ ∀ a ∈ as, ∃ b, f a = some b := by
  simp only [mapM_eq_some_iff]
  induction as with
  | nil => simp
  | cons a as ih =>
      rw [List.forall_mem_cons, ← ih]
      simp only [List.forall₂_cons_left_iff]
      constructor
      · rintro ⟨_, b, bs, hb, hbs, rfl⟩
        exact ⟨⟨b, hb⟩, bs, hbs⟩
      · rintro ⟨⟨b, hb⟩, bs, hbs⟩
        exact ⟨b :: bs, b, bs, hb, hbs, rfl⟩

/-- A function with results goes through a list with something exactly if it does at every
place. -/
theorem exists_mapM_iff {f : α → Except ε β} {as : List α} :
    (∃ bs, as.mapM f = .ok bs) ↔ ∀ (i : Nat) (a : α), as[i]? = some a → ∃ b, f a = .ok b := by
  simp only [mapM_iff]
  constructor
  · rintro ⟨bs, hbs⟩ i a ha
    obtain ⟨hi, rfl⟩ := List.getElem?_eq_some_iff.1 ha
    exact ⟨_, hbs.get hi (hbs.length_eq ▸ hi)⟩
  · intro h
    induction as with
    | nil => exact ⟨[], .nil⟩
    | cons a as ih =>
        obtain ⟨b, hb⟩ := h 0 a rfl
        obtain ⟨bs, hbs⟩ := ih fun i x hx => h (i + 1) x hx
        exact ⟨b :: bs, .cons hb hbs⟩

theorem length_mapM {f : α → Except ε β} {as : List α} {bs : List β} (h : as.mapM f = .ok bs) :
    bs.length = as.length :=
  (mapM_iff.1 h).length_eq.symm

theorem exists_of_getElem?_mapM {f : α → Except ε β} {as : List α} {bs : List β} {i : Nat} {b : β}
    (h : as.mapM f = .ok bs) (hb : bs[i]? = some b) : ∃ a, as[i]? = some a ∧ f a = .ok b := by
  obtain ⟨hlt, rfl⟩ := List.getElem?_eq_some_iff.1 hb
  have hlt' : i < as.length := by
    rw [← length_mapM h]
    exact hlt
  exact ⟨as[i], List.getElem?_eq_getElem hlt', (mapM_iff.1 h).get hlt' hlt⟩

end ShaderChain.Success
