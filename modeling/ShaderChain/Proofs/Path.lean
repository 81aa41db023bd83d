import ShaderChain.Path
import ShaderChain.Proofs.Text.Pieces

/-!
# Folded paths

What folding a path leaves is a list of components in which `..` stands only in front, and in
a path read from the root nowhere. Such a list is a normal form: written with slashes and
folded again it comes back, so that a normalized path is its own spelling and a file has one.

The last component is the head of the list while a path is folded, and `IsFolded` speaks of
the list in this order.
-/

namespace ShaderChain

namespace Path

variable {absolute : Bool} {c : List Char} {cs : List (List Char)} {p : List Char}

/-- Whether a text can stand between two slashes as a component. -/
def IsComponent (c : List Char) : Prop := c ≠ [] ∧ c ≠ ['.'] ∧ ∀ x ∈ c, (x == '/') = false

/-- Whether nothing is left to fold in a list of components, the last one first. -/
def IsFolded (absolute : Bool) : List (List Char) → Prop
  | [] => True
  | c :: rest =>
      (c = ['.', '.'] → absolute = false ∧ ∀ d ∈ rest, d = ['.', '.']) ∧ IsFolded absolute rest

section Folding

theorem isComponent_of_mem_components (h : c ∈ components p) : IsComponent c := by
  simp only [components, List.mem_filter, Bool.and_eq_true, decide_eq_true_eq, ne_eq] at h
  obtain ⟨hpiece, hne, hdot⟩ := h
  exact ⟨hne, hdot, Text.forall_of_mem_splitOn hpiece⟩

theorem isFolded_nil (absolute : Bool) : IsFolded absolute [] := trivial

theorem isFolded_foldComponent (h : IsFolded absolute cs) (c : List Char) :
    IsFolded absolute (foldComponent absolute cs c) := by
  by_cases hc : c = ['.', '.']
  · subst hc
    cases cs with
    | nil => cases absolute <;> simp [foldComponent, IsFolded]
    | cons last rest =>
        by_cases hlast : last = ['.', '.']
        · subst hlast
          obtain ⟨hrelative, hrest⟩ := h.1 rfl
          simp only [foldComponent, if_true]
          exact ⟨fun _ => ⟨hrelative, by simpa using hrest⟩, h⟩
        · simp only [foldComponent, if_true, if_neg hlast]
          exact h.2
  · rw [foldComponent_of_ne hc]
    exact ⟨fun hdots => absurd hdots hc, h⟩

theorem foldComponent_of_isFolded (h : IsFolded absolute (c :: cs)) :
    foldComponent absolute cs c = c :: cs := by
  by_cases hc : c = ['.', '.']
  · obtain ⟨hrelative, hrest⟩ := h.1 hc
    subst hc hrelative
    cases cs with
    | nil => simp [foldComponent]
    | cons last rest =>
        rw [hrest last List.mem_cons_self]
        simp [foldComponent]
  · exact foldComponent_of_ne hc cs

theorem mem_foldComponent {d : List Char} (h : d ∈ foldComponent absolute cs c) :
    d = c ∨ d ∈ cs := by
  unfold foldComponent at h
  split at h
  · split at h
    · split at h
      · cases h
      · exact Or.inl (List.mem_singleton.1 h)
    · split at h
      · exact List.mem_cons.1 h
      · exact Or.inr (List.mem_cons_of_mem _ h)
  · exact List.mem_cons.1 h

/-- Folding components onto a folded path folds it, and adds no others than these. -/
theorem isFolded_foldl (ds : List (List Char)) (h : IsFolded absolute cs) :
    IsFolded absolute (ds.foldl (foldComponent absolute) cs) ∧
      ∀ d ∈ ds.foldl (foldComponent absolute) cs, d ∈ ds ∨ d ∈ cs := by
  induction ds generalizing cs with
  | nil => exact ⟨h, fun d hd => Or.inr hd⟩
  | cons c ds ih =>
      obtain ⟨hfolded, hmem⟩ := ih (isFolded_foldComponent h c)
      refine ⟨hfolded, fun d hd => ?_⟩
      rcases hmem d hd with hd | hd
      · exact Or.inl (List.mem_cons_of_mem _ hd)
      · rcases mem_foldComponent hd with rfl | hd
        · exact Or.inl List.mem_cons_self
        · exact Or.inr hd

/-- A folded list of components is folded to itself. -/
theorem foldl_reverse_of_isFolded (h : IsFolded absolute cs) :
    cs.reverse.foldl (foldComponent absolute) [] = cs := by
  induction cs with
  | nil => rfl
  | cons c cs ih =>
      rw [List.reverse_cons, List.foldl_append, ih h.2]
      exact foldComponent_of_isFolded h

theorem isFolded_reverse_folded (p : List Char) :
    IsFolded (isAbsolute p) (folded p).reverse := by
  rw [folded, List.reverse_reverse]
  exact (isFolded_foldl (components p) (isFolded_nil _)).1

theorem isComponent_of_mem_folded (h : c ∈ folded p) : IsComponent c := by
  rw [folded, List.mem_reverse] at h
  rcases (isFolded_foldl (components p) (isFolded_nil (isAbsolute p))).2 c h with h | h
  · exact isComponent_of_mem_components h
  · cases h

end Folding

section Rendering

theorem filter_eq_self_of_isComponent (h : ∀ c ∈ cs, IsComponent c) :
    cs.filter (fun c => c ≠ [] && c ≠ ['.']) = cs := by
  rw [List.filter_eq_self]
  intro c hc
  obtain ⟨hne, hdot, -⟩ := h c hc
  simp [hne, hdot]

theorem components_intercalate (h : ∀ c ∈ cs, IsComponent c) :
    components (['/'].intercalate cs) = cs := by
  cases cs with
  | nil => rfl
  | cons c cs =>
      have hfree : ∀ d ∈ c :: cs, '/' ∉ d := fun d hd hslash => by
        simpa using (h d hd).2.2 '/' hslash
      rw [components, List.splitOn_intercalate '/' hfree (List.cons_ne_nil c cs)]
      exact filter_eq_self_of_isComponent h

theorem components_cons_slash (p : List Char) : components ('/' :: p) = components p := by
  rw [components, List.splitOn_cons_eq_if_modifyHead, if_pos (by rfl)]
  rfl

theorem components_render (h : ∀ c ∈ cs, IsComponent c) :
    components (render absolute cs) = cs := by
  cases absolute with
  | false => exact components_intercalate h
  | true => exact (components_cons_slash _).trans (components_intercalate h)

/-- A component does not begin with a slash, and so no relative path does. -/
theorem isAbsolute_render (h : ∀ c ∈ cs, IsComponent c) :
    isAbsolute (render absolute cs) = absolute := by
  cases absolute with
  | true => rfl
  | false =>
      cases cs with
      | nil => rfl
      | cons c cs =>
          obtain ⟨hne, -, hslash⟩ := h c List.mem_cons_self
          obtain ⟨x, c, rfl⟩ := List.exists_cons_of_ne_nil hne
          have hx := hslash x List.mem_cons_self
          simpa [isAbsolute, render, List.intercalate_cons_cons_left] using hx

end Rendering

/-- A normalized path is its own spelling. -/
theorem normalize_normalize (p : String) : normalize (normalize p) = normalize p := by
  have hcomponents : ∀ c ∈ folded p.toList, IsComponent c := fun c => isComponent_of_mem_folded
  have hrefold := foldl_reverse_of_isFolded (isFolded_reverse_folded p.toList)
  rw [List.reverse_reverse] at hrefold
  have hfolded : folded (render (isAbsolute p.toList) (folded p.toList)) = folded p.toList := by
    rw [folded, components_render hcomponents, isAbsolute_render hcomponents, hrefold,
      List.reverse_reverse]
  rw [normalize, normalize, String.toList_ofList, isAbsolute_render hcomponents, hfolded]

end Path

end ShaderChain
