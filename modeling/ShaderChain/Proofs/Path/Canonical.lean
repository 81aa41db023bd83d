import ShaderChain.Proofs.Path

/-!
# Canonical paths

Where a path leads, apart from how it is folded. A path is gone piece by piece: an empty piece and a
dot stay in the directory, two dots go to the one above, and a name goes into what it names. A path
read from the root leads to the same place from everywhere, and nothing is above the root.

A path is normal if it is a slash or any number of `..`, and then names, with a slash between each
two. Normal paths that lead alike from every directory are the same text, and folding a path keeps
where it leads. So the folded paths are one spelling for each way there is, and since a joined path
is gone half by half, it makes no difference if its first half is folded before.
-/

namespace ShaderChain

namespace Path

/-- Whether a component is a name, and so not `..`. -/
def IsName (c : List Char) : Prop := IsComponent c ∧ c ≠ ['.', '.']

/-- Whether a path is normal: names with a slash between each two, behind a slash at the root or
behind any number of `..`. -/
inductive IsNormal : List Char → Prop
  | rooted {names : List (List Char)} (h : ∀ c ∈ names, IsName c) :
      IsNormal ('/' :: ['/'].intercalate names)
  | relative (ups : Nat) {names : List (List Char)} (h : ∀ c ∈ names, IsName c) :
      IsNormal (['/'].intercalate (List.replicate ups ['.', '.'] ++ names))

/-- Where a piece of a path leads from a directory, which is given by the names on the way up to the
root. -/
def enter (d : List (List Char)) (piece : List Char) : List (List Char) :=
  if piece = [] ∨ piece = ['.'] then d else if piece = ['.', '.'] then d.tail else piece :: d

/-- Where a path leads from a directory. -/
def destination (d : List (List Char)) (p : List Char) : List (List Char) :=
  (p.splitOn '/').foldl enter (if isAbsolute p then [] else d)

/-- Whether two paths lead to the same place, from whatever directory. -/
def LeadAlike (p q : List Char) : Prop :=
  ∀ d : List (List Char), (∀ c ∈ d, IsName c) → destination d p = destination d q

/-- Whether a spelling of paths is canonical: it is normal, keeps whether a path is read from the
root, may be applied again or on the way, and is the same for two paths exactly if they lead
alike. -/
structure IsCanonical (spell : String → String) : Prop where
  isNormal : ∀ p, IsNormal (spell p).toList
  isAbsolute : ∀ p, isAbsolute (spell p).toList = isAbsolute p.toList
  spell_spell : ∀ p, spell (spell p) = spell p
  spell_join : ∀ p q, spell (join p q) = spell (join (spell p) q)
  eq_iff : ∀ p q, spell p = spell q ↔ LeadAlike p.toList q.toList

variable {absolute : Bool} {c : List Char} {cs d ds names names' : List (List Char)}
  {p q : List Char} {ups : Nat}

section Entering

theorem enter_dots (d : List (List Char)) : enter d ['.', '.'] = d.tail := rfl

theorem enter_of_isName (h : IsName c) (d : List (List Char)) : enter d c = c :: d := by
  obtain ⟨⟨hne, hdot, -⟩, hdots⟩ := h
  simp [enter, hne, hdot, hdots]

theorem foldl_enter_replicate (ups : Nat) (d : List (List Char)) :
    (List.replicate ups ['.', '.']).foldl enter d = d.drop ups := by
  induction ups generalizing d with
  | zero => rfl
  | succ ups ih => rw [List.replicate_succ, List.foldl_cons, enter_dots, ih, List.drop_tail]

theorem foldl_enter_of_isName (h : ∀ c ∈ names, IsName c) (d : List (List Char)) :
    names.foldl enter d = names.reverse ++ d := by
  induction names generalizing d with
  | nil => rfl
  | cons c names ih =>
      have hrest := ih (fun x hx => h x (List.mem_cons_of_mem c hx)) (c :: d)
      rw [List.foldl_cons, enter_of_isName (h c List.mem_cons_self), hrest, List.reverse_cons,
        List.append_assoc]
      rfl

/-- Pieces that are no components lead nowhere. -/
theorem destination_eq (d : List (List Char)) (p : List Char) :
    destination d p = (components p).foldl enter (if isAbsolute p then [] else d) := by
  rw [destination, components, List.foldl_filter]
  congr 1
  funext d c
  by_cases h : c = [] ∨ c = ['.']
  · rcases h with rfl | rfl <;> rfl
  · obtain ⟨hne, hdot⟩ := not_or.1 h
    simp [hne, hdot]

theorem destination_of_isAbsolute (h : isAbsolute p = true) (d d' : List (List Char)) :
    destination d p = destination d' p := by
  rw [destination, destination, h, if_pos rfl, if_pos rfl]

end Entering

section Folding

/-- One more component on a folded path leads on from where the path leads. At the root two dots
stay, so that there they may be dropped. -/
theorem foldl_enter_foldComponent (hcs : ∀ c ∈ cs, IsComponent c) (hc : IsComponent c)
    (hd : absolute = true → d = []) :
    (foldComponent absolute cs c).reverse.foldl enter d = enter (cs.reverse.foldl enter d) c := by
  have hkeep : (c :: cs).reverse.foldl enter d = enter (cs.reverse.foldl enter d) c := by
    rw [List.reverse_cons, List.foldl_append]
    rfl
  by_cases hdots : c = ['.', '.']
  · subst hdots
    cases cs with
    | nil =>
        cases absolute with
        | false => exact hkeep
        | true =>
            rw [hd rfl]
            rfl
    | cons last rest =>
        by_cases hlast : last = ['.', '.']
        · simpa only [foldComponent, if_true, if_pos hlast] using hkeep
        · -- the two dots lead back out of what the last name leads into
          have hname : IsName last := ⟨hcs last List.mem_cons_self, hlast⟩
          simp only [foldComponent, if_true, if_neg hlast]
          rw [List.reverse_cons, List.foldl_append, List.foldl_cons, List.foldl_nil,
            enter_of_isName hname]
          rfl
  · rw [foldComponent_of_ne hdots]
    exact hkeep

theorem foldl_enter_foldl (hds : ∀ c ∈ ds, IsComponent c) (hcs : ∀ c ∈ cs, IsComponent c)
    (hd : absolute = true → d = []) :
    (ds.foldl (foldComponent absolute) cs).reverse.foldl enter d =
      ds.foldl enter (cs.reverse.foldl enter d) := by
  induction ds generalizing cs with
  | nil => rfl
  | cons c ds ih =>
      have hc := hds c List.mem_cons_self
      have hmem : ∀ x ∈ foldComponent absolute cs c, IsComponent x := by
        intro x hx
        rcases mem_foldComponent hx with rfl | hx
        · exact hc
        · exact hcs x hx
      rw [List.foldl_cons, List.foldl_cons, ih (fun x hx => hds x (List.mem_cons_of_mem c hx)) hmem,
        foldl_enter_foldComponent hcs hc hd]

/-- What is folded to nothing more is two dots, and then names. -/
theorem exists_eq_replicate_append_of_isFolded (h : IsFolded absolute cs)
    (hcs : ∀ c ∈ cs, IsComponent c) :
    ∃ ups names, cs.reverse = List.replicate ups ['.', '.'] ++ names ∧
      (absolute = true → ups = 0) ∧ ∀ c ∈ names, IsName c := by
  induction cs with
  | nil => exact ⟨0, [], rfl, fun _ => rfl, by simp⟩
  | cons c cs ih =>
      by_cases hdots : c = ['.', '.']
      · obtain ⟨hrelative, hrest⟩ := h.1 hdots
        have hall : ∀ d ∈ (c :: cs).reverse, d = ['.', '.'] := by
          intro d hd
          rcases List.mem_cons.1 (List.mem_reverse.1 hd) with rfl | hd
          · exact hdots
          · exact hrest d hd
        refine ⟨(c :: cs).reverse.length, [], ?_, by simp [hrelative], by simp⟩
        rw [List.append_nil]
        exact List.eq_replicate_of_mem hall
      · obtain ⟨ups, names, hcs', hups, hnames⟩ :=
          ih h.2 fun x hx => hcs x (List.mem_cons_of_mem c hx)
        refine ⟨ups, names ++ [c], ?_, hups, ?_⟩
        · rw [List.reverse_cons, hcs', List.append_assoc]
        · intro x hx
          rcases List.mem_append.1 hx with hx | hx
          · exact hnames x hx
          · rw [List.mem_singleton.1 hx]
            exact ⟨hcs c List.mem_cons_self, hdots⟩

end Folding

section Normal

/-- A normal path is rendered from two dots, none of them at the root, and names. -/
theorem isNormal_iff :
    IsNormal p ↔ ∃ absolute ups names,
      p = render absolute (List.replicate ups ['.', '.'] ++ names) ∧
        (absolute = true → ups = 0) ∧ ∀ c ∈ names, IsName c := by
  constructor
  · rintro (@⟨names, h⟩ | @⟨ups, names, h⟩)
    · exact ⟨true, 0, names, by simp [render], fun _ => rfl, h⟩
    · exact ⟨false, ups, names, by simp [render],
        fun habsolute => absurd habsolute Bool.false_ne_true, h⟩
  · rintro ⟨absolute, ups, names, rfl, hups, h⟩
    rw [render]
    cases absolute with
    | false => exact .relative ups h
    | true =>
        rw [hups rfl]
        exact .rooted h

theorem isComponent_of_mem_replicate_append (ups : Nat) (h : ∀ c ∈ names, IsName c) :
    ∀ c ∈ List.replicate ups ['.', '.'] ++ names, IsComponent c := by
  intro c hc
  rcases List.mem_append.1 hc with hc | hc
  · rw [List.eq_of_mem_replicate hc]
    exact ⟨by simp, by simp, by simp⟩
  · exact (h c hc).1

theorem destination_render (h : ∀ c ∈ names, IsName c) (d : List (List Char)) :
    destination d (render absolute (List.replicate ups ['.', '.'] ++ names)) =
      names.reverse ++ (if absolute then [] else d).drop ups := by
  have hcomponents := isComponent_of_mem_replicate_append ups h
  rw [destination_eq, components_render hcomponents, isAbsolute_render hcomponents,
    List.foldl_append, foldl_enter_replicate, foldl_enter_of_isName h]

theorem drop_ite_replicate (absolute : Bool) (ups depth : Nat) (c : List Char) :
    (if absolute then [] else List.replicate depth c).drop ups =
      List.replicate (if absolute then 0 else depth - ups) c := by
  cases absolute with
  | false => simp
  | true => simp

/-- What stands in front of a repeated name, and how often this is repeated, can be told apart by
putting another name in its place. -/
theorem eq_of_append_replicate {a b : List Char} (hab : a ≠ b) {m n : Nat}
    (ha : cs ++ List.replicate m a = ds ++ List.replicate n a)
    (hb : cs ++ List.replicate m b = ds ++ List.replicate n b) : cs = ds ∧ m = n := by
  have hcount := congrArg (List.count a) ha
  have hcount' := congrArg (List.count a) hb
  simp only [List.count_append, List.count_replicate, beq_self_eq_true, if_true,
    beq_iff_eq, hab.symm, if_false] at hcount hcount'
  obtain rfl : m = n := by omega
  exact ⟨(List.append_inj' ha rfl).1, rfl⟩

/-- Normal paths that lead alike are the same. -/
theorem IsNormal.eq_of_leadAlike (hp : IsNormal p) (hq : IsNormal q) (h : LeadAlike p q) :
    p = q := by
  obtain ⟨absolute, ups, names, rfl, hups, hnames⟩ := isNormal_iff.1 hp
  obtain ⟨absolute', ups', names', rfl, hups', hnames'⟩ := isNormal_iff.1 hq
  -- what is left of a deep directory, by whatever name its parts go
  let depth := ups + ups' + 1
  have hleft : ∀ c, IsName c →
      names.reverse ++ List.replicate (if absolute then 0 else depth - ups) c =
        names'.reverse ++ List.replicate (if absolute' then 0 else depth - ups') c := by
    intro c hc
    have hdestination := h (List.replicate depth c) fun x hx => (List.eq_of_mem_replicate hx) ▸ hc
    rw [destination_render hnames, destination_render hnames'] at hdestination
    rwa [drop_ite_replicate, drop_ite_replicate] at hdestination
  have ha : IsName ['a'] := by simp [IsName, IsComponent]
  have hb : IsName ['b'] := by simp [IsName, IsComponent]
  obtain ⟨hreverse, hlength⟩ := eq_of_append_replicate (by decide) (hleft _ ha) (hleft _ hb)
  rw [List.reverse_inj.1 hreverse]
  -- nothing is left of it on a path from the root, and something on any other
  cases absolute with
  | true =>
      cases absolute' with
      | true => rw [hups rfl, hups' rfl]
      | false =>
          rw [if_pos rfl, if_neg Bool.false_ne_true] at hlength
          omega
  | false =>
      cases absolute' with
      | true =>
          rw [if_pos rfl, if_neg Bool.false_ne_true] at hlength
          omega
      | false =>
          rw [if_neg Bool.false_ne_true, if_neg Bool.false_ne_true] at hlength
          rw [show ups = ups' by omega]

theorem isNormal_normalize (p : String) : IsNormal (normalize p).toList := by
  obtain ⟨ups, names, hfolded, hups, hnames⟩ := exists_eq_replicate_append_of_isFolded
    (isFolded_reverse_folded p.toList) fun c hc =>
      isComponent_of_mem_folded (List.mem_reverse.1 hc)
  rw [List.reverse_reverse] at hfolded
  rw [normalize, String.toList_ofList, hfolded]
  exact isNormal_iff.2 ⟨_, ups, names, rfl, hups, hnames⟩

theorem isAbsolute_normalize (p : String) :
    isAbsolute (normalize p).toList = isAbsolute p.toList := by
  rw [normalize, String.toList_ofList]
  exact isAbsolute_render fun c => isComponent_of_mem_folded

/-- Folding a path keeps where it leads. -/
theorem destination_normalize (d : List (List Char)) (p : String) :
    destination d (normalize p).toList = destination d p.toList := by
  have hcomponents : ∀ c ∈ folded p.toList, IsComponent c := fun c => isComponent_of_mem_folded
  rw [destination_eq, destination_eq, isAbsolute_normalize, normalize, String.toList_ofList,
    components_render hcomponents, folded]
  refine foldl_enter_foldl (fun c => isComponent_of_mem_components) (by simp) fun h => ?_
  rw [h, if_pos rfl]

theorem normalize_eq_iff (p q : String) :
    normalize p = normalize q ↔ LeadAlike p.toList q.toList := by
  constructor
  · intro h d _
    rw [← destination_normalize, h, destination_normalize]
  · intro h
    rw [← String.toList_inj]
    refine (isNormal_normalize p).eq_of_leadAlike (isNormal_normalize q) fun d hd => ?_
    rw [destination_normalize, destination_normalize, h d hd]

end Normal

section Joining

/-- Behind a slash a path leads on from where the path up to the slash leads. -/
theorem destination_append_slash (hq : isAbsolute q = false) (d : List (List Char))
    (p : List Char) :
    destination d (p ++ '/' :: q) = destination (destination d (p ++ ['/'])) q := by
  have habsolute : isAbsolute (p ++ '/' :: q) = isAbsolute (p ++ ['/']) := by
    simp only [isAbsolute, List.head?_append, List.head?_cons]
  rw [destination, destination, destination, List.splitOn_append_cons_self,
    List.splitOn_append_cons_self, habsolute, hq, List.foldl_append, List.foldl_append]
  rfl

/-- Behind a slash at its end a path has an empty piece only. -/
theorem destination_concat_slash (hp : p ≠ []) (d : List (List Char)) :
    destination d (p ++ ['/']) = destination d p := by
  obtain ⟨c, p, rfl⟩ := List.exists_cons_of_ne_nil hp
  rw [destination, List.splitOn_append_cons_self, List.foldl_append]
  rfl

/-- A joined path is gone half by half. -/
theorem destination_join (d : List (List Char)) (a b : String) :
    destination d (join a b).toList = destination (destination d a.toList) b.toList := by
  rw [join]
  split
  · next hb => exact destination_of_isAbsolute hb d _
  · next hb =>
      have hb : isAbsolute b.toList = false := by simpa using hb
      by_cases hempty : a = ""
      · subst hempty
        rfl
      · have ha : a.toList ≠ [] := by simpa using hempty
        split
        · next hslash =>
            obtain ⟨s, hs⟩ := List.getLast?_eq_some_iff.1 (by simpa [hempty] using hslash)
            rw [String.toList_append, hs, List.append_assoc]
            exact destination_append_slash hb d s
        · rw [String.toList_append, String.toList_append, List.append_assoc,
            ← destination_concat_slash ha]
          exact destination_append_slash hb d a.toList

end Joining

/-- Folded paths are the canonical spelling of paths. -/
theorem isCanonical_normalize : IsCanonical normalize where
  isNormal := isNormal_normalize
  isAbsolute := isAbsolute_normalize
  spell_spell := normalize_normalize
  spell_join p q := by
    rw [normalize_eq_iff]
    intro d _
    rw [destination_join, destination_join, destination_normalize]
  eq_iff := normalize_eq_iff

end Path

end ShaderChain
