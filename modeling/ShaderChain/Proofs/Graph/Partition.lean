import Mathlib.Data.List.Nodup
import ShaderChain.Proofs.Duplicates
import ShaderChain.Proofs.Graph.Conflict
import ShaderChain.Proofs.Graph.Numbering

/-!
# Groups partition the parameters

Of the groups that a preset declares, the first of each key counts. A parameter belongs to the
first of these that lists it, and to the default group if none of them does; `ownerKey` is the
key of the group it belongs to. The groups of a graph are the fibres of its parameters under
this key, so that they partition the parameters.
-/

namespace ShaderChain.Graph

section Counted

variable {declared : List Preset.Group} {d e : Preset.Group} {key : String}

/-- The groups that count among those declared: the first of each key. -/
def counted (declared : List Preset.Group) : List Preset.Group :=
  declared.eraseDupsBy (·.key == ·.key)

theorem counted_cons (d : Preset.Group) (declared : List Preset.Group) :
    counted (d :: declared) = d :: counted (declared.filter (·.key ≠ d.key)) := by
  simp [counted, List.eraseDupsBy_cons]

/-- It does not matter whether keys are left out before the first of each is taken, or after. -/
theorem filter_firstByKey (p : String → Bool) (declared : List Preset.Group) :
    (firstByKey declared).filter (fun d => p d.key) =
      firstByKey (declared.filter fun d => p d.key) := by
  induction declared with
  | nil => rfl
  | cons d declared ih =>
      rw [firstByKey, List.filter_cons, List.filter_cons]
      split
      · rw [firstByKey, ← ih, List.filter_filter, List.filter_filter]
        simp only [Bool.and_comm]
      · next hd =>
          rw [← ih, List.filter_filter]
          refine List.filter_congr fun x _ => ?_
          by_cases hx : x.key = d.key
          · simp [hx, hd]
          · simp [hx]

theorem firstByKey_eq_counted (declared : List Preset.Group) :
    firstByKey declared = counted declared := by
  match declared with
  | [] => rfl
  | d :: declared =>
      have ih := firstByKey_eq_counted (declared.filter (·.key ≠ d.key))
      rw [firstByKey, counted_cons, ← ih, ← filter_firstByKey (fun key => key ≠ d.key)]
      simp only [bne, decide_not, beq_eq_decide]
termination_by declared.length
decreasing_by exact Nat.lt_succ_of_le (List.length_filter_le _ _)

theorem nodup_key_counted (declared : List Preset.Group) :
    ((counted declared).map (·.key)).Nodup := by
  rw [← firstByKey_eq_counted]
  induction declared with
  | nil => exact List.nodup_nil
  | cons d declared ih =>
      rw [firstByKey, List.map_cons, List.nodup_cons]
      refine ⟨?_, ih.sublist (List.filter_sublist.map _)⟩
      intro hd
      obtain ⟨e, he, hkey⟩ := List.mem_map.1 hd
      simpa [hkey] using (List.mem_filter.1 he).2

theorem mem_map_key_counted_iff :
    key ∈ (counted declared).map (·.key) ↔ key ∈ declared.map (·.key) := by
  rw [← firstByKey_eq_counted]
  induction declared with
  | nil => rfl
  | cons d declared ih =>
      rw [firstByKey, List.map_cons, List.map_cons, List.mem_cons, List.mem_cons, ← ih]
      refine or_congr_right' fun hne => ?_
      simp only [List.mem_map, List.mem_filter, bne_iff_ne]
      refine exists_congr fun e => ⟨fun h => ⟨h.1.1, h.2⟩, fun h => ⟨⟨h.1, ?_⟩, h.2⟩⟩
      rw [h.2]
      exact hne

theorem eq_of_mem_counted (hd : d ∈ counted declared) (he : e ∈ counted declared)
    (h : d.key = e.key) : d = e :=
  List.inj_on_of_nodup_map (nodup_key_counted declared) hd he h

end Counted

section Listing

variable {names : List String} {ds declared : List Preset.Group} {d : Preset.Group}
  {name : String}

/-- The first of some groups that lists a name. -/
def lister? (ds : List Preset.Group) (name : String) : Option Preset.Group :=
  ds.find? fun d => name ∈ d.parameters

theorem lister?_cons_of_mem (h : name ∈ d.parameters) : lister? (d :: ds) name = some d :=
  List.find?_cons_of_pos (by simpa using h)

theorem lister?_cons_of_not_mem (h : name ∉ d.parameters) :
    lister? (d :: ds) name = lister? ds name :=
  List.find?_cons_of_neg (by simpa using h)

theorem mem_of_lister? (h : lister? ds name = some d) : d ∈ ds :=
  List.mem_of_find?_eq_some h

theorem mem_parameters_of_lister? (h : lister? ds name = some d) : name ∈ d.parameters := by
  simpa using List.find?_some h

/-- What a group gets of the names that it lists, in their order and each once. -/
def members (names : List String) (ds : List Preset.Group) (d : Preset.Group) : List String :=
  (d.parameters.filter fun name => name ∈ names ∧ lister? ds name = some d).eraseDups

theorem mem_members_iff : name ∈ members names ds d ↔ name ∈ names ∧ lister? ds name = some d := by
  rw [members, List.mem_eraseDups, List.mem_filter, decide_eq_true_iff]
  exact and_iff_right_of_imp fun h => mem_parameters_of_lister? h.2

/-- The names that no group lists, in their order. -/
def unlisted (names : List String) (ds : List Preset.Group) : List String :=
  names.filter fun name => lister? ds name = none

theorem mem_unlisted_iff : name ∈ unlisted names ds ↔ name ∈ names ∧ lister? ds name = none := by
  rw [unlisted, List.mem_filter, decide_eq_true_iff]

/-- The groups of names, with those that get none: in the order of the declarations and with
their descriptions, a default group that is not declared behind the others. The default group
gets the unlisted names behind those that it lists. -/
def arranged (names : List String) (declared : List Preset.Group) : List ParameterGroup :=
  (counted declared).map (fun d =>
      ⟨d.key, d.description, members names (counted declared) d ++
        if d.key = "default" then unlisted names (counted declared) else []⟩) ++
    if "default" ∈ declared.map (·.key) then []
    else [⟨"default", "Default", unlisted names (counted declared)⟩]

/-- The key of the group of a name: the first counted one that lists it, or the default one. -/
def ownerKey (declared : List Preset.Group) (name : String) : String :=
  ((lister? (counted declared) name).map (·.key)).getD "default"

theorem ownerKey_eq_iff (hd : d ∈ counted declared) :
    ownerKey declared name = d.key ↔ lister? (counted declared) name = some d ∨
      d.key = "default" ∧ lister? (counted declared) name = none := by
  rw [ownerKey]
  cases h : lister? (counted declared) name with
  | none => simp [eq_comm]
  | some e =>
      have hinj : e.key = d.key ↔ e = d :=
        ⟨eq_of_mem_counted (mem_of_lister? h) hd, congrArg _⟩
      simp [hinj]

theorem ownerKey_eq_default_iff (h : "default" ∉ declared.map (·.key)) :
    ownerKey declared name = "default" ↔ lister? (counted declared) name = none := by
  rw [ownerKey]
  cases hlister : lister? (counted declared) name with
  | none => simp
  | some d =>
      have hd : d.key ≠ "default" := by
        intro hkey
        exact h (mem_map_key_counted_iff.1 (List.mem_map.2 ⟨d, mem_of_lister? hlister, hkey⟩))
      simp [hd]

end Listing

section Taking

variable {names taken : List String} {known : String → Bool} {ds : List Preset.Group}
  {gs : List ParameterGroup} {name : String}

theorem freeNames_eq (known : String → Bool) (taken names : List String) :
    freeNames known taken names =
      (names.filter fun name => known name && !taken.contains name).eraseDups := by
  induction names generalizing taken with
  | nil => rfl
  | cons name names ih =>
      rw [freeNames, List.filter_cons]
      split
      · next h =>
          rw [List.eraseDups_cons, List.filter_filter, ih]
          congr 2
          refine List.filter_congr fun x _ => ?_
          simp [Bool.and_left_comm, beq_eq_decide]
      · next h => rw [ih]

theorem mem_freeNames_iff :
    name ∈ freeNames known taken names ↔
      name ∈ names ∧ known name = true ∧ name ∉ taken := by
  simp [freeNames_eq]

/-- Taking one after the other, each group takes the names that it is the first to list. -/
theorem memberships_eq (hnodup : (ds.map (·.key)).Nodup) (known : String → Bool)
    (taken : List String) :
    memberships known taken ds = ds.map fun d =>
      ⟨d.key, d.description, (d.parameters.filter fun name =>
        (known name && !taken.contains name) && decide (lister? ds name = some d)).eraseDups⟩ := by
  induction ds generalizing taken with
  | nil => rfl
  | cons d ds ih =>
      rw [List.map_cons, List.nodup_cons] at hnodup
      have hhead : (d.parameters.filter fun name => (known name && !taken.contains name) &&
          decide (lister? (d :: ds) name = some d)).eraseDups =
            freeNames known taken d.parameters := by
        rw [freeNames_eq]
        congr 1
        refine List.filter_congr fun name hname => ?_
        rw [lister?_cons_of_mem hname]
        simp
      rw [memberships, ih hnodup.2, List.map_cons, hhead]
      congr 1
      refine List.map_congr_left fun e he => ?_
      have hne : d ≠ e := by
        rintro rfl
        exact hnodup.1 (List.mem_map_of_mem he)
      congr 2
      refine List.filter_congr fun name _ => ?_
      rw [Bool.eq_iff_iff]
      simp only [Bool.and_eq_true, Bool.not_eq_true', List.contains_eq_mem,
        decide_eq_false_iff_not, decide_eq_true_iff, List.mem_append, mem_freeNames_iff, not_or,
        and_assoc]
      by_cases hname : name ∈ d.parameters
      · -- the first group has taken the name, or it was not to be had before
        rw [lister?_cons_of_mem hname, Option.some_inj]
        constructor
        · rintro ⟨hknown, htaken, hfree, -⟩
          exact absurd ⟨hname, hknown, hfree⟩ htaken
        · rintro ⟨-, -, heq⟩
          exact absurd heq hne
      · rw [lister?_cons_of_not_mem hname]
        simp [hname]

/-- The default group gets names behind its own, at its place or behind the others. -/
theorem addToDefault_eq (hnodup : (gs.map (·.key)).Nodup) (names : List String) :
    addToDefault names gs =
      gs.map (fun x => { x with
        parameters := x.parameters ++ if x.key = "default" then names else [] }) ++
        if "default" ∈ gs.map (·.key) then [] else [⟨"default", "Default", names⟩] := by
  induction gs with
  | nil => rfl
  | cons x gs ih =>
      rw [List.map_cons, List.nodup_cons] at hnodup
      simp only [addToDefault, defaultKey, List.map_cons, List.mem_cons, List.cons_append]
      by_cases hx : x.key = "default"
      · have hrest : ∀ y ∈ gs, y.key ≠ "default" := by
          intro y hy hkey
          exact hnodup.1 (List.mem_map.2 ⟨y, hy, hkey.trans hx.symm⟩)
        have hmap : gs.map (fun y => { y with
            parameters := y.parameters ++ if y.key = "default" then names else [] }) = gs := by
          refine (List.map_congr_left fun y hy => ?_).trans (List.map_id gs)
          simp [hrest y hy]
        rw [if_pos hx, hmap]
        simp [hx]
      · rw [if_neg hx, ih hnodup.2]
        simp [hx, Ne.symm hx]

/-- What the counted groups get of the names that they list. -/
def listings (names : List String) (declared : List Preset.Group) : List ParameterGroup :=
  (counted declared).map fun d => ⟨d.key, d.description, members names (counted declared) d⟩

theorem memberships_firstByKey (names : List String) (declared : List Preset.Group) :
    memberships names.contains [] (firstByKey declared) = listings names declared := by
  rw [firstByKey_eq_counted, memberships_eq (nodup_key_counted declared)]
  simp [listings, members]

theorem map_key_listings (names : List String) (declared : List Preset.Group) :
    (listings names declared).map (·.key) = (counted declared).map (·.key) := by
  rw [listings, List.map_map]
  rfl

/-- The names that are left when all groups have taken theirs are those that none lists. -/
theorem filter_not_mem_listings (names : List String) (declared : List Preset.Group) :
    (names.filter fun name =>
      !((listings names declared).flatMap (·.parameters)).contains name) =
        unlisted names (counted declared) := by
  refine List.filter_congr fun name hname => ?_
  rw [listings, List.flatMap_map, Bool.eq_iff_iff]
  simp only [Bool.not_eq_true', List.contains_eq_mem, decide_eq_false_iff_not, List.mem_flatMap,
    mem_members_iff, decide_eq_true_iff, Option.eq_none_iff_forall_ne_some]
  constructor
  · intro h d hd
    exact h ⟨d, mem_of_lister? hd, hname, hd⟩
  · rintro h ⟨d, -, -, hd⟩
    exact h d hd

theorem groupsOf_eq (names : List String) (declared : List Preset.Group) :
    groupsOf names declared = (arranged names declared).filter (·.parameters ≠ []) := by
  have hnodup : ((listings names declared).map (·.key)).Nodup := by
    rw [map_key_listings]
    exact nodup_key_counted declared
  simp only [groupsOf, memberships_firstByKey, filter_not_mem_listings, addToDefault_eq hnodup,
    map_key_listings, mem_map_key_counted_iff]
  rw [listings, List.map_map]
  rfl

end Taking

section Fibres

variable {names : List String} {keyOf : String → String} {groups : List ParameterGroup}
  {declared : List Preset.Group} {name : String}

/-- Whether groups are the fibres of names under a key, each name being in the one group that
has its key. -/
structure AreFibres (keyOf : String → String) (names : List String)
    (groups : List ParameterGroup) : Prop where
  nodup_key : (groups.map (·.key)).Nodup
  nodup_parameters : ∀ x ∈ groups, x.parameters.Nodup
  mem_iff : ∀ x ∈ groups, ∀ name, name ∈ x.parameters ↔ name ∈ names ∧ keyOf name = x.key
  exists_group : ∀ name ∈ names, ∃ x ∈ groups, keyOf name = x.key

theorem AreFibres.filter_ne_nil (h : AreFibres keyOf names groups) :
    AreFibres keyOf names (groups.filter (·.parameters ≠ [])) where
  nodup_key := h.nodup_key.sublist (List.filter_sublist.map _)
  nodup_parameters := fun x hx => h.nodup_parameters x (List.mem_of_mem_filter hx)
  mem_iff := fun x hx => h.mem_iff x (List.mem_of_mem_filter hx)
  exists_group := by
    intro name hname
    obtain ⟨x, hx, hkey⟩ := h.exists_group name hname
    have hmem : name ∈ x.parameters := (h.mem_iff x hx name).2 ⟨hname, hkey⟩
    exact ⟨x, List.mem_filter.2 ⟨hx, by simpa using List.ne_nil_of_mem hmem⟩, hkey⟩

theorem AreFibres.mem_iff_eq (h : AreFibres keyOf names groups) (hname : name ∈ names)
    {x y : ParameterGroup} (hx : x ∈ groups) (hy : y ∈ groups) (hkey : keyOf name = x.key) :
    name ∈ y.parameters ↔ y = x := by
  rw [h.mem_iff y hy, hkey]
  constructor
  · rintro ⟨-, heq⟩
    exact (List.inj_on_of_nodup_map h.nodup_key hx hy heq).symm
  · rintro rfl
    exact ⟨hname, rfl⟩

theorem AreFibres.perm (h : AreFibres keyOf names groups) (hnames : names.Nodup) :
    (groups.flatMap (·.parameters)).Perm names := by
  have hnodup : (groups.flatMap (·.parameters)).Nodup := by
    rw [List.nodup_flatMap]
    refine ⟨h.nodup_parameters, ?_⟩
    refine (List.pairwise_map.1 h.nodup_key).imp_of_mem fun {x y} hx hy hne => ?_
    intro name hnamex hnamey
    exact hne (((h.mem_iff x hx name).1 hnamex).2.symm.trans ((h.mem_iff y hy name).1 hnamey).2)
  rw [List.perm_ext_iff_of_nodup hnodup hnames]
  intro name
  rw [List.mem_flatMap]
  constructor
  · rintro ⟨x, hx, hname⟩
    exact ((h.mem_iff x hx name).1 hname).1
  · intro hname
    obtain ⟨x, hx, hkey⟩ := h.exists_group name hname
    exact ⟨x, hx, (h.mem_iff x hx name).2 ⟨hname, hkey⟩⟩

theorem AreFibres.groupKey_eq (h : AreFibres keyOf names groups) (hname : name ∈ names) :
    groupKey groups name = keyOf name := by
  rw [groupKey]
  cases hfind : groups.find? (·.parameters.contains name) with
  | none =>
      obtain ⟨x, hx, hkey⟩ := h.exists_group name hname
      have hmem : name ∈ x.parameters := (h.mem_iff x hx name).2 ⟨hname, hkey⟩
      exact absurd hmem (by simpa using List.find?_eq_none.1 hfind x hx)
  | some x =>
      have hmem : name ∈ x.parameters := by simpa using List.find?_some hfind
      exact ((h.mem_iff x (List.mem_of_find?_eq_some hfind) name).1 hmem).2.symm

theorem map_key_arranged (names : List String) (declared : List Preset.Group) :
    (arranged names declared).map (·.key) = (counted declared).map (·.key) ++
      if "default" ∈ declared.map (·.key) then [] else ["default"] := by
  rw [arranged, List.map_append, List.map_map]
  congr 1
  split <;> rfl

theorem mem_arranged_iff {x : ParameterGroup} :
    x ∈ arranged names declared ↔
      (∃ d ∈ counted declared, ⟨d.key, d.description, members names (counted declared) d ++
        if d.key = "default" then unlisted names (counted declared) else []⟩ = x) ∨
      "default" ∉ declared.map (·.key) ∧
        x = ⟨"default", "Default", unlisted names (counted declared)⟩ := by
  rw [arranged, List.mem_append, List.mem_map]
  refine or_congr_right ?_
  split
  · next h => simp [h]
  · next h => simp [h]

theorem nodup_key_arranged (names : List String) (declared : List Preset.Group) :
    ((arranged names declared).map (·.key)).Nodup := by
  rw [map_key_arranged]
  split
  · rw [List.append_nil]
    exact nodup_key_counted declared
  · next h =>
      rw [← mem_map_key_counted_iff] at h
      refine (nodup_key_counted declared).append (List.nodup_singleton _) ?_
      rw [List.disjoint_singleton]
      exact h

/-- The owner of a name is arranged. -/
theorem ownerKey_mem_arranged (names : List String) (declared : List Preset.Group)
    (name : String) : ownerKey declared name ∈ (arranged names declared).map (·.key) := by
  rw [map_key_arranged, List.mem_append, ownerKey]
  cases hlister : lister? (counted declared) name with
  | some d => exact Or.inl (List.mem_map.2 ⟨d, mem_of_lister? hlister, rfl⟩)
  | none =>
      by_cases hdefault : "default" ∈ declared.map (·.key)
      · exact Or.inl (mem_map_key_counted_iff.2 hdefault)
      · exact Or.inr (by simp [hdefault])

/-- What a group gets of the names that it lists and of those that none lists is without
repetition. -/
theorem nodup_parameters_of_mem_arranged (hnames : names.Nodup) {x : ParameterGroup}
    (hx : x ∈ arranged names declared) : x.parameters.Nodup := by
  have hunlisted : (unlisted names (counted declared)).Nodup := hnames.filter _
  rcases mem_arranged_iff.1 hx with ⟨d, -, rfl⟩ | ⟨-, rfl⟩
  · have hmembers : (members names (counted declared) d).Nodup := nodup_eraseDups _
    dsimp only
    split
    · refine hmembers.append hunlisted fun name hmember hrest => ?_
      -- a name in both would have a first lister and none
      have hsome := (mem_members_iff.1 hmember).2
      rw [(mem_unlisted_iff.1 hrest).2] at hsome
      cases hsome
    · rwa [List.append_nil]
  · exact hunlisted

theorem mem_parameters_iff_of_mem_arranged {x : ParameterGroup}
    (hx : x ∈ arranged names declared) :
    name ∈ x.parameters ↔ name ∈ names ∧ ownerKey declared name = x.key := by
  rcases mem_arranged_iff.1 hx with ⟨d, hd, rfl⟩ | ⟨hdefault, rfl⟩
  · rw [ownerKey_eq_iff hd, List.mem_append, mem_members_iff]
    split
    · next hkey => simp [mem_unlisted_iff, hkey, and_or_left]
    · next hkey => simp [hkey]
  · rw [mem_unlisted_iff, ownerKey_eq_default_iff hdefault]

theorem areFibres_arranged (hnames : names.Nodup) (declared : List Preset.Group) :
    AreFibres (ownerKey declared) names (arranged names declared) where
  nodup_key := nodup_key_arranged names declared
  nodup_parameters := fun _ hx => nodup_parameters_of_mem_arranged hnames hx
  mem_iff := fun _ hx _ => mem_parameters_iff_of_mem_arranged hx
  exists_group := by
    intro name _
    obtain ⟨x, hx, hkey⟩ := List.mem_map.1 (ownerKey_mem_arranged names declared name)
    exact ⟨x, hx, hkey.symm⟩

end Fibres

/-- Whether a graph is grouped as its preset declares: its groups partition its parameters, each
parameter being in the group of its owner, and they are those of `arranged` that have any. -/
structure IsGroupedBy (g : Graph) (declared : List Preset.Group) : Prop where
  /-- Every parameter is in one group, and at one place there. -/
  perm : (g.groups.flatMap (·.parameters)).Perm (g.parameters.map (·.name))
  nodup_key : (g.groups.map (·.key)).Nodup
  parameters_ne_nil : ∀ x ∈ g.groups, x.parameters ≠ []
  /-- The group that a parameter names is the one that lists it. -/
  mem_parameters_iff : ∀ p ∈ g.parameters, ∃ x ∈ g.groups, p.group = x.key ∧
    ∀ y ∈ g.groups, p.name ∈ y.parameters ↔ y = x
  group_eq : ∀ p ∈ g.parameters, p.group = ownerKey declared p.name
  index_parameter : ∀ (i : Nat) (p : Parameter), g.parameters[i]? = some p → p.index = i
  groups_eq : g.groups =
    (arranged (g.parameters.map (·.name)) declared).filter (·.parameters ≠ [])

variable {m : Preset.Model} {as : List Source.Annotation} {g : Graph}

theorem group_ofDeclarations {ds : List Declaration} {p : Parameter}
    (hp : p ∈ (ofDeclarations m as ds).parameters) :
    p.group = groupKey (ofDeclarations m as ds).groups p.name := by
  obtain ⟨⟨d, i⟩, -, rfl⟩ := List.mem_map.1 hp
  rfl

theorem isGroupedBy_of_assemble (h : assemble m as = .ok g) : g.IsGroupedBy m.groups := by
  obtain ⟨-, ds, hds, rfl⟩ := assemble_eq_ok_iff.1 h
  have hnames := map_name_ofDeclarations m as ds
  have hnodup : (ds.map (·.name)).Nodup := nodup_mergeDeclarations (by simp) hds
  have hgroups : (ofDeclarations m as ds).groups =
      (arranged (ds.map (·.name)) m.groups).filter (·.parameters ≠ []) :=
    groupsOf_eq (ds.map Declaration.name) m.groups
  have hfibres : AreFibres (ownerKey m.groups) (ds.map (·.name))
      (ofDeclarations m as ds).groups := by
    rw [hgroups]
    exact (areFibres_arranged hnodup m.groups).filter_ne_nil
  have hgroup : ∀ p ∈ (ofDeclarations m as ds).parameters,
      p.name ∈ ds.map (·.name) ∧ p.group = ownerKey m.groups p.name := by
    intro p hp
    have hname : p.name ∈ ds.map (·.name) := hnames ▸ List.mem_map_of_mem hp
    exact ⟨hname, (group_ofDeclarations hp).trans (hfibres.groupKey_eq hname)⟩
  refine ⟨?_, hfibres.nodup_key, ?_, ?_, ?_, ?_, ?_⟩
  · rw [hnames]
    exact hfibres.perm hnodup
  · intro x hx
    rw [hgroups] at hx
    simpa using (List.mem_filter.1 hx).2
  · intro p hp
    obtain ⟨hname, hkey⟩ := hgroup p hp
    obtain ⟨x, hx, hxkey⟩ := hfibres.exists_group p.name hname
    exact ⟨x, hx, hkey.trans hxkey, fun y hy => hfibres.mem_iff_eq hname hx hy hxkey⟩
  · exact fun p hp => (hgroup p hp).2
  · exact fun i p hp => index_parameter_of_assemble h hp
  · rw [hnames]
    exact hgroups

/-- Groups with one key twice, with names listed twice, by two groups or only where the group
does not count, and with a default group that does not stand last. -/
def overlappingGroups : List Preset.Group :=
  [⟨"color", "Color", ["C", "Missing", "A", "C"]⟩, ⟨"default", "Basics", ["D", "A"]⟩,
    ⟨"mask", "Mask", ["A"]⟩, ⟨"color", "", ["B"]⟩, ⟨"tone", "Tone", ["E"]⟩]

/-- A source without text that declares parameters of the given names. -/
def declaringNames (names : List String) : Source.Annotation where
  path := "pass.slang"
  name := none
  format := none
  declarations := names.map fun name => ⟨name, "", .zero false, .zero false, .one, .tenth⟩
  vertex := ""
  fragment := ""
  hash := 0

theorem isGroupedBy_of_assemble_overlapping :
    ∃ m g, Preset.Model.ofString "shaders = 1\nshader0 = pass.slang\n" = .ok m ∧
      assemble { m with groups := overlappingGroups }
        [declaringNames ["A", "B", "C", "D", "E"]] = .ok g ∧
      g.groups = [⟨"color", "Color", ["C", "A"]⟩, ⟨"default", "Basics", ["D", "B"]⟩,
        ⟨"tone", "Tone", ["E"]⟩] ∧
      g.parameters.map (·.group) = ["color", "default", "color", "default", "tone"] ∧
      g.IsGroupedBy overlappingGroups := by
  have h : ((Preset.Model.ofString "shaders = 1\nshader0 = pass.slang\n").mapError
      fun _ => ()).bind (fun m => ((assemble { m with groups := overlappingGroups }
        [declaringNames ["A", "B", "C", "D", "E"]]).map
          fun g => (g.groups, g.parameters.map (·.group))).mapError fun _ => ()) =
      .ok ([⟨"color", "Color", ["C", "A"]⟩, ⟨"default", "Basics", ["D", "B"]⟩,
        ⟨"tone", "Tone", ["E"]⟩], ["color", "default", "color", "default", "tone"]) := by
    decide +kernel
  obtain ⟨m, hm, h⟩ := Success.bind_iff.1 h
  obtain ⟨g, hg, hparts⟩ := Success.map_iff.1 (Success.mapError_iff.1 h)
  rw [Prod.mk.injEq] at hparts
  exact ⟨m, g, Success.mapError_iff.1 hm, hg, hparts.1, hparts.2, isGroupedBy_of_assemble hg⟩

end ShaderChain.Graph
