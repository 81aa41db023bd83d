import Mathlib.Data.List.Nodup
import Mathlib.Data.List.Pairwise
import Mathlib.Data.Multiset.Basic
import Mathlib.Data.Multiset.ZeroCons
import ShaderChain.Proofs.Binding.Causality

/-!
# Accepted reflections

Which stages a binder accepts, said without an order: `IsBindable` speaks of the members
and the images of the stages as collections, and holds exactly if the stages are bound. The
checks of the binder stop at the first fault, and the members of a buffer are checked against
the slots placed so far. So each check has a lemma on when it passes, and the members are
followed by the offset that each role has among the slots, `offsetAmong?`.
-/

namespace ShaderChain

/-- The members of the buffers of a kind that a stage lists. -/
def StageReflection.members (r : StageReflection) (kind : BufferKind) : List BufferMember :=
  (r.resourcesOf kind.resourceKind).flatMap (·.members)

/-- Whether a stage lists at most one buffer of a kind, and that in set 0. -/
structure StageReflection.HasOneBuffer (r : StageReflection) (kind : BufferKind) : Prop where
  length_le : (r.resourcesOf kind.resourceKind).length ≤ 1
  set_eq : ∀ x ∈ r.resourcesOf kind.resourceKind, x.set = 0

/-- Whether two stages have the shape of a pass. -/
structure HasPassShape (vertex fragment : StageReflection) : Prop where
  kind_notMem : ∀ x ∈ vertex.resources ++ fragment.resources,
    x.kind ∉ [ResourceKind.storageBuffer, .storageImage, .subpassInput, .atomicCounter]
  inputs : (↑(vertex.inputs.map (·.location)) : Multiset UInt32) = {0, 1}
  outputs : ∃ output, fragment.outputs = [output] ∧ output.location = 0
  vertex_kind_ne : ∀ x ∈ vertex.resources, x.kind ≠ .sampledImage

/-- Whether the name of a member stands for a role of its shape, and the texture is there if
the role is the size of one. -/
def BufferMember.IsResolved (m : BufferMember) (g : Graph) (pass : Nat) : Prop :=
  ∃ role, (SymbolTable.ofGraph g).uniform? m.name = some role ∧ m.type = role.memberType ∧
    ∀ r, role = .textureSize r → r.IsCausal pass g.passes.length g.luts.length

/-- Whether an image with the given binding is in set 0, its binding is in range, and its
name stands for a texture that is there. -/
def Resource.IsBoundImage (x : Resource) (g : Graph) (maxBindings : UInt32) (pass : Nat)
    (binding : UInt32) : Prop :=
  x.set = 0 ∧ binding < maxBindings ∧
    ∃ r, (SymbolTable.ofGraph g).texture? x.name = some r ∧
      r.IsCausal pass g.passes.length g.luts.length

/-- Whether two stages can be bound as pass `pass` of a graph. -/
structure IsBindable (g : Graph) (maxBindings : UInt32) (pass : Nat)
    (vertex fragment : StageReflection) : Prop extends HasPassShape vertex fragment where
  pass_lt : pass < g.passes.length
  vertex_buffer : ∀ kind, vertex.HasOneBuffer kind
  fragment_buffer : ∀ kind, fragment.HasOneBuffer kind
  isResolved : ∀ kind, ∀ m ∈ vertex.members kind ++ fragment.members kind, m.IsResolved g pass
  offset_eq : ∀ kind, ∀ m ∈ vertex.members kind ++ fragment.members kind,
    ∀ m' ∈ vertex.members kind ++ fragment.members kind, ∀ role,
      (SymbolTable.ofGraph g).uniform? m.name = some role →
      (SymbolTable.ofGraph g).uniform? m'.name = some role → m.offset = m'.offset
  isBoundImage : ∀ x ∈ fragment.resourcesOf .sampledImage, ∀ binding,
    x.binding = some binding → x.IsBoundImage g maxBindings pass binding
  nodup_binding : ((fragment.resourcesOf .sampledImage).filterMap (·.binding)).Nodup

namespace Binder

section Shape

variable {stage : Stage} {r vertex fragment : StageReflection} {kind : BufferKind}
  {x : Option Resource}

theorem checkAllowed_eq_ok_iff :
    checkAllowed stage r = .ok () ↔ ∀ x ∈ r.resources, x.kind.isAllowed = true := by
  unfold checkAllowed
  cases hfind : r.resources.find? fun x => !x.kind.isAllowed with
  | none => simpa using hfind
  | some x =>
      have hmem : x ∈ r.resources := List.mem_of_find?_eq_some hfind
      have hkind : x.kind.isAllowed = false := by simpa using List.find?_some hfind
      simp only [reduceCtorEq, false_iff]
      intro h
      simp [h x hmem] at hkind

theorem areVertexLocations_iff {locations : List UInt32} :
    areVertexLocations locations = true ↔ (↑locations : Multiset UInt32) = {0, 1} := by
  have hpair : ({0, 1} : Multiset UInt32) = ↑[(0 : UInt32), 1] := rfl
  rw [hpair, Multiset.coe_eq_coe]
  unfold areVertexLocations
  rw [Bool.or_eq_true, decide_eq_true_eq, decide_eq_true_eq]
  constructor
  · rintro (rfl | rfl)
    · exact List.Perm.refl _
    · exact List.Perm.swap 0 1 []
  · intro hperm
    match locations, hperm.length_eq with
    | [a, b], _ =>
        have ha : a ∈ [(0 : UInt32), 1] := hperm.subset (by simp)
        have hb : b ∈ [(0 : UInt32), 1] := hperm.subset (by simp)
        have hne : a ≠ b := by simpa using hperm.nodup_iff.2 (by decide)
        simp only [List.mem_cons, List.not_mem_nil, or_false] at ha hb
        rcases ha with rfl | rfl <;> rcases hb with rfl | rfl <;> simp_all

theorem isAllowed_iff {kind : ResourceKind} :
    kind.isAllowed = true ↔
      kind ∉ [ResourceKind.storageBuffer, .storageImage, .subpassInput, .atomicCounter] := by
  cases kind <;> decide

theorem resourcesOf_eq_nil_iff {kind : ResourceKind} :
    r.resourcesOf kind = [] ↔ ∀ x ∈ r.resources, x.kind ≠ kind := by
  simp [StageReflection.resourcesOf]

theorem checkShape_eq_ok_iff :
    checkShape vertex fragment = .ok () ↔ HasPassShape vertex fragment := by
  have houtput : fragment.outputs.map (·.location) = [0] ↔
      ∃ output, fragment.outputs = [output] ∧ output.location = 0 := by
    match fragment.outputs with
    | [] => simp
    | [y] => simp
    | _ :: _ :: _ => simp
  unfold checkShape
  constructor
  · intro h
    obtain ⟨_, hvertex, h⟩ := Success.bind_iff.1 h
    obtain ⟨_, hfragment, h⟩ := Success.bind_iff.1 h
    obtain ⟨hinputs, h⟩ := Success.unless_iff.1 h
    obtain ⟨houtputs, h⟩ := Success.unless_iff.1 h
    constructor
    · intro x hx
      rcases List.mem_append.1 hx with hx | hx
      · exact isAllowed_iff.1 (checkAllowed_eq_ok_iff.1 hvertex x hx)
      · exact isAllowed_iff.1 (checkAllowed_eq_ok_iff.1 hfragment x hx)
    · exact areVertexLocations_iff.1 (by simpa using hinputs)
    · exact houtput.1 (not_not.1 houtputs)
    · apply resourcesOf_eq_nil_iff.1
      dsimp only at h
      split at h
      · cases h
      · next hnil => exact hnil
  · intro h
    have hallowed : ∀ x ∈ vertex.resources ++ fragment.resources, x.kind.isAllowed = true :=
      fun x hx => isAllowed_iff.2 (h.kind_notMem x hx)
    refine Success.bind_iff.2 ⟨(), checkAllowed_eq_ok_iff.2 ?_, ?_⟩
    · exact fun x hx => hallowed x (List.mem_append_left _ hx)
    refine Success.bind_iff.2 ⟨(), checkAllowed_eq_ok_iff.2 ?_, ?_⟩
    · exact fun x hx => hallowed x (List.mem_append_right _ hx)
    refine Success.unless_iff.2 ⟨?_, Success.unless_iff.2 ⟨?_, ?_⟩⟩
    · simp [areVertexLocations_iff.2 h.inputs]
    · exact not_not.2 (houtput.2 h.outputs)
    · simp only [resourcesOf_eq_nil_iff.2 h.vertex_kind_ne]
      rfl

/-- What a stage declares of a kind of buffer is found exactly if it lists one at most. -/
theorem buffer?_eq_ok_iff :
    buffer? stage r kind = .ok x ↔
      r.HasOneBuffer kind ∧ (r.resourcesOf kind.resourceKind).head? = x := by
  have hiff : r.HasOneBuffer kind ↔ (r.resourcesOf kind.resourceKind).length ≤ 1 ∧
      ∀ x ∈ r.resourcesOf kind.resourceKind, x.set = 0 :=
    ⟨fun h => ⟨h.length_le, h.set_eq⟩, fun h => ⟨h.1, h.2⟩⟩
  rw [hiff]
  unfold buffer?
  match r.resourcesOf kind.resourceKind with
  | [] => simp
  | [y] => by_cases hset : y.set = 0 <;> simp [hset]
  | _ :: _ :: _ => simp

/-- The members of the one buffer are those of all buffers of the kind. -/
theorem members_of_hasOneBuffer (h : r.HasOneBuffer kind) :
    (((r.resourcesOf kind.resourceKind).head?).map (·.members)).getD [] = r.members kind := by
  have hlength := h.length_le
  unfold StageReflection.members
  match hr : r.resourcesOf kind.resourceKind with
  | [] => simp
  | [y] => simp
  | y :: z :: rest => simp [hr] at hlength

end Shape

section Members

variable {b : Binder} {pass : Nat} {kind : BufferKind} {m : BufferMember} {ms : List BufferMember}
  {role : UniformRole} {slots out : List UniformSlot} {vertex fragment : StageReflection}

theorem role_eq_ok_iff :
    b.role pass m = .ok role ↔
      b.symbols.uniform? m.name = some role ∧ m.type = role.memberType ∧
        ∀ r, role = .textureSize r →
          r.IsCausal pass b.graph.passes.length b.graph.luts.length := by
  constructor
  · intro h
    obtain ⟨hname, hcausal⟩ := role_ok h
    refine ⟨hname, ?_, hcausal⟩
    unfold Binder.role at h
    simp only [hname] at h
    exact not_not.1 (Success.unless_iff.1 h).1
  · intro ⟨hname, htype, hcausal⟩
    unfold Binder.role
    simp only [hname]
    refine Success.unless_iff.2 ⟨not_not.2 htype, ?_⟩
    cases role with
    | global semantic => rfl
    | parameter index => rfl
    | textureSize r =>
        exact Success.bind_iff.2 ⟨(), checkReference_eq_ok_iff.2 (hcausal r rfl), rfl⟩

/-- The offset of a role among slots, if one of them has it. -/
def offsetAmong? (slots : List UniformSlot) (role : UniformRole) : Option UInt64 :=
  (slots.find? (·.role = role)).map (·.offset)

theorem offsetAmong?_append_singleton (slots : List UniformSlot) (slot : UniformSlot)
    (role : UniformRole) :
    offsetAmong? (slots ++ [slot]) role =
      (offsetAmong? slots role).or (if slot.role = role then some slot.offset else none) := by
  unfold offsetAmong?
  rw [List.find?_append, Option.map_or]
  by_cases h : slot.role = role <;> simp [h]

/-- A member is placed behind the slots if its role has none, and else must stand where its
role does already. -/
theorem place_eq_ok_iff :
    b.place pass kind slots m = .ok out ↔
      ∃ role, b.role pass m = .ok role ∧
        (offsetAmong? slots role = none ∧
            out = slots ++ [⟨role, m.offset, m.type.byteSize, m.name⟩] ∨
          offsetAmong? slots role = some m.offset ∧ out = slots) := by
  unfold place offsetAmong?
  rw [Success.bind_iff]
  refine exists_congr fun role => and_congr_right fun _ => ?_
  cases slots.find? (·.role = role) with
  | none => simpa using Success.pure_iff.trans eq_comm
  | some slot =>
      by_cases hoffset : slot.offset = m.offset
      · simpa [hoffset] using Success.pure_iff.trans eq_comm
      · simp [hoffset]

/-- Behind a member that is placed, its role has its offset and the others have theirs. -/
theorem offsetAmong?_place (h : b.place pass kind slots m = .ok out)
    (hrole : b.role pass m = .ok role) (other : UniformRole) :
    offsetAmong? out other = if other = role then some m.offset else offsetAmong? slots other := by
  obtain ⟨role', hrole', hout⟩ := place_eq_ok_iff.1 h
  cases hrole.symm.trans hrole'
  rcases hout with ⟨hnone, rfl⟩ | ⟨hsome, rfl⟩
  · rw [offsetAmong?_append_singleton]
    by_cases hother : other = role
    · simp [hother, hnone]
    · simp [hother, Ne.symm hother]
  · by_cases hother : other = role
    · simp [hother, hsome]
    · simp [hother]

/-- Whether a member has a role, and stands where the slots have it, if they do. -/
def FitsAmong (b : Binder) (pass : Nat) (slots : List UniformSlot) (m : BufferMember) : Prop :=
  ∃ role, b.role pass m = .ok role ∧
    ∀ offset, offsetAmong? slots role = some offset → offset = m.offset

/-- Whether two members stand at one place if they have one role. -/
def StandTogether (b : Binder) (pass : Nat) (m m' : BufferMember) : Prop :=
  ∀ role, b.role pass m = .ok role → b.role pass m' = .ok role → m.offset = m'.offset

theorem exists_place_iff (kind : BufferKind) :
    (∃ out, b.place pass kind slots m = .ok out) ↔ b.FitsAmong pass slots m := by
  constructor
  · intro ⟨out, h⟩
    obtain ⟨role, hrole, hout⟩ := place_eq_ok_iff.1 h
    refine ⟨role, hrole, fun offset hoffset => ?_⟩
    rcases hout with ⟨hnone, -⟩ | ⟨hsome, -⟩
    · simp [hnone] at hoffset
    · simpa [hsome, eq_comm] using hoffset
  · intro ⟨role, hrole, hfits⟩
    cases hoffset : offsetAmong? slots role with
    | none => exact ⟨_, place_eq_ok_iff.2 ⟨role, hrole, Or.inl ⟨hoffset, rfl⟩⟩⟩
    | some offset =>
        rw [hfits offset hoffset] at hoffset
        exact ⟨_, place_eq_ok_iff.2 ⟨role, hrole, Or.inr ⟨hoffset, rfl⟩⟩⟩

/-- A member fits behind another one exactly if it fits without it and stands where the
other one does if both have one role. -/
theorem fitsAmong_place_iff (h : b.place pass kind slots m = .ok out) (m' : BufferMember) :
    b.FitsAmong pass out m' ↔ b.FitsAmong pass slots m' ∧ b.StandTogether pass m m' := by
  obtain ⟨role, hrole, hfits⟩ := (exists_place_iff kind).1 ⟨out, h⟩
  have hafter := offsetAmong?_place h hrole
  have htogether : b.StandTogether pass m m' ↔
      (b.role pass m' = .ok role → m.offset = m'.offset) := by
    constructor
    · intro htogether hrole'
      exact htogether role hrole hrole'
    · intro hsame role' hrole₁ hrole₂
      cases hrole.symm.trans hrole₁
      exact hsame hrole₂
  rw [htogether]
  unfold FitsAmong
  constructor
  · intro ⟨role', hrole', hfits'⟩
    by_cases hsame : role' = role
    · subst hsame
      have hoffset : m.offset = m'.offset := hfits' m.offset (by simp [hafter])
      refine ⟨⟨role', hrole', fun offset hbefore => ?_⟩, fun _ => hoffset⟩
      rw [hfits offset hbefore, hoffset]
    · refine ⟨⟨role', hrole', fun offset hbefore => ?_⟩, fun hrole'' => ?_⟩
      · exact hfits' offset (by simp [hafter, hsame, hbefore])
      · cases hrole'.symm.trans hrole''
        exact absurd rfl hsame
  · intro ⟨⟨role', hrole', hfits'⟩, hsame⟩
    refine ⟨role', hrole', fun offset hbehind => ?_⟩
    rw [hafter] at hbehind
    split at hbehind
    · next heq =>
        subst heq
        cases hbehind
        exact hsame hrole'
    · exact hfits' offset hbehind

/-- Members are placed exactly if each fits among the slots and members of one role stand
at one place. -/
theorem exists_placeAll_iff :
    (∃ out, b.placeAll pass kind slots ms = .ok out) ↔
      (∀ m ∈ ms, b.FitsAmong pass slots m) ∧ ms.Pairwise (b.StandTogether pass) := by
  induction ms generalizing slots with
  | nil => simp [placeAll]
  | cons m ms ih =>
      have hcons : (∃ out, b.placeAll pass kind slots (m :: ms) = .ok out) ↔
          ∃ placed, b.place pass kind slots m = .ok placed ∧
            ∃ out, b.placeAll pass kind placed ms = .ok out :=
        Success.exists_bind_iff
      rw [hcons, List.forall_mem_cons, List.pairwise_cons, ← exists_place_iff kind]
      constructor
      · intro ⟨placed, hplaced, hrest⟩
        obtain ⟨hfits, hpairwise⟩ := ih.1 hrest
        have hboth := fun m' hm' => (fitsAmong_place_iff hplaced m').1 (hfits m' hm')
        exact ⟨⟨⟨placed, hplaced⟩, fun m' hm' => (hboth m' hm').1⟩,
          fun m' hm' => (hboth m' hm').2, hpairwise⟩
      · intro ⟨⟨⟨placed, hplaced⟩, hfits⟩, htogether, hpairwise⟩
        refine ⟨placed, hplaced, ih.2 ⟨fun m' hm' => ?_, hpairwise⟩⟩
        exact (fitsAmong_place_iff hplaced m').2 ⟨hfits m' hm', htogether m' hm'⟩

theorem fitsAmong_nil_iff : b.FitsAmong pass [] m ↔ ∃ role, b.role pass m = .ok role := by
  simp [FitsAmong, offsetAmong?]

theorem pairwise_standTogether_iff :
    ms.Pairwise (b.StandTogether pass) ↔ ∀ m ∈ ms, ∀ m' ∈ ms, b.StandTogether pass m m' := by
  constructor
  · intro h m hm m' hm'
    have hsymm : Std.Symm (b.StandTogether pass) :=
      ⟨fun _ _ htogether role hrole hrole' => (htogether role hrole' hrole).symm⟩
    exact h.forall_of_forall (fun _ _ _ _ _ => rfl) hm hm'
  · exact List.pairwise_of_forall_mem_list

/-- A buffer is laid out exactly if each stage has one at most, each member has a role, and
members of one role stand at one place. -/
theorem exists_layout_iff :
    (∃ l, b.layout pass kind vertex fragment = .ok l) ↔
      (vertex.HasOneBuffer kind ∧ fragment.HasOneBuffer kind) ∧
        (∀ m ∈ vertex.members kind ++ fragment.members kind, ∃ role, b.role pass m = .ok role) ∧
        ∀ m ∈ vertex.members kind ++ fragment.members kind,
          ∀ m' ∈ vertex.members kind ++ fragment.members kind, b.StandTogether pass m m' := by
  have hmerge : vertex.HasOneBuffer kind → fragment.HasOneBuffer kind →
      ((∃ l, b.merge pass kind (vertex.resourcesOf kind.resourceKind).head?
          (fragment.resourcesOf kind.resourceKind).head? = .ok l) ↔
        (∀ m ∈ vertex.members kind ++ fragment.members kind, ∃ role, b.role pass m = .ok role) ∧
        ∀ m ∈ vertex.members kind ++ fragment.members kind,
          ∀ m' ∈ vertex.members kind ++ fragment.members kind, b.StandTogether pass m m') := by
    intro hvertex hfragment
    simp only [merge, Success.exists_map_iff, members_of_hasOneBuffer hvertex,
      members_of_hasOneBuffer hfragment, exists_placeAll_iff, pairwise_standTogether_iff,
      fitsAmong_nil_iff]
  unfold layout
  rw [Success.exists_bind_iff]
  constructor
  · intro ⟨x, hx, h⟩
    obtain ⟨y, hy, h⟩ := Success.exists_bind_iff.1 h
    obtain ⟨hvertex, rfl⟩ := buffer?_eq_ok_iff.1 hx
    obtain ⟨hfragment, rfl⟩ := buffer?_eq_ok_iff.1 hy
    exact ⟨⟨hvertex, hfragment⟩, (hmerge hvertex hfragment).1 h⟩
  · intro ⟨⟨hvertex, hfragment⟩, h⟩
    refine ⟨_, buffer?_eq_ok_iff.2 ⟨hvertex, rfl⟩, Success.exists_bind_iff.2 ?_⟩
    exact ⟨_, buffer?_eq_ok_iff.2 ⟨hfragment, rfl⟩, (hmerge hvertex hfragment).2 h⟩

end Members

section Images

variable {g : Graph} {maxBindings : UInt32} {pass : Nat} {settings : Preset.Pass}
  {slots : List TextureSlot} {x : Resource} {xs : List Resource} {binding : UInt32}

theorem exists_textureSlot_iff :
    (∃ t, (ofGraph g maxBindings).textureSlot pass settings slots x binding = .ok t) ↔
      x.IsBoundImage g maxBindings pass binding ∧ binding ∉ slots.map (·.binding) := by
  have hany : slots.any (·.binding == binding) = true ↔ binding ∈ slots.map (·.binding) := by
    simp
  unfold textureSlot
  constructor
  · intro ⟨t, h⟩
    obtain ⟨hset, h⟩ := Success.unless_iff.1 h
    obtain ⟨hrange, h⟩ := Success.unless_iff.1 h
    obtain ⟨hfree, h⟩ := Success.unless_iff.1 h
    rw [hany] at hfree
    dsimp only at h
    split at h
    · cases h
    · next r hname =>
        obtain ⟨_, hcheck, -⟩ := Success.bind_iff.1 h
        exact ⟨⟨not_not.1 hset, UInt32.not_le.1 hrange, r, hname,
          checkReference_eq_ok_iff.1 hcheck⟩, hfree⟩
  · intro ⟨⟨hset, hrange, r, hname, hcausal⟩, hfree⟩
    rw [← hany] at hfree
    refine ⟨⟨r.semantic, r.index, binding, ((ofGraph g maxBindings).sampling settings r).1,
      ((ofGraph g maxBindings).sampling settings r).2, x.name⟩, ?_⟩
    refine Success.unless_iff.2 ⟨not_not.2 hset, ?_⟩
    refine Success.unless_iff.2 ⟨UInt32.not_le.2 hrange, Success.unless_iff.2 ⟨hfree, ?_⟩⟩
    have hname : (ofGraph g maxBindings).symbols.texture? x.name = some r := hname
    simp only [hname]
    exact Success.bind_iff.2 ⟨(), checkReference_eq_ok_iff.2 hcausal, rfl⟩

/-- Images are bound exactly if each can be bound on its own and their bindings differ from
each other and from those of the slots. -/
theorem exists_textureSlots_iff (hslots : (slots.map (·.binding)).Nodup) :
    (∃ found, (ofGraph g maxBindings).textureSlots pass settings slots xs = .ok found) ↔
      (∀ x ∈ xs, ∀ binding, x.binding = some binding → x.IsBoundImage g maxBindings pass binding) ∧
        (slots.map (·.binding) ++ xs.filterMap (·.binding)).Nodup := by
  induction xs generalizing slots with
  | nil => simp [textureSlots, hslots]
  | cons x xs ih =>
      rw [List.forall_mem_cons]
      cases hx : x.binding with
      | none => simp [textureSlots, hx, ih hslots]
      | some binding =>
          simp only [textureSlots, hx]
          refine Success.exists_bind_iff.trans ?_
          -- The slots in front keep differing, and the bindings in view stay the same.
          have hnext : ∀ t,
              (ofGraph g maxBindings).textureSlot pass settings slots x binding = .ok t →
              ((slots ++ [t]).map (·.binding)).Nodup ∧
                (slots ++ [t]).map (·.binding) ++ xs.filterMap (·.binding) =
                  slots.map (·.binding) ++ binding :: xs.filterMap (·.binding) := by
            intro t ht
            obtain ⟨hbinding, -, hfree, -⟩ := textureSlot_ok ht
            constructor
            · rw [List.map_append, List.map_singleton, hbinding, List.nodup_middle]
              simpa using ⟨by simpa using hfree, hslots⟩
            · simp [hbinding]
          rw [List.filterMap_cons_some hx]
          constructor
          · intro ⟨t, ht, hrest⟩
            obtain ⟨hbound, -⟩ := exists_textureSlot_iff.1 ⟨t, ht⟩
            obtain ⟨hnodup, happend⟩ := hnext t ht
            obtain ⟨hall, hdistinct⟩ := (ih hnodup).1 hrest
            rw [happend] at hdistinct
            exact ⟨⟨by simpa using hbound, hall⟩, hdistinct⟩
          · intro ⟨⟨hbound, hall⟩, hdistinct⟩
            have hfree : binding ∉ slots.map (·.binding) := fun hmem =>
              (List.nodup_cons.1 (List.nodup_middle.1 hdistinct)).1 (List.mem_append_left _ hmem)
            obtain ⟨t, ht⟩ := exists_textureSlot_iff.2 ⟨hbound binding rfl, hfree⟩
            obtain ⟨hnodup, happend⟩ := hnext t ht
            rw [← happend] at hdistinct
            exact ⟨t, ht, (ih hnodup).2 ⟨hall, hdistinct⟩⟩

end Images

section Bind

variable {b : Binder} {g : Graph} {maxBindings : UInt32} {pass : Nat} {m m' : BufferMember}
  {role : UniformRole} {vertex fragment : StageReflection}

/-- A pass is bound exactly if all of its parts are. -/
theorem exists_bind_iff :
    (∃ l, b.bind pass vertex fragment = .ok l) ↔
      ∃ p, b.graph.passes[pass]? = some p ∧ checkShape vertex fragment = .ok () ∧
        (∀ kind, ∃ l, b.layout pass kind vertex fragment = .ok l) ∧
        ∃ found, b.textureSlots pass p.preset [] (fragment.resourcesOf .sampledImage) =
          .ok found := by
  constructor
  · intro ⟨l, h⟩
    obtain ⟨p, hp, hshape, huniform, hpush, htextures⟩ := bind_eq_ok_iff.1 h
    refine ⟨p, hp, hshape, fun kind => ?_, l.textures, htextures⟩
    cases kind with
    | uniformBuffer => exact ⟨l.uniformBuffer, huniform⟩
    | pushConstant => exact ⟨l.pushConstant, hpush⟩
  · intro ⟨p, hp, hshape, hlayout, textures, htextures⟩
    obtain ⟨uniformBuffer, huniform⟩ := hlayout .uniformBuffer
    obtain ⟨pushConstant, hpush⟩ := hlayout .pushConstant
    exact ⟨⟨uniformBuffer, pushConstant, textures⟩,
      bind_eq_ok_iff.2 ⟨p, hp, hshape, huniform, hpush, htextures⟩⟩

theorem exists_role_iff :
    (∃ role, (ofGraph g maxBindings).role pass m = .ok role) ↔ m.IsResolved g pass :=
  exists_congr fun _ => role_eq_ok_iff

/-- The name of a member that is resolved decides its role. -/
theorem role_eq_ok_iff_of_isResolved (h : m.IsResolved g pass) :
    (ofGraph g maxBindings).role pass m = .ok role ↔
      (SymbolTable.ofGraph g).uniform? m.name = some role := by
  constructor
  · intro hrole
    exact (role_eq_ok_iff.1 hrole).1
  · intro hname
    obtain ⟨role', hname', hresolved⟩ := h
    cases hname.symm.trans hname'
    exact role_eq_ok_iff.2 ⟨hname, hresolved⟩

theorem standTogether_iff_of_isResolved (hm : m.IsResolved g pass) (hm' : m'.IsResolved g pass) :
    (ofGraph g maxBindings).StandTogether pass m m' ↔
      ∀ role, (SymbolTable.ofGraph g).uniform? m.name = some role →
        (SymbolTable.ofGraph g).uniform? m'.name = some role → m.offset = m'.offset := by
  unfold StandTogether
  simp only [role_eq_ok_iff_of_isResolved hm, role_eq_ok_iff_of_isResolved hm']

/-- Two stages are bound as a pass of a graph exactly if they have the shape of a pass, every
member and every image with a binding is resolved, members of one role stand at one place,
and no two images have one binding. -/
theorem exists_bind_iff_isBindable (g : Graph) (maxBindings : UInt32) (pass : Nat)
    (vertex fragment : StageReflection) :
    (∃ l, (ofGraph g maxBindings).bind pass vertex fragment = .ok l) ↔
      IsBindable g maxBindings pass vertex fragment := by
  rw [exists_bind_iff]
  constructor
  · intro ⟨p, hp, hshape, hlayout, hfound⟩
    have hlayout := fun kind => exists_layout_iff.1 (hlayout kind)
    have hresolved : ∀ kind, ∀ m ∈ vertex.members kind ++ fragment.members kind,
        m.IsResolved g pass :=
      fun kind m hm => exists_role_iff.1 ((hlayout kind).2.1 m hm)
    obtain ⟨hbound, hnodup⟩ := (exists_textureSlots_iff (by simp)).1 hfound
    constructor
    · exact checkShape_eq_ok_iff.1 hshape
    · exact (List.getElem?_eq_some_iff.1 hp).1
    · exact fun kind => (hlayout kind).1.1
    · exact fun kind => (hlayout kind).1.2
    · exact hresolved
    · intro kind m hm m' hm'
      have htogether := (hlayout kind).2.2 m hm m' hm'
      exact (standTogether_iff_of_isResolved (hresolved kind m hm) (hresolved kind m' hm')).1
        htogether
    · exact hbound
    · simpa using hnodup
  · intro h
    have hp := List.getElem?_eq_getElem h.pass_lt
    refine ⟨_, hp, checkShape_eq_ok_iff.2 h.toHasPassShape, fun kind => ?_, ?_⟩
    · refine exists_layout_iff.2 ⟨⟨h.vertex_buffer kind, h.fragment_buffer kind⟩, ?_, ?_⟩
      · exact fun m hm => exists_role_iff.2 (h.isResolved kind m hm)
      · intro m hm m' hm'
        exact (standTogether_iff_of_isResolved (h.isResolved kind m hm)
          (h.isResolved kind m' hm')).2 (h.offset_eq kind m hm m' hm')
    · refine (exists_textureSlots_iff (by simp)).2 ⟨h.isBoundImage, ?_⟩
      simpa using h.nodup_binding

end Bind

end Binder

end ShaderChain
