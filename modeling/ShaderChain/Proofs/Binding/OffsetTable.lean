import Mathlib.Data.List.Induction
import Mathlib.Order.Bounds.Defs
import ShaderChain.Proofs.Binding.Acceptance
import ShaderChain.Proofs.Binding.Fits
import ShaderChain.Proofs.Duplicates

/-!
# The table of a merged buffer

The members of a buffer are placed one after the other, those of the vertex stage first. What is
placed so far is the table of the members read so far, `Tabulates`: each of their roles once,
where it first occurs, with the name of its first member and the one offset of all of its
members. Placing a member keeps this, and so the slots of a bound layout are the table of the
members of both stages. The size of the layout is the least multiple of 16 that holds either
buffer.
-/

namespace ShaderChain

/-- The bytes of a member, counted without a bound. -/
def MemberType.byteCount (t : MemberType) : ℕ := 4 * t.vecSize.toNat * t.columns.toNat

/-- The members that stand for a role are too small for their bytes to be counted wrongly. -/
theorem UniformRole.toNat_byteSize_memberType (role : UniformRole) :
    role.memberType.byteSize.toNat = role.memberType.byteCount := by
  rcases role with (_ | _ | _ | _ | _) | _ | _ <;> rfl

/-- Where a member stops. -/
def BufferMember.stop (m : BufferMember) : ℕ := m.offset.toNat + m.type.byteCount

/-- The buffer of a kind that a stage lists first. -/
def StageReflection.declared? (r : StageReflection) (kind : BufferKind) : Option Resource :=
  (r.resourcesOf kind.resourceKind).head?

/-- The size of that buffer, or 0 if there is none. -/
def StageReflection.declaredSize (r : StageReflection) (kind : BufferKind) : UInt64 :=
  ((r.declared? kind).map (·.size)).getD 0

/-- What a member stands for by its name. -/
def BufferMember.role? (m : BufferMember) (g : Graph) : Option UniformRole :=
  (SymbolTable.ofGraph g).uniform? m.name

theorem filterMap_role?_append_singleton {g : Graph} {m : BufferMember} {role : UniformRole}
    (ms : List BufferMember) (h : m.role? g = some role) :
    (ms ++ [m]).filterMap (·.role? g) = ms.filterMap (·.role? g) ++ [role] := by
  simp [h]

/-- Whether slots are the table of members: the roles of the members, each where it first
occurs, with its first member's name and the one offset of all of its members. -/
structure Tabulates (g : Graph) (ms : List BufferMember) (slots : List UniformSlot) : Prop where
  isTyped : ∀ m ∈ ms, ∃ role, m.role? g = some role ∧ m.type = role.memberType
  map_role : slots.map (·.role) = (ms.filterMap (·.role? g)).eraseDups
  first : ∀ slot ∈ slots, ∃ m, ms.find? (fun m => m.role? g = some slot.role) = some m ∧
    slot.name = m.name
  size_eq : ∀ slot ∈ slots, slot.size.toNat = slot.role.memberType.byteCount
  offset_eq : ∀ slot ∈ slots, ∀ m ∈ ms, m.role? g = some slot.role → m.offset = slot.offset

namespace Tabulates

variable {g : Graph} {ms : List BufferMember} {slots : List UniformSlot} {m : BufferMember}
  {role : UniformRole}

theorem nil (g : Graph) : Tabulates g [] [] where
  isTyped := by simp
  map_role := rfl
  first := by simp
  size_eq := by simp
  offset_eq := by simp

theorem nodup_role (h : Tabulates g ms slots) : (slots.map (·.role)).Nodup := by
  rw [h.map_role]
  exact nodup_eraseDups _

/-- The roles of the slots are those of the members. -/
theorem mem_map_role_iff (h : Tabulates g ms slots) :
    role ∈ slots.map (·.role) ↔ ∃ m ∈ ms, m.role? g = some role := by
  rw [h.map_role, List.mem_eraseDups, List.mem_filterMap]

theorem find?_eq_none_iff (h : Tabulates g ms slots) :
    ms.find? (fun m => m.role? g = some role) = none ↔ role ∉ slots.map (·.role) := by
  rw [h.mem_map_role_iff]
  simp

/-- A role has the offset at which its members stand, if there are any. -/
theorem offsetAmong?_eq_some_iff (h : Tabulates g ms slots) {offset : UInt64} :
    Binder.offsetAmong? slots role = some offset ↔
      (∃ m ∈ ms, m.role? g = some role) ∧ ∀ m ∈ ms, m.role? g = some role → m.offset = offset := by
  unfold Binder.offsetAmong?
  rw [Option.map_eq_some_iff]
  constructor
  · rintro ⟨slot, hfind, rfl⟩
    have hslot : slot ∈ slots := List.mem_of_find?_eq_some hfind
    have hrole : slot.role = role := by simpa using List.find?_some hfind
    subst hrole
    exact ⟨h.mem_map_role_iff.1 (List.mem_map_of_mem hslot), h.offset_eq slot hslot⟩
  · rintro ⟨⟨m, hm, hrole⟩, hoffset⟩
    obtain ⟨slot, hslot, hslotRole⟩ := List.mem_map.1 (h.mem_map_role_iff.2 ⟨m, hm, hrole⟩)
    have hsome : (slots.find? (·.role = role)).isSome := by
      rw [List.find?_isSome]
      exact ⟨slot, hslot, by simpa using hslotRole⟩
    obtain ⟨found, hfound⟩ := Option.isSome_iff_exists.1 hsome
    have hfoundRole : found.role = role := by simpa using List.find?_some hfound
    refine ⟨found, hfound, ?_⟩
    rw [← h.offset_eq found (List.mem_of_find?_eq_some hfound) m hm (hfoundRole ▸ hrole)]
    exact hoffset m hm hrole

/-- A member of a new role gets a slot behind the others. -/
theorem append_new (h : Tabulates g ms slots) (hrole : m.role? g = some role)
    (htype : m.type = role.memberType) (hnew : role ∉ slots.map (·.role)) :
    Tabulates g (ms ++ [m]) (slots ++ [⟨role, m.offset, m.type.byteSize, m.name⟩]) where
  isTyped := by
    rw [List.forall_mem_append]
    exact ⟨h.isTyped, by simpa using ⟨role, hrole, htype⟩⟩
  map_role := by
    have hfresh : role ∉ ms.filterMap (·.role? g) := by
      rwa [h.map_role, List.mem_eraseDups] at hnew
    rw [filterMap_role?_append_singleton ms hrole, eraseDups_append_singleton, if_neg hfresh,
      List.map_append, h.map_role]
    rfl
  first := by
    rw [List.forall_mem_append]
    constructor
    · intro slot hslot
      obtain ⟨m', hm', hname⟩ := h.first slot hslot
      exact ⟨m', by rw [List.find?_append, hm', Option.some_or], hname⟩
    · have hnone := h.find?_eq_none_iff.2 hnew
      rw [List.forall_mem_singleton]
      exact ⟨m, by rw [List.find?_append, hnone, Option.none_or]; simp [hrole], rfl⟩
  size_eq := by
    rw [List.forall_mem_append, List.forall_mem_singleton]
    exact ⟨h.size_eq, htype ▸ role.toNat_byteSize_memberType⟩
  offset_eq := by
    rw [List.forall_mem_append, List.forall_mem_singleton]
    constructor
    · intro slot hslot m' hm' hrole'
      rcases List.mem_append.1 hm' with hold | hlast
      · exact h.offset_eq slot hslot m' hold hrole'
      · cases List.mem_singleton.1 hlast
        cases hrole.symm.trans hrole'
        exact absurd (List.mem_map_of_mem hslot) hnew
    · intro m' hm' hrole'
      rcases List.mem_append.1 hm' with hold | hlast
      · exact absurd (h.mem_map_role_iff.2 ⟨m', hold, hrole'⟩) hnew
      · cases List.mem_singleton.1 hlast
        rfl

/-- A member of a role that has a slot adds none, if it stands where the slot is. -/
theorem append_known (h : Tabulates g ms slots) (hrole : m.role? g = some role)
    (htype : m.type = role.memberType)
    (hknown : Binder.offsetAmong? slots role = some m.offset) : Tabulates g (ms ++ [m]) slots where
  isTyped := by
    rw [List.forall_mem_append]
    exact ⟨h.isTyped, by simpa using ⟨role, hrole, htype⟩⟩
  map_role := by
    have hold : role ∈ ms.filterMap (·.role? g) := by
      rw [List.mem_filterMap]
      exact (h.offsetAmong?_eq_some_iff.1 hknown).1
    rw [filterMap_role?_append_singleton ms hrole, eraseDups_append_singleton, if_pos hold,
      h.map_role]
  first := by
    intro slot hslot
    obtain ⟨m', hm', hname⟩ := h.first slot hslot
    exact ⟨m', by rw [List.find?_append, hm', Option.some_or], hname⟩
  size_eq := h.size_eq
  offset_eq := by
    intro slot hslot m' hm' hrole'
    rcases List.mem_append.1 hm' with hold | hlast
    · exact h.offset_eq slot hslot m' hold hrole'
    · cases List.mem_singleton.1 hlast
      cases hrole.symm.trans hrole'
      -- The members so far stand where the slot is, and where its role is found.
      obtain ⟨⟨m', hm', hrole''⟩, hoffset⟩ := h.offsetAmong?_eq_some_iff.1 hknown
      exact (hoffset m' hm' hrole'').symm.trans (h.offset_eq slot hslot m' hm' hrole'')

end Tabulates

/-- The layout of the buffers of a kind. -/
def PassBindings.layout (l : PassBindings) : BufferKind → BufferLayout
  | .uniformBuffer => l.uniformBuffer
  | .pushConstant => l.pushConstant

/-- Whether a layout is the offset table of the buffers of a kind of two stages: its slots are
the table of their members, its size is the least multiple of 16 that holds either, and it
names the stages that have one, with their bindings. -/
structure BufferLayout.IsOffsetTable (l : BufferLayout) (g : Graph) (kind : BufferKind)
    (vertex fragment : StageReflection) : Prop
    extends Tabulates g (vertex.members kind ++ fragment.members kind) l.slots where
  kind_eq : l.kind = kind
  nodup_role : (l.slots.map (·.role)).Nodup
  offset?_eq_some_iff : ∀ role offset, l.offset? role = some offset ↔
    (∃ m ∈ vertex.members kind ++ fragment.members kind, m.role? g = some role) ∧
      ∀ m ∈ vertex.members kind ++ fragment.members kind, m.role? g = some role →
        m.offset = offset
  isLeast_size : IsLeast {n | 16 ∣ n ∧ ∀ x ∈ vertex.resourcesOf kind.resourceKind ++
    fragment.resourcesOf kind.resourceKind, x.size.toNat ≤ n} l.size.toNat
  stop_le_size : ∀ x ∈ vertex.resourcesOf kind.resourceKind ++
    fragment.resourcesOf kind.resourceKind, ∀ m ∈ x.members, m.stop ≤ x.size.toNat →
      m.stop ≤ l.size.toNat
  contains_vertex_iff : l.stages.contains (.ofStage .vertex) = true ↔
    vertex.resourcesOf kind.resourceKind ≠ []
  contains_fragment_iff : l.stages.contains (.ofStage .fragment) = true ↔
    fragment.resourcesOf kind.resourceKind ≠ []
  otherBits_stages : l.stages.otherBits = 0
  vertexBinding_eq_some_iff : ∀ binding, l.vertexBinding = some binding ↔
    ∃ x ∈ vertex.resourcesOf kind.resourceKind, x.binding = some binding
  fragmentBinding_eq_some_iff : ∀ binding, l.fragmentBinding = some binding ↔
    ∃ x ∈ fragment.resourcesOf kind.resourceKind, x.binding = some binding

namespace Binder

variable {g : Graph} {maxBindings : UInt32} {pass : Nat} {kind : BufferKind} {m : BufferMember}
  {ms rest : List BufferMember} {slots out : List UniformSlot} {r vertex fragment : StageReflection}

/-- Placing a member behind a table of members is the table with it. -/
theorem tabulates_place (h : Tabulates g ms slots)
    (hplace : (ofGraph g maxBindings).place pass kind slots m = .ok out) :
    Tabulates g (ms ++ [m]) out := by
  obtain ⟨role, hresolved, hout⟩ := place_eq_ok_iff.1 hplace
  obtain ⟨hrole, htype, -⟩ := role_eq_ok_iff.1 hresolved
  rcases hout with ⟨hnone, rfl⟩ | ⟨hsome, rfl⟩
  · refine h.append_new hrole htype ?_
    simpa [offsetAmong?] using hnone
  · exact h.append_known hrole htype hsome

/-- Members placed behind a table of members are the table with them. -/
theorem tabulates_placeAll (h : Tabulates g ms slots)
    (hplace : (ofGraph g maxBindings).placeAll pass kind slots rest = .ok out) :
    Tabulates g (ms ++ rest) out := by
  induction rest generalizing ms slots with
  | nil =>
      cases hplace
      rwa [List.append_nil]
  | cons m rest ih =>
      obtain ⟨placed, hplaced, hrest⟩ := Success.bind_iff.1 hplace
      rw [List.append_cons]
      exact ih (tabulates_place h hplaced) hrest

theorem toNat_max (a b : UInt64) : (max a b).toNat = max a.toNat b.toNat := by
  change (if a ≤ b then b else a).toNat = _
  rw [Nat.max_def, apply_ite UInt64.toNat]
  simp only [UInt64.le_iff_toNat_le]

/-- Where a size can be rounded up without an overflow, the outcome is the least multiple of
16 that is not below it. -/
theorem isLeast_roundUp {size : UInt64} (h : size.toNat ≤ 2 ^ 64 - 16) :
    IsLeast {n | 16 ∣ n ∧ size.toNat ≤ n} (roundUp size).toNat := by
  have hsum : size.toNat + 15 < 2 ^ 64 := by omega
  have heq : (roundUp size).toNat = (size.toNat + 15) / 16 * 16 := by
    calc (roundUp size).toNat = (size.toNat + 15) % 2 ^ 64 / 16 * 16 % 2 ^ 64 := by
          rw [roundUp, UInt64.toNat_mul, UInt64.toNat_div, UInt64.toNat_add]
          rfl
      _ = (size.toNat + 15) / 16 * 16 := by
          rw [Nat.mod_eq_of_lt hsum, Nat.mod_eq_of_lt (by omega)]
  rw [heq]
  constructor
  · exact ⟨Nat.dvd_mul_left _ _, by omega⟩
  · intro n ⟨hdvd, hle⟩
    omega

/-- The first of the buffers of a kind is any of them, where there is one at most. -/
theorem declared?_eq_some_iff (h : r.HasOneBuffer kind) {x : Resource} :
    r.declared? kind = some x ↔ x ∈ r.resourcesOf kind.resourceKind := by
  have hlength := h.length_le
  unfold StageReflection.declared?
  match hr : r.resourcesOf kind.resourceKind with
  | [] => simp
  | [y] => simp [eq_comm]
  | y :: z :: rest => simp [hr] at hlength

theorem isSome_declared?_iff : (r.declared? kind).isSome = true ↔
    r.resourcesOf kind.resourceKind ≠ [] := by
  rw [StageReflection.declared?, List.isSome_head?]

theorem toNat_declaredSize_le_iff (h : r.HasOneBuffer kind) {n : ℕ} :
    (r.declaredSize kind).toNat ≤ n ↔
      ∀ x ∈ r.resourcesOf kind.resourceKind, x.size.toNat ≤ n := by
  simp only [← declared?_eq_some_iff h, StageReflection.declaredSize]
  cases r.declared? kind with
  | none => simp
  | some x => simp

/-- The size of a layout is the least multiple of 16 that holds the buffer of either stage. -/
theorem isLeast_roundUp_max (hvertex : vertex.HasOneBuffer kind)
    (hfragment : fragment.HasOneBuffer kind)
    (hsize : ∀ x ∈ vertex.resourcesOf kind.resourceKind ++
      fragment.resourcesOf kind.resourceKind, x.size.toNat ≤ 2 ^ 64 - 16) :
    IsLeast {n | 16 ∣ n ∧ ∀ x ∈ vertex.resourcesOf kind.resourceKind ++
      fragment.resourcesOf kind.resourceKind, x.size.toNat ≤ n}
      (roundUp (max (vertex.declaredSize kind) (fragment.declaredSize kind))).toNat := by
  have hiff : ∀ n, (max (vertex.declaredSize kind) (fragment.declaredSize kind)).toNat ≤ n ↔
      ∀ x ∈ vertex.resourcesOf kind.resourceKind ++ fragment.resourcesOf kind.resourceKind,
        x.size.toNat ≤ n := by
    intro n
    rw [List.forall_mem_append, ← toNat_declaredSize_le_iff hvertex,
      ← toNat_declaredSize_le_iff hfragment, toNat_max, max_le_iff]
  simp only [← hiff]
  exact isLeast_roundUp ((hiff _).2 hsize)

theorem contains_union_maskOf (x y : Option Resource) :
    (((maskOf .vertex x).union (maskOf .fragment y)).contains (.ofStage .vertex) = x.isSome) ∧
      (((maskOf .vertex x).union (maskOf .fragment y)).contains (.ofStage .fragment) =
        y.isSome) := by
  have hmask : ∀ v f : Bool,
      (((if v then StageMask.ofStage .vertex else .empty).union
        (if f then StageMask.ofStage .fragment else .empty)).contains (.ofStage .vertex) = v) ∧
      (((if v then StageMask.ofStage .vertex else .empty).union
        (if f then StageMask.ofStage .fragment else .empty)).contains (.ofStage .fragment) = f) := by
    decide
  exact hmask x.isSome y.isSome

/-- The layout of two stages that are laid out, field by field. -/
theorem layout_ok {b : Binder} {l : BufferLayout}
    (h : b.layout pass kind vertex fragment = .ok l) :
    vertex.HasOneBuffer kind ∧ fragment.HasOneBuffer kind ∧ ∃ slots,
      b.placeAll pass kind [] (vertex.members kind ++ fragment.members kind) = .ok slots ∧
      l = { kind
            vertexBinding := (vertex.declared? kind).bind (·.binding)
            fragmentBinding := (fragment.declared? kind).bind (·.binding)
            stages := (maskOf .vertex (vertex.declared? kind)).union
              (maskOf .fragment (fragment.declared? kind))
            size := roundUp (max (vertex.declaredSize kind) (fragment.declaredSize kind))
            slots } := by
  obtain ⟨x, hx, h⟩ := Success.bind_iff.1 h
  obtain ⟨y, hy, h⟩ := Success.bind_iff.1 h
  obtain ⟨hvertex, rfl⟩ := buffer?_eq_ok_iff.1 hx
  obtain ⟨hfragment, rfl⟩ := buffer?_eq_ok_iff.1 hy
  obtain ⟨slots, hplace, rfl⟩ := Success.map_iff.1 h
  dsimp only at hplace
  rw [members_of_hasOneBuffer hvertex, members_of_hasOneBuffer hfragment] at hplace
  exact ⟨hvertex, hfragment, slots, hplace, rfl⟩

/-- A pass that is bound has the layouts of its buffers. -/
theorem layout_of_bind {b : Binder} {l : PassBindings}
    (h : b.bind pass vertex fragment = .ok l) (kind : BufferKind) :
    b.layout pass kind vertex fragment = .ok (l.layout kind) := by
  obtain ⟨_, -, -, huniform, hpush, -⟩ := bind_eq_ok_iff.1 h
  cases kind with
  | uniformBuffer => exact huniform
  | pushConstant => exact hpush

/-- The slots of a layout are the table of the members of both stages. -/
theorem tabulates_layout {l : BufferLayout}
    (h : (ofGraph g maxBindings).layout pass kind vertex fragment = .ok l) :
    Tabulates g (vertex.members kind ++ fragment.members kind) l.slots := by
  obtain ⟨-, -, slots, hplace, rfl⟩ := layout_ok h
  have htable : Tabulates g ([] ++ (vertex.members kind ++ fragment.members kind)) slots :=
    tabulates_placeAll (.nil g) hplace
  rwa [List.nil_append] at htable

theorem isOffsetTable_of_layout {l : BufferLayout}
    (hsize : ∀ x ∈ vertex.resourcesOf kind.resourceKind ++
      fragment.resourcesOf kind.resourceKind, x.size.toNat ≤ 2 ^ 64 - 16)
    (h : (ofGraph g maxBindings).layout pass kind vertex fragment = .ok l) :
    l.IsOffsetTable g kind vertex fragment := by
  have htable := tabulates_layout h
  obtain ⟨hvertex, hfragment, slots, -, rfl⟩ := layout_ok h
  have hleast := isLeast_roundUp_max hvertex hfragment hsize
  exact
    { htable with
      kind_eq := rfl
      nodup_role := htable.nodup_role
      offset?_eq_some_iff := fun role offset => htable.offsetAmong?_eq_some_iff
      isLeast_size := hleast
      stop_le_size := fun x hx m _ hstop => hstop.trans (hleast.1.2 x hx)
      contains_vertex_iff := by
        rw [(contains_union_maskOf _ _).1, isSome_declared?_iff]
      contains_fragment_iff := by
        rw [(contains_union_maskOf _ _).2, isSome_declared?_iff]
      otherBits_stages := otherBits_layout h
      vertexBinding_eq_some_iff := by
        intro binding
        simp only [Option.bind_eq_some_iff, declared?_eq_some_iff hvertex]
      fragmentBinding_eq_some_iff := by
        intro binding
        simp only [Option.bind_eq_some_iff, declared?_eq_some_iff hfragment] }

/-- The layouts of a pass that is bound are the offset tables of its buffers. -/
theorem isOffsetTable_of_bind (g : Graph) (maxBindings : UInt32) (pass : Nat)
    (vertex fragment : StageReflection) (l : PassBindings) (kind : BufferKind)
    (hsize : ∀ x ∈ vertex.resourcesOf kind.resourceKind ++
      fragment.resourcesOf kind.resourceKind, x.size.toNat ≤ 2 ^ 64 - 16)
    (h : (ofGraph g maxBindings).bind pass vertex fragment = .ok l) :
    (l.layout kind).IsOffsetTable g kind vertex fragment :=
  isOffsetTable_of_layout hsize (layout_of_bind h kind)

/-- A pass that asks for nothing. -/
def plainPass (index : Nat) (name : String) : Graph.Pass where
  preset := ⟨index, "pass.slang", none, .unset, .border, .linear, 0, false, false, false⟩
  source := ⟨"pass.slang", none, none, [], "", "", 0⟩
  name := name
  format := .r8G8B8A8Unorm

/-- Two passes, the first of which is known as `Blur`. -/
def blurChain : Graph where
  passes := [plainPass 0 "Blur", plainPass 1 ""]
  luts := []
  parameters := []
  groups := []

/-- Stages with the given resources and the inputs and outputs of a pass. -/
def vertexOf (resources : List Resource) : StageReflection :=
  ⟨[⟨"Position", 0⟩, ⟨"TexCoord", 1⟩], [⟨"vTexCoord", 0⟩], resources⟩

def fragmentOf (resources : List Resource) : StageReflection :=
  ⟨[⟨"vTexCoord", 0⟩], [⟨"FragColor", 0⟩], resources⟩

/-- The vertex stage knows the size of the first pass by its name, the fragment stage by its
number. -/
def blurVertex : StageReflection :=
  vertexOf [⟨"UBO", .uniformBuffer, 0, some 0, 80, [⟨"MVP", 0, .mat4⟩, ⟨"BlurSize", 64, .vec4⟩]⟩]

def blurFragment : StageReflection :=
  fragmentOf
    [⟨"UBO", .uniformBuffer, 0, some 0, 84,
      [⟨"PassOutputSize0", 64, .vec4⟩, ⟨"FrameCount", 80, .uint⟩]⟩]

theorem isOffsetTable_of_bind_blur :
    ∃ l, (ofGraph blurChain 16).bind 1 blurVertex blurFragment = .ok l ∧
      l.uniformBuffer.slots.map (·.name) = ["MVP", "BlurSize", "FrameCount"] ∧
      l.uniformBuffer.size = 96 ∧
      (l.layout .uniformBuffer).IsOffsetTable blurChain .uniformBuffer blurVertex
        blurFragment := by
  have h : ((ofGraph blurChain 16).bind 1 blurVertex blurFragment).map
      (fun l => (l.uniformBuffer.slots.map (·.name), l.uniformBuffer.size)) =
        .ok (["MVP", "BlurSize", "FrameCount"], 96) := by
    decide +kernel
  obtain ⟨l, hl, hparts⟩ := Success.map_iff.1 h
  rw [Prod.mk.injEq] at hparts
  refine ⟨l, hl, hparts.1, hparts.2, isOffsetTable_of_bind _ _ _ _ _ _ _ ?_ hl⟩
  decide

end Binder

end ShaderChain
