import Mathlib.Data.List.TFAE
import Mathlib.Data.Set.Pairwise.List
import Mathlib.Order.CompletePartialOrder
import ShaderChain.Proofs.Binding.OffsetTable

/-!
# Slots that overlap

Members of one role are compared when the buffers of two stages are merged, members of
different roles are not. So the slots of a merged layout are apart exactly if the members are,
`pairwise_disjoint_bytes_iff`; and where the compiler of each stage keeps its own members apart,
it is left to the members of one stage against those of the other.
-/

namespace ShaderChain

/-- The bytes that a member takes up. -/
def BufferMember.bytes (m : BufferMember) : Set ℕ := Set.Ico m.offset.toNat m.stop

/-- The bytes that are written with a slot. -/
def UniformSlot.bytes (s : UniformSlot) : Set ℕ :=
  Set.Ico s.offset.toNat (s.offset.toNat + s.size.toNat)

/-- Whether whatever is written to a slot leaves the bytes of another as they are. -/
def UniformSlot.LeavesAlone (s other : UniformSlot) : Prop :=
  ∀ before after : ℕ → UInt8, (∀ i ∉ s.bytes, after i = before i) →
    ∀ i ∈ other.bytes, after i = before i

/-- Whether the members of a stage's buffers of a kind are inside of them, and members of
different roles apart. -/
structure StageReflection.IsLaidOut (r : StageReflection) (g : Graph) (kind : BufferKind) :
    Prop where
  stop_le : ∀ x ∈ r.resourcesOf kind.resourceKind, ∀ m ∈ x.members, m.stop ≤ x.size.toNat
  disjoint_bytes : ∀ m ∈ r.members kind, ∀ m' ∈ r.members kind, m.role? g ≠ m'.role? g →
    Disjoint m.bytes m'.bytes

theorem BufferMember.disjoint_bytes {m m' : BufferMember}
    (h : m.stop ≤ m'.offset.toNat ∨ m'.stop ≤ m.offset.toNat) : Disjoint m.bytes m'.bytes := by
  rw [Set.disjoint_left]
  rintro i ⟨hle, hlt⟩ ⟨hle', hlt'⟩
  omega

theorem UniformSlot.leavesAlone_iff {s other : UniformSlot} :
    s.LeavesAlone other ↔ Disjoint s.bytes other.bytes := by
  rw [Set.disjoint_left]
  constructor
  · intro h i hi hother
    -- All bytes of the slot are set, and so the shared byte is not as before.
    classical
    have hkept := h (fun _ => 0) (fun j => if j ∈ s.bytes then 1 else 0)
      (fun j hj => if_neg hj) i hother
    simp [hi] at hkept
  · intro h before after houtside i hi
    exact houtside i fun hs => h hs hi

namespace Tabulates

variable {g : Graph} {ms : List BufferMember} {slots : List UniformSlot} {m : BufferMember}
  {slot : UniformSlot}

/-- A member and the slot of its role take up the same bytes. -/
theorem bytes_eq (h : Tabulates g ms slots) (hm : m ∈ ms) (hslot : slot ∈ slots)
    (hrole : m.role? g = some slot.role) : m.bytes = slot.bytes := by
  obtain ⟨role, hrole', htype⟩ := h.isTyped m hm
  cases hrole.symm.trans hrole'
  rw [BufferMember.bytes, BufferMember.stop, htype, ← h.size_eq slot hslot,
    h.offset_eq slot hslot m hm hrole]
  rfl

theorem exists_slot (h : Tabulates g ms slots) (hm : m ∈ ms) :
    ∃ slot ∈ slots, m.role? g = some slot.role := by
  obtain ⟨role, hrole, -⟩ := h.isTyped m hm
  obtain ⟨slot, hslot, rfl⟩ := List.mem_map.1 (h.mem_map_role_iff.2 ⟨m, hm, hrole⟩)
  exact ⟨slot, hslot, hrole⟩

theorem exists_member (h : Tabulates g ms slots) (hslot : slot ∈ slots) :
    ∃ m ∈ ms, m.role? g = some slot.role :=
  h.mem_map_role_iff.1 (List.mem_map_of_mem hslot)

theorem pairwise_disjoint_bytes_iff_forall (h : Tabulates g ms slots) :
    slots.Pairwise (fun s s' => Disjoint s.bytes s'.bytes) ↔
      ∀ s ∈ slots, ∀ s' ∈ slots, s ≠ s' → Disjoint s.bytes s'.bytes := by
  have hsymm : Std.Symm fun s s' : UniformSlot => Disjoint s.bytes s'.bytes :=
    ⟨fun _ _ hdisjoint => hdisjoint.symm⟩
  have hnodup : slots.Nodup := h.nodup_role.of_map _
  rw [← hnodup.pairwise_coe]
  rfl

/-- Slots are apart exactly if the members of different roles are. -/
theorem pairwise_disjoint_bytes_iff (h : Tabulates g ms slots) :
    slots.Pairwise (fun s s' => Disjoint s.bytes s'.bytes) ↔
      ∀ m ∈ ms, ∀ m' ∈ ms, m.role? g ≠ m'.role? g → Disjoint m.bytes m'.bytes := by
  rw [h.pairwise_disjoint_bytes_iff_forall]
  constructor
  · intro hslots m hm m' hm' hne
    obtain ⟨s, hs, hrole⟩ := h.exists_slot hm
    obtain ⟨s', hs', hrole'⟩ := h.exists_slot hm'
    rw [h.bytes_eq hm hs hrole, h.bytes_eq hm' hs' hrole']
    refine hslots s hs s' hs' ?_
    rintro rfl
    exact hne (hrole.trans hrole'.symm)
  · intro hmembers s hs s' hs' hne
    obtain ⟨m, hm, hrole⟩ := h.exists_member hs
    obtain ⟨m', hm', hrole'⟩ := h.exists_member hs'
    rw [← h.bytes_eq hm hs hrole, ← h.bytes_eq hm' hs' hrole']
    refine hmembers m hm m' hm' fun heq => hne ?_
    rw [hrole, hrole'] at heq
    exact List.inj_on_of_nodup_map h.nodup_role hs hs' (Option.some.inj heq)

end Tabulates

namespace Binder

/-- In a pass that is bound of stages that keep their own members apart, three things are one:
the slots of a buffer are apart, members of different roles are apart from one stage to the
other, and no slot that is written changes what another one holds. -/
theorem disjoint_bytes_tfae_of_bind (g : Graph) (maxBindings : UInt32) (pass : Nat)
    (vertex fragment : StageReflection) (l : PassBindings) (kind : BufferKind)
    (hvertex : vertex.IsLaidOut g kind) (hfragment : fragment.IsLaidOut g kind)
    (h : (ofGraph g maxBindings).bind pass vertex fragment = .ok l) :
    List.TFAE [
      (l.layout kind).slots.Pairwise (fun s s' => Disjoint s.bytes s'.bytes),
      ∀ m ∈ vertex.members kind, ∀ m' ∈ fragment.members kind, m.role? g ≠ m'.role? g →
        Disjoint m.bytes m'.bytes,
      ∀ s ∈ (l.layout kind).slots, ∀ s' ∈ (l.layout kind).slots, s ≠ s' → s.LeavesAlone s'] := by
  have htable := tabulates_layout (layout_of_bind h kind)
  tfae_have 1 ↔ 2 := by
    rw [htable.pairwise_disjoint_bytes_iff]
    constructor
    · intro hall m hm m' hm'
      exact hall m (List.mem_append_left _ hm) m' (List.mem_append_right _ hm')
    · intro hacross m hm m' hm' hne
      rcases List.mem_append.1 hm with hm | hm <;> rcases List.mem_append.1 hm' with hm' | hm'
      · exact hvertex.disjoint_bytes m hm m' hm' hne
      · exact hacross m hm m' hm' hne
      · exact (hacross m' hm' m hm hne.symm).symm
      · exact hfragment.disjoint_bytes m hm m' hm' hne
  tfae_have 1 ↔ 3 := by
    simp only [htable.pairwise_disjoint_bytes_iff_forall, UniformSlot.leavesAlone_iff]
  tfae_finish

theorem disjoint_bytes_of_bind_blur :
    ∃ l, (ofGraph blurChain 16).bind 1 blurVertex blurFragment = .ok l ∧
      l.uniformBuffer.slots.length = 3 ∧
      blurVertex.IsLaidOut blurChain .uniformBuffer ∧
      blurFragment.IsLaidOut blurChain .uniformBuffer ∧
      l.uniformBuffer.slots.Pairwise (fun s s' => Disjoint s.bytes s'.bytes) := by
  have hvertex : blurVertex.IsLaidOut blurChain .uniformBuffer := by
    refine ⟨by decide, fun m hm m' hm' hne => BufferMember.disjoint_bytes ?_⟩
    revert m m'
    decide +kernel
  have hfragment : blurFragment.IsLaidOut blurChain .uniformBuffer := by
    refine ⟨by decide, fun m hm m' hm' hne => BufferMember.disjoint_bytes ?_⟩
    revert m m'
    decide +kernel
  have h : ((ofGraph blurChain 16).bind 1 blurVertex blurFragment).map
      (·.uniformBuffer.slots.length) = .ok 3 := by
    decide +kernel
  obtain ⟨l, hl, hlength⟩ := Success.map_iff.1 h
  refine ⟨l, hl, hlength, hvertex, hfragment, ?_⟩
  refine ((disjoint_bytes_tfae_of_bind _ _ _ _ _ _ _ hvertex hfragment hl).out 0 1).2 ?_
  intro m hm m' hm' hne
  apply BufferMember.disjoint_bytes
  revert m m'
  decide +kernel

/-- The buffers of these stages hold one member each, and it starts both. -/
def meetingVertex : StageReflection :=
  vertexOf [⟨"UBO", .uniformBuffer, 0, some 0, 64, [⟨"MVP", 0, .mat4⟩]⟩]

def meetingFragment : StageReflection :=
  fragmentOf [⟨"UBO", .uniformBuffer, 0, some 0, 16, [⟨"OutputSize", 0, .vec4⟩]⟩]

/-- Stages whose own members are apart may be bound to slots that are not. -/
theorem not_disjoint_bytes_of_bind_meeting :
    ∃ l, (ofGraph blurChain 16).bind 0 meetingVertex meetingFragment = .ok l ∧
      (∀ kind, meetingVertex.IsLaidOut blurChain kind ∧
        meetingFragment.IsLaidOut blurChain kind) ∧
      ¬ l.uniformBuffer.slots.Pairwise (fun s s' => Disjoint s.bytes s'.bytes) := by
  have h : ((ofGraph blurChain 16).bind 0 meetingVertex meetingFragment).map
      (·.uniformBuffer.slots) =
        .ok [⟨.global .mvp, 0, 64, "MVP"⟩, ⟨.global .outputSize, 0, 16, "OutputSize"⟩] := by
    decide +kernel
  obtain ⟨l, hl, hslots⟩ := Success.map_iff.1 h
  refine ⟨l, hl, fun kind => ?_, ?_⟩
  · constructor
    all_goals
      refine ⟨by cases kind <;> decide, fun m hm m' hm' hne => BufferMember.disjoint_bytes ?_⟩
      revert m m'
      cases kind <;> decide +kernel
  · rw [hslots, List.pairwise_pair, Set.not_disjoint_iff]
    exact ⟨0, Set.mem_Ico.2 (by decide), Set.mem_Ico.2 (by decide)⟩

end Binder

end ShaderChain
