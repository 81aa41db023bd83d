import ShaderChain.Binding.Binder
import ShaderChain.Proofs.Graph.Numbering

/-!
# Causal bindings

A pass that is bound asks for nothing that is not there. A texture it samples, or whose
size it asks for, is the output of a pass before it, the earlier output of some pass, a
lookup texture of the chain, or of a kind that does not depend on the graph. A parameter
it asks for is one of the chain. Its textures have bindings of their own, in range.
-/

namespace ShaderChain

/-- Whether a texture is there for pass `pass` of a chain with the given numbers of passes
and lookup textures. Earlier inputs are kept as the passes ask for them. -/
structure TextureRef.IsCausal (r : TextureRef) (pass passCount lutCount : Nat) : Prop where
  passOutput : r.semantic = .passOutput → r.index < pass
  passFeedback : r.semantic = .passFeedback → r.index < passCount
  user : r.semantic = .user → r.index < lutCount

/-- Whether what a member of pass `pass` stands for is there. -/
def UniformRole.IsCausal (g : Graph) (pass : Nat) : UniformRole → Prop
  | .global _ => True
  | .parameter index => index < g.parameters.length
  | .textureSize r => r.IsCausal pass g.passes.length g.luts.length

theorem mem_of_lastGiven? {α : Type} {entries : List (String × α)} {name : String} {a : α}
    (h : lastGiven? entries name = some a) : (name, a) ∈ entries := by
  obtain ⟨⟨given, value⟩, hfind, rfl⟩ := Option.map_eq_some_iff.1 h
  have hname := List.find?_some hfind
  rw [← eq_of_beq hname]
  exact List.mem_reverse.1 (List.mem_of_find?_eq_some hfind)

/-- A parameter that a name stands for is one of the chain. -/
theorem SymbolTable.parameter_lt {g : Graph} (hg : g.IsNumbered) {name : String} {index : Nat}
    (h : (ofGraph g).uniform? name = some (.parameter index)) : index < g.parameters.length := by
  unfold uniform? at h
  rcases Option.or_eq_some_iff.1 h with hglobal | ⟨-, hrest⟩
  · obtain ⟨semantic, -, heq⟩ := Option.map_eq_some_iff.1 hglobal
    cases heq
  · rcases Option.or_eq_some_iff.1 hrest with hparameter | ⟨-, hsize⟩
    · obtain ⟨_, hgiven, heq⟩ := Option.map_eq_some_iff.1 hparameter
      cases heq
      obtain ⟨p, hp, hpair⟩ := List.mem_map.1 (mem_of_lastGiven? hgiven)
      obtain ⟨i, hi⟩ := List.mem_iff_getElem?.1 hp
      cases hpair
      rw [hg.index_parameter i p hi]
      exact (List.getElem?_eq_some_iff.1 hi).1
    · obtain ⟨r, -, heq⟩ := Option.map_eq_some_iff.1 hsize
      cases heq

namespace Binder

variable {b : Binder} {pass : Nat} {name : String} {r : TextureRef} {m : BufferMember}
  {ms : List BufferMember} {role : UniformRole} {kind : BufferKind} {slots out : List UniformSlot}

theorem checkReference_eq_ok_iff :
    b.checkReference pass name r = .ok () ↔
      r.IsCausal pass b.graph.passes.length b.graph.luts.length := by
  unfold checkReference
  rcases r with ⟨semantic, index⟩
  constructor
  · intro h
    constructor
    all_goals
      rintro rfl
      simpa using h
  · rintro ⟨houtput, hfeedback, huser⟩
    cases semantic with
    | passOutput => exact if_pos (houtput rfl)
    | passFeedback => exact if_pos (hfeedback rfl)
    | user => exact if_pos (huser rfl)
    | chainInput | source | inputHistory => rfl

/-- A role is the one of the member's name, and what it stands for is there. -/
theorem role_ok (h : b.role pass m = .ok role) :
    b.symbols.uniform? m.name = some role ∧
      ∀ r, role = .textureSize r → r.IsCausal pass b.graph.passes.length b.graph.luts.length := by
  unfold Binder.role at h
  split at h
  · cases h
  · next role' hname =>
      obtain ⟨-, h⟩ := Success.unless_iff.1 h
      cases role' with
      | global semantic =>
          cases h
          exact ⟨hname, fun r hr => by cases hr⟩
      | parameter index =>
          cases h
          exact ⟨hname, fun r hr => by cases hr⟩
      | textureSize r =>
          obtain ⟨_, hcheck, h⟩ := Success.bind_iff.1 h
          cases h
          refine ⟨hname, fun r' hr' => ?_⟩
          cases hr'
          exact checkReference_eq_ok_iff.1 hcheck

theorem isCausal_role {g : Graph} {maxBindings : UInt32} (hg : g.IsNumbered)
    (h : (ofGraph g maxBindings).role pass m = .ok role) : role.IsCausal g pass := by
  obtain ⟨hname, hsize⟩ := role_ok h
  cases role with
  | global semantic => trivial
  | parameter index => exact SymbolTable.parameter_lt hg hname
  | textureSize r => exact hsize r rfl

/-- Placing a member adds no slot or the slot of its role. -/
theorem place_ok (h : b.place pass kind slots m = .ok out) :
    ∃ role, b.role pass m = .ok role ∧
      (out = slots ∨ out = slots ++ [⟨role, m.offset, m.type.byteSize, m.name⟩]) := by
  unfold place at h
  obtain ⟨role, hrole, h⟩ := Success.bind_iff.1 h
  refine ⟨role, hrole, ?_⟩
  split at h
  · cases h
    exact Or.inr rfl
  · split at h
    · cases h
      exact Or.inl rfl
    · cases h

/-- Every slot behind the first ones has the role of some member. -/
theorem exists_role_of_mem_placeAll (h : b.placeAll pass kind slots ms = .ok out)
    {slot : UniformSlot} (hslot : slot ∈ out) :
    slot ∈ slots ∨ ∃ m ∈ ms, b.role pass m = .ok slot.role := by
  induction ms generalizing slots with
  | nil =>
      cases h
      exact Or.inl hslot
  | cons m ms ih =>
      obtain ⟨placed, hplaced, hrest⟩ := Success.bind_iff.1 h
      obtain ⟨role, hrole, hout⟩ := place_ok hplaced
      rcases ih hrest with hmem | ⟨m', hm', hrole'⟩
      · rcases hout with rfl | rfl
        · exact Or.inl hmem
        · rcases List.mem_append.1 hmem with hold | hnew
          · exact Or.inl hold
          · cases List.mem_singleton.1 hnew
            exact Or.inr ⟨m, List.mem_cons_self, hrole⟩
      · exact Or.inr ⟨m', List.mem_cons_of_mem m hm', hrole'⟩

theorem exists_role_of_mem_layout {vertex fragment : StageReflection} {l : BufferLayout}
    (h : b.layout pass kind vertex fragment = .ok l) {slot : UniformSlot} (hslot : slot ∈ l.slots) :
    ∃ m, b.role pass m = .ok slot.role := by
  unfold layout at h
  obtain ⟨vertexBuffer, -, h⟩ := Success.bind_iff.1 h
  obtain ⟨fragmentBuffer, -, h⟩ := Success.bind_iff.1 h
  obtain ⟨slots, hplaced, rfl⟩ := Success.map_iff.1 h
  rcases exists_role_of_mem_placeAll hplaced hslot with hnil | ⟨m, -, hrole⟩
  · cases hnil
  · exact ⟨m, hrole⟩

/-- What texture slots of pass `pass` have in common: their bindings are in range and
differ from each other, and their textures are there. -/
structure Admits (b : Binder) (pass : Nat) (textures : List TextureSlot) : Prop where
  binding_lt : ∀ t ∈ textures, t.binding < b.maxBindings
  nodup_binding : (textures.map (·.binding)).Nodup
  isCausal : ∀ t ∈ textures,
    t.reference.IsCausal pass b.graph.passes.length b.graph.luts.length

variable {settings : Preset.Pass} {textures found : List TextureSlot} {t : TextureSlot}
  {x : Resource} {xs : List Resource} {binding : UInt32}

theorem admits_nil (b : Binder) (pass : Nat) : b.Admits pass [] where
  binding_lt := by simp
  nodup_binding := by simp
  isCausal := by simp

theorem textureSlot_ok (h : b.textureSlot pass settings textures x binding = .ok t) :
    t.binding = binding ∧ binding < b.maxBindings ∧ binding ∉ textures.map (·.binding) ∧
      t.reference.IsCausal pass b.graph.passes.length b.graph.luts.length := by
  unfold textureSlot at h
  obtain ⟨-, h⟩ := Success.unless_iff.1 h
  obtain ⟨hrange, h⟩ := Success.unless_iff.1 h
  obtain ⟨hfree, h⟩ := Success.unless_iff.1 h
  split at h
  · cases h
  · obtain ⟨_, hcheck, h⟩ := Success.bind_iff.1 h
    cases h
    refine ⟨rfl, UInt32.not_le.1 hrange, ?_, checkReference_eq_ok_iff.1 hcheck⟩
    intro hmem
    obtain ⟨t, ht, hbinding⟩ := List.mem_map.1 hmem
    exact hfree (List.any_eq_true.2 ⟨t, ht, beq_iff_eq.2 hbinding⟩)

theorem admits_append_singleton (hs : b.Admits pass textures)
    (h : b.textureSlot pass settings textures x binding = .ok t) :
    b.Admits pass (textures ++ [t]) := by
  obtain ⟨rfl, hrange, hfree, hcausal⟩ := textureSlot_ok h
  constructor
  · intro t' ht'
    rcases List.mem_append.1 ht' with hold | hnew
    · exact hs.binding_lt t' hold
    · cases List.mem_singleton.1 hnew
      exact hrange
  · rw [List.map_append, List.nodup_append]
    refine ⟨hs.nodup_binding, by simp, ?_⟩
    rintro c hc d hd rfl
    cases List.mem_singleton.1 hd
    exact hfree hc
  · intro t' ht'
    rcases List.mem_append.1 ht' with hold | hnew
    · exact hs.isCausal t' hold
    · cases List.mem_singleton.1 hnew
      exact hcausal

/-- Every image keeps what the slots before it have in common. -/
theorem admits_textureSlots (hs : b.Admits pass textures)
    (h : b.textureSlots pass settings textures xs = .ok found) : b.Admits pass found := by
  induction xs generalizing textures with
  | nil =>
      cases h
      exact hs
  | cons x xs ih =>
      unfold textureSlots at h
      split at h
      · exact ih hs h
      · obtain ⟨t, ht, hrest⟩ := Success.bind_iff.1 h
        exact ih (admits_append_singleton hs ht) hrest

section Bind

variable {vertex fragment : StageReflection} {l : PassBindings}

/-- A pass is bound exactly if its shape is checked and each of its parts is found. -/
theorem bind_eq_ok_iff :
    b.bind pass vertex fragment = .ok l ↔
      ∃ p, b.graph.passes[pass]? = some p ∧ checkShape vertex fragment = .ok () ∧
        b.layout pass .uniformBuffer vertex fragment = .ok l.uniformBuffer ∧
        b.layout pass .pushConstant vertex fragment = .ok l.pushConstant ∧
        b.textureSlots pass p.preset [] (fragment.resourcesOf .sampledImage) =
          .ok l.textures := by
  unfold Binder.bind
  constructor
  · intro h
    split at h
    · cases h
    · next p hp =>
        obtain ⟨_, hshape, h⟩ := Success.bind_iff.1 h
        obtain ⟨uniformBuffer, huniform, h⟩ := Success.bind_iff.1 h
        obtain ⟨pushConstant, hpush, h⟩ := Success.bind_iff.1 h
        obtain ⟨textures, htextures, h⟩ := Success.bind_iff.1 h
        cases h
        exact ⟨p, hp, hshape, huniform, hpush, htextures⟩
  · intro ⟨p, hp, hshape, huniform, hpush, htextures⟩
    simp only [hp]
    refine Success.bind_iff.2 ⟨(), hshape, Success.bind_iff.2 ⟨_, huniform, ?_⟩⟩
    exact Success.bind_iff.2 ⟨_, hpush, Success.bind_iff.2 ⟨_, htextures, rfl⟩⟩

/-- A pass that is bound asks for nothing that is not there. -/
theorem bind_ok {g : Graph} {maxBindings : UInt32} (hg : g.IsNumbered)
    (h : (ofGraph g maxBindings).bind pass vertex fragment = .ok l) :
    (∀ s ∈ l.uniformBuffer.slots ++ l.pushConstant.slots, s.role.IsCausal g pass) ∧
      (ofGraph g maxBindings).Admits pass l.textures := by
  obtain ⟨p, -, -, huniform, hpush, htextures⟩ := bind_eq_ok_iff.1 h
  refine ⟨?_, admits_textureSlots (admits_nil _ _) htextures⟩
  intro slot hslot
  rcases List.mem_append.1 hslot with huniformslot | hpushslot
  · obtain ⟨m, hrole⟩ := exists_role_of_mem_layout huniform huniformslot
    exact isCausal_role hg hrole
  · obtain ⟨m, hrole⟩ := exists_role_of_mem_layout hpush hpushslot
    exact isCausal_role hg hrole

end Bind

end Binder

end ShaderChain
