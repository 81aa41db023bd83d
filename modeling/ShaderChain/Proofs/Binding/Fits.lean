import ShaderChain.Proofs.Binding.Causality
import ShaderChain.Proofs.Compiled.Document

/-!
# Bindings that fit their words

Where the passes, the parameters and the lookup textures of a chain can be counted in words of 64
bits, so can everything that a bound pass refers to, earlier inputs too, and the masks of its
buffers name stages and nothing else.
-/

namespace ShaderChain

/-- Whether the parts of a graph can be counted in words. -/
structure Graph.Fits (g : Graph) : Prop where
  passes : g.passes.length ≤ 2 ^ 64
  parameters : g.parameters.length ≤ 2 ^ 64
  luts : g.luts.length ≤ 2 ^ 64

variable {g : Graph} {name : String} {r : TextureRef} {n : ℕ}

theorem TextureSemantic.number?_lt {s : TextureSemantic} {rest : List Char}
    (h : s.number? rest = some n) : n < 2 ^ 64 := by
  rw [number?] at h
  split at h
  · obtain ⟨w, -, rfl⟩ := Option.map_eq_some_iff.1 h
    exact w.toNat_lt
  · split at h
    · cases h
      decide
    · cases h

namespace SymbolTable

theorem positional?_lt {between : String} (h : positional? between name = some r) :
    r.index < 2 ^ 64 := by
  obtain ⟨s, -, hs⟩ := List.exists_of_findSome?_eq_some h
  obtain ⟨n, hn, rfl⟩ := Option.map_eq_some_iff.1 hs
  obtain ⟨rest, -, hnumber⟩ := Option.bind_eq_some_iff.1 hn
  exact TextureSemantic.number?_lt hnumber

theorem given?_lt (hg : g.IsNumbered) (hfits : g.Fits) (h : (ofGraph g).given? name = some r) :
    r.index < 2 ^ 64 := by
  rcases List.mem_append.1 (mem_of_lastGiven? h) with hpass | hlut
  · obtain ⟨p, hp, hname⟩ := List.mem_flatMap.1 hpass
    obtain ⟨i, hi⟩ := List.mem_iff_getElem?.1 hp
    have hlt : p.preset.index < 2 ^ 64 := by
      rw [hg.index_pass i p hi]
      exact (List.getElem?_eq_some_iff.1 hi).1.trans_le hfits.passes
    rw [passNames] at hname
    split at hname
    · cases hname
    · rcases List.mem_pair.1 hname with heq | heq <;> cases heq <;> exact hlt
  · obtain ⟨⟨l, i⟩, hl, heq⟩ := List.mem_map.1 hlut
    cases heq
    exact (List.snd_lt_of_mem_zipIdx hl).trans_le (by simpa using hfits.luts)

theorem texture?_lt (hg : g.IsNumbered) (hfits : g.Fits)
    (h : (ofGraph g).texture? name = some r) : r.index < 2 ^ 64 := by
  rcases Option.or_eq_some_iff.1 h with hgiven | ⟨-, hpositional⟩
  · exact given?_lt hg hfits hgiven
  · exact positional?_lt hpositional

/-- A name that stands for the size of a texture is one of a sized texture. -/
theorem sizedTexture?_of_uniform? {t : SymbolTable}
    (h : t.uniform? name = some (.textureSize r)) : t.sizedTexture? name = some r := by
  simp only [uniform?, Option.or_eq_some_iff, Option.map_eq_some_iff] at h
  rcases h with ⟨s, -, heq⟩ | ⟨-, ⟨i, -, heq⟩ | ⟨-, r', hr', heq⟩⟩ <;> cases heq
  exact hr'

theorem uniform?_lt (hg : g.IsNumbered) (hfits : g.Fits) {role : UniformRole}
    (h : (ofGraph g).uniform? name = some role) : ∀ i ∈ role.indices, i < 2 ^ 64 := by
  cases role with
  | global s => simp [UniformRole.indices]
  | parameter i => simpa [UniformRole.indices] using (parameter_lt hg h).trans_le hfits.parameters
  | textureSize r =>
      simp only [UniformRole.indices, List.mem_singleton, forall_eq]
      rcases Option.or_eq_some_iff.1 (sizedTexture?_of_uniform? h) with
        hgiven | ⟨-, hpositional⟩
      · obtain ⟨base, -, hbase⟩ := Option.bind_eq_some_iff.1 hgiven
        exact given?_lt hg hfits hbase
      · exact positional?_lt hpositional

end SymbolTable

namespace Binder

variable {b : Binder} {pass : ℕ} {kind : BufferKind} {vertex fragment : StageReflection}
  {l : BufferLayout} {settings : Preset.Pass} {textures found : List TextureSlot} {t : TextureSlot}
  {xs : List Resource} {maxBindings : UInt32}

/-- The mask of a layout names stages only. -/
theorem otherBits_layout (h : b.layout pass kind vertex fragment = .ok l) :
    l.stages.otherBits = 0 := by
  have hmask : ∀ v f : Bool, ((if v then StageMask.ofStage .vertex else .empty).union
      (if f then StageMask.ofStage .fragment else .empty)).otherBits = 0 := by decide
  rw [layout] at h
  obtain ⟨vertexBuffer, -, h⟩ := Success.bind_iff.1 h
  obtain ⟨fragmentBuffer, -, h⟩ := Success.bind_iff.1 h
  obtain ⟨slots, -, rfl⟩ := Success.map_iff.1 h
  exact hmask vertexBuffer.isSome fragmentBuffer.isSome

/-- Every texture slot behind the first ones is of a texture that some name stands for. -/
theorem exists_texture?_of_mem_textureSlots
    (h : b.textureSlots pass settings textures xs = .ok found) (ht : t ∈ found) :
    t ∈ textures ∨ ∃ name, b.symbols.texture? name = some t.reference := by
  induction xs generalizing textures with
  | nil =>
      cases h
      exact Or.inl ht
  | cons x xs ih =>
      rw [textureSlots] at h
      split at h
      · exact ih h
      · obtain ⟨slot, hslot, hrest⟩ := Success.bind_iff.1 h
        rcases ih hrest with hmem | hname
        · rcases List.mem_append.1 hmem with hold | hnew
          · exact Or.inl hold
          · cases List.mem_singleton.1 hnew
            refine Or.inr ⟨x.name, ?_⟩
            rw [textureSlot] at hslot
            obtain ⟨-, hslot⟩ := Success.unless_iff.1 hslot
            obtain ⟨-, hslot⟩ := Success.unless_iff.1 hslot
            obtain ⟨-, hslot⟩ := Success.unless_iff.1 hslot
            split at hslot
            · cases hslot
            · next r hr =>
                obtain ⟨_, -, hslot⟩ := Success.bind_iff.1 hslot
                cases hslot
                exact hr
        · exact Or.inr hname

/-- Whatever a bound pass refers to, some name stands for. -/
theorem exists_name_of_bind {p : PassBindings} (h : b.bind pass vertex fragment = .ok p) :
    (∀ l ∈ [p.uniformBuffer, p.pushConstant], ∀ slot ∈ l.slots,
        ∃ name, b.symbols.uniform? name = some slot.role) ∧
      ∀ t ∈ p.textures, ∃ name, b.symbols.texture? name = some t.reference := by
  obtain ⟨_, -, -, huniform, hpush, htextures⟩ := bind_eq_ok_iff.1 h
  have hlayout {kind : BufferKind} {l : BufferLayout}
      (hl : b.layout pass kind vertex fragment = .ok l) :
      ∀ slot ∈ l.slots, ∃ name, b.symbols.uniform? name = some slot.role := by
    intro slot hslot
    obtain ⟨m, hrole⟩ := exists_role_of_mem_layout hl hslot
    exact ⟨m.name, (role_ok hrole).1⟩
  constructor
  · exact List.forall_mem_cons.2 ⟨hlayout huniform, List.forall_mem_singleton.2 (hlayout hpush)⟩
  · intro t ht
    exact (exists_texture?_of_mem_textureSlots htextures ht).resolve_left (by simp)

theorem fits_bind {p : PassBindings} (hg : g.IsNumbered) (hfits : g.Fits)
    (h : (ofGraph g maxBindings).bind pass vertex fragment = .ok p) :
    (∀ l ∈ [p.uniformBuffer, p.pushConstant],
        l.stages.otherBits = 0 ∧ ∀ i ∈ l.slots.flatMap (·.role.indices), i < 2 ^ 64) ∧
      ∀ t ∈ p.textures, t.index < 2 ^ 64 := by
  obtain ⟨_, -, -, huniform, hpush, -⟩ := bind_eq_ok_iff.1 h
  obtain ⟨hroles, htextures⟩ := exists_name_of_bind h
  have hmasks : ∀ l ∈ [p.uniformBuffer, p.pushConstant], l.stages.otherBits = 0 :=
    List.forall_mem_cons.2
      ⟨otherBits_layout huniform, List.forall_mem_singleton.2 (otherBits_layout hpush)⟩
  refine ⟨fun l hl => ⟨hmasks l hl, fun i hi => ?_⟩, fun t ht => ?_⟩
  · obtain ⟨slot, hslot, hi⟩ := List.mem_flatMap.1 hi
    obtain ⟨name, hname⟩ := hroles l hl slot hslot
    exact SymbolTable.uniform?_lt hg hfits hname i hi
  · obtain ⟨name, hname⟩ := htextures t ht
    exact SymbolTable.texture?_lt hg hfits hname

end Binder

end ShaderChain
