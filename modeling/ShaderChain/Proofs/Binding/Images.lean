import ShaderChain.Proofs.Binding.OffsetTable

/-!
# Slots of sampled images

The texture slots of a pass are those of the sampled images with a binding, in order. A slot of
a lookup texture is read as that texture asks for, and looking it up needs a number in range.
`bindStrictly` is the binder with a lookup that may fail, and has the same outcomes as `bind`:
a number that no lookup texture has is refused before it is looked up.
-/

namespace ShaderChain

/-- Whether a slot is the one of an image, for a pass with the given settings. -/
structure TextureSlot.IsOf (t : TextureSlot) (x : Resource) (g : Graph) (settings : Preset.Pass) :
    Prop where
  name_eq : t.name = x.name
  binding_eq : x.binding = some t.binding
  texture?_eq : (SymbolTable.ofGraph g).texture? x.name = some t.reference
  sampling_user : t.semantic = .user → ∃ lut, g.luts[t.index]? = some lut ∧
    t.wrapMode = lut.wrapMode ∧ t.filter = lut.filter
  sampling_other : t.semantic ≠ .user →
    t.wrapMode = settings.wrapMode ∧ t.filter = settings.filter

/-- How binding may end early: it is refused, or the lookup texture of a number is asked for
and is not there. -/
inductive BindFault where
  | refused (error : BindError)
  | noLut (index : Nat)
  deriving DecidableEq, Repr

namespace Binder

/-- The texture of a sampled image with the given binding, if it may have a slot behind those
of the images before it. -/
def imageReference (b : Binder) (pass : Nat) (slots : List TextureSlot) (x : Resource)
    (binding : UInt32) : Except BindError TextureRef := do
  if x.set ≠ 0 then throw (.invalidDescriptorSet x.name x.set)
  if b.maxBindings ≤ binding then throw (.bindingOutOfRange x.name binding b.maxBindings)
  if slots.any (·.binding == binding) then throw (.duplicateBinding x.name binding)
  match b.symbols.texture? x.name with
  | none => throw (.unknownTexture x.name)
  | some r =>
      b.checkReference pass x.name r
      return r

/-- How a texture is read, where a lookup texture has to be there. -/
def samplingStrictly (b : Binder) (settings : Preset.Pass) (r : TextureRef) :
    Except BindFault (WrapMode × FilterMode) :=
  match r.semantic with
  | .user =>
      match b.graph.luts[r.index]? with
      | some lut => .ok (lut.wrapMode, lut.filter)
      | none => .error (.noLut r.index)
  | _ => .ok (settings.wrapMode, settings.filter)

/-- The slot of an image with the texture and the way of reading that are found for it. -/
def slotOf (x : Resource) (binding : UInt32) (r : TextureRef) (s : WrapMode × FilterMode) :
    TextureSlot :=
  ⟨r.semantic, r.index, binding, s.1, s.2, x.name⟩

def textureSlotsStrictly (b : Binder) (pass : Nat) (settings : Preset.Pass) :
    List TextureSlot → List Resource → Except BindFault (List TextureSlot)
  | slots, [] => .ok slots
  | slots, x :: xs =>
      match x.binding with
      | none => b.textureSlotsStrictly pass settings slots xs
      | some binding => do
          let r ← (b.imageReference pass slots x binding).mapError .refused
          let s ← b.samplingStrictly settings r
          b.textureSlotsStrictly pass settings (slots ++ [slotOf x binding r s]) xs

def bindStrictly (b : Binder) (pass : Nat) (vertex fragment : StageReflection) :
    Except BindFault PassBindings := do
  match b.graph.passes[pass]? with
  | none => throw (.refused (.unknownPass pass b.graph.passes.length))
  | some p =>
      (checkShape vertex fragment).mapError .refused
      let uniformBuffer ← (b.layout pass .uniformBuffer vertex fragment).mapError .refused
      let pushConstant ← (b.layout pass .pushConstant vertex fragment).mapError .refused
      let textures ←
        b.textureSlotsStrictly pass p.preset [] (fragment.resourcesOf .sampledImage)
      return { uniformBuffer, pushConstant, textures }

variable {b : Binder} {g : Graph} {maxBindings : UInt32} {pass : Nat} {settings : Preset.Pass}
  {slots found : List TextureSlot} {x : Resource} {xs : List Resource} {binding : UInt32}
  {r : TextureRef}

/-- The slot of an image is made of the texture that is found for it, and of how that is read. -/
theorem textureSlot_eq (b : Binder) (pass : Nat) (settings : Preset.Pass)
    (slots : List TextureSlot) (x : Resource) (binding : UInt32) :
    b.textureSlot pass settings slots x binding =
      (b.imageReference pass slots x binding).map fun r =>
        slotOf x binding r (b.sampling settings r) := by
  unfold textureSlot imageReference
  refine Success.map_unless (Success.map_unless (Success.map_unless ?_))
  cases b.symbols.texture? x.name with
  | none => rfl
  | some r =>
      dsimp only
      cases b.checkReference pass x.name r with
      | error e => rfl
      | ok _ => rfl

theorem imageReference_ok (h : b.imageReference pass slots x binding = .ok r) :
    b.symbols.texture? x.name = some r ∧
      r.IsCausal pass b.graph.passes.length b.graph.luts.length := by
  unfold imageReference at h
  obtain ⟨-, h⟩ := Success.unless_iff.1 h
  obtain ⟨-, h⟩ := Success.unless_iff.1 h
  obtain ⟨-, h⟩ := Success.unless_iff.1 h
  split at h
  · cases h
  · next r' hname =>
      obtain ⟨_, hcheck, h⟩ := Success.bind_iff.1 h
      cases h
      exact ⟨hname, checkReference_eq_ok_iff.1 hcheck⟩

/-- A texture that is there is read in the same way by both. -/
theorem samplingStrictly_eq (settings : Preset.Pass)
    (h : r.IsCausal pass b.graph.passes.length b.graph.luts.length) :
    b.samplingStrictly settings r = .ok (b.sampling settings r) := by
  rcases r with ⟨semantic, index⟩
  cases semantic with
  | user =>
      have hlut := List.getElem?_eq_getElem (h.user rfl)
      dsimp only at hlut
      simp only [samplingStrictly, sampling, hlut]
  | chainInput | source | inputHistory | passOutput | passFeedback => rfl

/-- Looking up may fail, and yet images have the same slots or are refused for the same
reason. -/
theorem textureSlotsStrictly_eq (b : Binder) (pass : Nat) (settings : Preset.Pass)
    (slots : List TextureSlot) (xs : List Resource) :
    b.textureSlotsStrictly pass settings slots xs =
      (b.textureSlots pass settings slots xs).mapError .refused := by
  induction xs generalizing slots with
  | nil => rfl
  | cons x xs ih =>
      rw [textureSlotsStrictly, textureSlots]
      cases hbinding : x.binding with
      | none => exact ih slots
      | some binding =>
          dsimp only
          rw [textureSlot_eq]
          cases href : b.imageReference pass slots x binding with
          | error e => rfl
          | ok r =>
              have hsampling := samplingStrictly_eq settings (imageReference_ok href).2
              change ((b.samplingStrictly settings r).bind fun s => _) = _
              rw [hsampling]
              exact ih _

/-- Looking up may fail, and yet a pass is bound alike or refused for the same reason. -/
theorem bindStrictly_eq (b : Binder) (pass : Nat) (vertex fragment : StageReflection) :
    b.bindStrictly pass vertex fragment = (b.bind pass vertex fragment).mapError .refused := by
  unfold bindStrictly Binder.bind
  cases b.graph.passes[pass]? with
  | none => rfl
  | some p =>
      simp only [textureSlotsStrictly_eq, Success.mapError_bind]
      rfl

/-- The slot that an image gets is its own. -/
theorem isOf_textureSlot {t : TextureSlot}
    (h : (ofGraph g maxBindings).textureSlot pass settings slots x binding = .ok t)
    (hbinding : x.binding = some binding) : t.IsOf x g settings := by
  rw [textureSlot_eq] at h
  obtain ⟨r, href, rfl⟩ := Success.map_iff.1 h
  obtain ⟨hname, hcausal⟩ := imageReference_ok href
  constructor
  · rfl
  · exact hbinding
  · exact hname
  · intro huser
    change r.semantic = .user at huser
    have hlut := List.getElem?_eq_getElem (hcausal.user huser)
    refine ⟨_, hlut, ?_⟩
    simp only [slotOf, sampling, huser, hlut, and_self]
  · intro hother
    change r.semantic ≠ .user at hother
    simp only [slotOf, sampling]
    split
    · next huser _ => exact absurd huser hother
    · exact ⟨rfl, rfl⟩

/-- Behind the slots before them, images have the slots of those with a binding, in order. -/
theorem forall₂_isOf_textureSlots
    (h : (ofGraph g maxBindings).textureSlots pass settings slots xs = .ok found) :
    ∃ new, found = slots ++ new ∧
      List.Forall₂ (fun x t => t.IsOf x g settings) (xs.filter (·.binding.isSome)) new := by
  induction xs generalizing slots with
  | nil =>
      cases h
      exact ⟨[], (List.append_nil _).symm, .nil⟩
  | cons x xs ih =>
      rw [textureSlots] at h
      cases hbinding : x.binding with
      | none =>
          rw [hbinding] at h
          rw [List.filter_cons_of_neg (by simp [hbinding])]
          exact ih h
      | some binding =>
          rw [hbinding] at h
          obtain ⟨t, ht, hrest⟩ := Success.bind_iff.1 h
          obtain ⟨new, rfl, hnew⟩ := ih hrest
          rw [List.filter_cons_of_pos (by simp [hbinding])]
          exact ⟨t :: new, by simp, .cons (isOf_textureSlot ht hbinding) hnew⟩

/-- Binding never looks up a lookup texture that is not there; and a pass that is bound has one
texture slot for each sampled image with a binding, in order. -/
theorem textures_of_bind (g : Graph) (maxBindings : UInt32) (pass : Nat)
    (vertex fragment : StageReflection) :
    (ofGraph g maxBindings).bindStrictly pass vertex fragment =
        ((ofGraph g maxBindings).bind pass vertex fragment).mapError .refused ∧
      ∀ l, (ofGraph g maxBindings).bind pass vertex fragment = .ok l →
        ∃ p, g.passes[pass]? = some p ∧
          List.Forall₂ (fun x t => t.IsOf x g p.preset)
            ((fragment.resourcesOf .sampledImage).filter (·.binding.isSome)) l.textures := by
  refine ⟨bindStrictly_eq _ _ _ _, fun l h => ?_⟩
  obtain ⟨p, hp, -, -, -, htextures⟩ := bind_eq_ok_iff.1 h
  obtain ⟨new, hnew, hslots⟩ := forall₂_isOf_textureSlots htextures
  rw [List.nil_append] at hnew
  subst hnew
  exact ⟨p, hp, hslots⟩

/-- Two passes and two lookup textures of one name. -/
def noiseChain : Graph where
  passes := [plainPass 0 "Blur", plainPass 1 ""]
  luts :=
    [⟨"Noise", .ofString "first.png", .edge, .nearest, false⟩,
      ⟨"Noise", .ofString "second.png", .repeated, .linear, false⟩]
  parameters := []
  groups := []

/-- A fragment stage that knows one of them by their name and one by its number. -/
def noiseFragment : StageReflection :=
  fragmentOf
    [⟨"Noise", .sampledImage, 0, some 3, 0, []⟩, ⟨"Unused", .sampledImage, 1, none, 0, []⟩,
      ⟨"User0", .sampledImage, 0, some 2, 0, []⟩, ⟨"Blur", .sampledImage, 0, some 1, 0, []⟩]

theorem textures_of_bind_noise :
    ∃ l, (ofGraph noiseChain 16).bind 1 (vertexOf []) noiseFragment = .ok l ∧
      l.textures =
        [⟨.user, 1, 3, .repeated, .linear, "Noise"⟩, ⟨.user, 0, 2, .edge, .nearest, "User0"⟩,
          ⟨.passOutput, 0, 1, .border, .linear, "Blur"⟩] ∧
      ∃ p, noiseChain.passes[1]? = some p ∧
        List.Forall₂ (fun x t => TextureSlot.IsOf t x noiseChain p.preset)
          ((noiseFragment.resourcesOf .sampledImage).filter (·.binding.isSome)) l.textures := by
  have h : ((ofGraph noiseChain 16).bind 1 (vertexOf []) noiseFragment).map (·.textures) =
      .ok [⟨.user, 1, 3, .repeated, .linear, "Noise"⟩, ⟨.user, 0, 2, .edge, .nearest, "User0"⟩,
        ⟨.passOutput, 0, 1, .border, .linear, "Blur"⟩] := by
    decide +kernel
  obtain ⟨l, hl, htextures⟩ := Success.map_iff.1 h
  exact ⟨l, hl, htextures, (textures_of_bind _ _ _ _ _).2 l hl⟩

end Binder

end ShaderChain
