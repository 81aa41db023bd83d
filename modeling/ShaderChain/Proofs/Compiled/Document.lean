import ShaderChain.Compiled.Usage
import ShaderChain.Proofs.FilePath
import ShaderChain.Proofs.Json.Record
import ShaderChain.Proofs.Success

/-!
# Documents of compiled shaders

A compiled shader has a document exactly if the paths of its lookup textures are text, and it is
read back from its document exactly if all its singles are finite: every other field is written so
that it comes back, as long as the stage masks name stages only and the numbers fit their words.
What is read from a document has paths that are text, so there is no other way to write those that
are not.
-/

namespace ShaderChain

/-! ### What a compiled shader holds -/

/-- The numbers of parameters and textures that a role holds. -/
def UniformRole.indices : UniformRole → List ℕ
  | .global _ => []
  | .parameter i => [i]
  | .textureSize r => [r.index]

def Parameter.singles (p : Parameter) : List Single := [p.initial, p.minimum, p.maximum, p.step]

namespace CompiledPass

def singles (p : CompiledPass) : List Single := [p.scale.factor.width, p.scale.factor.height]

def masks (p : CompiledPass) : List StageMask := p.buffers.map (·.stages)

/-- The numbers by which a pass names itself, parameters and textures. -/
def indices (p : CompiledPass) : List ℕ :=
  p.index :: (p.buffers.flatMap fun l => l.slots.flatMap (·.role.indices)) ++
    p.textures.map (·.index)

end CompiledPass

namespace CompiledShader

/-- All singles of a compiled shader. -/
def singles (s : CompiledShader) : List Single :=
  s.passes.flatMap (·.singles) ++ s.parameters.flatMap (·.singles)

/-- All stage masks of a compiled shader. -/
def masks (s : CompiledShader) : List StageMask := s.passes.flatMap (·.masks)

/-- All numbers of a compiled shader that count passes, parameters or textures. In memory each
is a word of 64 bits. -/
def indices (s : CompiledShader) : List ℕ :=
  s.passes.flatMap (·.indices) ++ s.parameters.map (·.index) ++ [s.historyCount]

end CompiledShader

/-- The names of stages are read back. -/
theorem StageMask.ofText?_text {m : StageMask} (h : m.otherBits = 0) : ofText? m.text = some m := by
  obtain ⟨b⟩ := m
  have hlt : b.toNat < 4 := by
    simp only [otherBits] at h
    omega
  have hnames : ∀ n : Fin 4, ofText? (⟨UInt8.ofNat n⟩ : StageMask).text = some ⟨UInt8.ofNat n⟩ := by
    decide
  simpa using hnames ⟨b.toNat, hlt⟩

namespace Document

@[simp] theorem extent?_ofExtent (s : Extent) : extent? (ofExtent s) = some s := by
  rw [extent?, ofExtent, record?_record (by decide) rfl]
  simp

/-- A factor is read back exactly if both of its singles are finite. -/
theorem factor?_ofFactor (s : Size Single) :
    factor? (ofFactor s) = if s.width.isFinite && s.height.isFinite then some s else none := by
  rw [factor?, ofFactor, record?_record (by decide) rfl]
  cases hw : s.width.isFinite <;> cases hh : s.height.isFinite <;>
    simp [Json.single?_ofSingle_eq, hw, hh]

theorem scale?_ofScale (s : Scale) : scale? (ofScale s) =
    if s.factor.width.isFinite && s.factor.height.isFinite then some s else none := by
  rw [scale?, ofScale, record?_record (by decide) rfl]
  cases hfinite : s.factor.width.isFinite && s.factor.height.isFinite <;>
    simp [factor?_ofFactor, hfinite]

theorem reference?_ofReference {r : TextureRef} (h : r.index < 2 ^ 64) :
    reference? (ofReference r) = some r := by
  rw [reference?, ofReference, record?_record (by decide) rfl]
  simp [Json.index?_ofNat h]

theorem role?_ofRole {r : UniformRole} (h : ∀ i ∈ r.indices, i < 2 ^ 64) :
    role? (ofRole r) = some r := by
  cases r with
  | global s => simp [role?, ofRole, record, Json.ofFields, Json.unescape?_escape]
  | parameter i =>
      simp [role?, ofRole, record, Json.ofFields, Json.unescape?_escape,
        Json.index?_ofNat (h i (by simp [UniformRole.indices]))]
  | textureSize r =>
      simp [role?, ofRole, record, Json.ofFields, Json.unescape?_escape,
        reference?_ofReference (h r.index (by simp [UniformRole.indices]))]

theorem slot?_ofSlot {s : UniformSlot} (h : ∀ i ∈ s.role.indices, i < 2 ^ 64) :
    slot? (ofSlot s) = some s := by
  rw [slot?, ofSlot, record?_record (by decide) rfl]
  simp [role?_ofRole h]

theorem binding?_ofOptional (b : Option UInt32) :
    binding? (some (Json.ofOptional Json.ofWord b)) = some b := by
  cases b with
  | none => rfl
  | some w =>
      have hword : (Json.ofWord w).optional? Json.word? = (Json.ofWord w).word?.map some := rfl
      rw [Json.ofOptional, binding?, hword, Json.word?_ofWord, Option.map_some]

theorem buffer?_ofBuffer {l : BufferLayout} (hmask : l.stages.otherBits = 0)
    (h : ∀ i ∈ l.slots.flatMap (·.role.indices), i < 2 ^ 64) :
    buffer? (ofBuffer l) = some l := by
  have hslots : ∀ s ∈ l.slots, slot? (ofSlot s) = some s := fun s hs =>
    slot?_ofSlot fun i hi => h i (List.mem_flatMap.2 ⟨s, hs, hi⟩)
  rw [buffer?, ofBuffer, record?_record (by decide) rfl]
  simp [binding?_ofOptional, StageMask.ofText?_text hmask, Json.list?_map_some hslots]

theorem texture?_ofTexture {t : TextureSlot} (h : t.index < 2 ^ 64) :
    texture? (ofTexture t) = some t := by
  rw [texture?, ofTexture, record?_record (by decide) rfl]
  simp [Json.index?_ofNat h]

@[simp] theorem format?_ofNamed (f : PixelFormat) : format? (Json.ofNamed f) = some f := by
  simp [format?, Json.ofNamed]

/-- A pass is read back exactly if its singles are finite. -/
theorem pass?_ofPass {p : CompiledPass} (hmasks : ∀ m ∈ p.masks, m.otherBits = 0)
    (hindices : ∀ i ∈ p.indices, i < 2 ^ 64) :
    pass? (ofPass p) = if p.singles.all (·.isFinite) then some p else none := by
  have hbuffer : ∀ l ∈ p.buffers, buffer? (ofBuffer l) = some l := fun l hl =>
    buffer?_ofBuffer (hmasks _ (List.mem_map.2 ⟨l, hl, rfl⟩)) fun i hi =>
      hindices i (List.mem_append_left _ (List.mem_cons_of_mem _ (List.mem_flatMap.2 ⟨l, hl, hi⟩)))
  have htextures : ∀ t ∈ p.textures, texture? (ofTexture t) = some t := fun t ht =>
    texture?_ofTexture (hindices _ (List.mem_append_right _ (List.mem_map.2 ⟨t, ht, rfl⟩)))
  have huniform := hbuffer p.uniformBuffer (by simp [CompiledPass.buffers])
  have hpush := hbuffer p.pushConstant (by simp [CompiledPass.buffers])
  have hindex := Json.index?_ofNat (hindices p.index (by simp [CompiledPass.indices]))
  have hsingles : p.singles.all (·.isFinite) =
      (p.scale.factor.width.isFinite && p.scale.factor.height.isFinite) := by
    simp [CompiledPass.singles]
  rw [pass?, ofPass, record?_record (by decide) rfl, hsingles]
  dsimp only [List.map, Option.bind_eq_bind, Option.bind_some]
  rw [hindex, Json.string?_ofString, Json.string?_ofString, Json.string?_ofString, scale?_ofScale,
    format?_ofNamed, Json.named?_ofNamed, Json.named?_ofNamed, Json.word?_ofWord,
    Json.bool?_bool, Json.bool?_bool, huniform, hpush, Json.list?_map_some htextures,
    Json.long?_ofLong]
  cases p.scale.factor.width.isFinite && p.scale.factor.height.isFinite <;> rfl

/-- A parameter is read back exactly if its singles are finite. -/
theorem parameter?_ofParameter {p : Parameter} (h : p.index < 2 ^ 64) :
    parameter? (ofParameter p) = if p.singles.all (·.isFinite) then some p else none := by
  have hsingles : p.singles.all (·.isFinite) = (p.initial.isFinite && (p.minimum.isFinite &&
      (p.maximum.isFinite && p.step.isFinite))) := by
    simp [Parameter.singles]
  rw [parameter?, ofParameter, record?_record (by decide) rfl, hsingles]
  dsimp only [List.map, Option.bind_eq_bind, Option.bind_some]
  rw [Json.index?_ofNat h, Json.string?_ofString, Json.string?_ofString, Json.string?_ofString,
    Json.single?_ofSingle_eq, Json.single?_ofSingle_eq, Json.single?_ofSingle_eq,
    Json.single?_ofSingle_eq]
  cases p.initial.isFinite <;> cases p.minimum.isFinite <;> cases p.maximum.isFinite <;>
    cases p.step.isFinite <;> rfl

@[simp] theorem group?_ofGroup (g : ParameterGroup) : group? (ofGroup g) = some g := by
  rw [group?, ofGroup, record?_record (by decide) rfl]
  simp [Json.list?_map_some fun k _ => Json.string?_ofString k]

theorem lut?_of_ofLut? {l : Lut} {j : Json} (h : ofLut? l = some j) : lut? j = some l := by
  obtain ⟨path, hpath, rfl⟩ := Option.map_eq_some_iff.1 h
  rw [lut?, record?_record (by decide) rfl]
  simp [← FilePath.text?_eq_some_iff.1 hpath]

theorem list?_lut?_of_mapM {ls : List Lut} {js : List Json} (h : ls.mapM ofLut? = some js) :
    Json.list? lut? (.array js) = some ls := by
  rw [Success.mapM_eq_some_iff] at h
  exact Success.mapM_eq_some_iff.2 (h.flip.imp fun _ _ => lut?_of_ofLut?)

/-- A compiled shader is read back exactly if all its singles are finite. -/
theorem shader?_of_ofShader? {s : CompiledShader} {j : Json} (h : ofShader? s = some j)
    (hmasks : ∀ m ∈ s.masks, m.otherBits = 0) (hindices : ∀ i ∈ s.indices, i < 2 ^ 64) :
    shader? j = if s.singles.all (·.isFinite) then some s else none := by
  obtain ⟨luts, hmapM, rfl⟩ := Option.map_eq_some_iff.1 h
  have hpasses := Json.list?_map fun p hp => pass?_ofPass (p := p)
    (fun m hm => hmasks m (List.mem_flatMap.2 ⟨p, hp, hm⟩))
    (fun i hi => hindices i (by
      simp only [CompiledShader.indices, List.mem_append, List.mem_flatMap]
      exact Or.inl (Or.inl ⟨p, hp, hi⟩)))
  have hparameters := Json.list?_map fun p hp => parameter?_ofParameter (p := p)
    (hindices p.index (by
      simp only [CompiledShader.indices, List.mem_append, List.mem_map]
      exact Or.inl (Or.inr ⟨p, hp, rfl⟩)))
  have hgroups := Json.list?_map_some fun g (_ : g ∈ s.parameterGroups) => group?_ofGroup g
  have hluts := list?_lut?_of_mapM hmapM
  have hhistory := Json.index?_ofNat (hindices s.historyCount (by simp [CompiledShader.indices]))
  have hsingles : s.singles.all (·.isFinite) =
      ((s.passes.all fun p => p.singles.all (·.isFinite)) &&
        s.parameters.all fun p => p.singles.all (·.isFinite)) := by
    simp [CompiledShader.singles]
  rw [shader?, record?_record (by decide) rfl, hsingles]
  dsimp only [List.map, Option.bind_eq_bind, Option.bind_some]
  rw [hpasses, hparameters, hgroups, hluts, hhistory]
  cases s.passes.all fun p => p.singles.all (·.isFinite) <;>
    cases s.parameters.all fun p => p.singles.all (·.isFinite) <;> rfl

/-! ### Paths are text -/

theorem exists_ofLut?_iff {l : Lut} : (∃ j, ofLut? l = some j) ↔ l.path.IsText := by
  rw [FilePath.isText_iff, ofLut?]
  cases l.path.text? <;> simp

theorem exists_ofShader?_iff {s : CompiledShader} :
    (∃ j, ofShader? s = some j) ↔ ∀ l ∈ s.luts, l.path.IsText := by
  simp only [← exists_ofLut?_iff, ← Success.exists_mapM_eq_some_iff, ofShader?]
  cases s.luts.mapM ofLut? <;> simp

theorem isText_of_lut? {l : Lut} {j : Json} (h : lut? j = some l) : l.path.IsText := by
  obtain ⟨values, -, h⟩ := Option.bind_eq_some_iff.1 h
  split at h
  · simp only [Option.bind_eq_bind, Option.bind_eq_some_iff] at h
    obtain ⟨_, -, path, -, _, -, _, -, _, -, hl⟩ := h
    cases hl
    exact FilePath.isText_ofString path
  · cases h

theorem isText_of_shader? {s : CompiledShader} {j : Json} (h : shader? j = some s) :
    ∀ l ∈ s.luts, l.path.IsText := by
  obtain ⟨values, -, h⟩ := Option.bind_eq_some_iff.1 h
  split at h
  · next luts _ =>
      simp only [Option.bind_eq_bind, Option.bind_eq_some_iff] at h
      obtain ⟨_, -, _, -, _, -, ls, hluts, _, -, hs⟩ := h
      cases hs
      cases luts with
      | array items =>
          intro l hl
          have hitems := (Success.mapM_eq_some_iff.1 hluts).flip
          obtain ⟨k, hk, rfl⟩ := List.mem_iff_getElem.1 hl
          exact isText_of_lut? (hitems.get hk (hitems.length_eq ▸ hk))
      | _ => cases hluts
  · cases h

/-! ### Every document is written -/

theorem isWritten_ofReference (r : TextureRef) : (ofReference r).IsWritten :=
  isWritten_record (by simp [Json.isWritten_ofNat])

theorem isWritten_ofRole (r : UniformRole) : (ofRole r).IsWritten := by
  cases r <;> exact isWritten_record (by simp [Json.isWritten_ofNat, isWritten_ofReference])

theorem isWritten_ofSlot (s : UniformSlot) : (ofSlot s).IsWritten :=
  isWritten_record (by simp [isWritten_ofRole])

theorem isWritten_ofBuffer (l : BufferLayout) : (ofBuffer l).IsWritten :=
  isWritten_record (by
    simp [Json.isWritten_ofOptional Json.isWritten_ofWord, Json.isWritten_map isWritten_ofSlot])

theorem isWritten_ofTexture (t : TextureSlot) : (ofTexture t).IsWritten :=
  isWritten_record (by simp [Json.isWritten_ofNat])

theorem isWritten_ofScale (s : Scale) : (ofScale s).IsWritten := by
  have hfactor : (ofFactor s.factor).IsWritten := isWritten_record (by simp)
  have hextent : (ofExtent s.absolute).IsWritten := isWritten_record (by simp)
  exact isWritten_record (by simp [hfactor, hextent])

theorem isWritten_ofPass (p : CompiledPass) : (ofPass p).IsWritten :=
  isWritten_record (by
    simp [Json.isWritten_ofNat, Json.IsWritten.bool, isWritten_ofScale, isWritten_ofBuffer,
      Json.isWritten_map isWritten_ofTexture])

theorem isWritten_ofParameter (p : Parameter) : (ofParameter p).IsWritten :=
  isWritten_record (by simp [Json.isWritten_ofNat])

theorem isWritten_ofGroup (g : ParameterGroup) : (ofGroup g).IsWritten :=
  isWritten_record (by simp [Json.isWritten_map Json.isWritten_ofString])

theorem isWritten_of_ofLut? {l : Lut} {j : Json} (h : ofLut? l = some j) : j.IsWritten := by
  obtain ⟨path, -, rfl⟩ := Option.map_eq_some_iff.1 h
  exact isWritten_record (by simp [Json.IsWritten.bool])

theorem isWritten_of_ofShader? {s : CompiledShader} {j : Json} (h : ofShader? s = some j) :
    j.IsWritten := by
  obtain ⟨luts, hmapM, rfl⟩ := Option.map_eq_some_iff.1 h
  have hluts : (Json.array luts).IsWritten := .array fun j hj => by
    have hmapM := Success.mapM_eq_some_iff.1 hmapM
    obtain ⟨k, hk, rfl⟩ := List.mem_iff_getElem.1 hj
    exact isWritten_of_ofLut? (hmapM.get (hmapM.length_eq ▸ hk) hk)
  exact isWritten_record (by
    simp [Json.isWritten_ofNat, Json.isWritten_map isWritten_ofPass,
      Json.isWritten_map isWritten_ofParameter, Json.isWritten_map isWritten_ofGroup, hluts])

end Document

namespace CompiledShader

variable {s : CompiledShader} {document : String} {e : CompileError}

theorem toJson_eq_ok_iff :
    s.toJson = .ok document ↔ ∃ j, Document.ofShader? s = some j ∧ j.write = document := by
  unfold toJson
  cases Document.ofShader? s <;> simp

theorem ofJson_eq_ok_iff :
    ofJson document = .ok s ↔ ∃ j, Json.read? document = some j ∧ Document.shader? j = some s := by
  rw [← Option.bind_eq_some_iff]
  unfold ofJson
  cases (Json.read? document).bind Document.shader? <;> simp

theorem exists_toJson_iff : (∃ document, s.toJson = .ok document) ↔ ∀ l ∈ s.luts, l.path.IsText := by
  rw [← Document.exists_ofShader?_iff]
  simp [toJson_eq_ok_iff, exists_comm]

/-- A compiled shader with a path that is no text is refused. -/
theorem toJson_eq_error_iff :
    s.toJson = .error e ↔ e = .document ∧ ∃ l ∈ s.luts, ¬ l.path.IsText := by
  have hnone : Document.ofShader? s = none ↔ ∃ l ∈ s.luts, ¬ l.path.IsText := by
    rw [Option.eq_none_iff_forall_ne_some, ← not_exists, Document.exists_ofShader?_iff]
    simp
  rw [← hnone]
  unfold toJson
  cases Document.ofShader? s <;> simp [eq_comm]

theorem isText_of_ofJson (h : ofJson document = .ok s) : ∀ l ∈ s.luts, l.path.IsText := by
  obtain ⟨j, -, hshader⟩ := ofJson_eq_ok_iff.1 h
  exact Document.isText_of_shader? hshader

/-- The document of a compiled shader is accepted exactly if all singles of it are finite, and
then the compiled shader comes back. -/
theorem ofJson_of_toJson (h : s.toJson = .ok document) (hmasks : ∀ m ∈ s.masks, m.otherBits = 0)
    (hindices : ∀ i ∈ s.indices, i < 2 ^ 64) :
    ofJson document = if s.singles.all (·.isFinite) then .ok s else .error .document := by
  obtain ⟨j, hj, rfl⟩ := toJson_eq_ok_iff.1 h
  rw [ofJson, Json.read?_write (Document.isWritten_of_ofShader? hj), Option.bind_some,
    Document.shader?_of_ofShader? hj hmasks hindices]
  cases s.singles.all (·.isFinite) <;> rfl

/-- Documents are lossless: a compiled shader with finite singles, masks of stages and paths that
are text comes back from its document as it was. With another path it has no document, and no
document gives it. -/
theorem ofJson_toJson (s : CompiledShader) (hsingles : ∀ x ∈ s.singles, x.isFinite = true)
    (hmasks : ∀ m ∈ s.masks, m.otherBits = 0) (hindices : ∀ i ∈ s.indices, i < 2 ^ 64) :
    ((∀ l ∈ s.luts, l.path.IsText) →
        ∃ document, s.toJson = .ok document ∧ ofJson document = .ok s) ∧
      ((∃ l ∈ s.luts, ¬ l.path.IsText) →
        s.toJson = .error .document ∧ ∀ document, ofJson document ≠ .ok s) := by
  constructor
  · intro htext
    obtain ⟨document, hdocument⟩ := exists_toJson_iff.2 htext
    refine ⟨document, hdocument, ?_⟩
    rw [ofJson_of_toJson hdocument hmasks hindices, if_pos (List.all_eq_true.2 hsingles)]
  · rintro ⟨l, hl, htext⟩
    refine ⟨toJson_eq_error_iff.2 ⟨rfl, l, hl, htext⟩, fun document hread => ?_⟩
    exact htext (isText_of_ofJson hread l hl)

/-- A compiled shader with the ends of the number ranges and a name that has to be escaped. -/
def extremes : CompiledShader :=
  { passes :=
      [{ index := 0, name := "\"a\\\n\x01é", vertexSource := "", fragmentSource := "\t"
         scale := ⟨.source, .absolute, ⟨.one, .zero true⟩, ⟨0, 0xFFFFFFFF⟩⟩
         format := .native, wrapMode := .border, filter := .unspecified
         frameCountMod := 0xFFFFFFFF, mipmapInput := true, isFeedback := false
         uniformBuffer :=
           { kind := .uniformBuffer, vertexBinding := some 0, fragmentBinding := none
             stages := .ofStage .vertex, size := 0xFFFFFFFFFFFFFFFF
             slots := [⟨.textureSize ⟨.inputHistory, 0xFFFFFFFFFFFFFFFF⟩, 0, 16, ""⟩] }
         pushConstant := .empty .pushConstant
         textures := [⟨.source, 0, 2, .edge, .linear, "Source"⟩]
         sourceHash := 0xFFFFFFFFFFFFFFFF }]
    parameters := [⟨0, "GAMMA", "", .tenth, .zero true, ⟨0x7F7FFFFF⟩, ⟨1⟩, "main"⟩]
    parameterGroups := [⟨"main", "Main", ["GAMMA"]⟩]
    luts := [⟨"noise", .ofString "noise.png", .repeated, .nearest, false⟩]
    historyCount := 0xFFFFFFFFFFFFFFFF }

theorem ofJson_toJson_extremes :
    ∃ document, extremes.toJson = .ok document ∧ ofJson document = .ok extremes := by
  have htext : ∀ l ∈ extremes.luts, l.path.IsText :=
    List.forall_mem_singleton.2 (FilePath.isText_ofString "noise.png")
  exact (ofJson_toJson extremes (by decide) (by decide) (by decide)).1 htext

/-- The same with its lookup texture in a directory whose name is no text. -/
def undecodable : CompiledShader :=
  { extremes with
    luts := [⟨"noise", .join ⟨[0xFF]⟩ (.ofString "noise.png"), .repeated, .nearest, false⟩] }

/-- A document with half of a pair of escapes in the place of the byte that is no text. -/
def halfEscaped : String :=
  "[[], [], [], [[\"noise\", \"\\udcff/noise.png\", \"repeat\", \"nearest\", false]], 0]"

/-- Its path has no text to be written as, and it is not read back from half of an escape either. -/
theorem not_ofJson_toJson_undecodable :
    (∀ x ∈ undecodable.singles, x.isFinite = true) ∧ (∀ m ∈ undecodable.masks, m.otherBits = 0) ∧
      (∀ i ∈ undecodable.indices, i < 2 ^ 64) ∧ undecodable.toJson = .error .document ∧
      ofJson halfEscaped = .error .document ∧
      ¬ ∃ document, undecodable.toJson = .ok document ∧ ofJson document = .ok undecodable := by
  have hrefused : undecodable.toJson = .error .document := by decide +kernel
  refine ⟨by decide, by decide, by decide, hrefused, by decide +kernel, ?_⟩
  rintro ⟨document, hdocument, -⟩
  cases hrefused.symm.trans hdocument

end CompiledShader

end ShaderChain
