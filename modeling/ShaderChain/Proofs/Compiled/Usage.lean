import Mathlib.Data.List.Forall2
import Mathlib.Order.Bounds.Basic
import ShaderChain.Compiled.Usage

/-!
# What the passes of a chain ask to be kept

A walk over the passes takes the maximum of what they ask for and sets a flag for each pass that
one of them samples a frame late. Each texture that is met adds to the one or to the other, and
nothing that has been found is lost, so the depth of the history is the least upper bound of what
the passes ask for, and a flag says that some pass samples another one late. Both depend on which
textures each pass asks for and on nothing else of it: not on the order in which it does, nor on
the flags that it had. A pass that is sampled late and is not there has no flag, so asking for it
changes nothing.
-/

namespace ShaderChain

namespace CompiledPass

variable {p q : CompiledPass} {r : TextureRef} {frames : Nat}

/-- Whether the pass asks for the input so many frames before, be it to sample it or to know its
size. -/
def AsksForInput (p : CompiledPass) (frames : Nat) : Prop :=
  (∃ t ∈ p.textures, t.reference = ⟨.inputHistory, frames⟩) ∨
    ∃ l ∈ p.buffers, ∃ slot ∈ l.slots, slot.role = .textureSize ⟨.inputHistory, frames⟩

/-- Whether the pass samples the output of pass `i` a frame late. -/
def SamplesLate (p : CompiledPass) (i : Nat) : Prop :=
  ∃ t ∈ p.textures, t.reference = ⟨.passFeedback, i⟩

/-- Whether two passes have the same slots and textures, each in an order of its own. -/
structure IsRearranged (p q : CompiledPass) : Prop where
  uniformBuffer : p.uniformBuffer.slots.Perm q.uniformBuffer.slots
  pushConstant : p.pushConstant.slots.Perm q.pushConstant.slots
  textures : p.textures.Perm q.textures

/-- The pass without the textures that are to be the earlier output of a pass which is not among
the first `count`. -/
def withoutMissing (count : Nat) (p : CompiledPass) : CompiledPass :=
  { p with textures := p.textures.filter fun t => t.semantic ≠ .passFeedback ∨ t.index < count }

theorem mem_sizedTextures_iff :
    r ∈ p.sizedTextures ↔ ∃ slot ∈ p.buffers.flatMap (·.slots), slot.role = .textureSize r := by
  unfold sizedTextures
  rw [List.mem_filterMap]
  refine exists_congr fun slot => and_congr_right fun _ => ?_
  cases slot.role <;> simp

theorem samplesLate_iff {i : Nat} : p.SamplesLate i ↔ ⟨.passFeedback, i⟩ ∈ p.sampledTextures :=
  List.mem_map.symm

theorem asksForInput_iff :
    p.AsksForInput frames ↔ ⟨.inputHistory, frames⟩ ∈ p.sizedTextures ++ p.sampledTextures := by
  rw [AsksForInput, List.mem_append, mem_sizedTextures_iff, sampledTextures, List.mem_map, or_comm]
  refine or_congr_left ?_
  simp only [List.mem_flatMap]
  constructor
  · rintro ⟨l, hl, slot, hslot, hrole⟩
    exact ⟨slot, ⟨l, hl, hslot⟩, hrole⟩
  · rintro ⟨slot, ⟨l, hl, hslot⟩, hrole⟩
    exact ⟨l, hl, slot, hslot, hrole⟩

end CompiledPass

variable {passes others : List CompiledPass} {i n : Nat}

/-- Whether some pass samples the output of pass `i` a frame late. -/
def isSampledLate (passes : List CompiledPass) (i : Nat) : Bool :=
  passes.any fun p => p.sampledTextures.contains ⟨.passFeedback, i⟩

/-! ### The walk -/

namespace Usage

variable {u : Usage} {r : TextureRef} {rs : List TextureRef} {p : CompiledPass}

theorem depth_addSized_le_iff :
    (u.addSized r).depth ≤ n ↔ u.depth ≤ n ∧ (r.semantic = .inputHistory → r.index ≤ n) := by
  unfold addSized
  split
  · next h => simp [h]
  · next h => simp [h]

theorem depth_addSampled_le_iff :
    (u.addSampled r).depth ≤ n ↔ u.depth ≤ n ∧ (r.semantic = .inputHistory → r.index ≤ n) := by
  unfold addSampled
  split
  · next h => simp [h]
  · next h => simp [h]
  · next h _ =>
      have hsemantic : ¬ r.semantic = .inputHistory := h
      simp [hsemantic]

/-- If each texture is taken into the depth exactly if it is an earlier input, textures are. -/
theorem depth_foldl_le_iff {add : Usage → TextureRef → Usage}
    (hadd : ∀ {u r}, (add u r).depth ≤ n ↔
      u.depth ≤ n ∧ (r.semantic = .inputHistory → r.index ≤ n)) :
    (rs.foldl add u).depth ≤ n ↔
      u.depth ≤ n ∧ ∀ r ∈ rs, r.semantic = .inputHistory → r.index ≤ n := by
  induction rs generalizing u with
  | nil => simp
  | cons r rs ih => rw [List.foldl_cons, ih, hadd, List.forall_mem_cons, and_assoc]

theorem depth_addPass_le_iff :
    (u.addPass p).depth ≤ n ↔ u.depth ≤ n ∧ ∀ frames, p.AsksForInput frames → frames ≤ n := by
  have hasked : (∀ r ∈ p.sizedTextures ++ p.sampledTextures,
      r.semantic = .inputHistory → r.index ≤ n) ↔ ∀ frames, p.AsksForInput frames → frames ≤ n := by
    simp only [CompiledPass.asksForInput_iff]
    constructor
    · exact fun h frames hframes => h ⟨.inputHistory, frames⟩ hframes rfl
    · rintro h ⟨_, frames⟩ hr rfl
      exact h frames hr
  rw [addPass, depth_foldl_le_iff depth_addSampled_le_iff, depth_foldl_le_iff depth_addSized_le_iff,
    ← hasked, List.forall_mem_append, and_assoc]

theorem depth_foldl_addPass_le_iff :
    (passes.foldl addPass u).depth ≤ n ↔
      u.depth ≤ n ∧ ∀ p ∈ passes, ∀ frames, p.AsksForInput frames → frames ≤ n := by
  induction passes generalizing u with
  | nil => simp
  | cons p passes ih =>
      rw [List.foldl_cons, ih, depth_addPass_le_iff, List.forall_mem_cons, and_assoc]

theorem late_foldl_addSized (rs : List TextureRef) (u : Usage) :
    (rs.foldl addSized u).late = u.late := by
  induction rs generalizing u with
  | nil => rfl
  | cons r rs ih =>
      rw [List.foldl_cons, ih, addSized]
      split <;> rfl

theorem getElem?_late_addSampled (u : Usage) (r : TextureRef) (i : Nat) :
    (u.addSampled r).late[i]? = (u.late[i]?).map (· || ⟨.passFeedback, i⟩ == r) := by
  by_cases hr : r = ⟨.passFeedback, i⟩
  · subst hr
    by_cases hi : i < u.late.length <;> simp [addSampled, hi]
  · have hne : ((⟨.passFeedback, i⟩ : TextureRef) == r) = false := beq_false_of_ne (Ne.symm hr)
    have hsame : (u.addSampled r).late[i]? = u.late[i]? := by
      unfold addSampled
      split
      · rfl
      · next hsemantic =>
          refine List.getElem?_set_ne ?_
          rintro rfl
          exact hr (congrArg (TextureRef.mk · r.index) hsemantic)
      · rfl
    simp [hne, hsame]

theorem getElem?_late_foldl_addSampled (rs : List TextureRef) (u : Usage) (i : Nat) :
    (rs.foldl addSampled u).late[i]? =
      (u.late[i]?).map (· || rs.contains ⟨.passFeedback, i⟩) := by
  induction rs generalizing u with
  | nil => simp
  | cons r rs ih =>
      rw [List.foldl_cons, ih, getElem?_late_addSampled, Option.map_map, List.contains_cons]
      simp only [Function.comp_def, Bool.or_assoc]

/-- The walk sets the flags of the passes that are sampled late, and leaves those that are set. -/
theorem getElem?_late_foldl_addPass (passes : List CompiledPass) (u : Usage) (i : Nat) :
    (passes.foldl addPass u).late[i]? = (u.late[i]?).map (· || isSampledLate passes i) := by
  induction passes generalizing u with
  | nil => simp [isSampledLate]
  | cons p passes ih =>
      rw [List.foldl_cons, ih, addPass, getElem?_late_foldl_addSampled, late_foldl_addSized,
        Option.map_map, isSampledLate, isSampledLate, List.any_cons]
      simp only [Function.comp_def, Bool.or_assoc]

theorem getElem?_late_ofPasses (passes : List CompiledPass) (i : Nat) :
    (ofPasses passes).late[i]? = (passes[i]?).map fun _ => isSampledLate passes i := by
  rw [ofPasses, getElem?_late_foldl_addPass, List.getElem?_replicate]
  by_cases hi : i < passes.length <;> simp [hi]

theorem length_late_ofPasses (passes : List CompiledPass) :
    (ofPasses passes).late.length = passes.length := by
  refine Nat.le_antisymm ?_ ?_
  · rw [← List.getElem?_eq_none_iff, getElem?_late_ofPasses]
    simp
  · rw [← List.getElem?_eq_none_iff, ← Option.map_eq_none_iff,
      ← getElem?_late_ofPasses]
    simp

end Usage

/-- The history is as deep as the passes ask and no deeper. -/
theorem isLUB_historyDepth (passes : List CompiledPass) :
    IsLUB {frames | ∃ p ∈ passes, p.AsksForInput frames} (historyDepth passes) := by
  rw [isLUB_iff_le_iff]
  intro n
  rw [historyDepth, Usage.ofPasses, Usage.depth_foldl_addPass_le_iff, and_iff_right n.zero_le,
    mem_upperBounds]
  exact ⟨fun h frames ⟨p, hp, hasks⟩ => h p hp frames hasks,
    fun h p hp frames hasks => h frames ⟨p, hp, hasks⟩⟩

/-- No pass asks for an input that is older than the history is deep. -/
theorem index_le_historyDepth {p : CompiledPass} {r : TextureRef} (hp : p ∈ passes)
    (hr : r ∈ p.sizedTextures ++ p.sampledTextures) (h : r.semantic = .inputHistory) :
    r.index ≤ historyDepth passes := by
  obtain ⟨semantic, index⟩ := r
  obtain rfl : semantic = .inputHistory := h
  exact (isLUB_historyDepth passes).1 ⟨p, hp, CompiledPass.asksForInput_iff.2 hr⟩

/-- A history is no deeper than some pass asks. -/
theorem exists_asksForInput_historyDepth (h : historyDepth passes ≠ 0) :
    ∃ p ∈ passes, p.AsksForInput (historyDepth passes) := by
  by_contra hnone
  have hle : historyDepth passes ≤ historyDepth passes - 1 := by
    refine (isLUB_historyDepth passes).2 ?_
    rintro frames ⟨p, hp, hasks⟩
    have hne : frames ≠ historyDepth passes := fun heq => hnone ⟨p, hp, heq ▸ hasks⟩
    exact Nat.le_sub_one_of_lt ((isLUB_historyDepth passes).1 ⟨p, hp, hasks⟩ |>.lt_of_ne hne)
  omega

theorem isSampledLate_iff : isSampledLate passes i = true ↔ ∃ p ∈ passes, p.SamplesLate i := by
  simp [isSampledLate, CompiledPass.samplesLate_iff]

/-! ### Flags -/

theorem getElem?_flagFeedback (passes : List CompiledPass) (i : Nat) :
    (flagFeedback passes)[i]? =
      (passes[i]?).map fun p => { p with isFeedback := isSampledLate passes i } := by
  rw [flagFeedback, List.getElem?_zipWith, Usage.getElem?_late_ofPasses]
  cases passes[i]? <;> rfl

@[simp] theorem length_flagFeedback (passes : List CompiledPass) :
    (flagFeedback passes).length = passes.length := by
  rw [flagFeedback, List.length_zipWith, Usage.length_late_ofPasses, Nat.min_self]

/-- The flags change nothing else of the passes. -/
theorem map_flagFeedback {α : Type} {f : CompiledPass → α}
    (hf : ∀ p flag, f { p with isFeedback := flag } = f p) (passes : List CompiledPass) :
    (flagFeedback passes).map f = passes.map f := by
  apply List.ext_getElem?
  intro i
  simp [getElem?_flagFeedback, Option.map_map, Function.comp_def, hf]

theorem flatMap_flagFeedback {α : Type} {f : CompiledPass → List α}
    (hf : ∀ p flag, f { p with isFeedback := flag } = f p) (passes : List CompiledPass) :
    (flagFeedback passes).flatMap f = passes.flatMap f := by
  rw [List.flatMap_def, map_flagFeedback hf, ← List.flatMap_def]

theorem map_isFeedback_flagFeedback (passes : List CompiledPass) :
    (flagFeedback passes).map (·.isFeedback) =
      (List.range passes.length).map (isSampledLate passes) := by
  apply List.ext_getElem?
  intro i
  rw [List.getElem?_map, getElem?_flagFeedback, List.getElem?_map, Option.map_map]
  rcases Nat.lt_or_ge i passes.length with hi | hi
  · simp [hi]
  · simp [hi]

/-- A walk meets the same textures whatever the flags are. -/
theorem Usage.ofPasses_flagFeedback (passes : List CompiledPass) :
    ofPasses (flagFeedback passes) = ofPasses passes := by
  have hwalk (ps : List CompiledPass) (u : Usage) : ps.foldl addPass u =
      (ps.map fun p => (p.sizedTextures, p.sampledTextures)).foldl
        (fun u rs => rs.2.foldl addSampled (rs.1.foldl addSized u)) u := by
    rw [List.foldl_map]
    rfl
  rw [ofPasses, hwalk, map_flagFeedback fun _ _ => rfl, ← hwalk, length_flagFeedback, ofPasses]

theorem historyDepth_flagFeedback (passes : List CompiledPass) :
    historyDepth (flagFeedback passes) = historyDepth passes := by
  rw [historyDepth, Usage.ofPasses_flagFeedback, historyDepth]

theorem isSampledLate_flagFeedback (passes : List CompiledPass) (i : Nat) :
    isSampledLate (flagFeedback passes) i = isSampledLate passes i := by
  have hall (ps : List CompiledPass) : isSampledLate ps i =
      (ps.map (·.sampledTextures)).any (·.contains ⟨.passFeedback, i⟩) := by
    rw [List.any_map]
    rfl
  rw [hall, map_flagFeedback fun _ _ => rfl, ← hall]

/-- Flags that are renewed stay as they are. -/
theorem flagFeedback_flagFeedback (passes : List CompiledPass) :
    flagFeedback (flagFeedback passes) = flagFeedback passes := by
  apply List.ext_getElem?
  intro i
  rw [getElem?_flagFeedback, getElem?_flagFeedback, Option.map_map,
    isSampledLate_flagFeedback]
  rfl

/-! ### Passes that ask for the same -/

/-- Whether two passes of a chain of `count` passes ask for the same earlier inputs and the same
earlier outputs. -/
structure CompiledPass.AsksAlike (count : Nat) (p q : CompiledPass) : Prop where
  asksForInput : ∀ frames, p.AsksForInput frames ↔ q.AsksForInput frames
  samplesLate : ∀ i < count, p.SamplesLate i ↔ q.SamplesLate i

theorem CompiledPass.IsRearranged.asksAlike {p q : CompiledPass} (h : p.IsRearranged q)
    (count : Nat) : p.AsksAlike count q := by
  constructor
  · intro frames
    simp only [AsksForInput, buffers, List.mem_cons, List.not_mem_nil, or_false,
      exists_eq_or_imp, exists_eq_left, h.uniformBuffer.mem_iff, h.pushConstant.mem_iff,
      h.textures.mem_iff]
  · intro i _
    simp only [SamplesLate, h.textures.mem_iff]

theorem CompiledPass.asksAlike_withoutMissing (count : Nat) (p : CompiledPass) :
    p.AsksAlike count (p.withoutMissing count) := by
  constructor
  · intro frames
    refine or_congr_left (exists_congr fun t => ?_)
    simp only [withoutMissing, List.mem_filter, decide_eq_true_eq, and_congr_left_iff]
    intro ht
    have hsemantic : t.semantic = .inputHistory := congrArg TextureRef.semantic ht
    simp [hsemantic]
  · intro i hi
    refine exists_congr fun t => ?_
    simp only [withoutMissing, List.mem_filter, decide_eq_true_eq, and_congr_left_iff]
    intro ht
    have hindex : t.index = i := congrArg TextureRef.index ht
    simp [hindex, hi]

/-- What some pass asks for, some pass of a chain that asks for the same does. -/
theorem exists_mem_iff_of_forall₂ {R : CompiledPass → CompiledPass → Prop}
    {P : CompiledPass → Prop} (hR : ∀ p q, R p q → (P p ↔ P q))
    (h : List.Forall₂ R passes others) : (∃ p ∈ passes, P p) ↔ ∃ q ∈ others, P q := by
  induction h with
  | nil => rfl
  | cons hp _ ih => simp only [List.exists_mem_cons_iff, hR _ _ hp, ih]

/-- Chains whose passes ask for the same keep the same. -/
theorem usage_congr (h : List.Forall₂ (CompiledPass.AsksAlike passes.length) passes others) :
    historyDepth others = historyDepth passes ∧
      (flagFeedback others).map (·.isFeedback) = (flagFeedback passes).map (·.isFeedback) := by
  constructor
  · have hasked : {frames | ∃ p ∈ passes, p.AsksForInput frames} =
        {frames | ∃ p ∈ others, p.AsksForInput frames} :=
      Set.ext fun frames => exists_mem_iff_of_forall₂ (fun _ _ hpq => hpq.asksForInput frames) h
    have hlub := isLUB_historyDepth passes
    rw [hasked] at hlub
    exact (isLUB_historyDepth others).unique hlub
  · rw [map_isFeedback_flagFeedback, map_isFeedback_flagFeedback, ← h.length_eq]
    refine List.map_congr_left fun i hi => ?_
    rw [Bool.eq_iff_iff, isSampledLate_iff, isSampledLate_iff]
    exact (exists_mem_iff_of_forall₂
      (fun p q hpq => hpq.samplesLate i (List.mem_range.1 hi)) h).symm

/-- Whether `depth` and `flagged` are what a chain of the given passes keeps: the depth of its
history, and its passes with their flags. -/
structure IsUsageOf (passes : List CompiledPass) (depth : Nat) (flagged : List CompiledPass) :
    Prop where
  isLUB : IsLUB {frames | ∃ p ∈ passes, p.AsksForInput frames} depth
  length_eq : flagged.length = passes.length
  /-- A pass is flagged exactly if some pass samples it late, and is otherwise as it was. -/
  exists_flag : ∀ (i : Nat) (p : CompiledPass), passes[i]? = some p →
    ∃ flag, flagged[i]? = some { p with isFeedback := flag } ∧
      (flag = true ↔ ∃ q ∈ passes, q.SamplesLate i)

/-- A chain keeps as many inputs as its passes ask for and flags those passes that some pass
samples late. It keeps the same when that has been found out before, whatever the order of the
slots and textures of each pass, and without the textures of passes that are not there. -/
theorem isUsageOf_historyDepth_flagFeedback (passes : List CompiledPass) :
    IsUsageOf passes (historyDepth passes) (flagFeedback passes) ∧
      historyDepth (flagFeedback passes) = historyDepth passes ∧
      flagFeedback (flagFeedback passes) = flagFeedback passes ∧
      ∀ others : List CompiledPass,
        List.Forall₂ CompiledPass.IsRearranged passes others ∨
            others = passes.map (·.withoutMissing passes.length) →
          historyDepth others = historyDepth passes ∧
            (flagFeedback others).map (·.isFeedback) =
              (flagFeedback passes).map (·.isFeedback) := by
  refine ⟨⟨isLUB_historyDepth passes, length_flagFeedback passes, ?_⟩,
    historyDepth_flagFeedback passes, flagFeedback_flagFeedback passes, ?_⟩
  · intro i p hp
    exact ⟨isSampledLate passes i, by rw [getElem?_flagFeedback, hp]; rfl, isSampledLate_iff⟩
  · rintro others (h | rfl)
    · exact usage_congr (h.imp fun _ _ hpq => hpq.asksAlike passes.length)
    · exact usage_congr (List.forall₂_map_right_iff.2
        (List.forall₂_same.2 fun p _ => p.asksAlike_withoutMissing passes.length))

/-- A flagged pass that asks for the size of the input some frames before and samples the earlier
outputs of the given passes. -/
def CompiledPass.trailing (frames : Nat) (late : List Nat) : CompiledPass where
  index := 0
  name := ""
  vertexSource := ""
  fragmentSource := ""
  scale := .unset
  format := .native
  wrapMode := .border
  filter := .unspecified
  frameCountMod := 0
  mipmapInput := false
  isFeedback := true
  uniformBuffer :=
    { BufferLayout.empty .uniformBuffer with
      slots := [⟨.textureSize ⟨.inputHistory, frames⟩, 0, 16, ""⟩] }
  pushConstant := .empty .pushConstant
  textures := late.map fun i => ⟨.passFeedback, i, 0, .border, .unspecified, ""⟩
  sourceHash := 0

/-- Of two passes the second is sampled late, by the first one and by itself. The pass that the
first one samples besides is not there. -/
theorem isUsageOf_trailing :
    IsUsageOf [.trailing 2 [1, 7], .trailing 3 [1]] 3
        [{ CompiledPass.trailing 2 [1, 7] with isFeedback := false }, .trailing 3 [1]] ∧
      historyDepth [.trailing 2 [7, 1], .trailing 3 [1]] = 3 ∧
      (flagFeedback [.trailing 2 [7, 1], .trailing 3 [1]]).map (·.isFeedback) = [false, true] := by
  obtain ⟨husage, -, -, hothers⟩ :=
    isUsageOf_historyDepth_flagFeedback [.trailing 2 [1, 7], .trailing 3 [1]]
  obtain ⟨hdepth, hflags⟩ := hothers [.trailing 2 [7, 1], .trailing 3 [1]] (.inl
    (.cons ⟨.refl _, .refl _, .swap _ _ []⟩ (.cons ⟨.refl _, .refl _, .refl _⟩ .nil)))
  exact ⟨husage, hdepth, hflags⟩

end ShaderChain
