import ShaderChain.Proofs.Binding.Fits
import ShaderChain.Proofs.Compiler.WellFormed
import ShaderChain.Proofs.Source.Written

/-!
# Which compiled shaders can be persisted

The singles of a compiled shader are those of its preset's passes and of the declarations of its
sources, and nothing is checked of them on the way. The paths of its lookup textures are text, as
its preset is, so that it has a document, and the document is accepted exactly if all of the
singles are finite. A factor or a parameter may be written as `inf` or `nan`, or run over; and a
step that is not given runs over with the range that it is a tenth of.
-/

namespace ShaderChain

/-- The factors of the scaling rules of a pass. -/
def Preset.Pass.singles (p : Preset.Pass) : List Single := [p.scale.factor.width, p.scale.factor.height]

/-- The singles that a declaration gives to its parameter, the preset's value coming before its
initial one. -/
def Declaration.singles (overrides : List Preset.Override) (d : Declaration) : List Single :=
  [Graph.initialValue overrides d, d.minimum, d.maximum, d.step]

/-! ### Default steps -/

/-- A tenth of a single is finite exactly if the single is. -/
theorem Single.isFinite_tenth_mul (x : Single) : (tenth * x).isFinite = x.isFinite := by
  have hmul : tenth * x = mul tenth x := rfl
  have htenth : tenth.isNaN = false ∧ tenth.isInfinite = false ∧ tenth.isZero = false := by decide
  obtain ⟨hnan, hinfinite, hzero⟩ := htenth
  rw [hmul, mul, hnan, hinfinite, hzero]
  rcases Nat.lt_trichotomy x.code infinityCode with hlt | heq | hgt
  · have hfin : x.isFinite = true := decide_eq_true hlt
    have hxnan : x.isNaN = false := decide_eq_false (by omega)
    have hxinfinite : x.isInfinite = false := beq_false_of_ne hlt.ne
    have hquotient : tenth.quanta * x.quanta / quantaPerOne < 2 ^ 24 * 2 ^ 250 := by
      refine Nat.div_lt_of_lt_mul ?_
      calc
        tenth.quanta * x.quanta < 2 ^ 146 * (2 ^ 128 * quantaPerOne) :=
          Nat.mul_lt_mul'' (by decide) (quanta_lt hfin)
        _ = quantaPerOne * (2 ^ 24 * 2 ^ 250) := by
          rw [← Nat.mul_assoc, Nat.mul_comm, show 2 ^ 146 * 2 ^ 128 = 2 ^ 24 * 2 ^ 250 from rfl]
    have hcode := (nearestCode_le_of_lt hquotient).trans_lt (show _ < infinityCode by decide)
    rw [hfin, hxnan, hxinfinite]
    simp [isFinite, ofQuanta, code_ofCode (hcode.trans (by decide)), hcode]
  · have hxnan : x.isNaN = false := decide_eq_false (by omega)
    have hxzero : x.isZero = false := by
      rw [isZero, heq]
      decide
    have hxfin : x.isFinite = false := decide_eq_false (by omega)
    have hxinfinite : x.isInfinite = true := beq_iff_eq.2 heq
    rw [hxnan, hxzero, hxfin, hxinfinite]
    simp [infinity, isFinite, code_ofCode (show infinityCode < 2 ^ 31 by decide)]
  · have hxnan : x.isNaN = true := decide_eq_true hgt
    have hxfin : x.isFinite = false := decide_eq_false (by omega)
    rw [hxnan, hxfin, Bool.or_true, if_pos rfl]
    decide

/-- A step that is not given is finite exactly if the range of the parameter is. -/
theorem Declaration.HasNumbers.isFinite_step {d : Declaration}
    (h : d.HasNumbers [d.initial, d.minimum, d.maximum]) :
    d.step.isFinite = (d.maximum - d.minimum).isFinite := by
  cases h with
  | unstepped hstep => rw [hstep, Single.isFinite_tenth_mul]

/-! ### Declarations -/

section Declarations

variable {a b d : Declaration} {ds rest out : List Declaration} {x y : Single}

theorem Single.isFinite_eq_of_numEq (h : x.numEq y = true) : x.isFinite = y.isFinite := by
  simp only [Single.numEq, Bool.and_eq_true, Bool.or_eq_true, beq_iff_eq] at h
  rcases h.2 with rfl | ⟨hx, hy⟩
  · rfl
  · have hx : x.code = 0 := by simpa [Single.isZero] using hx
    have hy : y.code = 0 := by simpa [Single.isZero] using hy
    rw [Single.isFinite, Single.isFinite, hx, hy]

/-- Declarations that agree give finite singles alike. -/
theorem Declaration.all_singles_eq_of_agrees (overrides : List Preset.Override)
    (h : a.agrees b = true) :
    (a.singles overrides).all (·.isFinite) = (b.singles overrides).all (·.isFinite) := by
  simp only [agrees, Bool.and_eq_true, beq_iff_eq] at h
  obtain ⟨⟨⟨⟨⟨hname, -⟩, hinitial⟩, hminimum⟩, hmaximum⟩, hstep⟩ := h
  have hvalue : (Graph.initialValue overrides a).isFinite =
      (Graph.initialValue overrides b).isFinite := by
    rw [Graph.initialValue, Graph.initialValue, hname]
    split
    · rfl
    · exact Single.isFinite_eq_of_numEq hinitial
  simp only [singles, List.all_cons, List.all_nil, hvalue, Single.isFinite_eq_of_numEq hminimum,
    Single.isFinite_eq_of_numEq hmaximum, Single.isFinite_eq_of_numEq hstep]

/-- What declarations that agree have in common holds of the merged declarations exactly if it
holds of all. -/
theorem Graph.all_mergeDeclarations {p : Declaration → Bool}
    (hp : ∀ a b : Declaration, a.agrees b = true → p a = p b)
    (h : mergeDeclarations ds rest = .ok out) : out.all p = (ds.all p && rest.all p) := by
  induction rest generalizing ds with
  | nil =>
      cases h
      simp
  | cons d rest ih =>
      rw [mergeDeclarations] at h
      split at h
      · cases h
      · next ds' hadd =>
          have hds' : ds'.all p = (ds.all p && p d) := by
            rw [Declaration.add?] at hadd
            split at hadd
            · cases hadd
              simp
            · next first hfirst =>
                split at hadd
                · next hagrees =>
                    cases hadd
                    have hfirst := List.mem_of_find?_eq_some hfirst
                    cases hall : ds.all p with
                    | false => rfl
                    | true => rw [← hp first d hagrees, List.all_eq_true.1 hall first hfirst]; rfl
                · cases hadd
          rw [ih h, hds', List.all_cons, Bool.and_assoc]

end Declarations

/-! ### Passes -/

/-- The number of an input that a pass asks for is among those that it holds. -/
theorem CompiledPass.AsksForInput.mem_indices {p : CompiledPass} {frames : ℕ}
    (h : p.AsksForInput frames) : frames ∈ p.indices := by
  rcases h with ⟨t, ht, hreference⟩ | ⟨l, hl, slot, hslot, hrole⟩
  · have hindex : t.index = frames := congrArg TextureRef.index hreference
    exact List.mem_append_right _ (List.mem_map.2 ⟨t, ht, hindex⟩)
  · have hmem : frames ∈ slot.role.indices := by
      rw [hrole]
      exact List.mem_singleton_self _
    refine List.mem_append_left _ (List.mem_cons_of_mem _ ?_)
    exact List.mem_flatMap.2 ⟨l, hl, List.mem_flatMap.2 ⟨slot, hslot, hmem⟩⟩

/-- No pass asks for an earlier input whose number does not fit a word. -/
theorem historyDepth_lt {passes : List CompiledPass}
    (h : ∀ p ∈ passes, ∀ i ∈ p.indices, i < 2 ^ 64) : historyDepth passes < 2 ^ 64 := by
  apply Nat.lt_of_le_pred (by decide)
  refine (isLUB_historyDepth passes).2 ?_
  rintro frames ⟨p, hp, hasks⟩
  exact Nat.le_pred_of_lt (h p hp frames hasks.mem_indices)

namespace Backend

variable {ι : Type} {b : Backend ι} {config : CompilerConfig} {g : Graph} {s : CompiledShader}
  {p : Graph.Pass} {q : CompiledPass} {maxBindings : UInt32}

theorem singles_compilePass {binder : Binder} (h : b.compilePass binder p = .ok q) :
    q.singles = p.preset.singles := by
  obtain ⟨_, _, _, _, _, -, rfl⟩ := exists_bind_of_compilePass h
  rfl

/-- The numbers of a compiled pass fit their words, and its masks name stages. -/
theorem fits_compilePass (hg : g.IsNumbered) (hfits : g.Fits) (hp : p ∈ g.passes)
    (h : b.compilePass (.ofGraph g maxBindings) p = .ok q) :
    (∀ m ∈ q.masks, m.otherBits = 0) ∧ ∀ i ∈ q.indices, i < 2 ^ 64 := by
  obtain ⟨_, _, _, _, layouts, hlayouts, rfl⟩ := exists_bind_of_compilePass h
  obtain ⟨hbuffers, htextures⟩ := Binder.fits_bind hg hfits hlayouts
  constructor
  · intro m hm
    obtain ⟨l, hl, rfl⟩ := List.mem_map.1 hm
    exact (hbuffers l hl).1
  · intro i hi
    rcases List.mem_append.1 hi with hi | hi
    · rcases List.mem_cons.1 hi with rfl | hi
      · obtain ⟨k, hk⟩ := List.mem_iff_getElem?.1 hp
        rw [assemblePass, hg.index_pass k p hk]
        exact (List.getElem?_eq_some_iff.1 hk).1.trans_le hfits.passes
      · obtain ⟨l, hl, hi⟩ := List.mem_flatMap.1 hi
        exact (hbuffers l hl).2 i hi
    · obtain ⟨t, ht, rfl⟩ := List.mem_map.1 hi
      exact htextures t ht

/-- A graph gives a compiled shader its singles, and nothing is checked of them. -/
theorem singles_compileGraph (h : b.compileGraph config g = .ok s) :
    s.singles = g.passes.flatMap (·.preset.singles) ++ g.parameters.flatMap (·.singles) := by
  rw [compileGraph] at h
  obtain ⟨passes, hpasses, h⟩ := Success.bind_iff.1 h
  cases h
  have hmap : passes.map (·.singles) = g.passes.map (·.preset.singles) := by
    rw [← List.forall₂_eq_eq_eq, List.forall₂_map_left_iff, List.forall₂_map_right_iff]
    exact (Success.mapM_iff.1 hpasses).flip.imp fun q p hq => singles_compilePass hq
  rw [CompiledShader.singles, flatMap_flagFeedback fun _ _ => rfl, List.flatMap_def, hmap,
    ← List.flatMap_def]

theorem fits_compileGraph (hg : g.IsNumbered) (hfits : g.Fits)
    (h : b.compileGraph config g = .ok s) :
    (∀ m ∈ s.masks, m.otherBits = 0) ∧ ∀ i ∈ s.indices, i < 2 ^ 64 := by
  rw [compileGraph] at h
  obtain ⟨passes, hpasses, h⟩ := Success.bind_iff.1 h
  cases h
  have hpass : ∀ q ∈ passes, (∀ m ∈ q.masks, m.otherBits = 0) ∧ ∀ i ∈ q.indices, i < 2 ^ 64 := by
    intro q hq
    obtain ⟨k, hk⟩ := List.mem_iff_getElem?.1 hq
    obtain ⟨p, hp, hcompile⟩ := Success.exists_of_getElem?_mapM hpasses hk
    exact fits_compilePass hg hfits (List.mem_of_getElem? hp) hcompile
  constructor
  · intro m hm
    rw [CompiledShader.masks, flatMap_flagFeedback fun _ _ => rfl] at hm
    obtain ⟨q, hq, hm⟩ := List.mem_flatMap.1 hm
    exact (hpass q hq).1 m hm
  · intro i hi
    rw [CompiledShader.indices, flatMap_flagFeedback fun _ _ => rfl] at hi
    rcases List.mem_append.1 hi with hi | hi
    · rcases List.mem_append.1 hi with hi | hi
      · obtain ⟨q, hq, hi⟩ := List.mem_flatMap.1 hi
        exact (hpass q hq).2 i hi
      · obtain ⟨p, hp, rfl⟩ := List.mem_map.1 hi
        obtain ⟨k, hk⟩ := List.mem_iff_getElem?.1 hp
        rw [hg.index_parameter k p hk]
        exact (List.getElem?_eq_some_iff.1 hk).1.trans_le hfits.parameters
    · cases List.mem_singleton.1 hi
      exact historyDepth_lt fun q hq => (hpass q hq).2

end Backend

/-! ### Presets -/

namespace Graph

variable {m : Preset.Model} {as : List Source.Annotation} {g : Graph}

theorem map_preset_zipWith_passOf {ps : List Preset.Pass} (h : ps.length = as.length) :
    (ps.zipWith passOf as).map (·.preset) = ps := by
  induction ps generalizing as with
  | nil => rfl
  | cons p ps ih =>
      cases as with
      | nil => cases h
      | cons a as => simpa [passOf] using ih (Nat.succ.inj h)

/-- The singles of a graph are those of its preset's passes and of the declarations that are
left when its sources are merged. -/
theorem singles_assemble (h : assemble m as = .ok g) :
    g.passes.flatMap (·.preset.singles) = m.passes.flatMap (·.singles) ∧
      ∃ ds, mergeDeclarations [] (as.flatMap (·.declarations)) = .ok ds ∧
        g.parameters.flatMap (·.singles) = ds.flatMap (·.singles m.overrides) := by
  obtain ⟨hlength, ds, hds, hg⟩ := assemble_eq_ok_iff.1 h
  have hpresets := map_preset_zipWith_passOf hlength
  cases hg
  refine ⟨?_, ds, hds, ?_⟩
  · conv_rhs => rw [← hpresets, List.flatMap_map]
    rfl
  · conv_rhs => rw [← List.zipIdx_map_fst 0 ds, List.flatMap_map]
    rw [ofDeclarations, List.flatMap_map]
    rfl

/-- The parameters of a graph are finite exactly if all declarations of its sources are. -/
theorem all_singles_assemble (h : assemble m as = .ok g) :
    (g.parameters.flatMap (·.singles)).all (·.isFinite) =
      (as.flatMap (·.declarations)).all fun d => (d.singles m.overrides).all (·.isFinite) := by
  obtain ⟨-, ds, hds, hparameters⟩ := singles_assemble h
  have hmerge := all_mergeDeclarations
    (fun _ _ => Declaration.all_singles_eq_of_agrees m.overrides) hds
  rw [hparameters, List.all_flatMap, hmerge]
  rfl

end Graph

theorem Preset.Model.flatMap_singles_inDirectory (m : Model) (base : Option String) :
    (m.inDirectory base).passes.flatMap (·.singles) = m.passes.flatMap (·.singles) := by
  cases base with
  | none => rfl
  | some base => simp [inDirectory, Pass.singles, List.flatMap_map]

theorem Preset.Model.overrides_inDirectory (m : Model) (base : Option String) :
    (m.inDirectory base).overrides = m.overrides := by
  cases base <;> rfl

/-! ### Paths -/

theorem Preset.isText_of_lut? {as : List Assignment} {name : String} {l : Lut}
    (h : lut? as name = some l) : l.path.IsText := by
  obtain ⟨path, -, rfl⟩ := Option.map_eq_some_iff.1 h
  exact FilePath.isText_ofString path

/-- A preset is a text, and so are the paths that it names. -/
theorem Preset.Model.isText_of_ofString {text : String} {m : Model} (h : ofString text = .ok m) :
    ∀ l ∈ m.luts, l.path.IsText := by
  rw [ofString, ofAssignments_eq] at h
  obtain ⟨count, -, h⟩ := Success.bind_iff.1 h
  obtain ⟨passes, -, h⟩ := Success.bind_iff.1 h
  obtain ⟨groups, -, h⟩ := Success.bind_iff.1 h
  cases h
  intro l hl
  obtain ⟨name, -, hlut⟩ := List.mem_filterMap.1 hl
  exact isText_of_lut? hlut

theorem Preset.Model.isText_inDirectory {m : Model} (h : ∀ l ∈ m.luts, l.path.IsText)
    (base : Option String) : ∀ l ∈ (m.inDirectory base).luts, l.path.IsText := by
  cases base with
  | none => exact h
  | some base =>
      intro l hl
      obtain ⟨l, hmem, rfl⟩ := List.mem_map.1 hl
      exact (FilePath.isText_ofString base).join (h l hmem)

theorem Graph.isText_of_load {store : FileStore} {path : String} {g : Graph}
    (h : load store path = .ok g) : ∀ l ∈ g.luts, l.path.IsText := by
  obtain ⟨text, m, as, -, hm, -, hassemble⟩ := load_eq_ok h
  obtain ⟨-, ds, -, rfl⟩ := assemble_eq_ok_iff.1 hassemble
  exact Preset.Model.isText_inDirectory (Preset.Model.isText_of_ofString hm) _

namespace Backend

variable {ι : Type} {b : Backend ι} {config : CompilerConfig} {store : FileStore} {path : String}
  {s : CompiledShader}

theorem isText_of_compilePreset (h : b.compilePreset config store path = .ok s) :
    ∀ l ∈ s.luts, l.path.IsText := by
  obtain ⟨g, hload, hcompile⟩ := compilePreset_ok h
  rw [compileGraph] at hcompile
  obtain ⟨passes, -, hcompile⟩ := Success.bind_iff.1 hcompile
  cases hcompile
  exact Graph.isText_of_load hload

/-- A compiled preset has a document, which is accepted exactly if all its singles are finite. -/
theorem exists_toJson_of_compilePreset (h : b.compilePreset config store path = .ok s)
    (hparameters : s.parameters.length ≤ 2 ^ 64) (hluts : s.luts.length ≤ 2 ^ 64) :
    ∃ document, s.toJson = .ok document ∧ CompiledShader.ofJson document =
      if s.singles.all (·.isFinite) then .ok s else .error .document := by
  obtain ⟨document, hdocument⟩ := CompiledShader.exists_toJson_iff.2 (isText_of_compilePreset h)
  refine ⟨document, hdocument, ?_⟩
  obtain ⟨g, hload, hcompile⟩ := compilePreset_ok h
  obtain ⟨⟨text, value, -, -, hcount⟩, hnumbered⟩ := Graph.load_ok hload
  have hcompiled := hcompile
  rw [compileGraph] at hcompiled
  obtain ⟨passes, -, hcompiled⟩ := Success.bind_iff.1 hcompiled
  cases hcompiled
  have hfits : g.Fits := ⟨(Text.count?_lt hcount).le.trans (by decide), hparameters, hluts⟩
  obtain ⟨hmasks, hindices⟩ := fits_compileGraph hnumbered hfits hcompile
  exact CompiledShader.ofJson_of_toJson hdocument hmasks hindices

/-- A compiled shader can be persisted exactly if every number that its preset and its sources
give is finite: the factor of every axis, and the value, the bounds and the step of every
parameter, where a step that is not given is finite exactly if the range is. Otherwise its document
is written and then refused. -/
theorem isFinite_singles_iff_of_compilePreset (b : Backend ι) (config : CompilerConfig)
    (store : FileStore) (path : String) (s : CompiledShader)
    (h : b.compilePreset config store path = .ok s) :
    ∃ text m as, store.load path = .ok text ∧ Preset.Model.ofString text = .ok m ∧
      Graph.annotateAll store (m.inDirectory (Path.parent? path)).passes = .ok as ∧
      ((∀ x ∈ s.singles, x.isFinite = true) ↔
        (∀ p ∈ m.passes, ∀ x ∈ p.singles, x.isFinite = true) ∧
          ∀ a ∈ as, ∀ d ∈ a.declarations, ∀ x ∈ d.singles m.overrides, x.isFinite = true) ∧
      (∀ a ∈ as, ∀ d ∈ a.declarations, d.HasNumbers [d.initial, d.minimum, d.maximum] →
        (d.step.isFinite = true ↔ (d.maximum - d.minimum).isFinite = true)) ∧
      (s.parameters.length ≤ 2 ^ 64 → s.luts.length ≤ 2 ^ 64 →
        ∃ document, s.toJson = .ok document ∧ CompiledShader.ofJson document =
          if ∀ x ∈ s.singles, x.isFinite = true then .ok s else .error .document) := by
  obtain ⟨g, hload, hcompile⟩ := compilePreset_ok h
  obtain ⟨text, m, as, htext, hm, has, hassemble⟩ := Graph.load_eq_ok hload
  refine ⟨text, m, as, htext, hm, has, ?_, fun a _ d _ hnumbers => ?_,
    fun hparameters hluts => ?_⟩
  · have hpasses := (Graph.singles_assemble hassemble).1
    have hparameters := Graph.all_singles_assemble hassemble
    rw [m.flatMap_singles_inDirectory] at hpasses
    rw [m.overrides_inDirectory] at hparameters
    rw [singles_compileGraph hcompile, hpasses, ← List.all_eq_true, List.all_append, hparameters]
    simp
  · rw [hnumbers.isFinite_step]
  · obtain ⟨document, hdocument, hread⟩ := exists_toJson_of_compilePreset h hparameters hluts
    refine ⟨document, hdocument, hread.trans ?_⟩
    simp

/-- The source of a parameter whose bounds are finite and whose range is not. -/
def wideRange : FileStore :=
  .ofList
    [("wide.slangp", "shaders = 1\nshader0 = wide.slang\n"),
      ("wide.slang", "#version 450\n#pragma parameter BIAS \"Bias\" 0.0 -3.0e38 3.0e38\n")]

/-- The same with a step. -/
def steppedRange : FileStore :=
  .ofList
    [("wide.slangp", "shaders = 1\nshader0 = wide.slang\n"),
      ("wide.slang", "#version 450\n#pragma parameter BIAS \"Bias\" 0.0 -3.0e38 3.0e38 6.0e37\n")]

/-- A backend to which no stage uses anything. -/
def plain : Backend Unit := reflecting (defaultReflection .fragment)

/-- The document of a parameter with so wide a range is refused. -/
theorem not_isFinite_singles_wideRange :
    ∃ s, plain.compilePreset .standard wideRange "wide.slangp" = .ok s ∧
      (¬ ∀ x ∈ s.singles, x.isFinite = true) ∧
        ∃ document, s.toJson = .ok document ∧
          CompiledShader.ofJson document = .error .document := by
  have h : (plain.compilePreset .standard wideRange "wide.slangp").map (fun s =>
      (s.singles.all (·.isFinite), s.parameters.length, s.luts.length)) = .ok (false, 1, 0) := by
    decide +kernel
  obtain ⟨s, hs, hvalues⟩ := Success.map_iff.1 h
  simp only [Prod.mk.injEq] at hvalues
  obtain ⟨hfinite, hparameters, hluts⟩ := hvalues
  have hdocument := exists_toJson_of_compilePreset hs (by rw [hparameters]; decide)
    (by rw [hluts]; decide)
  rw [hfinite] at hdocument
  exact ⟨s, hs, by rw [← List.all_eq_true, hfinite]; decide, hdocument⟩

/-- With a step of its own the same parameter is persisted. -/
theorem isFinite_singles_iff_steppedRange :
    ∃ s, plain.compilePreset .standard steppedRange "wide.slangp" = .ok s ∧
      ∃ document, s.toJson = .ok document ∧ CompiledShader.ofJson document = .ok s := by
  have h : (plain.compilePreset .standard steppedRange "wide.slangp").map (fun s =>
      (s.singles.all (·.isFinite), s.parameters.length, s.luts.length)) = .ok (true, 1, 0) := by
    decide +kernel
  obtain ⟨s, hs, hvalues⟩ := Success.map_iff.1 h
  simp only [Prod.mk.injEq] at hvalues
  obtain ⟨hfinite, hparameters, hluts⟩ := hvalues
  obtain ⟨_, _, _, -, -, -, -, -, hread⟩ :=
    isFinite_singles_iff_of_compilePreset plain .standard steppedRange "wide.slangp" s hs
  obtain ⟨document, hdocument, hread⟩ :=
    hread (by rw [hparameters]; decide) (by rw [hluts]; decide)
  exact ⟨s, hs, document, hdocument, hread.trans (if_pos (List.all_eq_true.1 hfinite))⟩

end Backend

end ShaderChain
