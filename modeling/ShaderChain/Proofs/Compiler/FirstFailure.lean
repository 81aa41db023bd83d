import ShaderChain.Proofs.FirstError
import ShaderChain.Proofs.Graph.Conflict
import ShaderChain.Proofs.Graph.Numbering

/-!
# The failure that is reported

A preset is compiled in steps, each of which goes over all passes: its text is loaded and built,
its sources are annotated, the graph is assembled, and the passes are compiled, each one stage by
stage and then bound. `Backend.Fails` says which failure is reported. It is that of the first
step that fails, and within a step that of the first pass; a failure of a pass is that of its
first stage that fails, at the first thing that the backend does, or else of its layouts.

Two errors are there for other callers. There are as many annotations as passes, so that their
counts agree, and a pass that is bound is one of the graph.
-/

namespace ShaderChain

section Binding

/-- Whether an error is about something else than a pass that is not there. -/
def BindError.IsOfKnownPass : BindError → Prop
  | .unknownPass _ _ => False
  | _ => True

namespace Binder

open FirstError

variable {b : Binder} {pass : Nat} {name : String} {kind : BufferKind}

theorem within_checkAllowed (stage : Stage) (r : StageReflection) :
    Within BindError.IsOfKnownPass (checkAllowed stage r) := by
  unfold checkAllowed
  split
  · exact within_error trivial
  · exact within_ok _ _

theorem within_checkShape (vertex fragment : StageReflection) :
    Within BindError.IsOfKnownPass (checkShape vertex fragment) := by
  refine (within_checkAllowed _ _).bind fun _ => (within_checkAllowed _ _).bind fun _ => ?_
  refine within_unless trivial (within_unless trivial ?_)
  split
  · exact within_error trivial
  · exact within_ok _ _

theorem within_buffer? (stage : Stage) (r : StageReflection) (kind : BufferKind) :
    Within BindError.IsOfKnownPass (buffer? stage r kind) := by
  unfold buffer?
  split
  · exact within_ok _ _
  · split
    · exact within_ok _ _
    · exact within_error trivial
  · exact within_error trivial

theorem within_checkReference (name : String) (r : TextureRef) :
    Within BindError.IsOfKnownPass (b.checkReference pass name r) := by
  unfold checkReference
  split
  case h_4 => exact within_ok _ _
  all_goals
    split
    · exact within_ok _ _
    · exact within_error trivial

theorem within_role (m : BufferMember) : Within BindError.IsOfKnownPass (b.role pass m) := by
  unfold Binder.role
  split
  · exact within_error trivial
  · refine within_unless trivial ?_
    split
    · exact (within_checkReference _ _).bind fun _ => within_ok _ _
    · exact within_ok _ _

theorem within_place (slots : List UniformSlot) (m : BufferMember) :
    Within BindError.IsOfKnownPass (b.place pass kind slots m) := by
  refine (within_role m).bind fun role => ?_
  split
  · exact within_ok _ _
  · split
    · exact within_ok _ _
    · exact within_error trivial

theorem within_placeAll (slots : List UniformSlot) (ms : List BufferMember) :
    Within BindError.IsOfKnownPass (b.placeAll pass kind slots ms) := by
  induction ms generalizing slots with
  | nil => exact within_ok _ _
  | cons m ms ih => exact (within_place slots m).bind fun placed => ih placed

theorem within_layout (vertex fragment : StageReflection) :
    Within BindError.IsOfKnownPass (b.layout pass kind vertex fragment) := by
  refine (within_buffer? _ _ _).bind fun _ => (within_buffer? _ _ _).bind fun _ => ?_
  exact (within_placeAll _ _).map

theorem within_textureSlot (settings : Preset.Pass) (slots : List TextureSlot) (x : Resource)
    (binding : UInt32) :
    Within BindError.IsOfKnownPass (b.textureSlot pass settings slots x binding) := by
  unfold textureSlot
  refine within_unless trivial ?_
  refine within_unless trivial ?_
  refine within_unless trivial ?_
  split
  · exact within_error trivial
  · exact (within_checkReference _ _).bind fun _ => within_ok _ _

theorem within_textureSlots (settings : Preset.Pass) (slots : List TextureSlot)
    (xs : List Resource) :
    Within BindError.IsOfKnownPass (b.textureSlots pass settings slots xs) := by
  induction xs generalizing slots with
  | nil => exact within_ok _ _
  | cons x xs ih =>
      unfold textureSlots
      split
      · exact ih slots
      · exact (within_textureSlot _ _ _ _).bind fun slot => ih _

/-- A pass of the graph is not unknown. -/
theorem within_bind {p : Graph.Pass} (hp : b.graph.passes[pass]? = some p)
    (vertex fragment : StageReflection) :
    Within BindError.IsOfKnownPass (b.bind pass vertex fragment) := by
  unfold Binder.bind
  rw [hp]
  refine (within_checkShape _ _).bind fun _ => (within_layout _ _).bind fun _ => ?_
  exact (within_layout _ _).bind fun _ => (within_textureSlots _ _ _).bind fun _ => within_ok _ _

end Binder

end Binding

section Loading

namespace Graph

variable {store : FileStore} {path : String} {m : Preset.Model} {ps : List Preset.Pass}
  {as : List Source.Annotation} {g : Graph} {e : CompileError}

/-- Whether a model is that of the preset at a path, with its paths read from there. -/
def IsModelAt (store : FileStore) (path : String) (m : Preset.Model) : Prop :=
  ∃ text model, store.load path = .ok text ∧ Preset.Model.ofString text = .ok model ∧
    model.inDirectory (Path.parent? path) = m

/-- Whether the sources of passes have these annotations. -/
def AreAnnotatedBy (store : FileStore) (ps : List Preset.Pass) (as : List Source.Annotation) :
    Prop :=
  List.Forall₂ (fun p a => Source.Annotation.ofFile store p.path = .ok a) ps as

/-- Which failure is reported of loading the graph of a preset. -/
inductive LoadFails (store : FileStore) (path : String) : CompileError → Prop
  | unreadable {cause : LoadError} (h : store.load path = .error cause) :
      LoadFails store path (.unreadablePreset path cause)
  | preset {text : String} {cause : Preset.BuildError} (htext : store.load path = .ok text)
      (h : Preset.Model.ofString text = .error cause) : LoadFails store path (.preset cause)
  | source {m : Preset.Model} {i : Nat} {p : Preset.Pass} {cause : Source.Error}
      (hm : IsModelAt store path m) (hp : m.passes[i]? = some p)
      (h : Source.Annotation.ofFile store p.path = .error cause)
      (hbefore : ∀ (j : Nat) (q : Preset.Pass), j < i → m.passes[j]? = some q →
        ∃ a, Source.Annotation.ofFile store q.path = .ok a) :
      LoadFails store path (.source i cause)
  | graph {m : Preset.Model} {as : List Source.Annotation} {cause : AssemblyError}
      (hm : IsModelAt store path m) (has : AreAnnotatedBy store m.passes as)
      (h : assemble m as = .error cause) : LoadFails store path (.graph cause)

theorem index_of_isModelAt (hm : IsModelAt store path m) {i : Nat} {p : Preset.Pass}
    (hp : m.passes[i]? = some p) : p.index = i := by
  obtain ⟨text, model, -, hmodel, rfl⟩ := hm
  exact Preset.Model.index_inDirectory hmodel _ hp

theorem annotateAll_eq_ok_iff : annotateAll store ps = .ok as ↔ AreAnnotatedBy store ps as := by
  unfold annotateAll
  rw [Success.mapM_iff]
  simp only [Success.mapError_iff]
  rfl

/-- Annotating fails for the first source that cannot be annotated. -/
theorem annotateAll_eq_error_iff :
    annotateAll store ps = .error e ↔
      ∃ (i : Nat) (p : Preset.Pass), ps[i]? = some p ∧
        (∃ cause, Source.Annotation.ofFile store p.path = .error cause ∧
          .source p.index cause = e) ∧
        ∀ (j : Nat) (q : Preset.Pass), j < i → ps[j]? = some q →
          ∃ a, Source.Annotation.ofFile store q.path = .ok a := by
  unfold annotateAll
  rw [FirstError.mapM_iff]
  simp only [FirstError.mapError_iff, Success.mapError_iff]

/-- Behind its model, a graph is loaded by annotating and assembling. -/
theorem load_of_isModelAt (hm : IsModelAt store path m) :
    load store path =
      annotateAll store m.passes >>= fun as => (assemble m as).mapError .graph := by
  obtain ⟨text, model, htext, hmodel, rfl⟩ := hm
  rw [load, htext]
  show (Preset.Model.ofString text).mapError CompileError.preset >>= _ = _
  rw [hmodel]
  rfl

theorem load_eq_ok_iff :
    load store path = .ok g ↔
      ∃ m as, IsModelAt store path m ∧ AreAnnotatedBy store m.passes as ∧
        assemble m as = .ok g := by
  constructor
  · intro h
    obtain ⟨text, model, as, htext, hmodel, has, hassemble⟩ := load_eq_ok h
    exact ⟨_, as, ⟨text, model, htext, hmodel, rfl⟩, annotateAll_eq_ok_iff.1 has, hassemble⟩
  · rintro ⟨m, as, hm, has, hassemble⟩
    rw [load_of_isModelAt hm]
    exact Success.bind_iff.2 ⟨as, annotateAll_eq_ok_iff.2 has, Success.mapError_iff.2 hassemble⟩

theorem load_eq_error_iff : load store path = .error e ↔ LoadFails store path e := by
  constructor
  · intro h
    unfold load at h
    rcases FirstError.bind_iff.1 h with h | ⟨text, htext, h⟩
    · obtain ⟨cause, hcause, rfl⟩ := FirstError.mapError_iff.1 h
      exact .unreadable hcause
    rcases FirstError.bind_iff.1 h with h | ⟨model, hmodel, h⟩
    · obtain ⟨cause, hcause, rfl⟩ := FirstError.mapError_iff.1 h
      exact .preset (Success.mapError_iff.1 htext) hcause
    have hm : IsModelAt store path (model.inDirectory (Path.parent? path)) :=
      ⟨text, model, Success.mapError_iff.1 htext, Success.mapError_iff.1 hmodel, rfl⟩
    rcases FirstError.bind_iff.1 h with h | ⟨as, has, h⟩
    · obtain ⟨i, p, hp, ⟨cause, hcause, rfl⟩, hbefore⟩ := annotateAll_eq_error_iff.1 h
      rw [index_of_isModelAt hm hp]
      exact .source hm hp hcause hbefore
    · obtain ⟨cause, hcause, rfl⟩ := FirstError.mapError_iff.1 h
      exact .graph hm (annotateAll_eq_ok_iff.1 has) hcause
  · intro h
    cases h with
    | unreadable h =>
        exact FirstError.bind_iff.2 (Or.inl (FirstError.mapError_iff.2 ⟨_, h, rfl⟩))
    | preset htext h =>
        refine FirstError.bind_iff.2 (Or.inr ⟨_, Success.mapError_iff.2 htext, ?_⟩)
        exact FirstError.bind_iff.2 (Or.inl (FirstError.mapError_iff.2 ⟨_, h, rfl⟩))
    | source hm hp h hbefore =>
        rw [load_of_isModelAt hm]
        refine FirstError.bind_iff.2 (Or.inl (annotateAll_eq_error_iff.2 ⟨_, _, hp, ?_, hbefore⟩))
        exact ⟨_, h, by rw [index_of_isModelAt hm hp]⟩
    | graph hm has h =>
        rw [load_of_isModelAt hm]
        refine FirstError.bind_iff.2 (Or.inr ⟨_, annotateAll_eq_ok_iff.2 has, ?_⟩)
        exact FirstError.mapError_iff.2 ⟨_, h, rfl⟩

/-- As many sources are annotated as there are passes, and an assembly fails for a parameter. -/
theorem exists_of_assemble_error {cause : AssemblyError} (has : AreAnnotatedBy store m.passes as)
    (h : assemble m as = .error cause) : ∃ name, cause = .parameterConflict name := by
  rcases assemble_eq_error_iff.1 h with ⟨hne, -⟩ | ⟨-, hmerge⟩
  · exact absurd has.length_eq hne
  · exact exists_of_mergeDeclarations_error hmerge

end Graph

end Loading

section Compiling

namespace Backend

variable {ι : Type} {b : Backend ι} {config : CompilerConfig} {store : FileStore} {path : String}
  {binder : Binder} {g : Graph} {p : Graph.Pass} {i : Nat} {stage : Stage} {message : String}
  {reflection : StageReflection} {e : CompileError}

/-- Which message a backend fails with on the text of a stage, if it fails. -/
inductive StageFails (b : Backend ι) (stage : Stage) (text : String) : String → Prop
  | compile {message : String} (h : b.compile stage text = .error message) :
      StageFails b stage text message
  | reflect {code : ι} {message : String} (hcompile : b.compile stage text = .ok code)
      (h : b.reflect stage code = .error message) : StageFails b stage text message
  | emit {code : ι} {reflection : StageReflection} {message : String}
      (hcompile : b.compile stage text = .ok code)
      (hreflect : b.reflect stage code = .ok reflection)
      (h : b.emit stage code = .error message) : StageFails b stage text message

/-- Whether a backend goes through with the text of a stage, and finds a reflection. -/
def StagePasses (b : Backend ι) (stage : Stage) (text : String) (reflection : StageReflection) :
    Prop :=
  ∃ code emitted, b.compile stage text = .ok code ∧ b.reflect stage code = .ok reflection ∧
    b.emit stage code = .ok emitted

/-- Which failure is reported of pass `i` with a source, if it fails. -/
inductive PassFails (b : Backend ι) (binder : Binder) (i : Nat) (source : Source.Annotation) :
    CompileError → Prop
  | vertex {message : String} (h : b.StageFails .vertex source.vertex message) :
      PassFails b binder i source (.backend i .vertex message)
  | fragment {vertex : StageReflection} {message : String}
      (hvertex : b.StagePasses .vertex source.vertex vertex)
      (h : b.StageFails .fragment source.fragment message) :
      PassFails b binder i source (.backend i .fragment message)
  | binding {vertex fragment : StageReflection} {cause : BindError}
      (hvertex : b.StagePasses .vertex source.vertex vertex)
      (hfragment : b.StagePasses .fragment source.fragment fragment)
      (h : binder.bind i vertex fragment = .error cause) :
      PassFails b binder i source (.binding i cause)

/-- Whether a backend goes through with both stages of pass `i` and it is bound. -/
def PassCompiles (b : Backend ι) (binder : Binder) (i : Nat) (source : Source.Annotation) : Prop :=
  ∃ vertex fragment layouts, b.StagePasses .vertex source.vertex vertex ∧
    b.StagePasses .fragment source.fragment fragment ∧
      binder.bind i vertex fragment = .ok layouts

/-- Which failure is reported of a preset, if it fails. -/
inductive Fails (b : Backend ι) (maxBindings : UInt32) (store : FileStore) (path : String) :
    CompileError → Prop
  | load {e : CompileError} (h : Graph.LoadFails store path e) : Fails b maxBindings store path e
  | pass {g : Graph} {i : Nat} {p : Graph.Pass} {e : CompileError}
      (hg : Graph.load store path = .ok g) (hp : g.passes[i]? = some p)
      (h : b.PassFails (.ofGraph g maxBindings) i p.source e)
      (hbefore : ∀ (j : Nat) (q : Graph.Pass), j < i → g.passes[j]? = some q →
        b.PassCompiles (.ofGraph g maxBindings) j q.source) :
      Fails b maxBindings store path e

/-- Whether nothing fails of a preset. -/
def Compiles (b : Backend ι) (maxBindings : UInt32) (store : FileStore) (path : String) : Prop :=
  ∃ m as g, Graph.IsModelAt store path m ∧ Graph.AreAnnotatedBy store m.passes as ∧
    Graph.assemble m as = .ok g ∧
      ∀ (i : Nat) (p : Graph.Pass), g.passes[i]? = some p →
        b.PassCompiles (.ofGraph g maxBindings) i p.source

theorem compileStage_eq_error_iff :
    b.compileStage p stage = .error e ↔
      ∃ message, b.StageFails stage (p.source.text stage) message ∧
        .backend p.preset.index stage message = e := by
  unfold compileStage
  constructor
  · intro h
    rcases FirstError.bind_iff.1 h with h | ⟨code, hcode, h⟩
    · obtain ⟨message, hmessage, rfl⟩ := FirstError.mapError_iff.1 h
      exact ⟨message, .compile hmessage, rfl⟩
    have hcode := Success.mapError_iff.1 hcode
    rcases FirstError.bind_iff.1 h with h | ⟨reflection, hreflection, h⟩
    · obtain ⟨message, hmessage, rfl⟩ := FirstError.mapError_iff.1 h
      exact ⟨message, .reflect hcode hmessage, rfl⟩
    have hreflection := Success.mapError_iff.1 hreflection
    rcases FirstError.bind_iff.1 h with h | ⟨text, -, h⟩
    · obtain ⟨message, hmessage, rfl⟩ := FirstError.mapError_iff.1 h
      exact ⟨message, .emit hcode hreflection hmessage, rfl⟩
    · cases h
  · rintro ⟨message, hfails, rfl⟩
    cases hfails with
    | compile h => exact FirstError.bind_iff.2 (Or.inl (FirstError.mapError_iff.2 ⟨_, h, rfl⟩))
    | reflect hcompile h =>
        refine FirstError.bind_iff.2 (Or.inr ⟨_, Success.mapError_iff.2 hcompile, ?_⟩)
        exact FirstError.bind_iff.2 (Or.inl (FirstError.mapError_iff.2 ⟨_, h, rfl⟩))
    | emit hcompile hreflect h =>
        refine FirstError.bind_iff.2 (Or.inr ⟨_, Success.mapError_iff.2 hcompile, ?_⟩)
        refine FirstError.bind_iff.2 (Or.inr ⟨_, Success.mapError_iff.2 hreflect, ?_⟩)
        exact FirstError.bind_iff.2 (Or.inl (FirstError.mapError_iff.2 ⟨_, h, rfl⟩))

theorem exists_compileStage_iff :
    (∃ emitted, b.compileStage p stage = .ok (reflection, emitted)) ↔
      b.StagePasses stage (p.source.text stage) reflection := by
  unfold compileStage
  constructor
  · rintro ⟨emitted, h⟩
    obtain ⟨code, hcode, h⟩ := Success.bind_iff.1 h
    obtain ⟨reflection', hreflection, h⟩ := Success.bind_iff.1 h
    obtain ⟨text, htext, h⟩ := Success.bind_iff.1 h
    cases h
    exact ⟨code, emitted, Success.mapError_iff.1 hcode, Success.mapError_iff.1 hreflection,
      Success.mapError_iff.1 htext⟩
  · rintro ⟨code, emitted, hcode, hreflection, htext⟩
    refine ⟨emitted, Success.bind_iff.2 ⟨code, Success.mapError_iff.2 hcode, ?_⟩⟩
    refine Success.bind_iff.2 ⟨reflection, Success.mapError_iff.2 hreflection, ?_⟩
    exact Success.bind_iff.2 ⟨emitted, Success.mapError_iff.2 htext, rfl⟩

theorem compilePass_eq_error_iff (hp : p.preset.index = i) :
    b.compilePass binder p = .error e ↔ b.PassFails binder i p.source e := by
  subst hp
  unfold compilePass
  constructor
  · intro h
    rcases FirstError.bind_iff.1 h with h | ⟨⟨vertex, vertexText⟩, hvertex, h⟩
    · obtain ⟨message, hmessage, rfl⟩ := compileStage_eq_error_iff.1 h
      exact .vertex hmessage
    have hvertex := exists_compileStage_iff.1 ⟨_, hvertex⟩
    rcases FirstError.bind_iff.1 h with h | ⟨⟨fragment, fragmentText⟩, hfragment, h⟩
    · obtain ⟨message, hmessage, rfl⟩ := compileStage_eq_error_iff.1 h
      exact .fragment hvertex hmessage
    have hfragment := exists_compileStage_iff.1 ⟨_, hfragment⟩
    rcases FirstError.bind_iff.1 h with h | ⟨layouts, -, h⟩
    · obtain ⟨cause, hcause, rfl⟩ := FirstError.mapError_iff.1 h
      exact .binding hvertex hfragment hcause
    · cases h
  · intro h
    cases h with
    | vertex h =>
        exact FirstError.bind_iff.2 (Or.inl (compileStage_eq_error_iff.2 ⟨_, h, rfl⟩))
    | fragment hvertex h =>
        obtain ⟨_, hvertex⟩ := exists_compileStage_iff.2 hvertex
        refine FirstError.bind_iff.2 (Or.inr ⟨_, hvertex, ?_⟩)
        exact FirstError.bind_iff.2 (Or.inl (compileStage_eq_error_iff.2 ⟨_, h, rfl⟩))
    | binding hvertex hfragment h =>
        obtain ⟨_, hvertex⟩ := exists_compileStage_iff.2 hvertex
        obtain ⟨_, hfragment⟩ := exists_compileStage_iff.2 hfragment
        refine FirstError.bind_iff.2 (Or.inr ⟨_, hvertex, ?_⟩)
        refine FirstError.bind_iff.2 (Or.inr ⟨_, hfragment, ?_⟩)
        exact FirstError.bind_iff.2 (Or.inl (FirstError.mapError_iff.2 ⟨_, h, rfl⟩))

theorem exists_compilePass_iff (hp : p.preset.index = i) :
    (∃ q, b.compilePass binder p = .ok q) ↔ b.PassCompiles binder i p.source := by
  subst hp
  unfold compilePass
  constructor
  · rintro ⟨q, h⟩
    obtain ⟨⟨vertex, vertexText⟩, hvertex, h⟩ := Success.bind_iff.1 h
    obtain ⟨⟨fragment, fragmentText⟩, hfragment, h⟩ := Success.bind_iff.1 h
    obtain ⟨layouts, hlayouts, -⟩ := Success.bind_iff.1 h
    exact ⟨vertex, fragment, layouts, exists_compileStage_iff.1 ⟨_, hvertex⟩,
      exists_compileStage_iff.1 ⟨_, hfragment⟩, Success.mapError_iff.1 hlayouts⟩
  · rintro ⟨vertex, fragment, layouts, hvertex, hfragment, hlayouts⟩
    obtain ⟨_, hvertex⟩ := exists_compileStage_iff.2 hvertex
    obtain ⟨_, hfragment⟩ := exists_compileStage_iff.2 hfragment
    refine Success.exists_bind_iff.2 ⟨_, hvertex, ?_⟩
    refine Success.exists_bind_iff.2 ⟨_, hfragment, ?_⟩
    exact Success.exists_bind_iff.2 ⟨layouts, Success.mapError_iff.2 hlayouts, _, rfl⟩

/-- Compiling a graph fails for its first pass that fails. -/
theorem compileGraph_eq_error_iff (hg : g.IsNumbered) :
    b.compileGraph config g = .error e ↔
      ∃ (i : Nat) (p : Graph.Pass), g.passes[i]? = some p ∧
        b.PassFails (.ofGraph g config.maxBindings) i p.source e ∧
          ∀ (j : Nat) (q : Graph.Pass), j < i → g.passes[j]? = some q →
            b.PassCompiles (.ofGraph g config.maxBindings) j q.source := by
  have hpasses : b.compileGraph config g = .error e ↔
      g.passes.mapM (b.compilePass (.ofGraph g config.maxBindings)) = .error e := by
    unfold compileGraph
    rw [FirstError.bind_iff]
    refine or_iff_left ?_
    rintro ⟨ps, -, hpure⟩
    cases hpure
  rw [hpasses, FirstError.mapM_iff]
  refine exists_congr fun i => exists_congr fun p => and_congr_right fun hp => ?_
  rw [compilePass_eq_error_iff (hg.index_pass i p hp)]
  refine and_congr_right fun _ => forall_congr' fun j => forall_congr' fun q => ?_
  refine imp_congr_right fun _ => forall_congr' fun hq => ?_
  exact exists_compilePass_iff (hg.index_pass j q hq)

theorem exists_compileGraph_iff (hg : g.IsNumbered) :
    (∃ s, b.compileGraph config g = .ok s) ↔
      ∀ (i : Nat) (p : Graph.Pass), g.passes[i]? = some p →
        b.PassCompiles (.ofGraph g config.maxBindings) i p.source := by
  have hpasses : (∃ s, b.compileGraph config g = .ok s) ↔
      ∃ ps, g.passes.mapM (b.compilePass (.ofGraph g config.maxBindings)) = .ok ps := by
    unfold compileGraph
    rw [Success.exists_bind_iff]
    exact exists_congr fun ps => and_iff_left ⟨_, rfl⟩
  rw [hpasses, Success.exists_mapM_iff]
  refine forall_congr' fun i => forall_congr' fun p => forall_congr' fun hp => ?_
  exact exists_compilePass_iff (hg.index_pass i p hp)

theorem compilePreset_eq_error_iff :
    b.compilePreset config store path = .error e ↔ b.Fails config.maxBindings store path e := by
  unfold compilePreset
  rw [FirstError.bind_iff, Graph.load_eq_error_iff]
  constructor
  · rintro (h | ⟨g, hg, h⟩)
    · exact .load h
    · obtain ⟨i, p, hp, hfails, hbefore⟩ := (compileGraph_eq_error_iff (Graph.load_ok hg).2).1 h
      exact .pass hg hp hfails hbefore
  · intro h
    cases h with
    | load h => exact Or.inl h
    | @pass g i p e hg hp h hbefore =>
        exact Or.inr ⟨g, hg,
          (compileGraph_eq_error_iff (Graph.load_ok hg).2).2 ⟨i, p, hp, h, hbefore⟩⟩

theorem exists_compilePreset_iff :
    (∃ s, b.compilePreset config store path = .ok s) ↔
      b.Compiles config.maxBindings store path := by
  unfold compilePreset Compiles
  rw [Success.exists_bind_iff]
  constructor
  · rintro ⟨g, hg, h⟩
    have h := (exists_compileGraph_iff (Graph.load_ok hg).2).1 h
    obtain ⟨m, as, hm, has, hassemble⟩ := Graph.load_eq_ok_iff.1 hg
    exact ⟨m, as, g, hm, has, hassemble, h⟩
  · rintro ⟨m, as, g, hm, has, hassemble, h⟩
    have hg : Graph.load store path = .ok g := Graph.load_eq_ok_iff.2 ⟨m, as, hm, has, hassemble⟩
    exact ⟨g, hg, (exists_compileGraph_iff (Graph.load_ok hg).2).2 h⟩

/-- A pass that fails to be bound is known. -/
theorem isOfKnownPass_of_passFails {cause : BindError} {j : Nat}
    (hp : binder.graph.passes[i]? = some p)
    (h : b.PassFails binder i p.source (.binding j cause)) : cause.IsOfKnownPass := by
  cases h with
  | binding _ _ h => exact Binder.within_bind hp _ _ cause h

/-- What is reported of a preset: the first failure, in the order of the steps, the passes and
the stages, and a shader exactly if nothing fails. Neither counts that do not agree nor an
unknown pass is ever reported. -/
theorem compilePreset_first_failure (b : Backend ι) (config : CompilerConfig) (store : FileStore)
    (path : String) :
    (∀ e, b.compilePreset config store path = .error e ↔ b.Fails config.maxBindings store path e) ∧
      ((∃ s, b.compilePreset config store path = .ok s) ↔
        b.Compiles config.maxBindings store path) ∧
      (∀ expected actual,
        b.compilePreset config store path ≠ .error (.graph (.passCountMismatch expected actual))) ∧
      ∀ i pass count,
        b.compilePreset config store path ≠ .error (.binding i (.unknownPass pass count)) := by
  refine ⟨fun e => compilePreset_eq_error_iff, exists_compilePreset_iff, ?_, ?_⟩
  · intro expected actual h
    cases compilePreset_eq_error_iff.1 h with
    | load h =>
        cases h with
        | graph _ has h =>
            obtain ⟨name, hname⟩ := Graph.exists_of_assemble_error has h
            cases hname
    | pass _ _ h _ => cases h
  · intro i pass count h
    cases compilePreset_eq_error_iff.1 h with
    | load h => cases h
    | @pass g j p e _ hp h _ => exact isOfKnownPass_of_passFails hp h

end Backend

end Compiling

end ShaderChain
