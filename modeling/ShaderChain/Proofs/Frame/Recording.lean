import ShaderChain.Frame.Run
import ShaderChain.Proofs.Frame.Step

/-!
# Recorded requests

A factory can be had with a record of all requests to it, in order, a refused one too. It answers
as the factory without it. What a frame adds to the record is what `Scheduler.requests` lists, up
to the first request that is refused, so a property of the listed requests is one of everything
that the factory is ever asked for. Apart from the record, a run with the factory is the one
without it.
-/

namespace ShaderChain

variable {σ τ ε : Type}

namespace Factory

/-- The factory with a record of the requests to it. -/
def recording (f : Factory σ τ ε) : Factory (σ × List TargetSpec) τ ε where
  create s spec := ((f.create s.1 spec).1, ((f.create s.1 spec).2, s.2 ++ [spec]))

/-- Which of some requests a factory comes to see: those up to the first one that it refuses. -/
def asked (f : Factory σ τ ε) (specs : List TargetSpec) (s : σ) : List TargetSpec :=
  specs.take ((f.serve specs s).textures.length + 1)

variable {f : Factory σ τ ε} {spec : TargetSpec} {specs : List TargetSpec} {s s' : σ}

theorem asked_isPrefix (f : Factory σ τ ε) (specs : List TargetSpec) (s : σ) :
    f.asked specs s <+: specs :=
  List.take_prefix _ _

theorem asked_cons_of_error {e : ε} (h : f.create s spec = (.error e, s')) :
    f.asked (spec :: specs) s = [spec] := by
  rw [asked, serve_cons_of_error h]
  rfl

theorem asked_cons_of_ok {x : τ} (h : f.create s spec = (.ok x, s')) :
    f.asked (spec :: specs) s = spec :: f.asked specs s' := by
  rw [asked, serve_cons_of_ok h]
  rfl

/-- A recording factory serves as the one that it records, and writes down what it is asked. -/
theorem serve_recording (f : Factory σ τ ε) (specs : List TargetSpec) (s : σ)
    (log : List TargetSpec) :
    f.recording.serve specs (s, log) =
      ⟨(f.serve specs s).textures, (f.serve specs s).refusal,
        ((f.serve specs s).factory, log ++ f.asked specs s)⟩ := by
  induction specs generalizing s log with
  | nil => simp [asked]
  | cons spec specs ih =>
      rcases hc : f.create s spec with ⟨e | x, s'⟩
      · have hrecorded : f.recording.create (s, log) spec = (.error e, (s', log ++ [spec])) := by
          simp [recording, hc]
        rw [serve_cons_of_error hrecorded, serve_cons_of_error hc, asked_cons_of_error hc]
      · have hrecorded : f.recording.create (s, log) spec = (.ok x, (s', log ++ [spec])) := by
          simp [recording, hc]
        rw [serve_cons_of_ok hrecorded, ih, serve_cons_of_ok hc, asked_cons_of_ok hc,
          List.append_assoc, List.singleton_append]

end Factory

namespace Scheduler

/-- A frame adds its requests to the record, up to the first one that is refused. -/
theorem record_beginFrame (f : Factory σ τ ε) (s : Scheduler (σ × List TargetSpec) τ)
    (source : Extent) (format : PixelFormat) :
    (s.beginFrame f.recording source format).2.factory.2 =
      s.factory.2 ++ f.asked (s.requests source format) s.factory.1 := by
  rw [factory_beginFrame, Factory.serve_recording]

end Scheduler

/-! ### Without the record -/

/-- An allocation from a recording factory without the record. -/
def Allocation.unrecorded {α : Type} (a : Allocation (σ × List TargetSpec) ε α) :
    Allocation σ ε α :=
  ⟨a.result, a.value, a.factory.1⟩

/-- A scheduler over a recording factory without the record. -/
def Scheduler.unrecorded (s : Scheduler (σ × List TargetSpec) τ) : Scheduler σ τ :=
  { s with factory := s.factory.1 }

theorem Target.unrecorded_provide (f : Factory σ τ ε) (renew wanted : Bool) (spec : TargetSpec)
    (slot : Option (Target τ)) (s : σ × List TargetSpec) :
    (provide f.recording renew wanted spec slot s).unrecorded =
      provide f renew wanted spec slot s.1 := by
  cases hdue : isDue renew wanted spec slot with
  | false =>
      rw [provide_of_not_isDue f.recording s hdue, provide_of_not_isDue f s.1 hdue]
      rfl
  | true =>
      rcases hc : f.create s.1 spec with ⟨e | x, s'⟩
      · have hrecorded : f.recording.create s spec = (.error e, (s', s.2 ++ [spec])) := by
          simp [Factory.recording, hc]
        rw [provide_of_error hdue hrecorded, provide_of_error hdue hc]
        rfl
      · have hrecorded : f.recording.create s spec = (.ok x, (s', s.2 ++ [spec])) := by
          simp [Factory.recording, hc]
        rw [provide_of_ok hdue hrecorded, provide_of_ok hdue hc]
        rfl

namespace TargetPair

theorem unrecorded_allocate (f : Factory σ τ ε) (renew : Bool) (plan : PassPlan)
    (p : TargetPair τ) (s : σ × List TargetSpec) :
    (p.allocate f.recording renew plan s).unrecorded = p.allocate f renew plan s.1 := by
  unfold allocate
  simp only [← Target.unrecorded_provide f]
  simp only [Allocation.unrecorded]
  split
  · rfl
  · rw [← Target.unrecorded_provide f]
    rfl

theorem unrecorded_allocateAll (f : Factory σ τ ε) (renew : Bool) (plans : List PassPlan)
    (pairs : List (TargetPair τ)) (s : σ × List TargetSpec) :
    (allocateAll f.recording renew plans pairs s).unrecorded =
      allocateAll f renew plans pairs s.1 := by
  induction plans generalizing pairs s with
  | nil => rfl
  | cons plan plans ih =>
      cases pairs with
      | nil => rfl
      | cons p pairs =>
          have hfirst := unrecorded_allocate f renew plan p s
          unfold allocateAll
          simp only [← hfirst]
          simp only [Allocation.unrecorded]
          split
          · rfl
          · rw [← ih]
            rfl

end TargetPair

theorem Target.unrecorded_createMany (f : Factory σ τ ε) (spec : TargetSpec) (n : Nat)
    (s : σ × List TargetSpec) :
    ((createMany f.recording spec n s).1, (createMany f.recording spec n s).2.1) =
      createMany f spec n s.1 := by
  induction n generalizing s with
  | zero => rfl
  | succ n ih =>
      rcases hc : f.create s.1 spec with ⟨e | x, s'⟩
      · simp [createMany, create, Factory.recording, hc, Except.map]
      · have hrest := ih (s', s.2 ++ [spec])
        simp only [createMany, create, hc, Factory.recording, Except.map]
        rw [← hrest]
        rfl

theorem HistoryUpdate.unrecorded_stage (f : Factory σ τ ε) (ring : List (Target τ))
    (length : Nat) (size : Extent) (clear : Bool) (s : σ × List TargetSpec) :
    ((stage f.recording ring length size clear s).1,
        (stage f.recording ring length size clear s).2.1) =
      stage f ring length size clear s.1 := by
  unfold stage
  split
  · rfl
  · split
    · rfl
    · rw [← Target.unrecorded_createMany]

namespace Scheduler

theorem unrecorded_allocation (f : Factory σ τ ε) (s : Scheduler (σ × List TargetSpec) τ)
    (source : Extent) (format : PixelFormat) :
    (s.allocation f.recording source format).unrecorded =
      s.unrecorded.allocation f source format :=
  TargetPair.unrecorded_allocateAll f _ _ _ _

theorem unrecorded_historyChange (f : Factory σ τ ε) (s : Scheduler (σ × List TargetSpec) τ)
    (source : Extent) (format : PixelFormat) :
    ((s.historyChange f.recording source format).1,
        (s.historyChange f.recording source format).2.1) =
      s.unrecorded.historyChange f source format := by
  unfold historyChange
  rw [← unrecorded_allocation]
  exact HistoryUpdate.unrecorded_stage f _ _ _ _ _

/-- A frame is the same without the record. -/
theorem unrecorded_beginFrame (f : Factory σ τ ε) (s : Scheduler (σ × List TargetSpec) τ)
    (source : Extent) (format : PixelFormat) :
    ((s.beginFrame f.recording source format).1,
        (s.beginFrame f.recording source format).2.unrecorded) =
      s.unrecorded.beginFrame f source format := by
  rw [beginFrame_eq, beginFrame_eq, ← unrecorded_allocation, ← unrecorded_historyChange]
  cases ha : (s.allocation f.recording source format).result with
  | error e => simp only [Allocation.unrecorded, ha]; rfl
  | ok resized =>
      simp only [Allocation.unrecorded, ha]
      rcases s.historyChange f.recording source format with ⟨e | u, factory⟩ <;> rfl

theorem unrecorded_call (f : Factory σ τ ε) (s : Scheduler (σ × List TargetSpec) τ) (c : Call) :
    (s.call f.recording c).2.unrecorded = (s.unrecorded.call f c).2 := by
  cases c with
  | frame source format =>
      rw [call, call, ← unrecorded_beginFrame]
  | resize viewport =>
      rw [call, call, resize_eq, resize_eq]
      rfl
  | reload shader => rfl
  | clearHistory => rfl

/-- A run is the same without the record. -/
theorem unrecorded_run (f : Factory σ τ ε) (s : Scheduler (σ × List TargetSpec) τ)
    (calls : List Call) :
    (s.run f.recording calls).unrecorded = s.unrecorded.run f calls := by
  induction calls generalizing s with
  | nil => rfl
  | cons c calls ih => rw [run_cons, run_cons, ih, unrecorded_call]

end Scheduler

end ShaderChain
