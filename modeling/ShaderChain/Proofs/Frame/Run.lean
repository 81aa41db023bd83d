import Mathlib.Logic.Basic
import ShaderChain.Frame.Run
import ShaderChain.Proofs.Frame.Step

/-!
# Planned frames of a run

What the calls of a run keep. Only a planned frame changes the ring of earlier inputs and
the source size; between two of them, resizings, other shaders, requests to clear and
frames that are refused leave both as they are, and a request to clear is not forgotten.
`LastPlanned` names the last planned frame of a run, with the state behind it and the calls
since.
-/

namespace ShaderChain

variable {σ τ ε : Type}

namespace Scheduler

variable {f : Factory σ τ ε} {s s' last : Scheduler σ τ} {c : Call} {calls since : List Call}
  {source : Extent} {format : PixelFormat}

section Kept

theorem keeps_beginFrame (f : Factory σ τ ε) (s : Scheduler σ τ) (source : Extent)
    (format : PixelFormat) :
    (s.beginFrame f source format).2.shader = s.shader ∧
      (s.beginFrame f source format).2.options = s.options := by
  rcases h : s.beginFrame f source format with ⟨e | plan, s'⟩
  · rw [beginFrame_error h]
    exact ⟨rfl, rfl⟩
  · obtain ⟨u, factory, -, -, -, hs'⟩ := beginFrame_ok h
    rw [hs']
    exact ⟨rfl, rfl⟩

theorem shader_eq_of_beginFrame {r : Except ε FramePlan}
    (h : s.beginFrame f source format = (r, s')) : s'.shader = s.shader := by
  simpa [h] using (keeps_beginFrame f s source format).1

theorem shader_call (f : Factory σ τ ε) (s : Scheduler σ τ) (c : Call) :
    (s.call f c).2.shader = s.shader ∨ c = .reload (s.call f c).2.shader := by
  cases c with
  | frame source format => exact Or.inl (keeps_beginFrame f s source format).1
  | resize viewport =>
      left
      rw [call, resize_eq]
  | reload shader => exact Or.inr rfl
  | clearHistory => exact Or.inl rfl

theorem options_call (f : Factory σ τ ε) (s : Scheduler σ τ) (c : Call) :
    (s.call f c).2.options = s.options := by
  cases c with
  | frame source format => exact (keeps_beginFrame f s source format).2
  | resize viewport =>
      rw [call, resize_eq]
  | reload shader => rfl
  | clearHistory => rfl

/-- The shader behind a run is the one before it or one that was put in its place. -/
theorem shader_run (f : Factory σ τ ε) (s : Scheduler σ τ) (calls : List Call) :
    (s.run f calls).shader = s.shader ∨ .reload (s.run f calls).shader ∈ calls := by
  induction calls generalizing s with
  | nil => exact Or.inl rfl
  | cons c calls ih =>
      rw [run_cons]
      rcases ih (s.call f c).2 with hold | hnew
      · rcases shader_call f s c with hkept | hreload
        · exact Or.inl (hold.trans hkept)
        · rw [hold, ← hreload]
          exact Or.inr List.mem_cons_self
      · exact Or.inr (List.mem_cons_of_mem c hnew)

theorem options_run (f : Factory σ τ ε) (s : Scheduler σ τ) (calls : List Call) :
    (s.run f calls).options = s.options := by
  induction calls generalizing s with
  | nil => rfl
  | cons c calls ih => rw [run_cons, ih, options_call]

end Kept

/-- Whether a call is a frame that is planned. -/
def Plans (f : Factory σ τ ε) (s : Scheduler σ τ) (c : Call) : Prop :=
  ∃ source format plan, c = .frame source format ∧ (s.beginFrame f source format).1 = .ok plan

/-- Whether no call of a run is a frame that is planned. -/
def PlansNothing (f : Factory σ τ ε) (s : Scheduler σ τ) : List Call → Prop
  | [] => True
  | c :: calls => ¬ s.Plans f c ∧ (s.call f c).2.PlansNothing f calls

/-- Whether the last planned frame of a run is one with the given source, with the state
`last` behind it and the calls `since` after it. -/
def LastPlanned (f : Factory σ τ ε) (s : Scheduler σ τ) (calls : List Call) (source : Extent)
    (last : Scheduler σ τ) (since : List Call) : Prop :=
  ∃ before format plan, calls = before ++ .frame source format :: since ∧
    (s.run f before).beginFrame f source format = (.ok plan, last) ∧ last.PlansNothing f since

/-- The state behind a run is the one behind the calls since its last planned frame. -/
theorem run_of_lastPlanned (h : LastPlanned f s calls source last since) :
    s.run f calls = last.run f since := by
  obtain ⟨before, format, plan, rfl, hframe, -⟩ := h
  have hcall : ((s.run f before).call f (.frame source format)).2 = last := by
    simp [call, hframe]
  rw [run_append, run_cons, hcall]

/-- A run has a last planned frame, or it has none. -/
theorem plansNothing_or_lastPlanned (f : Factory σ τ ε) (s : Scheduler σ τ) (calls : List Call) :
    s.PlansNothing f calls ∨ ∃ source last since, LastPlanned f s calls source last since := by
  induction calls generalizing s with
  | nil => exact Or.inl trivial
  | cons c calls ih =>
      rcases ih (s.call f c).2 with hnothing | ⟨source, last, since, hlast⟩
      · by_cases hc : s.Plans f c
        · obtain ⟨source, format, plan, rfl, hframe⟩ := hc
          exact Or.inr ⟨source, _, calls, [], format, plan, rfl, Prod.ext hframe rfl, hnothing⟩
        · exact Or.inl ⟨hc, hnothing⟩
      · obtain ⟨before, format, plan, rfl, hframe, hsince⟩ := hlast
        exact Or.inr ⟨source, last, since, c :: before, format, plan, rfl, hframe, hsince⟩

/-- A call that is no planned frame keeps the ring and the source size, and it remembers
that the ring is to be cleared. -/
theorem keeps_of_not_plans (h : ¬ s.Plans f c) :
    (s.call f c).2.history = s.history ∧ (s.call f c).2.sourceSize = s.sourceSize ∧
      ((s.call f c).2.clearsHistory = true ↔ s.clearsHistory = true ∨ c = .clearHistory) := by
  cases c with
  | frame source format =>
      rcases hframe : s.beginFrame f source format with ⟨e | plan, s'⟩
      · have hcall : (s.call f (.frame source format)).2 = s' := by simp [call, hframe]
        rw [hcall, beginFrame_error hframe]
        simp
      · exact absurd ⟨source, format, plan, rfl, by rw [hframe]⟩ h
  | resize viewport =>
      simp [call, resize_eq]
  | reload shader => simp [call, reload]
  | clearHistory => simp [call, clearHistory]

theorem keeps_of_plansNothing (h : s.PlansNothing f calls) :
    (s.run f calls).history = s.history ∧ (s.run f calls).sourceSize = s.sourceSize ∧
      ((s.run f calls).clearsHistory = true ↔
        s.clearsHistory = true ∨ .clearHistory ∈ calls) := by
  induction calls generalizing s with
  | nil => simp
  | cons c calls ih =>
      obtain ⟨hc, hrest⟩ := h
      obtain ⟨hhistory, hsize, hclears⟩ := keeps_of_not_plans hc
      obtain ⟨hhistory', hsize', hclears'⟩ := ih hrest
      rw [run_cons]
      refine ⟨hhistory'.trans hhistory, hsize'.trans hsize, ?_⟩
      rw [hclears', hclears, List.mem_cons, or_assoc, eq_comm (a := c)]

end Scheduler

end ShaderChain
