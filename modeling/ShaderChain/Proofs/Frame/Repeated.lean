import Mathlib.Data.List.Forall2
import ShaderChain.Proofs.Frame.Presence
import ShaderChain.Proofs.Frame.Ring

/-!
# A frame planned again

A planned frame leaves every target behind that it wanted, and the ring of earlier inputs as
long and as large as it wanted it. A frame that does not renew its targets asks only for those
that are not there. So a frame of the same source and the same output format right behind a
planned one asks the factory for nothing: it cannot be refused, whatever the factory is, and
its plan differs from the one before in the frame counts alone. What has been refused before
the planned frame does not matter, as a planned frame has all of its targets whichever of them
it found.
-/

namespace ShaderChain

variable {σ τ ε : Type}

/-- Whether the plan `q` of a pass differs from the plan `p` in the frame count alone. -/
def PassPlan.IsRecount (p q : PassPlan) : Prop := q = { p with frameCount := q.frameCount }

/-- Settings that differ in the frame count alone plan all but the frame counts alike. -/
theorem FrameSetting.forall₂_isRecount_planFrom (f : FrameSetting) (frameCount : UInt64)
    (index : Nat) (source : Extent) (passes : List CompiledPass) :
    List.Forall₂ PassPlan.IsRecount (f.planFrom index source passes)
      ({ f with frameCount := frameCount }.planFrom index source passes) := by
  induction passes generalizing index source with
  | nil => exact .nil
  | cons pass rest ih => exact .cons rfl (ih (index + 1) _)

/-- Without renewal a slot asks for nothing if its target is there or not wanted. -/
theorem Target.requests_of_isSome {wanted : Bool} {slot : Option (Target τ)} (spec : TargetSpec)
    (h : wanted = true → slot.isSome) : requests false wanted spec slot = [] := by
  apply requests_of_not_isDue
  cases slot with
  | none => simpa [isDue] using h
  | some t => simp [isDue]

namespace TargetPair

variable {renew : Bool} {plan : PassPlan} {plans : List PassPlan} {p : TargetPair τ}
  {pairs : List (TargetPair τ)}

/-- Without renewal a pass asks for nothing if the targets that its plan wants are there. -/
theorem requests_of_isSome (houtput : plan.target = .intermediate → p.output.isSome)
    (hfeedback : plan.isFeedback = true → p.feedback.isSome) : p.requests false plan = [] := by
  rw [requests, Target.requests_of_isSome _ fun h => houtput (of_decide_eq_true h),
    Target.requests_of_isSome _ hfeedback, List.append_nil]

/-- The passes ask for nothing if none of them does. -/
theorem flatten_requestsOf_eq_nil
    (h : ∀ (i : Nat) (plan : PassPlan) (p : TargetPair τ), plans[i]? = some plan →
      pairs[i]? = some p → p.requests renew plan = []) :
    (requestsOf renew plans pairs).flatten = [] := by
  rw [List.flatten_eq_nil_iff]
  intro specs hspecs
  obtain ⟨i, hi⟩ := List.mem_iff_getElem?.1 hspecs
  obtain ⟨plan, p, hplan, hp, rfl⟩ := List.getElem?_zipWith_eq_some.1 hi
  exact h i plan p hplan hp

end TargetPair

/-- A chain whose first pass is of a fixed size and read a frame late, with a history. -/
def CompiledShader.fixedLateRemembering : CompiledShader :=
  { CompiledShader.fixedLate 2 with historyCount := 1 }

namespace Scheduler

variable {f : Factory σ τ ε} {s s' : Scheduler σ τ} {source : Extent} {format : PixelFormat}
  {plan : FramePlan} {calls : List Call}

/-- A frame that asks for nothing is planned whatever the factory is, and leaves the factory as
it is. -/
theorem beginFrame_of_requests_eq_nil (f : Factory σ τ ε) (h : s.requests source format = []) :
    ∃ plan s', s.beginFrame f source format = (.ok plan, s') ∧ s'.factory = s.factory ∧
      plan.resized = false := by
  have hserved : (f.serve (s.requests source format) s.factory).refusal = none := by
    rw [h, Factory.serve_nil]
  obtain ⟨plan, s', hframe⟩ := exists_beginFrame_ok hserved
  have hfactory := factory_beginFrame f s source format
  rw [h, hframe, Factory.serve_nil] at hfactory
  obtain ⟨hpasses, -⟩ := List.append_eq_nil_iff.1 h
  obtain ⟨u, factory, halloc, -, -, -⟩ := beginFrame_ok hframe
  rw [allocation, TargetPair.result_allocateAll, ← passRequests, hpasses] at halloc
  exact ⟨plan, s', hframe, hfactory, (Except.ok.inj halloc).symm⟩

/-- The scheduler, asked to clear its ring in the next frame or not. -/
def askedToClear (s : Scheduler σ τ) (clears : Bool) : Scheduler σ τ :=
  { s with clearsHistory := clears }

/-- Requests to clear and resizings to the viewport that is there change nothing but whether
the ring is to be cleared. -/
theorem run_eq_askedToClear (f : Factory σ τ ε)
    (h : ∀ c ∈ calls, c = .clearHistory ∨ c = .resize s.viewport) :
    ∃ clears, s.run f calls = s.askedToClear clears := by
  induction calls generalizing s with
  | nil => exact ⟨s.clearsHistory, rfl⟩
  | cons c calls ih =>
      have hcall : ∃ clears, (s.call f c).2 = s.askedToClear clears := by
        rcases h c List.mem_cons_self with rfl | rfl
        · exact ⟨true, rfl⟩
        · exact ⟨s.clearsHistory, if_pos rfl⟩
      obtain ⟨first, hfirst⟩ := hcall
      obtain ⟨clears, hrun⟩ := ih (s := s.askedToClear first)
        fun d hd => h d (List.mem_cons_of_mem c hd)
      rw [run_cons, hfirst, hrun]
      exact ⟨clears, rfl⟩

section Planned

variable (h : s.beginFrame f source format = (.ok plan, s')) (clears : Bool)

include h

/-- A frame behind a planned one that it repeats is planned with other frame counts. -/
theorem forall₂_isRecount_plan :
    List.Forall₂ PassPlan.IsRecount plan.passes
      ((s'.askedToClear clears).plan source format) := by
  rw [passes_beginFrame h]
  obtain ⟨u, factory, -, -, -, rfl⟩ := beginFrame_ok h
  exact (s.setting format).forall₂_isRecount_planFrom (s.frameCount + 1) 0 source s.shader.passes

theorem needsRenewal_of_planned : (s'.askedToClear clears).needsRenewal source = false := by
  obtain ⟨u, factory, -, -, -, rfl⟩ := beginFrame_ok h
  rw [needsRenewal_eq_false_iff]
  exact ⟨rfl, rfl⟩

/-- Behind a planned frame the passes have the targets that the frame wants again. The pair of a
pass that is read a frame late is swapped first, but both of its targets are there. -/
theorem passRequests_of_planned :
    ((s'.askedToClear clears).passRequests source format).flatten = [] := by
  have hshader : s'.shader = s.shader := by
    obtain ⟨u, factory, -, -, -, rfl⟩ := beginFrame_ok h
    rfl
  rw [passRequests, needsRenewal_of_planned h]
  refine TargetPair.flatten_requestsOf_eq_nil fun i p pair hp hpair => ?_
  obtain ⟨pass, hpass, hplanned, htarget⟩ := FrameSetting.exists_pass_of_getElem?_plan hp
  rw [getElem?_stagedPairs hpass] at hpair
  cases hpair
  have hpair : (s'.askedToClear clears).pairAt i = s'.pairAt i := rfl
  have houtput : p.target = .intermediate → (s'.pairAt i).output.isSome := by
    intro hintermediate
    rw [← output?_eq, isSome_output?_beginFrame_ok h]
    have hrecount := forall₂_isRecount_plan h clears
    obtain ⟨hlt, rfl⟩ := List.getElem?_eq_some_iff.1 hp
    have hlt' : i < plan.passes.length := hrecount.length_eq ▸ hlt
    refine ⟨plan.passes[i], List.getElem?_eq_getElem hlt', ?_⟩
    have htarget := congrArg PassPlan.target (hrecount.get hlt' hlt)
    exact htarget.symm.trans hintermediate
  have hfeedback : pass.isFeedback = true → (s'.pairAt i).feedback.isSome := by
    intro hlate
    rw [← feedback?_eq, isSome_feedback?_beginFrame_ok h]
    exact ⟨pass, hshader ▸ hpass, hlate⟩
  rw [hpair]
  cases hlate : pass.isFeedback with
  | true =>
      rw [if_pos rfl]
      refine TargetPair.requests_of_isSome (fun _ => ?_) fun _ => ?_
      · exact hfeedback hlate
      · exact houtput (htarget (Or.inl hlate))
  | false =>
      rw [if_neg Bool.false_ne_true]
      refine TargetPair.requests_of_isSome houtput fun hread => ?_
      rw [hplanned, hlate] at hread
      cases hread

/-- Behind a planned frame the ring fits a frame of the same source. -/
theorem historyRequests_of_planned (hs : s.HasUniformRing) :
    HistoryUpdate.requests (s'.askedToClear clears).history
      (s'.askedToClear clears).ringLength source = [] := by
  have hlength : s'.history.length = (s'.askedToClear clears).ringLength := by
    rw [length_history_beginFrame_ok h]
    obtain ⟨u, factory, -, -, -, rfl⟩ := beginFrame_ok h
    rfl
  unfold HistoryUpdate.requests
  by_cases h0 : (s'.askedToClear clears).ringLength = 0
  · simp [h0]
  · have hfits : HistoryUpdate.fits s'.history (s'.askedToClear clears).ringLength source = true :=
      (HistoryUpdate.fits_iff (isUniform_beginFrame_ok h hs) h0).2 ⟨hlength, rfl⟩
    have hhistory : (s'.askedToClear clears).history = s'.history := rfl
    rw [hhistory, hfits, Bool.or_true, if_pos rfl]

theorem requests_of_planned (hs : s.HasUniformRing) :
    (s'.askedToClear clears).requests source format = [] := by
  rw [requests, passRequests_of_planned h, historyRequests_of_planned h clears hs,
    List.append_nil]

end Planned

/-- Behind a planned frame of any run, with nothing but requests to clear and resizings to the
same viewport since, a frame of the same source and output format asks for nothing: whatever the
factory is, the frame is planned, the factory stays as it is, no target is created, and the
plans of the passes differ from those before in the frame counts alone. -/
theorem beginFrame_repeated_of_run (f : Factory σ τ ε) (shader : CompiledShader)
    (options : SchedulerOptions) (factory : σ) (viewport : Extent) (calls since : List Call)
    (source : Extent) (format : PixelFormat) (plan : FramePlan) (s' : Scheduler σ τ)
    (h : ((start shader options factory viewport).run f calls).beginFrame f source format =
      (.ok plan, s'))
    (hsince : ∀ c ∈ since, c = .clearHistory ∨ c = .resize s'.viewport) :
    (s'.run f since).requests source format = [] ∧
      ∀ {ε' : Type} (g : Factory σ τ ε'), ∃ plan' s'',
        (s'.run f since).beginFrame g source format = (.ok plan', s'') ∧
          s''.factory = s'.factory ∧ plan'.resized = false ∧
            List.Forall₂ PassPlan.IsRecount plan.passes plan'.passes := by
  have hstart : (start shader options factory viewport : Scheduler σ τ).HasUniformRing := by
    intro t ht
    cases ht
  obtain ⟨clears, hrun⟩ := run_eq_askedToClear f hsince
  have hrequests := requests_of_planned h clears (hasUniformRing_run f hstart calls)
  rw [hrun]
  refine ⟨hrequests, fun g => ?_⟩
  obtain ⟨plan', s'', hframe, hfactory, hresized⟩ := beginFrame_of_requests_eq_nil g hrequests
  refine ⟨plan', s'', hframe, hfactory, hresized, ?_⟩
  rw [passes_beginFrame hframe]
  exact forall₂_isRecount_plan h clears

/-- A frame is refused its fourth texture and planned in a second try. With requests to clear and
a resizing to the same viewport behind it, the same frame is planned by a factory that refuses
everything, and its passes are counted on. -/
theorem beginFrame_repeated_refused :
    ∃ plan s' plan' s'',
      ((start .fixedLateRemembering .standard ⟨0, some 3, []⟩ ⟨8, 8⟩ :
          Scheduler TextureStock Nat).run .numbered [.frame ⟨4, 4⟩ .native]).beginFrame
            .numbered ⟨4, 4⟩ .native = (.ok plan, s') ∧
        s'.factory.created.length = 5 ∧
          (s'.run .numbered [.clearHistory, .resize ⟨8, 8⟩]).beginFrame
              ⟨fun s _ => (.error (), s)⟩ ⟨4, 4⟩ .native = (.ok plan', s'') ∧
            s''.factory = s'.factory ∧ plan'.resized = false ∧
              List.Forall₂ PassPlan.IsRecount plan.passes plan'.passes ∧
                plan'.passes.map (·.frameCount) = [1, 1, 1] := by
  refine ⟨_, _, _, _, rfl, by decide, rfl, ?_⟩
  obtain ⟨-, hframe⟩ :=
    beginFrame_repeated_of_run .numbered .fixedLateRemembering .standard ⟨0, some 3, []⟩ ⟨8, 8⟩
      [.frame ⟨4, 4⟩ .native] [.clearHistory, .resize ⟨8, 8⟩] ⟨4, 4⟩ .native _ _ rfl (by decide)
  obtain ⟨plan', s'', h, hfactory, hresized, hrecount⟩ := hframe ⟨fun s _ => (.error (), s)⟩
  cases h
  exact ⟨hfactory, hresized, hrecount, rfl⟩

end Scheduler

end ShaderChain
