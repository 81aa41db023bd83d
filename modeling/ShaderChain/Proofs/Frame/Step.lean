import ShaderChain.Frame.Scheduler
import ShaderChain.Proofs.Frame.Allocation
import ShaderChain.Proofs.Frame.Planning

/-!
# One frame

A frame finds the pairs of the passes swapped, one for each pass, and allocates them.
Then it stages the ring of earlier inputs. If neither is refused the frame is planned, and
if one is, the pairs are swapped back. `Scheduler.requests` lists what the frame asks for,
and its outcome is what the factory makes of this list.
-/

namespace ShaderChain

variable {σ τ ε : Type}

namespace TargetPair

variable {passes : List CompiledPass} {pass : CompiledPass} {pairs : List (TargetPair τ)}
  {p : TargetPair τ} {i : Nat}

theorem getElem?_swapLate (passes : List CompiledPass) (pairs : List (TargetPair τ)) (i : Nat) :
    (swapLate passes pairs)[i]? =
      (pairs[i]?).map fun p => if passes[i]?.any (·.isFeedback) then p.swap else p := by
  induction passes generalizing pairs i with
  | nil => cases pairs <;> simp [swapLate]
  | cons pass passes ih =>
      cases pairs with
      | nil => simp [swapLate]
      | cons p pairs =>
          cases i with
          | zero => simp [swapLate]
          | succ i =>
              rw [swapLate, List.getElem?_cons_succ, List.getElem?_cons_succ,
                List.getElem?_cons_succ]
              exact ih pairs i

theorem getElem?_fit {count : Nat} (h : i < count) (pairs : List (TargetPair τ)) :
    (fit count pairs)[i]? = some (pairs[i]?.getD empty) := by
  unfold fit
  by_cases hi : i < pairs.length
  · rw [List.getElem?_append_left (by rw [List.length_take]; omega), List.getElem?_take_of_lt h,
      List.getElem?_eq_getElem hi, Option.getD_some]
  · rw [List.getElem?_append_right (by rw [List.length_take]; omega), List.length_take,
      List.getElem?_replicate_of_lt (by omega),
      List.getElem?_eq_none (by omega), Option.getD_none]

end TargetPair

namespace Scheduler

variable {f : Factory σ τ ε} {s s' : Scheduler σ τ} {source : Extent} {format : PixelFormat}
  {plan : FramePlan} {pass : CompiledPass} {i : Nat} {e : ε}

/-- A resizing changes nothing but the viewport, and notes whether it did. -/
theorem resize_eq (s : Scheduler σ τ) (viewport : Extent) :
    s.resize viewport =
      { s with viewport := viewport, isDirty := s.isDirty || s.viewport ≠ viewport } := by
  unfold resize
  split
  · next hsame => simp [← hsame]
  · next hnew => simp [hnew]

/-- The targets of pass `i`. -/
def pairAt (s : Scheduler σ τ) (i : Nat) : TargetPair τ := s.pairs[i]?.getD .empty

theorem output?_eq (s : Scheduler σ τ) (i : Nat) : s.output? i = (s.pairAt i).output := by
  unfold output? pairAt
  cases s.pairs[i]? <;> rfl

theorem feedback?_eq (s : Scheduler σ τ) (i : Nat) : s.feedback? i = (s.pairAt i).feedback := by
  unfold feedback? pairAt
  cases s.pairs[i]? <;> rfl

theorem pairAt_eq_iff :
    s'.pairAt i = s.pairAt i ↔ s'.output? i = s.output? i ∧ s'.feedback? i = s.feedback? i := by
  rw [output?_eq, output?_eq, feedback?_eq, feedback?_eq]
  cases s'.pairAt i
  cases s.pairAt i
  simp

theorem mem_targets_pairAt {t : Target τ} :
    t ∈ (s.pairAt i).targets ↔ s.output? i = some t ∨ s.feedback? i = some t := by
  rw [TargetPair.mem_targets, output?_eq, feedback?_eq]

theorem mem_targets_ite_swap {late : Bool} {p : TargetPair τ} {t : Target τ} :
    t ∈ (if late then p.swap else p).targets ↔ t ∈ p.targets := by
  cases late with
  | true => exact TargetPair.mem_targets_swap
  | false => exact Iff.rfl

theorem needsRenewal_eq_false_iff :
    s.needsRenewal source = false ↔ s.isDirty = false ∧ s.sourceSize = some source := by
  rw [needsRenewal, Bool.or_eq_false_iff, decide_eq_false_iff_not,
    Decidable.not_not]

/-- The pairs of the passes as the next frame finds them. -/
def stagedPairs (s : Scheduler σ τ) : List (TargetPair τ) :=
  TargetPair.fit s.shader.passes.length (TargetPair.swapLate s.shader.passes s.pairs)

@[simp] theorem length_stagedPairs (s : Scheduler σ τ) :
    s.stagedPairs.length = s.shader.passes.length :=
  TargetPair.length_fit _ _

theorem getElem?_stagedPairs (h : s.shader.passes[i]? = some pass) :
    s.stagedPairs[i]? =
      some (if pass.isFeedback then (s.pairAt i).swap else s.pairAt i) := by
  have hlt : i < s.shader.passes.length := (List.getElem?_eq_some_iff.1 h).1
  unfold stagedPairs pairAt
  rw [TargetPair.getElem?_fit hlt, TargetPair.getElem?_swapLate, h]
  cases s.pairs[i]? with
  | none => cases pass.isFeedback <;> rfl
  | some p => cases hf : pass.isFeedback <;> simp [hf]

/-- What the next frame allocates for its passes. -/
def allocation (f : Factory σ τ ε) (s : Scheduler σ τ) (source : Extent)
    (format : PixelFormat) : Allocation σ ε (List (TargetPair τ)) :=
  TargetPair.allocateAll f (s.needsRenewal source) (s.plan source format) s.stagedPairs s.factory

/-- How the ring of earlier inputs changes in the next frame. -/
def historyChange (f : Factory σ τ ε) (s : Scheduler σ τ) (source : Extent)
    (format : PixelFormat) : Except ε (HistoryUpdate τ) × σ :=
  HistoryUpdate.stage f s.history s.ringLength source s.clearsHistory
    (s.allocation f source format).factory

/-- What the passes of the next frame ask for. -/
def passRequests (s : Scheduler σ τ) (source : Extent) (format : PixelFormat) :
    List (List TargetSpec) :=
  TargetPair.requestsOf (s.needsRenewal source) (s.plan source format) s.stagedPairs

/-- What the next frame asks for: the textures of the passes, then those of the ring. -/
def requests (s : Scheduler σ τ) (source : Extent) (format : PixelFormat) : List TargetSpec :=
  (s.passRequests source format).flatten ++
    HistoryUpdate.requests s.history s.ringLength source

theorem beginFrame_eq (f : Factory σ τ ε) (s : Scheduler σ τ) (source : Extent)
    (format : PixelFormat) :
    s.beginFrame f source format =
      match (s.allocation f source format).result, s.historyChange f source format with
      | .error e, _ =>
          (.error e, { s with
            pairs := TargetPair.swapLate s.shader.passes (s.allocation f source format).value
            factory := (s.allocation f source format).factory })
      | .ok _, (.error e, factory) =>
          (.error e, { s with
            pairs := TargetPair.swapLate s.shader.passes (s.allocation f source format).value
            factory := factory })
      | .ok resized, (.ok u, factory) =>
          (.ok ⟨s.frameCount, u.isReset, resized, s.plan source format⟩, { s with
            pairs := (s.allocation f source format).value
            factory := factory
            sourceSize := some source
            history := u.apply s.history
            frameCount := s.frameCount + 1
            isDirty := false
            clearsHistory := false }) := by
  have hallocate : s.swapLate.allocate f (s.needsRenewal source) (s.plan source format) =
      ((s.allocation f source format).result,
        { s with
          pairs := (s.allocation f source format).value
          factory := (s.allocation f source format).factory }) := rfl
  have hplan : s.swapLate.plan source format = s.plan source format := rfl
  unfold beginFrame
  simp only [hplan, hallocate]
  cases (s.allocation f source format).result with
  | error e => rfl
  | ok resized =>
      have hstage : stageHistory f { s with
            pairs := (s.allocation f source format).value
            factory := (s.allocation f source format).factory } source =
          ((s.historyChange f source format).1, { s with
            pairs := (s.allocation f source format).value
            factory := (s.historyChange f source format).2 }) := rfl
      simp only [hstage]
      rcases s.historyChange f source format with ⟨e | u, factory⟩ <;> rfl

/-- A planned frame: its targets are allocated and its ring is changed. -/
theorem beginFrame_ok (h : s.beginFrame f source format = (.ok plan, s')) :
    ∃ u factory, (s.allocation f source format).result = .ok plan.resized ∧
      s.historyChange f source format = (.ok u, factory) ∧
      plan = ⟨s.frameCount, u.isReset, plan.resized, s.plan source format⟩ ∧
      s' = { s with
        pairs := (s.allocation f source format).value
        factory := factory
        sourceSize := some source
        history := u.apply s.history
        frameCount := s.frameCount + 1
        isDirty := false
        clearsHistory := false } := by
  rw [beginFrame_eq] at h
  cases ha : (s.allocation f source format).result with
  | error e =>
      simp only [ha] at h
      cases h
  | ok resized =>
      rcases hh : s.historyChange f source format with ⟨e | u, factory⟩
      · simp only [ha, hh] at h
        cases h
      · simp only [ha, hh] at h
        cases h
        exact ⟨u, factory, rfl, rfl, rfl, rfl⟩

theorem passes_beginFrame (h : s.beginFrame f source format = (.ok plan, s')) :
    plan.passes = s.plan source format := by
  obtain ⟨u, factory, -, -, hplan, -⟩ := beginFrame_ok h
  rw [hplan]

/-- A planned frame leaves every pass settled. -/
theorem settled_beginFrame (h : s.beginFrame f source format = (.ok plan, s')) {i : Nat}
    {p : PassPlan} (hp : plan.passes[i]? = some p) :
    TargetPair.Settled (s.needsRenewal source) p
        (if p.isFeedback then (s.pairAt i).swap else s.pairAt i) (s'.pairAt i) ∧
      (p.isFeedback = true → p.target = .intermediate) := by
  obtain ⟨u, factory, halloc, -, -, hs'⟩ := beginFrame_ok h
  rw [passes_beginFrame h] at hp
  obtain ⟨pass, hpass, hfeedback, htarget⟩ := FrameSetting.exists_pass_of_getElem?_plan hp
  obtain ⟨q, hq, hsettled⟩ :=
    TargetPair.settled_allocateAll halloc hp (getElem?_stagedPairs hpass)
  refine ⟨?_, fun hf => htarget (Or.inl (hfeedback ▸ hf))⟩
  have hpairs : s'.pairs = (s.allocation f source format).value := by rw [hs']
  have hpair : s'.pairAt i = q := by
    rw [pairAt, hpairs, allocation, hq, Option.getD_some]
  rw [hpair, hfeedback]
  exact hsettled

/-- A refused frame changes nothing but the factory and the pairs, which are swapped back
after what was allocated until the refusal. -/
theorem beginFrame_error (h : s.beginFrame f source format = (.error e, s')) :
    s' = { s with
      pairs := TargetPair.swapLate s.shader.passes (s.allocation f source format).value
      factory := s'.factory } := by
  rw [beginFrame_eq] at h
  cases ha : (s.allocation f source format).result with
  | error e =>
      simp only [ha] at h
      cases h
      rfl
  | ok resized =>
      rcases hh : s.historyChange f source format with ⟨e | u, factory⟩
      · simp only [ha, hh] at h
        cases h
        rfl
      · simp only [ha, hh] at h
        cases h

/-- Behind a refused frame, the pair of a pass is the allocated one, swapped back. -/
theorem pairAt_beginFrame_error (h : s.beginFrame f source format = (.error e, s'))
    (hpass : s.shader.passes[i]? = some pass) :
    ∃ q, (s.allocation f source format).value[i]? = some q ∧
      s'.pairAt i = if pass.isFeedback then q.swap else q := by
  have hlt : i < (s.allocation f source format).value.length := by
    rw [allocation, TargetPair.length_allocateAll, length_stagedPairs]
    exact (List.getElem?_eq_some_iff.1 hpass).1
  have hq := List.getElem?_eq_getElem hlt
  have hpairs : s'.pairs =
      TargetPair.swapLate s.shader.passes (s.allocation f source format).value := by
    rw [beginFrame_error h]
  refine ⟨_, hq, ?_⟩
  rw [pairAt, hpairs, TargetPair.getElem?_swapLate, hq, hpass, Option.map_some,
    Option.getD_some, Option.any_some]

/-- Whatever is refused, a target of a pass was there before or meets the frame's plan. -/
theorem mem_targets_beginFrame_error (h : s.beginFrame f source format = (.error e, s'))
    {p : PassPlan} (hp : (s.plan source format)[i]? = some p) {t : Target τ}
    (ht : t ∈ (s'.pairAt i).targets) : t ∈ (s.pairAt i).targets ∨ t.spec = p.spec := by
  obtain ⟨pass, hpass, -, -⟩ := FrameSetting.exists_pass_of_getElem?_plan hp
  obtain ⟨q, hq, hpair⟩ := pairAt_beginFrame_error h hpass
  rw [hpair, mem_targets_ite_swap] at ht
  rcases TargetPair.mem_targets_allocateAll hq ht with ⟨p₀, hp₀, ht₀⟩ | ⟨p', hp', ht'⟩
  · left
    rw [getElem?_stagedPairs hpass] at hp₀
    cases hp₀
    exact mem_targets_ite_swap.1 ht₀
  · cases hp.symm.trans hp'
    exact Or.inr ht'

section Requests

theorem factory_allocation (f : Factory σ τ ε) (s : Scheduler σ τ) (source : Extent)
    (format : PixelFormat) :
    (s.allocation f source format).factory =
      (f.serve (s.passRequests source format).flatten s.factory).factory :=
  TargetPair.factory_allocateAll _ _ _ _ _

theorem refusal_of_allocation_error (h : (s.allocation f source format).result = .error e) :
    (f.serve (s.passRequests source format).flatten s.factory).refusal = some e := by
  rw [allocation, TargetPair.result_allocateAll, Service.result_eq_error_iff] at h
  exact h

theorem refusal_of_allocation_ok {resized : Bool}
    (h : (s.allocation f source format).result = .ok resized) :
    (f.serve (s.passRequests source format).flatten s.factory).refusal = none := by
  rw [allocation, TargetPair.result_allocateAll] at h
  exact Service.refusal_of_result_ok h

/-- A frame is refused exactly if the factory refuses one of its requests. -/
theorem beginFrame_eq_error_iff :
    (s.beginFrame f source format).1 = .error e ↔
      (f.serve (s.requests source format) s.factory).refusal = some e := by
  rw [beginFrame_eq, requests]
  cases ha : (s.allocation f source format).result with
  | error e' =>
      have hr := refusal_of_allocation_error ha
      rw [Factory.serve_append_of_refusal hr, hr]
      simp
  | ok resized =>
      rw [Factory.serve_append_of_served (refusal_of_allocation_ok ha), ← factory_allocation,
        ← HistoryUpdate.stage_eq_error_iff, ← historyChange]
      rcases s.historyChange f source format with ⟨e' | u, factory⟩ <;> simp

/-- A frame whose requests are all served is planned. -/
theorem exists_beginFrame_ok
    (h : (f.serve (s.requests source format) s.factory).refusal = none) :
    ∃ plan s', s.beginFrame f source format = (.ok plan, s') := by
  rcases hframe : s.beginFrame f source format with ⟨e | plan, s'⟩
  · have herror : (s.beginFrame f source format).1 = .error e := by rw [hframe]
    rw [beginFrame_eq_error_iff.1 herror] at h
    cases h
  · exact ⟨plan, s', rfl⟩

/-- A frame leaves the factory behind its requests, up to the first one that is refused. -/
theorem factory_beginFrame (f : Factory σ τ ε) (s : Scheduler σ τ) (source : Extent)
    (format : PixelFormat) :
    (s.beginFrame f source format).2.factory =
      (f.serve (s.requests source format) s.factory).factory := by
  rw [beginFrame_eq, requests]
  cases ha : (s.allocation f source format).result with
  | error e =>
      rw [Factory.serve_append_of_refusal (refusal_of_allocation_error ha)]
      exact factory_allocation f s source format
  | ok resized =>
      rw [Factory.serve_append_of_served (refusal_of_allocation_ok ha), ← factory_allocation,
        ← HistoryUpdate.factory_stage s.clearsHistory, ← historyChange]
      rcases s.historyChange f source format with ⟨e | u, factory⟩ <;> rfl

end Requests

end Scheduler

end ShaderChain
