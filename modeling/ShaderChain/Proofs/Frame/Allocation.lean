import ShaderChain.Frame.Pair
import ShaderChain.Proofs.Frame.Request

/-!
# Allocating target pairs

Each pass asks for a texture for its output and then for one for its feedback, and the
passes ask in order. `TargetPair.allocateAll` reports what the factory makes of all these
requests. A pass whose requests are all met comes out settled, every target that a pass
holds afterwards was there before or meets the plan, and a pass whose pair is wanted as a
whole keeps it exactly if no texture is created for it.
-/

namespace ShaderChain

variable {σ τ ε : Type}

namespace TargetPair

variable {f : Factory σ τ ε} {renew : Bool} {plan : PassPlan} {plans : List PassPlan}
  {p q : TargetPair τ} {pairs : List (TargetPair τ)} {s : σ} {i : Nat}

/-- The targets of a pass that are there. -/
def targets (p : TargetPair τ) : List (Target τ) := p.output.toList ++ p.feedback.toList

theorem mem_targets {t : Target τ} :
    t ∈ p.targets ↔ p.output = some t ∨ p.feedback = some t := by
  simp [targets]

theorem mem_targets_swap {t : Target τ} : t ∈ p.swap.targets ↔ t ∈ p.targets := by
  rw [mem_targets, mem_targets]
  exact or_comm

/-- What a pass asks for. -/
def requests (renew : Bool) (plan : PassPlan) (p : TargetPair τ) : List TargetSpec :=
  Target.requests renew (plan.target = .intermediate) plan.spec p.output ++
    Target.requests renew plan.isFeedback plan.spec p.feedback

/-- How a pass comes out of a frame that is not refused. -/
structure Settled (renew : Bool) (plan : PassPlan) (old new : TargetPair τ) : Prop where
  output : Target.Settled renew (plan.target = .intermediate) plan.spec old.output new.output
  feedback : Target.Settled renew plan.isFeedback plan.spec old.feedback new.feedback

section Allocate

/-- The first half of an allocation: the output. -/
def provideOutput (f : Factory σ τ ε) (renew : Bool) (plan : PassPlan) (p : TargetPair τ)
    (s : σ) : Allocation σ ε (Option (Target τ)) :=
  Target.provide f renew (plan.target = .intermediate) plan.spec p.output s

/-- The second half of an allocation: the feedback. -/
def provideFeedback (f : Factory σ τ ε) (renew : Bool) (plan : PassPlan) (p : TargetPair τ)
    (s : σ) : Allocation σ ε (Option (Target τ)) :=
  Target.provide f renew plan.isFeedback plan.spec p.feedback s

theorem allocate_of_error {e : ε} (h : (p.provideOutput f renew plan s).result = .error e) :
    p.allocate f renew plan s =
      ⟨.error e, ⟨(p.provideOutput f renew plan s).value, p.feedback⟩,
        (p.provideOutput f renew plan s).factory⟩ := by
  unfold provideOutput at h ⊢
  simp only [allocate, h]

theorem allocate_of_ok {b : Bool} (h : (p.provideOutput f renew plan s).result = .ok b) :
    p.allocate f renew plan s =
      let feedback := p.provideFeedback f renew plan (p.provideOutput f renew plan s).factory
      ⟨feedback.result.map (b || ·), ⟨(p.provideOutput f renew plan s).value, feedback.value⟩,
        feedback.factory⟩ := by
  unfold provideOutput at h
  simp only [allocate, h, provideOutput, provideFeedback]

/-- The output's requests are all met exactly if the first half is not refused. -/
theorem refusal_of_provideOutput_ok {b : Bool}
    (h : (p.provideOutput f renew plan s).result = .ok b) :
    (f.serve (Target.requests renew (plan.target = .intermediate) plan.spec p.output) s).refusal
      = none := by
  rw [provideOutput, Target.result_provide] at h
  exact Service.refusal_of_result_ok h

theorem refusal_of_provideOutput_error {e : ε}
    (h : (p.provideOutput f renew plan s).result = .error e) :
    (f.serve (Target.requests renew (plan.target = .intermediate) plan.spec p.output) s).refusal
      = some e := by
  rw [provideOutput, Target.result_provide, Service.result_eq_error_iff] at h
  exact h

theorem result_allocate :
    (p.allocate f renew plan s).result =
      (f.serve (p.requests renew plan) s).result (p.requests renew plan) := by
  unfold requests
  cases ho : (p.provideOutput f renew plan s).result with
  | error e =>
      have hr := refusal_of_provideOutput_error ho
      rw [allocate_of_error ho, Factory.serve_append_of_refusal hr]
      exact (Service.result_eq_error_iff.2 hr).symm
  | ok b =>
      have hr := refusal_of_provideOutput_ok ho
      have hb : b = decide (Target.requests renew (plan.target = .intermediate) plan.spec
          p.output ≠ []) := by
        rw [provideOutput, Target.result_provide, Service.result, hr] at ho
        exact (Except.ok.inj ho).symm
      rw [allocate_of_ok ho, Factory.result_serve_append hr, hb]
      simp only [provideFeedback, provideOutput, Target.result_provide, Target.factory_provide]

theorem factory_allocate :
    (p.allocate f renew plan s).factory = (f.serve (p.requests renew plan) s).factory := by
  unfold requests
  cases ho : (p.provideOutput f renew plan s).result with
  | error e =>
      rw [allocate_of_error ho,
        Factory.serve_append_of_refusal (refusal_of_provideOutput_error ho)]
      exact Target.factory_provide
  | ok b =>
      rw [allocate_of_ok ho, Factory.serve_append_of_served (refusal_of_provideOutput_ok ho)]
      simp only [provideFeedback, provideOutput, Target.factory_provide]

theorem settled_allocate {b : Bool} (h : (p.allocate f renew plan s).result = .ok b) :
    Settled renew plan p (p.allocate f renew plan s).value := by
  cases ho : (p.provideOutput f renew plan s).result with
  | error e =>
      rw [allocate_of_error ho] at h
      cases h
  | ok a =>
      rw [allocate_of_ok ho] at h ⊢
      cases hf : (p.provideFeedback f renew plan (p.provideOutput f renew plan s).factory).result
        with
      | error e =>
          simp only [hf] at h
          cases h
      | ok c => exact ⟨Target.settled_provide ho, Target.settled_provide hf⟩

/-- Whatever is refused, a target of a pass was there before or meets the plan. -/
theorem mem_targets_allocate {t : Target τ} (h : t ∈ (p.allocate f renew plan s).value.targets) :
    t ∈ p.targets ∨ t.spec = plan.spec := by
  rw [mem_targets] at h ⊢
  cases ho : (p.provideOutput f renew plan s).result with
  | error e =>
      rw [allocate_of_error ho] at h
      rcases h with h | h
      · exact (Target.mem_provide h).imp_left Or.inl
      · exact Or.inl (Or.inr h)
  | ok a =>
      rw [allocate_of_ok ho] at h
      rcases h with h | h
      · exact (Target.mem_provide h).imp_left Or.inl
      · exact (Target.mem_provide h).imp_left Or.inr

/-- A pass whose two targets are wanted keeps them exactly if no texture is created for
it. -/
theorem value_allocate_eq_iff (ho : plan.target = .intermediate) (hf : plan.isFeedback = true) :
    (p.allocate f renew plan s).value = p ↔
      (f.serve (p.requests renew plan) s).textures = [] := by
  have hout : (p.provideOutput f renew plan s).value = p.output ↔ _ :=
    Target.value_provide_eq_iff (decide_eq_true ho)
  unfold requests
  cases hr : (p.provideOutput f renew plan s).result with
  | error e =>
      rw [allocate_of_error hr,
        Factory.serve_append_of_refusal (refusal_of_provideOutput_error hr), ← hout]
      cases p
      simp
  | ok b =>
      have hfed : (p.provideFeedback f renew plan (p.provideOutput f renew plan s).factory).value =
          p.feedback ↔ _ := Target.value_provide_eq_iff hf
      rw [allocate_of_ok hr, Factory.serve_append_of_served (refusal_of_provideOutput_ok hr),
        List.append_eq_nil_iff, ← hout, ← Target.factory_provide, ← provideOutput, ← hfed]
      cases p
      simp

end Allocate

section AllocateAll

/-- What each pass asks for. -/
def requestsOf (renew : Bool) (plans : List PassPlan) (pairs : List (TargetPair τ)) :
    List (List TargetSpec) :=
  List.zipWith (fun plan p => p.requests renew plan) plans pairs

@[simp] theorem requestsOf_nil : requestsOf renew [] pairs = [] := rfl

theorem requestsOf_cons_cons :
    requestsOf renew (plan :: plans) (p :: pairs) =
      p.requests renew plan :: requestsOf renew plans pairs := rfl

theorem allocateAll_cons_of_error {e : ε} (h : (p.allocate f renew plan s).result = .error e) :
    allocateAll f renew (plan :: plans) (p :: pairs) s =
      ⟨.error e, (p.allocate f renew plan s).value :: pairs,
        (p.allocate f renew plan s).factory⟩ := by
  simp only [allocateAll, h]

theorem allocateAll_cons_of_ok {b : Bool} (h : (p.allocate f renew plan s).result = .ok b) :
    allocateAll f renew (plan :: plans) (p :: pairs) s =
      let others := allocateAll f renew plans pairs (p.allocate f renew plan s).factory
      ⟨others.result.map (b || ·), (p.allocate f renew plan s).value :: others.value,
        others.factory⟩ := by
  simp only [allocateAll, h]

/-- The first pass is always allocated, whatever is refused. -/
theorem getElem?_zero_allocateAll :
    (allocateAll f renew (plan :: plans) (p :: pairs) s).value[0]? =
      some (p.allocate f renew plan s).value := by
  cases h : (p.allocate f renew plan s).result with
  | error e =>
      rw [allocateAll_cons_of_error h]
      rfl
  | ok b =>
      rw [allocateAll_cons_of_ok h]
      rfl

theorem refusal_of_allocate_ok {b : Bool} (h : (p.allocate f renew plan s).result = .ok b) :
    (f.serve (p.requests renew plan) s).refusal = none := by
  rw [result_allocate] at h
  exact Service.refusal_of_result_ok h

theorem refusal_of_allocate_error {e : ε} (h : (p.allocate f renew plan s).result = .error e) :
    (f.serve (p.requests renew plan) s).refusal = some e := by
  rw [result_allocate, Service.result_eq_error_iff] at h
  exact h

@[simp] theorem length_allocateAll (f : Factory σ τ ε) (renew : Bool) (plans : List PassPlan)
    (pairs : List (TargetPair τ)) (s : σ) :
    (allocateAll f renew plans pairs s).value.length = pairs.length := by
  induction plans generalizing pairs s with
  | nil => rfl
  | cons plan plans ih =>
      cases pairs with
      | nil => rfl
      | cons p pairs =>
          cases h : (p.allocate f renew plan s).result with
          | error e => rw [allocateAll_cons_of_error h, List.length_cons, List.length_cons]
          | ok b => rw [allocateAll_cons_of_ok h, List.length_cons, List.length_cons, ih]

/-- What is reported of all passes is what the factory makes of all their requests. -/
theorem result_allocateAll (f : Factory σ τ ε) (renew : Bool) (plans : List PassPlan)
    (pairs : List (TargetPair τ)) (s : σ) :
    (allocateAll f renew plans pairs s).result =
      (f.serve (requestsOf renew plans pairs).flatten s).result
        (requestsOf renew plans pairs).flatten := by
  induction plans generalizing pairs s with
  | nil => rfl
  | cons plan plans ih =>
      cases pairs with
      | nil => rfl
      | cons p pairs =>
          rw [requestsOf_cons_cons, List.flatten_cons]
          cases h : (p.allocate f renew plan s).result with
          | error e =>
              have hr := refusal_of_allocate_error h
              rw [allocateAll_cons_of_error h, Factory.serve_append_of_refusal hr]
              exact (Service.result_eq_error_iff.2 hr).symm
          | ok b =>
              have hr := refusal_of_allocate_ok h
              have hb : b = decide (p.requests renew plan ≠ []) := by
                rw [result_allocate, Service.result, hr] at h
                exact (Except.ok.inj h).symm
              rw [allocateAll_cons_of_ok h, Factory.result_serve_append hr, hb,
                ← factory_allocate, ← ih]

theorem factory_allocateAll (f : Factory σ τ ε) (renew : Bool) (plans : List PassPlan)
    (pairs : List (TargetPair τ)) (s : σ) :
    (allocateAll f renew plans pairs s).factory =
      (f.serve (requestsOf renew plans pairs).flatten s).factory := by
  induction plans generalizing pairs s with
  | nil => rfl
  | cons plan plans ih =>
      cases pairs with
      | nil => rfl
      | cons p pairs =>
          rw [requestsOf_cons_cons, List.flatten_cons]
          cases h : (p.allocate f renew plan s).result with
          | error e =>
              rw [allocateAll_cons_of_error h,
                Factory.serve_append_of_refusal (refusal_of_allocate_error h), factory_allocate]
          | ok b =>
              rw [allocateAll_cons_of_ok h,
                Factory.serve_append_of_served (refusal_of_allocate_ok h), ← factory_allocate,
                ← ih]

/-- If nothing is refused, every pass comes out settled. -/
theorem settled_allocateAll {b : Bool} (h : (allocateAll f renew plans pairs s).result = .ok b)
    (hplan : plans[i]? = some plan) (hp : pairs[i]? = some p) :
    ∃ q, (allocateAll f renew plans pairs s).value[i]? = some q ∧ Settled renew plan p q := by
  induction plans generalizing pairs s i b with
  | nil => cases hplan
  | cons head plans ih =>
      cases pairs with
      | nil => cases hp
      | cons p' pairs =>
          cases hr : (p'.allocate f renew head s).result with
          | error e =>
              rw [allocateAll_cons_of_error hr] at h
              cases h
          | ok c =>
              rw [allocateAll_cons_of_ok hr] at h ⊢
              cases i with
              | zero =>
                  cases hplan
                  cases hp
                  exact ⟨_, rfl, settled_allocate hr⟩
              | succ i =>
                  cases ho : (allocateAll f renew plans pairs
                      (p'.allocate f renew head s).factory).result with
                  | error e =>
                      simp only [ho] at h
                      cases h
                  | ok d => exact ih ho hplan hp

/-- Whatever is refused, a target of a pass was there before or meets the plan. -/
theorem mem_targets_allocateAll {t : Target τ}
    (hq : (allocateAll f renew plans pairs s).value[i]? = some q) (ht : t ∈ q.targets) :
    (∃ p, pairs[i]? = some p ∧ t ∈ p.targets) ∨
      ∃ plan, plans[i]? = some plan ∧ t.spec = plan.spec := by
  induction plans generalizing pairs s i with
  | nil => exact Or.inl ⟨q, hq, ht⟩
  | cons head plans ih =>
      cases pairs with
      | nil => cases hq
      | cons p pairs =>
          cases i with
          | zero =>
              obtain rfl := Option.some.inj (getElem?_zero_allocateAll.symm.trans hq)
              rcases mem_targets_allocate ht with h | h
              · exact Or.inl ⟨p, rfl, h⟩
              · exact Or.inr ⟨head, rfl, h⟩
          | succ i =>
              cases hr : (p.allocate f renew head s).result with
              | error e =>
                  rw [allocateAll_cons_of_error hr] at hq
                  exact Or.inl ⟨q, hq, ht⟩
              | ok b =>
                  rw [allocateAll_cons_of_ok hr] at hq
                  exact ih hq

/-- A pass whose two targets are wanted keeps them exactly if it asks for nothing or if
the factory meets none of its requests before a refusal. -/
theorem getElem?_allocateAll_eq_iff (f : Factory σ τ ε) (renew : Bool) (s : σ)
    (hplan : plans[i]? = some plan) (hp : pairs[i]? = some p) (ho : plan.target = .intermediate)
    (hf : plan.isFeedback = true) :
    (allocateAll f renew plans pairs s).value[i]? = some p ↔
      p.requests renew plan = [] ∨
        (f.serve (requestsOf renew plans pairs).flatten s).textures.length ≤
          ((requestsOf renew plans pairs).take i).flatten.length := by
  induction plans generalizing pairs s i with
  | nil => cases hplan
  | cons head plans ih =>
      cases pairs with
      | nil => cases hp
      | cons p' pairs =>
          rw [requestsOf_cons_cons, List.flatten_cons]
          cases i with
          | zero =>
              cases hplan
              cases hp
              rw [getElem?_zero_allocateAll, Option.some_inj, value_allocate_eq_iff ho hf,
                Factory.textures_serve_eq_nil_iff f _ (requestsOf renew plans pairs).flatten]
              simp
          | succ i =>
              rw [List.take_succ_cons, List.flatten_cons, List.length_append]
              cases hr : (p'.allocate f renew head s).result with
              | error e =>
                  -- what is created stops in front of the pass, which stays as it is
                  have hle := Factory.length_textures_le f (p'.requests renew head) s
                  rw [allocateAll_cons_of_error hr,
                    Factory.serve_append_of_refusal (refusal_of_allocate_error hr)]
                  exact iff_of_true hp (Or.inr (Nat.le_trans hle (Nat.le_add_right _ _)))
              | ok b =>
                  have hserved := refusal_of_allocate_ok hr
                  rw [allocateAll_cons_of_ok hr, Factory.serve_append_of_served hserved,
                    List.length_append, Factory.length_textures_of_served hserved,
                    Nat.add_le_add_iff_left, ← factory_allocate]
                  exact ih _ hplan hp

end AllocateAll

end TargetPair

end ShaderChain
