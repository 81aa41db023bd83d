import Mathlib.Algebra.Order.Group.Multiset
import ShaderChain.Frame.Numbered
import ShaderChain.Frame.Run
import ShaderChain.Proofs.Frame.Step

/-!
# Textures of their own

A scheduler holds its textures in pairs and in the ring of earlier inputs. If its factory
never hands out a texture twice, no texture is held in two places. What carries this along a
run is that the textures held differ from each other and from all that the factory may hand
out from then on. Every request keeps this, whether it is met or refused, and so does every
swap, every turn of the ring and every target that is dropped.
-/

namespace ShaderChain

variable {σ τ ε : Type}

namespace Factory

variable {f : Factory σ τ ε} {s s' : σ} {spec : TargetSpec} {specs : List TargetSpec}
  {held held' : Multiset τ}

/-- The textures that a factory hands out for a list of requests, whatever it refuses among
them. -/
def handedOut (f : Factory σ τ ε) : List TargetSpec → σ → List τ
  | [], _ => []
  | spec :: rest, s =>
      match f.create s spec with
      | (.error _, s) => f.handedOut rest s
      | (.ok x, s) => x :: f.handedOut rest s

/-- What is created for some requests is created first for these and others behind them. -/
theorem textures_serve_append_le (f : Factory σ τ ε) (specs rest : List TargetSpec) (s : σ) :
    (↑(f.serve specs s).textures : Multiset τ) ≤ ↑(f.serve (specs ++ rest) s).textures := by
  cases hr : (f.serve specs s).refusal with
  | some e => rw [serve_append_of_refusal hr]
  | none =>
      rw [serve_append_of_served hr, ← Multiset.coe_add]
      exact Multiset.le_add_right _ _

/-- Whether a factory never hands out a texture twice from the given state on. -/
def NeverRepeats (f : Factory σ τ ε) (s : σ) : Prop := ∀ specs, (f.handedOut specs s).Nodup

/-- Whether textures differ from each other and from all that the factory may hand out from
the given state on. -/
def SetsAside (f : Factory σ τ ε) (s : σ) (held : Multiset τ) : Prop :=
  ∀ specs, (held + ↑(f.handedOut specs s)).Nodup

theorem setsAside_zero (h : f.NeverRepeats s) : f.SetsAside s 0 := by
  intro specs
  rw [zero_add]
  exact h specs

theorem SetsAside.nodup (h : f.SetsAside s held) : held.Nodup := by
  have := h []
  rwa [handedOut, Multiset.coe_nil, add_zero] at this

theorem SetsAside.mono (h : f.SetsAside s held) (hle : held' ≤ held) : f.SetsAside s held' :=
  fun specs => Multiset.nodup_of_le (add_le_add_left hle _) (h specs)

theorem SetsAside.create_error {e : ε} (h : f.SetsAside s held)
    (hc : f.create s spec = (.error e, s')) : f.SetsAside s' held := by
  intro specs
  have := h (spec :: specs)
  rwa [handedOut, hc] at this

/-- A texture that is handed out joins those that are set aside. -/
theorem SetsAside.create_ok {x : τ} (h : f.SetsAside s held)
    (hc : f.create s spec = (.ok x, s')) : f.SetsAside s' (x ::ₘ held) := by
  intro specs
  have hspecs := h (spec :: specs)
  rw [handedOut, hc] at hspecs
  rwa [Multiset.cons_add, ← Multiset.add_cons, Multiset.cons_coe]

/-- The textures that are created for a list of requests join those that are set aside. -/
theorem SetsAside.serve (h : f.SetsAside s held) (specs : List TargetSpec) :
    f.SetsAside (f.serve specs s).factory (held + ↑(f.serve specs s).textures) := by
  induction specs generalizing s held with
  | nil => simpa using h
  | cons spec specs ih =>
      rcases hc : f.create s spec with ⟨e | x, s'⟩
      · rw [serve_cons_of_error hc, Multiset.coe_nil, add_zero]
        exact h.create_error hc
      · rw [serve_cons_of_ok hc, ← Multiset.cons_coe, Multiset.add_cons, ← Multiset.cons_add]
        exact ih (h.create_ok hc)

end Factory

namespace Target

variable {f : Factory σ τ ε} {renew wanted : Bool} {spec : TargetSpec} {slot : Option (Target τ)}
  {s : σ}

/-- The textures of targets, each as often as it is held. -/
def textures (ts : List (Target τ)) : Multiset τ := ↑(ts.map (·.texture))

@[simp] theorem textures_nil : textures ([] : List (Target τ)) = 0 := rfl

@[simp] theorem textures_append (ts us : List (Target τ)) :
    textures (ts ++ us) = textures ts + textures us := by
  simp [textures]

theorem textures_eq_of_perm {ts us : List (Target τ)} (h : ts.Perm us) :
    textures ts = textures us :=
  Multiset.coe_eq_coe.2 (h.map _)

/-- A slot holds what it held before or the texture that is created for it. -/
theorem textures_provide_le :
    textures (provide f renew wanted spec slot s).value.toList ≤
      textures slot.toList + ↑(f.serve (requests renew wanted spec slot) s).textures := by
  rcases provide_cases f renew wanted spec slot s with ⟨-, hrequests, hprovide⟩ |
    ⟨-, hrequests, ⟨e, s', hserve, hprovide⟩ | ⟨x, s', hserve, hprovide⟩⟩
  · rw [hprovide, hrequests]
    cases wanted with
    | false => exact Multiset.zero_le _
    | true => exact Multiset.le_add_right _ _
  · rw [hprovide, hrequests, hserve]
    simp
  · rw [hprovide, hrequests, hserve]
    exact Multiset.le_add_left _ _

end Target

namespace TargetPair

variable {f : Factory σ τ ε} {renew : Bool} {plan : PassPlan} {plans : List PassPlan}
  {p : TargetPair τ} {pairs : List (TargetPair τ)} {s : σ}

/-- The textures of pairs. -/
def textures (pairs : List (TargetPair τ)) : Multiset τ := Target.textures (pairs.flatMap targets)

@[simp] theorem textures_nil : textures ([] : List (TargetPair τ)) = 0 := rfl

theorem textures_cons (p : TargetPair τ) (pairs : List (TargetPair τ)) :
    textures (p :: pairs) = Target.textures p.targets + textures pairs := by
  rw [textures, List.flatMap_cons, Target.textures_append]
  rfl

theorem textures_targets (p : TargetPair τ) :
    Target.textures p.targets =
      Target.textures p.output.toList + Target.textures p.feedback.toList :=
  Target.textures_append _ _

theorem textures_targets_swap (p : TargetPair τ) :
    Target.textures p.swap.targets = Target.textures p.targets := by
  rw [textures_targets, textures_targets, add_comm]
  rfl

/-- Targets that change places stay the same. -/
theorem textures_swapLate (passes : List CompiledPass) (pairs : List (TargetPair τ)) :
    textures (swapLate passes pairs) = textures pairs := by
  induction passes generalizing pairs with
  | nil => rfl
  | cons pass passes ih =>
      cases pairs with
      | nil => rfl
      | cons p pairs =>
          rw [swapLate, textures_cons, textures_cons, ih]
          cases pass.isFeedback with
          | true => rw [if_pos rfl, textures_targets_swap]
          | false => rw [if_neg Bool.false_ne_true]

theorem textures_fit_le (count : Nat) (pairs : List (TargetPair τ)) :
    textures (fit count pairs) ≤ textures pairs := by
  have hempty : ∀ n, (List.replicate n (empty : TargetPair τ)).flatMap targets = [] := by
    intro n
    rw [List.flatMap_eq_nil_iff]
    intro p hp
    rw [List.eq_of_mem_replicate hp]
    rfl
  calc
    textures (fit count pairs) = textures (pairs.take count) := by
      rw [textures, fit, List.flatMap_append, hempty, List.append_nil]
      rfl
    _ ≤ textures (pairs.take count) + textures (pairs.drop count) := Multiset.le_add_right _ _
    _ = textures pairs := by
      rw [textures, textures, ← Target.textures_append, ← List.flatMap_append,
        List.take_append_drop]
      rfl

/-- A pair holds what it held before and what is created for it, each at most once. -/
theorem textures_allocate_le :
    Target.textures (p.allocate f renew plan s).value.targets ≤
      Target.textures p.targets + ↑(f.serve (p.requests renew plan) s).textures := by
  rw [textures_targets p, requests]
  have houtput : Target.textures (p.provideOutput f renew plan s).value.toList ≤ _ :=
    Target.textures_provide_le
  cases ho : (p.provideOutput f renew plan s).result with
  | error e =>
      rw [allocate_of_error ho,
        Factory.serve_append_of_refusal (refusal_of_provideOutput_error ho), textures_targets,
        add_right_comm]
      exact add_le_add_left houtput _
  | ok b =>
      have hfeedback : Target.textures (p.provideFeedback f renew plan
          (p.provideOutput f renew plan s).factory).value.toList ≤ _ := Target.textures_provide_le
      rw [allocate_of_ok ho, Factory.serve_append_of_served (refusal_of_provideOutput_ok ho),
        textures_targets, ← Multiset.coe_add, add_add_add_comm, ← Target.factory_provide]
      exact add_le_add houtput hfeedback

/-- All pairs hold what they held before and what is created for them, each at most once. -/
theorem textures_allocateAll_le (f : Factory σ τ ε) (renew : Bool) (plans : List PassPlan)
    (pairs : List (TargetPair τ)) (s : σ) :
    textures (allocateAll f renew plans pairs s).value ≤
      textures pairs + ↑(f.serve (requestsOf renew plans pairs).flatten s).textures := by
  induction plans generalizing pairs s with
  | nil => exact Multiset.le_add_right _ _
  | cons plan plans ih =>
      cases pairs with
      | nil => exact Multiset.le_add_right _ _
      | cons p pairs =>
          have hfirst : Target.textures (p.allocate f renew plan s).value.targets ≤ _ :=
            textures_allocate_le
          rw [requestsOf_cons_cons, List.flatten_cons, textures_cons]
          cases h : (p.allocate f renew plan s).result with
          | error e =>
              rw [allocateAll_cons_of_error h,
                Factory.serve_append_of_refusal (refusal_of_allocate_error h), textures_cons,
                add_right_comm]
              exact add_le_add_left hfirst _
          | ok b =>
              rw [allocateAll_cons_of_ok h,
                Factory.serve_append_of_served (refusal_of_allocate_ok h), textures_cons,
                ← Multiset.coe_add, add_add_add_comm, ← factory_allocate]
              exact add_le_add hfirst (ih pairs _)

end TargetPair

namespace HistoryUpdate

variable {f : Factory σ τ ε} {ring : List (Target τ)} {length : Nat} {size : Extent}
  {clear : Bool} {s : σ} {u : HistoryUpdate τ}

theorem perm_rotateRight {α : Type} (xs : List α) : (rotateRight xs).Perm xs := by
  rcases List.eq_nil_or_concat xs with rfl | ⟨ys, y, rfl⟩
  · exact List.Perm.refl _
  · simpa [rotateRight] using (List.perm_append_singleton y ys).symm

/-- A new ring holds what is created for it. -/
theorem textures_of_stage_renewed {new : List (Target τ)}
    (h : (stage f ring length size clear s).1 = .ok (.renewed new)) :
    Target.textures new = ↑(f.serve (requests ring length size) s).textures := by
  unfold stage at h
  by_cases h0 : length = 0
  · rw [if_pos h0] at h
    cases h
  · rw [if_neg h0] at h
    cases hf : fits ring length size with
    | true =>
        rw [hf, if_pos rfl] at h
        cases clear <;> cases h
    | false =>
        have hrequests : requests ring length size = List.replicate length (slotSpec size) := by
          simp [requests, h0, hf]
        rw [hf, if_neg Bool.false_ne_true, Target.createMany_eq] at h
        rw [hrequests]
        cases hr : (f.serve (List.replicate length (slotSpec size)) s).refusal with
        | some e =>
            simp only [hr] at h
            cases h
        | none =>
            simp only [hr] at h
            cases h
            simp [Target.textures, Function.comp_def]

/-- A ring holds what it held before or what is created for it. -/
theorem textures_apply_stage_le (h : (stage f ring length size clear s).1 = .ok u) :
    Target.textures (u.apply ring) ≤
      Target.textures ring + ↑(f.serve (requests ring length size) s).textures := by
  cases u with
  | disabled => exact Multiset.zero_le _
  | renewed new => exact (textures_of_stage_renewed h).le.trans (Multiset.le_add_left _ _)
  | cleared => exact Multiset.le_add_right _ _
  | rotated =>
      exact (Target.textures_eq_of_perm (perm_rotateRight ring)).le.trans
        (Multiset.le_add_right _ _)

end HistoryUpdate

namespace Scheduler

variable {f : Factory σ τ ε} {s s' : Scheduler σ τ} {source : Extent} {format : PixelFormat}
  {plan : FramePlan} {e : ε}

/-- The textures that a scheduler holds. -/
def textures (s : Scheduler σ τ) : Multiset τ :=
  TargetPair.textures s.pairs + Target.textures s.history

theorem textures_stagedPairs_le (s : Scheduler σ τ) :
    TargetPair.textures s.stagedPairs ≤ TargetPair.textures s.pairs :=
  (TargetPair.textures_fit_le _ _).trans (TargetPair.textures_swapLate _ _).le

/-- What the passes hold behind their allocation was held before or is created for them. -/
theorem textures_allocation_le (f : Factory σ τ ε) (s : Scheduler σ τ) (source : Extent)
    (format : PixelFormat) :
    TargetPair.textures (s.allocation f source format).value ≤
      TargetPair.textures s.pairs +
        ↑(f.serve (s.passRequests source format).flatten s.factory).textures :=
  (TargetPair.textures_allocateAll_le _ _ _ _ _).trans
    (add_le_add_left (textures_stagedPairs_le s) _)

/-- A frame, be it planned or refused, leaves no texture held that was not held before or
created for the frame, and none in more places than before. -/
theorem textures_beginFrame_le (f : Factory σ τ ε) (s : Scheduler σ τ) (source : Extent)
    (format : PixelFormat) :
    (s.beginFrame f source format).2.textures ≤
      s.textures + ↑(f.serve (s.requests source format) s.factory).textures := by
  have hpairs := textures_allocation_le f s source format
  have hserved := Factory.textures_serve_append_le f (s.passRequests source format).flatten
    (HistoryUpdate.requests s.history s.ringLength source) s.factory
  rcases h : s.beginFrame f source format with ⟨e | plan, s'⟩
  · have hs' : s'.textures =
        TargetPair.textures (s.allocation f source format).value + Target.textures s.history := by
      rw [beginFrame_error h, textures, TargetPair.textures_swapLate]
    rw [hs', textures, add_right_comm]
    exact add_le_add_left (hpairs.trans (add_le_add_right hserved _)) _
  · obtain ⟨u, factory, halloc, hchange, -, hs'⟩ := beginFrame_ok h
    have hring := HistoryUpdate.textures_apply_stage_le (congrArg Prod.fst hchange)
    rw [hs', textures, textures, requests,
      Factory.serve_append_of_served (refusal_of_allocation_ok halloc), ← Multiset.coe_add,
      add_add_add_comm, ← factory_allocation]
    exact add_le_add hpairs hring

/-- Whether the textures that a scheduler holds differ from each other and from all that its
factory may hand out. -/
def OwnsTextures (f : Factory σ τ ε) (s : Scheduler σ τ) : Prop :=
  f.SetsAside s.factory s.textures

theorem ownsTextures_call (hs : s.OwnsTextures f) (c : Call) : (s.call f c).2.OwnsTextures f := by
  cases c with
  | frame source format =>
      show f.SetsAside (s.beginFrame f source format).2.factory _
      rw [factory_beginFrame]
      exact (hs.serve (s.requests source format)).mono (textures_beginFrame_le f s source format)
  | resize viewport =>
      rw [call, resize_eq]
      exact hs
  | reload shader => exact hs
  | clearHistory => exact hs

theorem ownsTextures_run (hs : s.OwnsTextures f) (calls : List Call) :
    (s.run f calls).OwnsTextures f := by
  induction calls generalizing s with
  | nil => exact hs
  | cons c calls ih => exact ih (ownsTextures_call hs c)

end Scheduler

end ShaderChain
