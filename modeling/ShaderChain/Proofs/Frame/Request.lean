import ShaderChain.Frame.History

/-!
# Requests

A factory serves a list of requests one after the other and ends with its first
refusal. What a frame does to its targets is described by the list of its requests:
`Target.isDue` says which slots ask for a texture, `Target.provide` asks for exactly
these, and `Target.Settled` says how a slot comes out if nothing is refused. The ring of
earlier inputs asks for all of its targets or for none.
-/

namespace ShaderChain

/-- The outcome of a list of requests. -/
structure Service (σ τ ε : Type) where
  /-- The textures created, up to the first refusal. -/
  textures : List τ
  refusal : Option ε
  factory : σ

variable {σ τ ε : Type}

namespace Service

/-- What is reported of a list of requests: the refusal, or whether anything was asked
for. -/
def result (r : Service σ τ ε) (asked : List TargetSpec) : Except ε Bool :=
  match r.refusal with
  | some e => .error e
  | none => .ok (asked ≠ [])

theorem result_eq_error_iff {r : Service σ τ ε} {asked : List TargetSpec} {e : ε} :
    r.result asked = .error e ↔ r.refusal = some e := by
  unfold result
  cases r.refusal <;> simp

theorem refusal_of_result_ok {r : Service σ τ ε} {asked : List TargetSpec} {b : Bool}
    (h : r.result asked = .ok b) : r.refusal = none := by
  unfold result at h
  cases hr : r.refusal with
  | none => rfl
  | some e =>
      rw [hr] at h
      cases h

end Service

namespace Factory

variable {f : Factory σ τ ε} {spec : TargetSpec} {specs rest : List TargetSpec} {s s' : σ}

/-- Serve requests one after the other, up to the first refusal. -/
def serve (f : Factory σ τ ε) : List TargetSpec → σ → Service σ τ ε
  | [], s => ⟨[], none, s⟩
  | spec :: rest, s =>
      match f.create s spec with
      | (.error e, s) => ⟨[], some e, s⟩
      | (.ok x, s) =>
          let r := f.serve rest s
          ⟨x :: r.textures, r.refusal, r.factory⟩

@[simp] theorem serve_nil : f.serve [] s = ⟨[], none, s⟩ := rfl

theorem serve_cons_of_error {e : ε} (h : f.create s spec = (.error e, s')) :
    f.serve (spec :: rest) s = ⟨[], some e, s'⟩ := by
  rw [serve, h]

theorem serve_cons_of_ok {x : τ} (h : f.create s spec = (.ok x, s')) :
    f.serve (spec :: rest) s =
      ⟨x :: (f.serve rest s').textures, (f.serve rest s').refusal,
        (f.serve rest s').factory⟩ := by
  rw [serve, h]

/-- Behind a refusal nothing is served. -/
theorem serve_append_of_refusal {e : ε} (h : (f.serve specs s).refusal = some e) :
    f.serve (specs ++ rest) s = f.serve specs s := by
  induction specs generalizing s with
  | nil => cases h
  | cons spec specs ih =>
      rcases hc : f.create s spec with ⟨_ | x, s'⟩
      · rw [List.cons_append, serve_cons_of_error hc, serve_cons_of_error hc]
      · rw [serve_cons_of_ok hc] at h
        rw [List.cons_append, serve_cons_of_ok hc, serve_cons_of_ok hc, ih h]

/-- Requests behind ones that are all met are served by the factory as these leave it. -/
theorem serve_append_of_served (h : (f.serve specs s).refusal = none) :
    f.serve (specs ++ rest) s =
      ⟨(f.serve specs s).textures ++ (f.serve rest (f.serve specs s).factory).textures,
        (f.serve rest (f.serve specs s).factory).refusal,
        (f.serve rest (f.serve specs s).factory).factory⟩ := by
  induction specs generalizing s with
  | nil => rfl
  | cons spec specs ih =>
      rcases hc : f.create s spec with ⟨e | x, s'⟩
      · rw [serve_cons_of_error hc] at h
        cases h
      · rw [serve_cons_of_ok hc] at h
        rw [List.cons_append, serve_cons_of_ok hc, serve_cons_of_ok hc, ih h, List.cons_append]

theorem length_textures_le (f : Factory σ τ ε) (specs : List TargetSpec) (s : σ) :
    (f.serve specs s).textures.length ≤ specs.length := by
  induction specs generalizing s with
  | nil => exact Nat.le_refl _
  | cons spec specs ih =>
      rcases hc : f.create s spec with ⟨e | x, s'⟩
      · rw [serve_cons_of_error hc]
        exact Nat.zero_le _
      · rw [serve_cons_of_ok hc]
        exact Nat.succ_le_succ (ih s')

theorem length_textures_of_served (h : (f.serve specs s).refusal = none) :
    (f.serve specs s).textures.length = specs.length := by
  induction specs generalizing s with
  | nil => rfl
  | cons spec specs ih =>
      rcases hc : f.create s spec with ⟨e | x, s'⟩
      · rw [serve_cons_of_error hc] at h
        cases h
      · rw [serve_cons_of_ok hc] at h
        rw [serve_cons_of_ok hc, List.length_cons, List.length_cons, ih h]

/-- No texture is created for requests exactly if there are none, or if none is created for these
and what follows. -/
theorem textures_serve_eq_nil_iff (f : Factory σ τ ε) (specs rest : List TargetSpec) (s : σ) :
    (f.serve specs s).textures = [] ↔ specs = [] ∨ (f.serve (specs ++ rest) s).textures = [] := by
  cases h : (f.serve specs s).refusal with
  | some e =>
      rw [serve_append_of_refusal h]
      constructor
      · exact Or.inr
      · rintro (rfl | htextures)
        · rfl
        · exact htextures
  | none =>
      have hspecs : (f.serve specs s).textures = [] ↔ specs = [] := by
        rw [← List.length_eq_zero_iff, length_textures_of_served h, List.length_eq_zero_iff]
      rw [serve_append_of_served h, List.append_eq_nil_iff, hspecs]
      constructor
      · exact Or.inl
      · rintro (hnil | ⟨hnil, -⟩)
        · exact hnil
        · exact hnil

/-- What is reported of requests in two parts, the first of which is all met. -/
theorem result_serve_append (h : (f.serve specs s).refusal = none) :
    (f.serve (specs ++ rest) s).result (specs ++ rest) =
      ((f.serve rest (f.serve specs s).factory).result rest).map
        (decide (specs ≠ []) || ·) := by
  rw [serve_append_of_served h]
  unfold Service.result
  cases (f.serve rest (f.serve specs s).factory).refusal with
  | some e => rfl
  | none => cases specs <;> simp [Except.map]

end Factory

namespace Target

variable {f : Factory σ τ ε} {renew wanted : Bool} {spec : TargetSpec}
  {slot new : Option (Target τ)} {s s' : σ}

/-- Whether a slot asks for a texture: it is wanted, and empty or in need of renewal. -/
def isDue (renew wanted : Bool) (spec : TargetSpec) : Option (Target τ) → Bool
  | none => wanted
  | some t => wanted && renew && t.spec ≠ spec

/-- What a slot asks for. -/
def requests (renew wanted : Bool) (spec : TargetSpec) (slot : Option (Target τ)) :
    List TargetSpec :=
  if isDue renew wanted spec slot then [spec] else []

theorem requests_of_isDue (h : isDue renew wanted spec slot = true) :
    requests renew wanted spec slot = [spec] := by
  simp [requests, h]

theorem requests_of_not_isDue (h : isDue renew wanted spec slot = false) :
    requests renew wanted spec slot = [] := by
  simp [requests, h]

theorem wanted_of_isDue (h : isDue renew wanted spec slot = true) : wanted = true := by
  cases slot <;> simp_all [isDue]

theorem provide_of_not_isDue (f : Factory σ τ ε) (s : σ)
    (h : isDue renew wanted spec slot = false) :
    provide f renew wanted spec slot s = ⟨.ok false, if wanted then slot else none, s⟩ := by
  unfold provide
  cases wanted with
  | false => rfl
  | true =>
      cases slot with
      | none => cases h
      | some t => cases renew <;> simp_all [isDue, ensure, meet]

theorem provide_of_error {e : ε} (h : isDue renew wanted spec slot = true)
    (hc : f.create s spec = (.error e, s')) :
    provide f renew wanted spec slot s = ⟨.error e, slot, s'⟩ := by
  unfold provide
  rw [wanted_of_isDue h]
  cases slot with
  | none => simp [ensure, create, hc, Except.map]
  | some t => simp_all [isDue, ensure, meet, create, Except.map]

theorem provide_of_ok {x : τ} (h : isDue renew wanted spec slot = true)
    (hc : f.create s spec = (.ok x, s')) :
    provide f renew wanted spec slot s = ⟨.ok true, some ⟨x, spec⟩, s'⟩ := by
  unfold provide
  rw [wanted_of_isDue h]
  cases slot with
  | none => simp [ensure, create, hc, Except.map]
  | some t => simp_all [isDue, ensure, meet, create, Except.map]

/-- A new target is never the one that it takes the place of. -/
theorem new_ne_of_isDue (h : isDue renew wanted spec slot = true) (x : τ) :
    some ⟨x, spec⟩ ≠ slot := by
  rintro rfl
  simp [isDue] at h

/-- A slot asks for nothing and keeps its target if this is wanted, or it asks for one texture,
which is refused or takes the place of what the slot holds. -/
theorem provide_cases (f : Factory σ τ ε) (renew wanted : Bool) (spec : TargetSpec)
    (slot : Option (Target τ)) (s : σ) :
    (isDue renew wanted spec slot = false ∧ requests renew wanted spec slot = [] ∧
        provide f renew wanted spec slot s = ⟨.ok false, if wanted then slot else none, s⟩) ∨
      isDue renew wanted spec slot = true ∧ requests renew wanted spec slot = [spec] ∧
        ((∃ e s', f.serve [spec] s = ⟨[], some e, s'⟩ ∧
            provide f renew wanted spec slot s = ⟨.error e, slot, s'⟩) ∨
          ∃ x s', f.serve [spec] s = ⟨[x], none, s'⟩ ∧
            provide f renew wanted spec slot s = ⟨.ok true, some ⟨x, spec⟩, s'⟩) := by
  cases hd : isDue renew wanted spec slot with
  | false => exact Or.inl ⟨rfl, requests_of_not_isDue hd, provide_of_not_isDue f s hd⟩
  | true =>
      refine Or.inr ⟨rfl, requests_of_isDue hd, ?_⟩
      rcases hc : f.create s spec with ⟨e | x, s'⟩
      · exact Or.inl ⟨e, s', Factory.serve_cons_of_error hc, provide_of_error hd hc⟩
      · exact Or.inr ⟨x, s', Factory.serve_cons_of_ok hc, provide_of_ok hd hc⟩

theorem result_provide :
    (provide f renew wanted spec slot s).result =
      (f.serve (requests renew wanted spec slot) s).result
        (requests renew wanted spec slot) := by
  rcases provide_cases f renew wanted spec slot s with ⟨-, hrequests, hprovide⟩ |
    ⟨-, hrequests, ⟨e, s', hserve, hprovide⟩ | ⟨x, s', hserve, hprovide⟩⟩
  · rw [hprovide, hrequests]
    rfl
  · rw [hprovide, hrequests, hserve]
    rfl
  · rw [hprovide, hrequests, hserve]
    rfl

theorem factory_provide :
    (provide f renew wanted spec slot s).factory =
      (f.serve (requests renew wanted spec slot) s).factory := by
  rcases provide_cases f renew wanted spec slot s with ⟨-, hrequests, hprovide⟩ |
    ⟨-, hrequests, ⟨e, s', hserve, hprovide⟩ | ⟨x, s', hserve, hprovide⟩⟩
  · rw [hprovide, hrequests, Factory.serve_nil]
  · rw [hprovide, hrequests, hserve]
  · rw [hprovide, hrequests, hserve]

/-- A wanted slot stays as it is exactly if no texture is created for it. -/
theorem value_provide_eq_iff (hw : wanted = true) :
    (provide f renew wanted spec slot s).value = slot ↔
      (f.serve (requests renew wanted spec slot) s).textures = [] := by
  rcases provide_cases f renew wanted spec slot s with ⟨-, hrequests, hprovide⟩ |
    ⟨hdue, hrequests, ⟨e, s', hserve, hprovide⟩ | ⟨x, s', hserve, hprovide⟩⟩
  · rw [hprovide, hrequests, Factory.serve_nil]
    simp [hw]
  · rw [hprovide, hrequests, hserve]
    simp
  · rw [hprovide, hrequests, hserve]
    simpa using new_ne_of_isDue hdue x

/-- How a slot comes out of a frame that is not refused: where a texture is due there is
a new one, and else a target stays where it is wanted. -/
def Settled (renew wanted : Bool) (spec : TargetSpec) (old new : Option (Target τ)) : Prop :=
  if isDue renew wanted spec old then ∃ x, new = some ⟨x, spec⟩
  else new = if wanted then old else none

theorem settled_provide {b : Bool} (h : (provide f renew wanted spec slot s).result = .ok b) :
    Settled renew wanted spec slot (provide f renew wanted spec slot s).value := by
  rcases provide_cases f renew wanted spec slot s with ⟨hdue, -, hprovide⟩ |
    ⟨hdue, -, ⟨e, s', -, hprovide⟩ | ⟨x, s', -, hprovide⟩⟩
  · simp [Settled, hdue, hprovide]
  · rw [hprovide] at h
    cases h
  · simp [Settled, hdue, hprovide]

/-- After a frame that is not refused, the targets that are there are the wanted ones. -/
theorem Settled.isSome (h : Settled renew wanted spec slot new) : new.isSome = wanted := by
  unfold Settled at h
  cases hd : isDue renew wanted spec slot with
  | true =>
      rw [hd] at h
      obtain ⟨x, rfl⟩ := h
      exact (wanted_of_isDue hd).symm
  | false =>
      simp only [hd, Bool.false_eq_true, if_false] at h
      subst h
      cases slot <;> cases wanted <;> simp_all [isDue]

/-- After a frame that is not refused, a target meets the specification unless it was
there before and nothing was renewed. -/
theorem Settled.meets_iff (h : Settled renew wanted spec slot new) :
    (∀ t ∈ new, t.spec = spec) ↔
      renew = true ∨ wanted = false ∨ ∀ t ∈ slot, t.spec = spec := by
  unfold Settled at h
  cases hd : isDue renew wanted spec slot with
  | true =>
      rw [hd] at h
      obtain ⟨x, rfl⟩ := h
      cases slot <;> simp_all [isDue]
  | false =>
      simp only [hd, Bool.false_eq_true, if_false] at h
      subst h
      cases slot <;> cases wanted <;> cases renew <;> simp_all [isDue]

/-- Whatever is refused, a target in a slot was there before or is a new one. -/
theorem mem_provide {t : Target τ} (h : t ∈ (provide f renew wanted spec slot s).value) :
    t ∈ slot ∨ t.spec = spec := by
  rcases provide_cases f renew wanted spec slot s with ⟨-, -, hprovide⟩ |
    ⟨-, -, ⟨e, s', -, hprovide⟩ | ⟨x, s', -, hprovide⟩⟩
  · rw [hprovide] at h
    cases wanted with
    | false => cases h
    | true => exact Or.inl h
  · rw [hprovide] at h
    exact Or.inl h
  · rw [hprovide] at h
    cases h
    exact Or.inr rfl

/-- Targets alike are created by serving one request for each of them. -/
theorem createMany_eq (f : Factory σ τ ε) (spec : TargetSpec) (n : Nat) (s : σ) :
    createMany f spec n s =
      let r := f.serve (List.replicate n spec) s
      (match r.refusal with
        | some e => .error e
        | none => .ok (r.textures.map fun x => ⟨x, spec⟩),
      r.factory) := by
  induction n generalizing s with
  | zero => rfl
  | succ n ih =>
      rcases hc : f.create s spec with ⟨e | x, s'⟩
      · simp [createMany, create, hc, List.replicate_succ, Factory.serve_cons_of_error hc,
          Except.map]
      · rw [List.replicate_succ, Factory.serve_cons_of_ok hc]
        simp only [createMany, create, hc, Except.map, ih]
        cases (f.serve (List.replicate n spec) s').refusal <;> rfl

end Target

@[simp] theorem length_rotateRight {α : Type} (xs : List α) :
    (rotateRight xs).length = xs.length := by
  unfold rotateRight
  cases h : xs.getLast? with
  | none => rw [List.getLast?_eq_none_iff.1 h]
  | some x =>
      have hne : xs ≠ [] := by
        rintro rfl
        cases h
      have := List.length_pos_iff.2 hne
      rw [List.length_cons, List.length_dropLast]
      omega

namespace HistoryUpdate

variable {f : Factory σ τ ε} {ring : List (Target τ)} {length : Nat} {size : Extent}
  {clear : Bool} {s : σ}

/-- What the ring asks for: all of its targets, or nothing. -/
def requests (ring : List (Target τ)) (length : Nat) (size : Extent) : List TargetSpec :=
  if length = 0 || fits ring length size then [] else List.replicate length (slotSpec size)

theorem factory_stage (clear : Bool) :
    (stage f ring length size clear s).2 = (f.serve (requests ring length size) s).factory := by
  unfold stage requests
  by_cases h0 : length = 0
  · simp [h0]
  · cases hf : fits ring length size with
    | true => simp [h0]
    | false => simp [h0, Target.createMany_eq]

theorem stage_eq_error_iff {e : ε} :
    (stage f ring length size clear s).1 = .error e ↔
      (f.serve (requests ring length size) s).refusal = some e := by
  unfold stage requests
  by_cases h0 : length = 0
  · simp [h0]
  · cases hf : fits ring length size with
    | true => simp [h0]
    | false =>
        simp only [h0, Bool.or_self, decide_false, Bool.false_eq_true, if_false,
          Target.createMany_eq]
        cases (f.serve (List.replicate length (slotSpec size)) s).refusal <;> simp [Except.map]

/-- How a ring changes that is not refused: it goes, it is cleared or rotated if it fits, or
there is a new one. -/
theorem stage_ok {u : HistoryUpdate τ} (h : (stage f ring length size clear s).1 = .ok u) :
    (length = 0 ∧ u = .disabled) ∨
      (length ≠ 0 ∧ fits ring length size = true ∧ u = if clear then .cleared else .rotated) ∨
        (length ≠ 0 ∧ fits ring length size = false ∧ ∃ new, u = .renewed new ∧
          new.length = length ∧ ∀ t ∈ new, t.spec = slotSpec size) := by
  unfold stage at h
  by_cases h0 : length = 0
  · simp only [h0, if_true, Except.ok.injEq] at h
    exact Or.inl ⟨h0, h.symm⟩
  · right
    cases hf : fits ring length size with
    | true =>
        simp only [h0, hf, if_false, if_true, Except.ok.injEq] at h
        exact Or.inl ⟨h0, rfl, h.symm⟩
    | false =>
        right
        simp only [h0, hf, if_false, Bool.false_eq_true, Target.createMany_eq] at h
        cases hr : (f.serve (List.replicate length (slotSpec size)) s).refusal with
        | some e =>
            rw [hr] at h
            cases h
        | none =>
            rw [hr] at h
            cases h
            refine ⟨h0, rfl, _, rfl, ?_, by simp⟩
            simp [Factory.length_textures_of_served hr]

theorem length_of_fits (h : fits ring length size = true) : ring.length = length := by
  simp only [fits, Bool.and_eq_true, decide_eq_true_eq] at h
  exact h.1

/-- A ring that is not refused comes out at the length it was staged for. -/
theorem length_apply_stage {u : HistoryUpdate τ}
    (h : (stage f ring length size clear s).1 = .ok u) : (u.apply ring).length = length := by
  rcases stage_ok h with ⟨h0, rfl⟩ | ⟨-, hf, rfl⟩ | ⟨-, -, new, rfl, hlength, -⟩
  · exact h0.symm
  · have hlength := length_of_fits hf
    cases clear <;> simp [apply, hlength]
  · exact hlength

end HistoryUpdate

end ShaderChain
