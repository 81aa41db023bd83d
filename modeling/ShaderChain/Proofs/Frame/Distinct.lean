import ShaderChain.Frame.Numbered
import ShaderChain.Proofs.Frame.Ownership
import ShaderChain.Proofs.Frame.Refusal

/-!
# No texture in two places

Where a scheduler holds a texture is a `Place`: the output or the feedback of a pass, or an
entry of the ring of earlier inputs. If the factory never hands out a texture twice, then in
every state that a run reaches, two places hold two textures. So no pass samples the texture
that it renders to.
-/

namespace ShaderChain

/-- Where a scheduler holds a target. -/
inductive Place where
  | output (pass : Nat)
  | feedback (pass : Nat)
  | history (frames : Nat)
  deriving DecidableEq, Repr

variable {σ τ ε : Type}

namespace TargetPair

variable {pairs : List (TargetPair τ)} {p q : TargetPair τ} {i j : Nat} {t u : Target τ}

theorem textures_eq_flatMap (pairs : List (TargetPair τ)) :
    textures pairs = ↑(pairs.flatMap fun p => p.targets.map (·.texture)) := by
  rw [textures, Target.textures, List.map_flatMap]

/-- The targets of two passes differ. -/
theorem eq_of_texture_eq (h : (textures pairs).Nodup) (hp : pairs[i]? = some p)
    (hq : pairs[j]? = some q) (ht : t ∈ p.targets) (hu : u ∈ q.targets)
    (heq : t.texture = u.texture) : i = j := by
  rw [textures_eq_flatMap, Multiset.coe_nodup, List.nodup_flatMap] at h
  have hdisjoint := List.pairwise_iff_getElem.1 h.2
  obtain ⟨hi, rfl⟩ := List.getElem?_eq_some_iff.1 hp
  obtain ⟨hj, rfl⟩ := List.getElem?_eq_some_iff.1 hq
  rcases Nat.lt_trichotomy i j with hlt | heq' | hlt
  · exact absurd (heq ▸ List.mem_map_of_mem hu)
      (hdisjoint i j hi hj hlt (List.mem_map_of_mem ht))
  · exact heq'
  · exact absurd (heq ▸ List.mem_map_of_mem ht)
      (hdisjoint j i hj hi hlt (List.mem_map_of_mem hu))

/-- The two targets of a pass differ. -/
theorem texture_output_ne_feedback (h : (textures pairs).Nodup) (hp : pairs[i]? = some p)
    (ht : p.output = some t) (hu : p.feedback = some u) : t.texture ≠ u.texture := by
  rw [textures_eq_flatMap, Multiset.coe_nodup, List.nodup_flatMap] at h
  have hown := h.1 p (List.mem_of_getElem? hp)
  rw [targets, ht, hu] at hown
  simpa using hown

end TargetPair

namespace Scheduler

variable {f : Factory σ τ ε} {s : Scheduler σ τ} {t u : Target τ} {i : Nat}

/-- The target that is held at a place. -/
def heldAt? (s : Scheduler σ τ) : Place → Option (Target τ)
  | .output pass => s.output? pass
  | .feedback pass => s.feedback? pass
  | .history frames => s.history? frames

theorem output?_eq_some_iff :
    s.output? i = some t ↔ ∃ p, s.pairs[i]? = some p ∧ p.output = some t :=
  Option.bind_eq_some_iff

theorem feedback?_eq_some_iff :
    s.feedback? i = some t ↔ ∃ p, s.pairs[i]? = some p ∧ p.feedback = some t :=
  Option.bind_eq_some_iff

/-- The targets of the passes and those of the ring differ. -/
theorem texture_ne_of_getElem?_pairs (h : s.textures.Nodup) {p : TargetPair τ} {k : Nat}
    (hp : s.pairs[i]? = some p) (ht : t ∈ p.targets) (hu : s.history[k]? = some u) :
    t.texture ≠ u.texture := by
  obtain ⟨-, -, hdisjoint⟩ := Multiset.nodup_add.1 h
  have hpairs : t.texture ∈ TargetPair.textures s.pairs :=
    List.mem_map_of_mem (List.mem_flatMap_of_mem (List.mem_of_getElem? hp) ht)
  have hhistory : u.texture ∈ Target.textures s.history :=
    List.mem_map_of_mem (List.mem_of_getElem? hu)
  intro heq
  exact Multiset.disjoint_left.1 hdisjoint hpairs (heq ▸ hhistory)

theorem eq_of_texture_history_eq (h : s.textures.Nodup) {k l : Nat}
    (ht : s.history[k]? = some t) (hu : s.history[l]? = some u) (heq : t.texture = u.texture) :
    k = l := by
  obtain ⟨-, hhistory, -⟩ := Multiset.nodup_add.1 h
  have hlt : k < (s.history.map (·.texture)).length := by
    rw [List.length_map]
    exact (List.getElem?_eq_some_iff.1 ht).1
  apply (List.getElem?_inj hlt (Multiset.coe_nodup.1 hhistory)).1
  rw [List.getElem?_map, List.getElem?_map, ht, hu, Option.map_some, Option.map_some, heq]

section Places

variable {a b : Place}

/-- The texture of an output is held at no other place. -/
theorem eq_output_of_texture_eq (h : s.textures.Nodup) (ha : s.output? i = some t)
    (hb : s.heldAt? b = some u) (heq : t.texture = u.texture) : b = .output i := by
  have hpairs := (Multiset.nodup_add.1 h).1
  obtain ⟨p, hp, ht⟩ := output?_eq_some_iff.1 ha
  have htargets := TargetPair.mem_targets.2 (Or.inl ht)
  cases b with
  | output j =>
      obtain ⟨q, hq, hu⟩ := output?_eq_some_iff.1 hb
      rw [TargetPair.eq_of_texture_eq hpairs hp hq htargets
        (TargetPair.mem_targets.2 (Or.inl hu)) heq]
  | feedback j =>
      obtain ⟨q, hq, hu⟩ := feedback?_eq_some_iff.1 hb
      cases TargetPair.eq_of_texture_eq hpairs hp hq htargets
        (TargetPair.mem_targets.2 (Or.inr hu)) heq
      cases hp.symm.trans hq
      exact absurd heq (TargetPair.texture_output_ne_feedback hpairs hp ht hu)
  | history k => exact absurd heq (texture_ne_of_getElem?_pairs h hp htargets hb)

theorem eq_feedback_of_texture_eq (h : s.textures.Nodup) (ha : s.feedback? i = some t)
    (hb : s.heldAt? b = some u) (heq : t.texture = u.texture) : b = .feedback i := by
  obtain ⟨p, hp, ht⟩ := feedback?_eq_some_iff.1 ha
  have htargets := TargetPair.mem_targets.2 (Or.inr ht)
  cases b with
  | output j => cases eq_output_of_texture_eq (b := .feedback i) h hb ha heq.symm
  | feedback j =>
      obtain ⟨q, hq, hu⟩ := feedback?_eq_some_iff.1 hb
      rw [TargetPair.eq_of_texture_eq (Multiset.nodup_add.1 h).1 hp hq htargets
        (TargetPair.mem_targets.2 (Or.inr hu)) heq]
  | history k => exact absurd heq (texture_ne_of_getElem?_pairs h hp htargets hb)

/-- If no texture is held twice, two places hold two textures. -/
theorem eq_of_heldAt? (h : s.textures.Nodup) (ha : s.heldAt? a = some t)
    (hb : s.heldAt? b = some u) (heq : t.texture = u.texture) : a = b := by
  cases a with
  | output i => exact (eq_output_of_texture_eq h ha hb heq).symm
  | feedback i => exact (eq_feedback_of_texture_eq h ha hb heq).symm
  | history k =>
      cases b with
      | output j => exact eq_output_of_texture_eq h hb ha heq.symm
      | feedback j => exact eq_feedback_of_texture_eq h hb ha heq.symm
      | history l => rw [eq_of_texture_history_eq h ha hb heq]

end Places

/-- The place that a pass reads a texture from, if it is one of the scheduler's. -/
def inputPlace? (pass : Nat) (r : TextureRef) : Option Place :=
  match r.semantic with
  | .source => if pass = 0 then none else some (.output (pass - 1))
  | .passOutput => some (.output r.index)
  | .passFeedback => some (.feedback r.index)
  | .inputHistory => some (.history r.index)
  | .chainInput => none
  | .user => none

theorem input?_eq_bind (s : Scheduler σ τ) (pass : Nat) (r : TextureRef) :
    s.input? pass r = (inputPlace? pass r).bind s.heldAt? := by
  obtain ⟨semantic, index⟩ := r
  cases semantic with
  | source =>
      by_cases h0 : pass = 0
      · simp [input?, inputPlace?, h0]
      · simp [input?, inputPlace?, h0, heldAt?]
  | _ => rfl

/-- A pass that reads no output of its own or of a later pass reads from no place that it
renders to. -/
theorem inputPlace?_ne_output {pass : Nat} {r : TextureRef}
    (h : r.semantic = .passOutput → r.index < pass) :
    inputPlace? pass r ≠ some (.output pass) := by
  obtain ⟨semantic, index⟩ := r
  cases semantic with
  | source =>
      by_cases h0 : pass = 0
      · simp [inputPlace?, h0]
      · have hbefore : pass - 1 ≠ pass := by omega
        simp [inputPlace?, h0, hbefore]
  | passOutput => simpa [inputPlace?] using Nat.ne_of_lt (h rfl)
  | _ => simp [inputPlace?]

end Scheduler

section Numbered

/-- The numbers that a stock hands out count on from the next one. -/
theorem exists_handedOut_numbered (specs : List TargetSpec) (s : TextureStock) :
    ∃ n, Factory.numbered.handedOut specs s = List.range' s.next n := by
  induction specs generalizing s with
  | nil => exact ⟨0, rfl⟩
  | cons spec specs ih =>
      obtain ⟨next, left, created⟩ := s
      rcases left with _ | _ | left
      · obtain ⟨n, hn⟩ := ih ⟨next + 1, none, created ++ [⟨next, spec⟩]⟩
        exact ⟨n + 1, congrArg (next :: ·) hn⟩
      · exact ih ⟨next, none, created⟩
      · obtain ⟨n, hn⟩ := ih ⟨next + 1, some left, created ++ [⟨next, spec⟩]⟩
        exact ⟨n + 1, congrArg (next :: ·) hn⟩

theorem neverRepeats_numbered (s : TextureStock) : Factory.numbered.NeverRepeats s := by
  intro specs
  obtain ⟨n, hn⟩ := exists_handedOut_numbered specs s
  rw [hn]
  exact List.nodup_range'

end Numbered

namespace Scheduler

/-- If the factory never hands out a texture twice, then in every state that a run reaches no
texture is held in two places, whatever was refused on the way. So no pass that reads outputs
of earlier passes only, or outputs a frame late, or inputs, reads the texture that it
renders to. -/
theorem heldAt?_injective_of_run (f : Factory σ τ ε) (shader : CompiledShader)
    (options : SchedulerOptions) (factory : σ) (viewport : Extent) (calls : List Call)
    (hf : f.NeverRepeats factory) :
    (∀ (a b : Place) (t u : Target τ),
      ((start shader options factory viewport).run f calls).heldAt? a = some t →
      ((start shader options factory viewport).run f calls).heldAt? b = some u →
      t.texture = u.texture → a = b) ∧
    ∀ (pass : Nat) (r : TextureRef) (t u : Target τ),
      (r.semantic = .passOutput → r.index < pass) →
      ((start shader options factory viewport).run f calls).output? pass = some t →
      ((start shader options factory viewport).run f calls).input? pass r = some u →
      u.texture ≠ t.texture := by
  have hstart : (start shader options factory viewport : Scheduler σ τ).OwnsTextures f :=
    Factory.setsAside_zero hf
  have hnodup := (ownsTextures_run hstart calls).nodup
  constructor
  · intro a b t u ha hb heq
    exact eq_of_heldAt? hnodup ha hb heq
  · intro pass r t u hindex ht hu heq
    rw [input?_eq_bind] at hu
    obtain ⟨place, hplace, hheld⟩ := Option.bind_eq_some_iff.1 hu
    cases eq_of_heldAt? (a := place) (b := .output pass) hnodup hheld ht heq
    exact inputPlace?_ne_output hindex hplace

/-- A frame of another size replaces both targets of the first pass and is refused the next
one. The pass still has two textures, and no place shares one with another. -/
theorem heldAt?_injective_lateFirst :
    Factory.numbered.NeverRepeats ⟨0, some 5, []⟩ ∧
      ((start .lateFirst .standard ⟨0, some 5, []⟩ ⟨8, 8⟩ : Scheduler TextureStock Nat).run
          .numbered [.frame ⟨4, 4⟩ .native, .frame ⟨2, 2⟩ .native]).output? 0 =
        some ⟨4, ⟨⟨2, 2⟩, .native, false⟩⟩ ∧
      ∀ (a b : Place) (t u : Target Nat),
        ((start .lateFirst .standard ⟨0, some 5, []⟩ ⟨8, 8⟩ : Scheduler TextureStock Nat).run
          .numbered [.frame ⟨4, 4⟩ .native, .frame ⟨2, 2⟩ .native]).heldAt? a = some t →
        ((start .lateFirst .standard ⟨0, some 5, []⟩ ⟨8, 8⟩ : Scheduler TextureStock Nat).run
          .numbered [.frame ⟨4, 4⟩ .native, .frame ⟨2, 2⟩ .native]).heldAt? b = some u →
        t.texture = u.texture → a = b :=
  ⟨neverRepeats_numbered _, by decide,
    (heldAt?_injective_of_run .numbered .lateFirst .standard ⟨0, some 5, []⟩ ⟨8, 8⟩
      [.frame ⟨4, 4⟩ .native, .frame ⟨2, 2⟩ .native] (neverRepeats_numbered _)).1⟩

end Scheduler

end ShaderChain
