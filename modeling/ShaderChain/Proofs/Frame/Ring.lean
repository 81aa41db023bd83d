import Mathlib.Algebra.Group.Nat.Defs
import Mathlib.Data.List.Basic
import ShaderChain.Frame.Numbered
import ShaderChain.Proofs.Frame.Run

/-!
# The ring of earlier inputs

Behind every planned frame the ring is as long as the shader asks for, and its targets are
alike: they are of the size of the frame's source. So the first one tells whether the ring
fits, and a frame whose ring fits only turns it, unless it is to be cleared. Along a run
this ties the ring behind each planned frame to the ring behind the planned frame before,
whatever was refused or resized between the two.
-/

namespace ShaderChain

variable {σ τ ε : Type}

section Rotate

variable {α : Type} {xs : List α}

theorem rotateRight_append_singleton (xs : List α) (x : α) :
    rotateRight (xs ++ [x]) = x :: xs := by
  simp [rotateRight]

theorem mem_rotateRight {x : α} : x ∈ rotateRight xs ↔ x ∈ xs := by
  rcases List.eq_nil_or_concat xs with rfl | ⟨ys, y, rfl⟩
  · rfl
  · simp [rotateRight, or_comm]

theorem getElem?_zero_rotateRight (xs : List α) : (rotateRight xs)[0]? = xs[xs.length - 1]? := by
  rcases List.eq_nil_or_concat xs with rfl | ⟨ys, y, rfl⟩
  · rfl
  · simp [rotateRight]

theorem getElem?_succ_rotateRight {i : Nat} (h : i + 1 < xs.length) :
    (rotateRight xs)[i + 1]? = xs[i]? := by
  rcases List.eq_nil_or_concat xs with rfl | ⟨ys, y, rfl⟩
  · simp at h
  · rw [List.concat_eq_append, rotateRight_append_singleton, List.getElem?_cons_succ,
      List.getElem?_append_left (by simpa using h)]

end Rotate

/-- Whether the targets of a ring are all created for inputs of the given size. -/
def HistoryUpdate.IsUniform (ring : List (Target τ)) (size : Extent) : Prop :=
  ∀ t ∈ ring, t.spec = HistoryUpdate.slotSpec size

/-- A uniform ring fits exactly if it has the length and its inputs have the size. -/
theorem HistoryUpdate.fits_iff {ring : List (Target τ)} {length : Nat} {size old : Extent}
    (h : IsUniform ring old) (h0 : length ≠ 0) :
    fits ring length size = true ↔ ring.length = length ∧ old = size := by
  unfold fits
  rw [Bool.and_eq_true, decide_eq_true_eq]
  refine and_congr_right fun hlength => ?_
  cases ring with
  | nil => exact absurd hlength.symm h0
  | cons t ring =>
      have ht : t.spec.size = old := by simp [h t List.mem_cons_self, slotSpec]
      simp [ht]

/-- A shader of one plain pass that keeps earlier inputs. -/
def CompiledShader.remembering (depth : Nat) : CompiledShader :=
  { CompiledShader.plain 1 with historyCount := depth }

namespace Scheduler

variable {f : Factory σ τ ε} {s s' last : Scheduler σ τ} {source old : Extent}
  {format : PixelFormat} {plan : FramePlan} {calls since : List Call}

/-- Behind a planned frame, the ring has the length for its shader. -/
theorem length_history_beginFrame_ok (h : s.beginFrame f source format = (.ok plan, s')) :
    s'.history.length = s.ringLength := by
  obtain ⟨u, factory, -, hchange, -, hs'⟩ := beginFrame_ok h
  have hhistory : s'.history = u.apply s.history := by rw [hs']
  rw [hhistory]
  apply HistoryUpdate.length_apply_stage
  rw [← historyChange, hchange]

/-- The ring is one longer than the history count, unless this is zero. -/
theorem ringLength_eq (hhistory : s.options.history = true)
    (hcount : s.shader.historyCount + 1 < 2 ^ 64) :
    s.ringLength = if s.shader.historyCount = 0 then 0 else s.shader.historyCount + 1 := by
  unfold ringLength
  rw [hhistory, Bool.true_and]
  by_cases h0 : s.shader.historyCount = 0
  · rw [h0]
    rfl
  · rw [if_pos (decide_eq_true (Nat.pos_of_ne_zero h0)), if_neg h0, UInt64.toNat_add,
      UInt64.toNat_ofNat_of_lt' (Nat.lt_of_succ_lt hcount)]
    exact Nat.mod_eq_of_lt hcount

/-- There is no ring if the history is disabled or no earlier input is kept. -/
theorem ringLength_eq_zero (h : s.options.history = false ∨ s.shader.historyCount = 0) :
    s.ringLength = 0 := by
  unfold ringLength
  rcases h with h | h <;> simp [h]

section Frame

/-- Behind a planned frame, the slots that are there are those in front of the length of the
ring. -/
theorem isSome_history?_iff (h : s.beginFrame f source format = (.ok plan, s')) (k : Nat) :
    (s'.history? k).isSome ↔ k < s.ringLength := by
  rw [history?, isSome_getElem?, length_history_beginFrame_ok h]

/-- Without a ring there is nothing to clear. -/
theorem history_beginFrame_of_ringLength_eq_zero
    (h : s.beginFrame f source format = (.ok plan, s')) (h0 : s.ringLength = 0) :
    s'.history = [] ∧ plan.historyReset = false := by
  obtain ⟨u, factory, -, hchange, hplan, hs'⟩ := beginFrame_ok h
  have hstage := HistoryUpdate.stage_ok (congrArg Prod.fst hchange)
  rcases hstage with ⟨-, rfl⟩ | ⟨hne, -⟩ | ⟨hne, -⟩
  · rw [hs', hplan]
    exact ⟨rfl, rfl⟩
  · exact absurd h0 hne
  · exact absurd h0 hne

/-- A ring is to be cleared if it does not fit or if this was asked for, and else it
turns. -/
theorem history_beginFrame_of_ringLength_ne_zero
    (h : s.beginFrame f source format = (.ok plan, s')) (h0 : s.ringLength ≠ 0) :
    (plan.historyReset = true ↔
        HistoryUpdate.fits s.history s.ringLength source = false ∨ s.clearsHistory = true) ∧
      (plan.historyReset = false → s'.history = rotateRight s.history) := by
  obtain ⟨u, factory, -, hchange, hplan, hs'⟩ := beginFrame_ok h
  have hreset : plan.historyReset = u.isReset := by rw [hplan]
  have hhistory : s'.history = u.apply s.history := by rw [hs']
  have hstage := HistoryUpdate.stage_ok (congrArg Prod.fst hchange)
  rw [hreset, hhistory]
  rcases hstage with ⟨heq, -⟩ | ⟨-, hfits, rfl⟩ | ⟨-, hfits, new, rfl, -⟩
  · exact absurd heq h0
  · cases s.clearsHistory <;> simp [HistoryUpdate.isReset, HistoryUpdate.apply, hfits]
  · simp [HistoryUpdate.isReset, hfits]

/-- Whether the targets of the ring are created for the size of the last frame planned. -/
def HasUniformRing (s : Scheduler σ τ) : Prop :=
  ∀ t ∈ s.history, ∃ size, s.sourceSize = some size ∧ t.spec = HistoryUpdate.slotSpec size

theorem HasUniformRing.isUniform {size : Extent} (h : s.HasUniformRing)
    (hsize : s.sourceSize = some size) : HistoryUpdate.IsUniform s.history size := by
  intro t ht
  obtain ⟨size', hsize', hspec⟩ := h t ht
  cases hsize.symm.trans hsize'
  exact hspec

/-- Behind a planned frame the ring is uniform for the frame's source: what is kept has a
first target of this size, and its targets are alike. -/
theorem isUniform_beginFrame_ok (h : s.beginFrame f source format = (.ok plan, s'))
    (hs : s.HasUniformRing) : HistoryUpdate.IsUniform s'.history source := by
  obtain ⟨u, factory, -, hchange, -, hs'⟩ := beginFrame_ok h
  have hhistory : s'.history = u.apply s.history := by rw [hs']
  have hstage := HistoryUpdate.stage_ok (congrArg Prod.fst hchange)
  rw [hhistory]
  rcases hstage with ⟨-, rfl⟩ | ⟨h0, hfits, rfl⟩ | ⟨-, -, new, rfl, -, hnew⟩
  · intro t ht
    simp [HistoryUpdate.apply] at ht
  · have hold : HistoryUpdate.IsUniform s.history source := by
      intro t ht
      obtain ⟨size, hsize, hspec⟩ := hs t ht
      have hsource := ((HistoryUpdate.fits_iff (hs.isUniform hsize) h0).1 hfits).2
      rw [hspec, hsource]
    intro t ht
    apply hold t
    cases hclear : s.clearsHistory <;> simp [hclear, HistoryUpdate.apply, mem_rotateRight] at ht
    · exact ht
    · exact ht
  · exact hnew

/-- Behind a planned frame, every slot is for an input of the size of the frame's source. -/
theorem spec_of_history? {k : Nat} {t : Target τ}
    (h : s.beginFrame f source format = (.ok plan, s')) (hs : s.HasUniformRing)
    (ht : s'.history? k = some t) : t.spec = ⟨source, .native, false⟩ :=
  isUniform_beginFrame_ok h hs t (List.mem_of_getElem? ht)

end Frame

section Run

theorem hasUniformRing_call (f : Factory σ τ ε) (hs : s.HasUniformRing) (c : Call) :
    (s.call f c).2.HasUniformRing := by
  by_cases hc : s.Plans f c
  · obtain ⟨source, format, plan, rfl, hplan⟩ := hc
    rcases hframe : s.beginFrame f source format with ⟨r, s'⟩
    rw [hframe] at hplan
    cases hplan
    have hcall : (s.call f (.frame source format)).2 = s' := by simp [call, hframe]
    have hsize : s'.sourceSize = some source := by
      obtain ⟨u, factory, -, -, -, hs'⟩ := beginFrame_ok hframe
      rw [hs']
    rw [hcall]
    intro t ht
    exact ⟨source, hsize, isUniform_beginFrame_ok hframe hs t ht⟩
  · obtain ⟨hhistory, hsize, -⟩ := keeps_of_not_plans hc
    unfold HasUniformRing
    rw [hhistory, hsize]
    exact hs

theorem hasUniformRing_run (f : Factory σ τ ε) (hs : s.HasUniformRing) (calls : List Call) :
    (s.run f calls).HasUniformRing := by
  induction calls generalizing s with
  | nil => exact hs
  | cons c calls ih => exact ih (hasUniformRing_call f hs c)

/-- What a run finds of the ring is what its last planned frame left, and it is to be cleared
if this was asked for since. -/
theorem ring_of_lastPlanned (hs : s.HasUniformRing) (h : LastPlanned f s calls source last since) :
    (s.run f calls).history = last.history ∧ HistoryUpdate.IsUniform last.history source ∧
      ((s.run f calls).clearsHistory = true ↔ .clearHistory ∈ since) := by
  have hrun := run_of_lastPlanned h
  obtain ⟨before, format, plan, -, hframe, hsince⟩ := h
  obtain ⟨hhistory, -, hclears⟩ := keeps_of_plansNothing hsince
  have hlast : last.clearsHistory = false := by
    obtain ⟨u, factory, -, -, -, hlast⟩ := beginFrame_ok hframe
    rw [hlast]
  rw [hrun]
  refine ⟨hhistory, isUniform_beginFrame_ok hframe (hasUniformRing_run f hs before), ?_⟩
  simpa [hlast] using hclears

/-- Before the first planned frame there is no ring that could fit. -/
theorem historyReset_of_plansNothing (hs : s.history = []) (hcalls : s.PlansNothing f calls)
    (h : (s.run f calls).beginFrame f source format = (.ok plan, s'))
    (h0 : (s.run f calls).ringLength ≠ 0) : plan.historyReset = true := by
  obtain ⟨hreset, -⟩ := history_beginFrame_of_ringLength_ne_zero h h0
  obtain ⟨hhistory, -⟩ := keeps_of_plansNothing hcalls
  rw [hreset, hhistory, hs]
  simp [HistoryUpdate.fits]

theorem historyReset_iff_of_lastPlanned (hs : s.HasUniformRing)
    (hlast : LastPlanned f s calls old last since)
    (h : (s.run f calls).beginFrame f source format = (.ok plan, s'))
    (h0 : (s.run f calls).ringLength ≠ 0) :
    plan.historyReset = true ↔
      last.history.length ≠ s'.history.length ∨ old ≠ source ∨ .clearHistory ∈ since := by
  obtain ⟨hreset, -⟩ := history_beginFrame_of_ringLength_ne_zero h h0
  obtain ⟨hhistory, huniform, hclears⟩ := ring_of_lastPlanned hs hlast
  rw [hreset, hhistory, hclears, ← Bool.not_eq_true, HistoryUpdate.fits_iff huniform h0,
    length_history_beginFrame_ok h, not_and_or, or_assoc]

/-- A ring is to be cleared if there was no planned frame before, or if it is not as the last one
left it. -/
theorem historyReset_iff (hs : s.history = [])
    (h : (s.run f calls).beginFrame f source format = (.ok plan, s'))
    (h0 : (s.run f calls).ringLength ≠ 0) :
    plan.historyReset = true ↔
      s.PlansNothing f calls ∨
        ∃ old last since,
          LastPlanned f s calls old last since ∧
            (last.history.length ≠ s'.history.length ∨ old ≠ source ∨ .clearHistory ∈ since) := by
  have huniform : s.HasUniformRing := by simp [HasUniformRing, hs]
  constructor
  · intro hreset
    rcases plansNothing_or_lastPlanned f s calls with hnothing | ⟨old, last, since, hlast⟩
    · exact Or.inl hnothing
    · exact Or.inr ⟨old, last, since, hlast,
        (historyReset_iff_of_lastPlanned huniform hlast h h0).1 hreset⟩
  · rintro (hnothing | ⟨old, last, since, hlast, hchange⟩)
    · exact historyReset_of_plansNothing hs hnothing h h0
    · exact (historyReset_iff_of_lastPlanned huniform hlast h h0).2 hchange

/-- A ring that is not to be cleared is the one behind the last planned frame, turned. -/
theorem history_of_not_historyReset (hs : s.history = [])
    (h : (s.run f calls).beginFrame f source format = (.ok plan, s'))
    (h0 : (s.run f calls).ringLength ≠ 0) (hreset : plan.historyReset = false) :
    ∃ old last since, LastPlanned f s calls old last since ∧
      s'.history = rotateRight last.history := by
  have huniform : s.HasUniformRing := by simp [HasUniformRing, hs]
  obtain ⟨-, hturn⟩ := history_beginFrame_of_ringLength_ne_zero h h0
  rcases plansNothing_or_lastPlanned f s calls with hnothing | ⟨old, last, since, hlast⟩
  · rw [historyReset_of_plansNothing hs hnothing h h0] at hreset
    cases hreset
  · obtain ⟨hhistory, -⟩ := ring_of_lastPlanned huniform hlast
    refine ⟨old, last, since, hlast, ?_⟩
    rw [hturn hreset, hhistory]

/-- Each slot of a ring that is not to be cleared holds what the slot before it held behind the
last planned frame, and the first one what the last one held. -/
theorem history?_of_not_historyReset (hs : s.history = [])
    (h : (s.run f calls).beginFrame f source format = (.ok plan, s'))
    (h0 : (s.run f calls).ringLength ≠ 0) (hreset : plan.historyReset = false) :
    ∃ old last since, LastPlanned f s calls old last since ∧
      s'.history? 0 = last.history? (s'.history.length - 1) ∧
        ∀ k, k + 1 < s'.history.length → s'.history? (k + 1) = last.history? k := by
  obtain ⟨old, last, since, hlast, hturn⟩ := history_of_not_historyReset hs h h0 hreset
  have hlength : s'.history.length = last.history.length := by rw [hturn, length_rotateRight]
  refine ⟨old, last, since, hlast, ?_, fun k hk => ?_⟩
  · rw [hlength, history?, history?, hturn, getElem?_zero_rotateRight]
  · rw [history?, history?, hturn]
    exact getElem?_succ_rotateRight (hlength ▸ hk)

end Run

/-- Behind a planned frame of a run with a history of depth `h`, the ring has the slots 0 to
`h`, all of them for the size of the frame's source. It is to be cleared exactly if there was
no planned frame before, if the ring behind the last one had another length or size, or if
clearing was asked for since. Otherwise each slot holds what the slot before it held behind
the last planned frame, and the first one what the last one held. Without a history the ring
is empty and there is nothing to clear. -/
theorem history_of_run (f : Factory σ τ ε) (shader : CompiledShader) (options : SchedulerOptions)
    (factory : σ) (viewport : Extent) (calls : List Call) (source : Extent)
    (format : PixelFormat) (plan : FramePlan) (s' : Scheduler σ τ)
    (hcount : ∀ t, t = shader ∨ .reload t ∈ calls → t.historyCount + 1 < 2 ^ 64)
    (h : ((start shader options factory viewport).run f calls).beginFrame f source format =
      (.ok plan, s')) :
    (options.history = true → 0 < s'.shader.historyCount →
      (∀ k, (s'.history? k).isSome ↔ k ≤ s'.shader.historyCount) ∧
      (∀ k t, s'.history? k = some t → t.spec = ⟨source, .native, false⟩) ∧
      (plan.historyReset = true ↔
        (start shader options factory viewport : Scheduler σ τ).PlansNothing f calls ∨
          ∃ old last since,
            LastPlanned f (start shader options factory viewport) calls old last since ∧
              (last.history.length ≠ s'.history.length ∨ old ≠ source ∨
                .clearHistory ∈ since)) ∧
      (plan.historyReset = false →
        ∃ old last since,
          LastPlanned f (start shader options factory viewport) calls old last since ∧
            s'.history? 0 = last.history? s'.shader.historyCount ∧
            ∀ k, 1 ≤ k → k ≤ s'.shader.historyCount →
              s'.history? k = last.history? (k - 1))) ∧
    (options.history = false ∨ s'.shader.historyCount = 0 →
      s'.history = [] ∧ plan.historyReset = false) := by
  have hshader := shader_eq_of_beginFrame h
  have hoptions : ((start shader options factory viewport).run f calls).options = options :=
    options_run f _ calls
  have hempty : (start shader options factory viewport : Scheduler σ τ).history = [] := rfl
  constructor
  · intro hhistory h0
    rw [hshader] at h0
    have hring := ringLength_eq (hoptions ▸ hhistory) (hcount _ (shader_run f _ calls))
    rw [if_neg (Nat.ne_of_gt h0), ← hshader] at hring
    have hne : ((start shader options factory viewport).run f calls).ringLength ≠ 0 :=
      hring ▸ Nat.succ_ne_zero _
    have hlength := (length_history_beginFrame_ok h).trans hring
    refine ⟨fun k => ?_, fun k t ht => ?_, historyReset_iff hempty h hne, fun hreset => ?_⟩
    · rw [isSome_history?_iff h, hring]
      exact Nat.lt_succ_iff
    · refine spec_of_history? h (hasUniformRing_run f ?_ calls) ht
      simp [HasUniformRing, hempty]
    · obtain ⟨old, last, since, hlast, hfirst, hothers⟩ :=
        history?_of_not_historyReset hempty h hne hreset
      rw [hlength] at hfirst hothers
      refine ⟨old, last, since, hlast, hfirst, fun k hk hle => ?_⟩
      obtain ⟨k, rfl⟩ := Nat.exists_eq_add_of_le' hk
      exact hothers k (Nat.succ_lt_succ hle)
  · intro hoff
    refine history_beginFrame_of_ringLength_eq_zero h (ringLength_eq_zero ?_)
    rwa [hoptions, ← hshader]

/-- A frame of another size that is refused and a resizing stand between two frames of one
size, and the second of these finds the ring of the first, turned. -/
theorem history_of_run_refused :
    ∃ plan s',
      ((start (.remembering 1) .standard ⟨0, some 2, []⟩ ⟨8, 8⟩ : Scheduler TextureStock Nat).run
          .numbered [.frame ⟨4, 4⟩ .native, .frame ⟨2, 2⟩ .native, .resize ⟨9, 9⟩]).beginFrame
            .numbered ⟨4, 4⟩ .native = (.ok plan, s') ∧
        plan.historyReset = false ∧ s'.history? 1 = some ⟨0, ⟨⟨4, 4⟩, .native, false⟩⟩ ∧
        ∃ old last since,
          LastPlanned .numbered
              (start (.remembering 1) .standard ⟨0, some 2, []⟩ ⟨8, 8⟩ : Scheduler TextureStock Nat)
              [.frame ⟨4, 4⟩ .native, .frame ⟨2, 2⟩ .native, .resize ⟨9, 9⟩] old last since ∧
            s'.history? 0 = last.history? 1 ∧ s'.history? 1 = last.history? 0 := by
  refine ⟨_, _, rfl, by decide, by decide, ?_⟩
  have hcount : ∀ t, t = CompiledShader.remembering 1 ∨ Call.reload t ∈
      [.frame ⟨4, 4⟩ .native, .frame ⟨2, 2⟩ .native, .resize ⟨9, 9⟩] →
      t.historyCount + 1 < 2 ^ 64 := by
    rintro t (rfl | hreload)
    · decide
    · simp at hreload
  obtain ⟨-, -, -, hturn⟩ :=
    (history_of_run .numbered (.remembering 1) .standard ⟨0, some 2, []⟩ ⟨8, 8⟩
      [.frame ⟨4, 4⟩ .native, .frame ⟨2, 2⟩ .native, .resize ⟨9, 9⟩] ⟨4, 4⟩ .native _ _
      hcount rfl).1 (by decide) (by decide)
  obtain ⟨old, last, since, hlast, hfirst, hothers⟩ := hturn (by decide)
  exact ⟨old, last, since, hlast, hfirst, hothers 1 (by decide) (by decide)⟩

end Scheduler

end ShaderChain
