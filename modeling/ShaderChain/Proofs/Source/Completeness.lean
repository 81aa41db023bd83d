import Mathlib.Data.List.Count
import ShaderChain.Proofs.Path
import ShaderChain.Proofs.Source.Derivation

/-!
# Derivations are carried out

What can be derived of an expansion by the rules is what an expansion of the file does. The
rules speak of no budget, and what has to be shown is that the budget always suffices: a file
is opened inside another one only if it has not been requested, a normalized path is the
spelling of one file only, and so each opened file leaves one less of the store that has not
been opened.
-/

namespace ShaderChain.Source

namespace Expansion

variable {store : FileStore} {path target text : String} {number depth budget : Nat}
  {line : List Char} {lines : List (List Char)} {e e₁ e' : Expansion}
  {enter : String → Expansion → Except Failure Expansion}

section Lines

/-- What a line makes of an expansion by the rules is what it makes of it. -/
theorem expandLine_of_step (h : Step path number line e e') :
    expandLine enter path number line e = .ok e' := by
  cases h with
  | text hline => simp [expandLine, hline]
  | endif hline => simp [expandLine, hline]
  | name hline hnew => simp [expandLine, hline, setName, hnew, Except.mapError, Except.map]
  | @format argument format hline hnew htoken =>
      have hformat := Named.ofName?_eq_some_iff.2 htoken
      simp [expandLine, hline, setFormat, hnew, hformat, Except.mapError, Except.map]
  | parameter hline hread hadd =>
      simp [expandLine, hline, declare, hread, hadd, Except.mapError, Except.map]
  | @stage argument stage hline hword =>
      have hstage := Named.ofName?_eq_some_iff.2 hword
      simp [expandLine, hline, setStage, hstage, Except.mapError, Except.map]

/-- An inclusion enters its file. -/
theorem expandLine_of_includedPath? (h : includedPath? path line = some target) :
    expandLine enter path number line e = (enter target e).map (·.mark (number + 1) path) := by
  unfold includedPath? at h
  split at h
  · next argument hline =>
      obtain ⟨quoted, hquoted, rfl⟩ := Option.map_eq_some_iff.1 h
      simp [expandLine, hline, hquoted]
  · cases h

/-- The path of an included file is its own spelling. -/
theorem normalize_includedPath? (h : includedPath? path line = some target) :
    Path.normalize target = target := by
  unfold includedPath? at h
  split at h
  · obtain ⟨quoted, -, rfl⟩ := Option.map_eq_some_iff.1 h
    exact Path.normalize_normalize _
  · cases h

end Lines

section Requests

theorem requests_step (h : Step path number line e e') : e'.requests = e.requests := by
  cases h <;> rfl

theorem hasRequested_request (e : Expansion) (target path : String) (depth : Nat) :
    (e.request target depth).hasRequested path = (e.hasRequested path || target == path) := by
  simp [request, hasRequested]

@[simp] theorem hasRequested_mark (e : Expansion) (number : Nat) (target path : String) :
    (e.mark number path).hasRequested target = e.hasRequested target := rfl

/-- What has been requested remains so. -/
theorem requests_prefix_of_expands (h : Expands store depth path number lines e e') :
    e.requests <+: e'.requests := by
  induction h with
  | nil => exact List.prefix_rfl
  | step hstep _ ih =>
      rw [requests_step hstep] at ih
      exact ih
  | again _ _ _ ih => exact ih
  | inclusion _ _ _ _ _ ihinner ihrest =>
      exact ((List.prefix_append _ _).trans ihinner).trans ihrest

theorem hasRequested_of_requests (h : e.requests <+: e'.requests)
    (hseen : e.hasRequested path = true) : e'.hasRequested path = true := by
  rw [hasRequested, List.any_eq_true] at *
  obtain ⟨r, hr, hpath⟩ := hseen
  exact ⟨r, h.subset hr, hpath⟩

end Requests

section Budget

/-- How many files of a store have not been requested. -/
def unopened (store : FileStore) (e : Expansion) : Nat :=
  store.files.countP fun f => !e.hasRequested f.1

theorem unopened_le_size (store : FileStore) (e : Expansion) : e.unopened store ≤ store.size :=
  List.countP_le_length

theorem unopened_le_of_requests (h : e.requests <+: e'.requests) :
    e'.unopened store ≤ e.unopened store := by
  refine List.countP_mono_left fun f _ hf => ?_
  rw [Bool.not_eq_true'] at *
  by_contra hseen
  rw [Bool.not_eq_false] at hseen
  rw [hasRequested_of_requests h hseen] at hf
  cases hf

/-- A file that is requested for the first time is one less, as its path is the one that the
store has it under. -/
theorem unopened_request_lt (htarget : Path.normalize target = target)
    (hnew : e.hasRequested target = false) (htext : store.get? target = some text) :
    (e.request target depth).unopened store < e.unopened store := by
  rw [FileStore.get?, htarget] at htext
  obtain ⟨before, after, hfiles, -⟩ := List.lookup_eq_some_iff.1 htext
  have hless (fs : List (String × String)) :
      (fs.countP fun f => !(e.request target depth).hasRequested f.1) ≤
        fs.countP fun f => !e.hasRequested f.1 := by
    refine List.countP_mono_left fun f _ hf => ?_
    rw [hasRequested_request, Bool.not_or, Bool.and_eq_true] at hf
    exact hf.1
  have hbefore := hless before
  have hafter := hless after
  have hself : (e.request target depth).hasRequested target = true := by
    simp [hasRequested_request]
  simp only [unopened, hfiles, List.countP_append, List.countP_cons, hself, hnew]
  simp only [Bool.not_true, Bool.not_false, Bool.false_eq_true, if_false, if_true]
  omega

theorem unopened_step (h : Step path number line e e') :
    e'.unopened store = e.unopened store := by
  simp only [unopened, hasRequested, requests_step h]

/-- With a budget for all files that have not been requested, a file that is there is opened, and
what is left is a budget for the files that it includes. -/
theorem exists_enter_eq (htarget : Path.normalize target = target)
    (hnew : e.hasRequested target = false) (htext : store.get? target = some text)
    (hbudget : e.unopened store ≤ budget) :
    ∃ left, ((e.request target depth).mark 1 target).unopened store ≤ left ∧
      Expansion.enter store budget depth target e =
        expandLines (Expansion.enter store left (depth + 1)) target 1 (Text.lines text.toList)
          ((e.request target depth).mark 1 target) := by
  have hless : (e.request target depth).unopened store < e.unopened store :=
    unopened_request_lt htarget hnew htext
  obtain ⟨left, rfl⟩ := Nat.exists_eq_add_one_of_ne_zero
    (Nat.ne_zero_of_lt (Nat.lt_of_lt_of_le hless hbudget))
  refine ⟨left, Nat.le_of_lt_succ (Nat.lt_of_lt_of_le hless hbudget), ?_⟩
  rw [Expansion.enter, if_neg (by simp [hnew])]
  simp only [htext]

/-- A file that has been expanded leaves no more files to be opened than there were before it. -/
theorem unopened_le_of_expands_request
    (h : Expands store (depth + 1) target number lines ((e.request target depth).mark 1 target) e₁) :
    e₁.unopened store ≤ e.unopened store :=
  unopened_le_of_requests ((List.prefix_append _ _).trans (requests_prefix_of_expands h))

/-- With a budget for all files that have not been requested, lines are expanded as derived. By
induction on the derivation, in which only an inclusion spends of the budget. -/
theorem expandLines_of_expands (h : Expands store depth path number lines e e')
    (hbudget : e.unopened store ≤ budget) :
    expandLines (Expansion.enter store budget depth) path number lines e = .ok e' := by
  induction h generalizing budget with
  | nil => rfl
  | step hstep _ ih =>
      rw [expandLines, expandLine_of_step hstep]
      exact ih (Nat.le_trans (Nat.le_of_eq (unopened_step hstep)) hbudget)
  | again hline hseen _ ih =>
      rw [expandLines, expandLine_of_includedPath? hline, Expansion.enter, if_pos hseen]
      exact ih hbudget
  | inclusion hline hnew htext hinner _ ihinner ihrest =>
      obtain ⟨left, hleft, hentered⟩ :=
        exists_enter_eq (normalize_includedPath? hline) hnew htext hbudget
      have hgrown := unopened_le_of_expands_request hinner
      rw [expandLines, expandLine_of_includedPath? hline, hentered, ihinner hleft]
      exact ihrest (Nat.le_trans hgrown hbudget)

/-- A file is expanded to what derives from it behind its version line. -/
theorem ofFile_eq_ok_iff :
    ofFile store path = .ok e ↔
      ∃ text version rest, store.get? path = some text ∧
        Text.lines text.toList = version :: rest ∧ versionKeyword.isPrefixOf version = true ∧
          Expands store 2 path 2 rest (opened path version) e := by
  refine ⟨ofFile_ok, ?_⟩
  rintro ⟨text, version, rest, htext, hlines, hversion, hexpands⟩
  unfold ofFile
  simp only [FileStore.load_eq_ok_iff.2 htext, hlines, hversion, if_true]
  exact expandLines_of_expands hexpands (unopened_le_size _ _)

end Budget

end Expansion

theorem Annotation.ofFile_eq_ok_iff {store : FileStore} {path : String} {a : Annotation} :
    ofFile store path = .ok a ↔
      ∃ e, Expansion.ofFile store (Path.normalize path) = .ok e ∧
        a = ofExpansion (Path.normalize path) e := by
  refine ⟨ofFile_ok, ?_⟩
  rintro ⟨e, he, rfl⟩
  exact Success.map_iff.2 ⟨e, Success.mapError_iff.2 he, rfl⟩

end ShaderChain.Source
