import Mathlib.Data.List.Nodup
import ShaderChain.Proofs.Source.Outcome
import ShaderChain.Proofs.Source.Reading

/-!
# Requests of expansions

Which files an expansion asks its store for, whether it succeeds or fails. An inclusion is read as
a normalized path, the one spelling of its file, and a path that has been requested is not
requested again, so that no file is asked for twice. An expansion ends at the first file that is
not there, so that all files asked for are in the store but for the last one. And a file is opened
inside files that were requested before it. It follows that there is at most one request more than
the store has files, and that no more files are open inside each other than the store has.

The requests are all that an expansion knows of a store: another store with the same texts under
the requested paths has the same outcome.
-/

namespace ShaderChain

namespace FileStore

/-- Whether a store has all the files of some requests. -/
def HasAll (store : FileStore) (requests : List Source.Request) : Prop :=
  ∀ q ∈ requests, (store.get? q.path).isSome

/-- Whether two stores have the same texts for some requests. -/
def AgreesOn (store store' : FileStore) (requests : List Source.Request) : Prop :=
  ∀ q ∈ requests, store'.get? q.path = store.get? q.path

variable {store store' : FileStore} {requests requests' : List Source.Request} {path : String}
  {depth : Nat}

theorem HasAll.of_subset (h : store.HasAll requests) (hsubset : requests' ⊆ requests) :
    store.HasAll requests' :=
  fun q hq => h q (hsubset hq)

theorem HasAll.append (h : store.HasAll requests) (hpath : (store.get? path).isSome) :
    store.HasAll (requests ++ [⟨path, depth⟩]) := by
  intro q hq
  rcases List.mem_append.1 hq with hq | hq
  · exact h q hq
  · rw [List.mem_singleton.1 hq]
    exact hpath

theorem AgreesOn.of_prefix (h : store.AgreesOn store' requests)
    (hinitial : requests' <+: requests) : store.AgreesOn store' requests' :=
  fun q hq => h q (hinitial.subset hq)

theorem AgreesOn.get?_eq (h : store.AgreesOn store' requests)
    (hinitial : requests' ++ [⟨path, depth⟩] <+: requests) : store'.get? path = store.get? path :=
  h ⟨path, depth⟩ (hinitial.subset (by simp))

end FileStore

namespace Source

/-- Whether requests are for different files, each by its own spelling, where a file is opened
inside no more files than were requested before it. -/
structure Request.AreNested (requests : List Request) : Prop where
  nodup : (requests.map (·.path)).Nodup
  normalize_path : ∀ q ∈ requests, Path.normalize q.path = q.path
  depth_le : ∀ (i : Nat) (q : Request), requests[i]? = some q → q.depth ≤ i + 1

section Nesting

variable {store : FileStore} {requests : List Request} {path : String} {depth : Nat}

theorem Request.areNested_singleton (h : Path.normalize path = path) :
    Request.AreNested [⟨path, 1⟩] where
  nodup := List.nodup_singleton path
  normalize_path q hq := by
    rw [List.mem_singleton.1 hq]
    exact h
  depth_le i q hq := by
    obtain ⟨hi, rfl⟩ := List.getElem?_eq_some_iff.1 hq
    simp

/-- A file that has not been requested may be requested inside files that have been. -/
theorem Request.AreNested.append (h : AreNested requests) (hpath : Path.normalize path = path)
    (hnew : path ∉ requests.map (·.path)) (hdepth : depth ≤ requests.length + 1) :
    AreNested (requests ++ [⟨path, depth⟩]) where
  nodup := by
    rw [List.map_append, List.map_singleton]
    exact List.nodup_append.2 ⟨h.nodup, List.nodup_singleton path, by simpa using hnew⟩
  normalize_path q hq := by
    rcases List.mem_append.1 hq with hq | hq
    · exact h.normalize_path q hq
    · rw [List.mem_singleton.1 hq]
      exact hpath
  depth_le i q hq := by
    rw [List.getElem?_append] at hq
    split at hq
    · exact h.depth_le i q hq
    · obtain ⟨hi, rfl⟩ := List.getElem?_eq_some_iff.1 hq
      simp only [List.length_singleton] at hi
      simp only [List.getElem_singleton]
      omega

theorem Request.AreNested.take (h : AreNested requests) (n : Nat) : AreNested (requests.take n) where
  nodup := h.nodup.sublist ((List.take_sublist n requests).map _)
  normalize_path q hq := h.normalize_path q (List.mem_of_mem_take hq)
  depth_le i q hq := by
    rw [List.getElem?_take] at hq
    split at hq
    · exact h.depth_le i q hq
    · cases hq

/-- A store has as many files as different ones are requested and there. -/
theorem Request.AreNested.length_le_size (h : AreNested requests) (hall : store.HasAll requests) :
    requests.length ≤ store.size := by
  have hsubset : requests.map (·.path) ⊆ store.files.map (·.1) := by
    intro p hp
    obtain ⟨q, hq, rfl⟩ := List.mem_map.1 hp
    obtain ⟨text, htext⟩ := Option.isSome_iff_exists.1 (hall q hq)
    rw [FileStore.get?, h.normalize_path q hq] at htext
    obtain ⟨before, after, hfiles, -⟩ := List.lookup_eq_some_iff.1 htext
    simp [hfiles]
  have hle := (List.subperm_of_subset h.nodup hsubset).length_le
  simpa [FileStore.size] using hle

/-- Where all files but the last one are there, one more may have been requested than there are. -/
theorem Request.AreNested.length_le (h : AreNested requests)
    (hall : store.HasAll requests.dropLast) : requests.length ≤ store.size + 1 := by
  have hdropped : AreNested requests.dropLast := by
    rw [List.dropLast_eq_take]
    exact h.take _
  have hle := hdropped.length_le_size hall
  rw [List.length_dropLast] at hle
  omega

/-- Where all files but the last one are there, a file that is there is opened inside fewer files
than the store has. -/
theorem Request.AreNested.depth_le_size {q : Request} (h : AreNested requests)
    (hall : store.HasAll requests.dropLast) (hq : q ∈ requests)
    (hthere : (store.get? q.path).isSome) : q.depth ≤ store.size := by
  obtain ⟨i, hi, rfl⟩ := List.mem_iff_getElem.1 hq
  have hbefore : requests.take i ⊆ requests.dropLast := by
    rw [List.dropLast_eq_take]
    exact (List.take_prefix_take_left (by omega)).subset
  have htaken : store.HasAll (requests.take (i + 1)) := by
    rw [List.take_add_one, List.getElem?_eq_getElem hi]
    exact (FileStore.HasAll.of_subset hall hbefore).append hthere
  calc requests[i].depth ≤ i + 1 := h.depth_le i _ (List.getElem?_eq_getElem hi)
    _ = (requests.take (i + 1)).length := by rw [List.length_take]; omega
    _ ≤ store.size := (h.take (i + 1)).length_le_size htaken

end Nesting

namespace Expansion

variable {store store' : FileStore} {path target text : String} {number depth : Nat}
  {line : List Char} {lines : List (List Char)} {e e' : Expansion} {x : Failure}

theorem not_mem_of_hasRequested_eq_false (h : e.hasRequested target = false) :
    target ∉ e.requests.map (·.path) := by
  intro hmem
  rw [hasRequested_eq_true_iff.2 hmem] at h
  cases h

theorem areNested_request (h : Request.AreNested e.requests)
    (hline : includedPath? path line = some target) (hnew : e.hasRequested target = false)
    (hdepth : depth ≤ e.requests.length + 1) :
    Request.AreNested (e.request target depth).requests :=
  h.append (normalize_includedPath? hline) (not_mem_of_hasRequested_eq_false hnew) hdepth

/-- What holds of the requests of an expansion while files are opened at the given depth: they are
nested, and all files are there. -/
structure IsUnderWay (store : FileStore) (depth : Nat) (e : Expansion) : Prop where
  areNested : Request.AreNested e.requests
  hasAll : store.HasAll e.requests
  depth_le : depth ≤ e.requests.length + 1

theorem isUnderWay_opened {version : List Char} (hpath : Path.normalize path = path)
    (htext : store.get? path = some text) : (opened path version).IsUnderWay store 2 where
  areNested := Request.areNested_singleton hpath
  hasAll q hq := by
    rw [List.mem_singleton.1 hq]
    exact Option.isSome_of_eq_some htext
  depth_le := Nat.le_refl 2

theorem IsUnderWay.of_step (h : e.IsUnderWay store depth) (hstep : Step path number line e e') :
    e'.IsUnderWay store depth := by
  have hrequests := requests_step hstep
  constructor
  · exact hrequests ▸ h.areNested
  · exact hrequests ▸ h.hasAll
  · exact hrequests ▸ h.depth_le

theorem IsUnderWay.mark (h : e.IsUnderWay store depth) (number : Nat) (path : String) :
    (e.mark number path).IsUnderWay store depth :=
  ⟨h.areNested, h.hasAll, h.depth_le⟩

/-- A file is opened. -/
theorem IsUnderWay.enter (h : e.IsUnderWay store depth)
    (hline : includedPath? path line = some target) (hnew : e.hasRequested target = false)
    (htext : store.get? target = some text) :
    ((e.request target depth).mark 1 target).IsUnderWay store (depth + 1) where
  areNested := areNested_request h.areNested hline hnew h.depth_le
  hasAll := FileStore.HasAll.append h.hasAll (Option.isSome_of_eq_some htext)
  depth_le := by
    have := h.depth_le
    simp only [Expansion.mark, Expansion.request, List.length_append, List.length_singleton]
    omega

/-- A file is closed again. -/
theorem IsUnderWay.leave (h : e.IsUnderWay store (depth + 1)) : e.IsUnderWay store depth :=
  ⟨h.areNested, h.hasAll, Nat.le_of_succ_le h.depth_le⟩

/-- Lines that are expanded leave an expansion under way. -/
theorem isUnderWay_of_expands (h : Expands store depth path number lines e e')
    (he : e.IsUnderWay store depth) : e'.IsUnderWay store depth := by
  induction h with
  | nil => exact he
  | step hstep _ ih => exact ih (he.of_step hstep)
  | again _ _ _ ih => exact ih (he.mark _ _)
  | inclusion hline hnew htext _ _ ihinner ihrest =>
      have hopened := he.enter hline hnew htext
      exact ihrest ((ihinner hopened).leave.mark _ _)

/-- Lines that fail to be expanded have asked for files that are there, but for the last one. -/
theorem areNested_of_fails (h : Fails store depth path number lines e x)
    (he : e.IsUnderWay store depth) :
    Request.AreNested x.gathered.requests ∧ store.HasAll x.gathered.requests.dropLast := by
  induction h with
  | refused _ => exact ⟨he.areNested, FileStore.HasAll.of_subset he.hasAll (List.dropLast_subset _)⟩
  | missing hline hnew _ =>
      refine ⟨areNested_request he.areNested hline hnew he.depth_le, ?_⟩
      rw [Expansion.request, List.dropLast_concat]
      exact he.hasAll
  | within hline hnew htext _ ihinner => exact ihinner (he.enter hline hnew htext)
  | step hstep _ ih => exact ih (he.of_step hstep)
  | again _ _ _ ih => exact ih (he.mark _ _)
  | inclusion hline hnew htext hinner _ ihrest =>
      have hopened := he.enter hline hnew htext
      exact ihrest ((isUnderWay_of_expands hinner hopened).leave.mark _ _)

theorem requests_prefix_of_fails (h : Fails store depth path number lines e x) :
    e.requests <+: x.gathered.requests := by
  induction h with
  | refused _ => exact List.prefix_rfl
  | missing _ _ _ => exact List.prefix_append _ _
  | within _ _ _ _ ihinner => exact (List.prefix_append _ _).trans ihinner
  | step hstep _ ih =>
      rw [requests_step hstep] at ih
      exact ih
  | again _ _ _ ih => exact ih
  | inclusion _ _ _ hinner _ ihrest =>
      have hinitial := requests_prefix_of_expands hinner
      exact ((List.prefix_append _ _).trans hinitial).trans ihrest

/-- Lines are expanded alike from another store with the same files for the requests. -/
theorem expands_of_agreesOn (h : Expands store depth path number lines e e')
    (hagrees : store.AgreesOn store' e'.requests) :
    Expands store' depth path number lines e e' := by
  induction h with
  | nil => exact .nil
  | step hstep _ ih => exact .step hstep (ih hagrees)
  | again hline hseen _ ih => exact .again hline hseen (ih hagrees)
  | inclusion hline hnew htext hinner hrest ihinner ihrest =>
      have hopened := requests_prefix_of_expands hinner
      have hclosed := requests_prefix_of_expands hrest
      have hsame := hagrees.get?_eq (hopened.trans hclosed)
      exact .inclusion hline hnew (hsame.trans htext) (ihinner (hagrees.of_prefix hclosed))
        (ihrest hagrees)

theorem fails_of_agreesOn (h : Fails store depth path number lines e x)
    (hagrees : store.AgreesOn store' x.gathered.requests) :
    Fails store' depth path number lines e x := by
  induction h with
  | refused hline => exact .refused hline
  | missing hline hnew hmissing =>
      have hsame := hagrees.get?_eq List.prefix_rfl
      exact .missing hline hnew (hsame.trans hmissing)
  | within hline hnew htext hinner ihinner =>
      have hsame := hagrees.get?_eq (requests_prefix_of_fails hinner)
      exact .within hline hnew (hsame.trans htext) (ihinner hagrees)
  | step hstep _ ih => exact .step hstep (ih hagrees)
  | again hline hseen _ ih => exact .again hline hseen (ih hagrees)
  | inclusion hline hnew htext hinner hrest ihrest =>
      have hopened := requests_prefix_of_expands hinner
      have hclosed := requests_prefix_of_fails hrest
      have hsame := hagrees.get?_eq (hopened.trans hclosed)
      exact .inclusion hline hnew (hsame.trans htext)
        (expands_of_agreesOn hinner (hagrees.of_prefix hclosed)) (ihrest hagrees)

section Outcomes

variable {r : Except Failure Expansion}

/-- What had been gathered of a source when its expansion ended. -/
def gathered : Except Failure Expansion → Expansion
  | .ok e => e
  | .error x => x.gathered

theorem areNested_of_outcome (h : Outcome store path r) (hpath : Path.normalize path = path) :
    Request.AreNested (gathered r).requests ∧ store.HasAll (gathered r).requests.dropLast := by
  cases h with
  | unreadable _ => exact ⟨Request.areNested_singleton hpath, fun q hq => by cases hq⟩
  | unversioned _ _ => exact ⟨Request.areNested_singleton hpath, fun q hq => by cases hq⟩
  | expanded htext _ _ hexpands =>
      have hended := isUnderWay_of_expands hexpands (isUnderWay_opened hpath htext)
      exact ⟨hended.areNested, FileStore.HasAll.of_subset hended.hasAll (List.dropLast_subset _)⟩
  | failed htext _ _ hfails => exact areNested_of_fails hfails (isUnderWay_opened hpath htext)

/-- A file has the same outcome in another store with the same files for the requests. -/
theorem outcome_of_agreesOn (h : Outcome store path r)
    (hagrees : store.AgreesOn store' (gathered r).requests) : Outcome store' path r := by
  cases h with
  | unreadable hmissing =>
      have hsame := hagrees.get?_eq List.prefix_rfl
      exact .unreadable (hsame.trans hmissing)
  | unversioned htext hversion =>
      have hsame := hagrees.get?_eq List.prefix_rfl
      exact .unversioned (hsame.trans htext) hversion
  | expanded htext hlines hversion hexpands =>
      have hsame := hagrees.get?_eq (requests_prefix_of_expands hexpands)
      exact .expanded (hsame.trans htext) hlines hversion (expands_of_agreesOn hexpands hagrees)
  | failed htext hlines hversion hfails =>
      have hsame := hagrees.get?_eq (requests_prefix_of_fails hfails)
      exact .failed (hsame.trans htext) hlines hversion (fails_of_agreesOn hfails hagrees)

/-- The expansion of a file ends, whatever is included where: there is exactly one outcome, which
is the one that the annotation is made from. In it, no file has been requested twice by any of its
spellings, at most one more has been requested than the store has, and no more have been open
inside each other than the store has. The requests are all that has been asked of the store. -/
theorem exists_outcome_nodup_requests (store : FileStore) (path : String) :
    ∃ r, (∀ r', Outcome store (Path.normalize path) r' ↔ r' = r) ∧
      Annotation.ofFile store path =
        ((r.mapError (·.error)).map fun e => Annotation.ofExpansion (Path.normalize path) e) ∧
      ((gathered r).requests.map fun q => Path.normalize q.path).Nodup ∧
      (gathered r).requests.length ≤ store.size + 1 ∧
      (∀ q ∈ (gathered r).requests, Path.normalize q.path = q.path ∧
        ((store.get? q.path).isSome → q.depth ≤ store.size)) ∧
      ∀ store', store.AgreesOn store' (gathered r).requests →
        Outcome store' (Path.normalize path) r := by
  have houtcome : Outcome store (Path.normalize path) (ofFile store (Path.normalize path)) :=
    outcome_iff.2 rfl
  obtain ⟨hnested, hall⟩ := areNested_of_outcome houtcome (Path.normalize_normalize path)
  refine ⟨_, fun r' => ?_, rfl, ?_, hnested.length_le hall, fun q hq => ?_, fun store' => ?_⟩
  · rw [outcome_iff]
    exact eq_comm
  · rw [List.map_congr_left hnested.normalize_path]
    exact hnested.nodup
  · exact ⟨hnested.normalize_path q hq, hnested.depth_le_size hall hq⟩
  · exact outcome_of_agreesOn houtcome

/-- Two files that include each other and themselves, by several spellings. -/
example :
    (gathered (ofFile (.ofList [("a", "#version 450\n#include \"./b\"\n#include \"a\""),
      ("b", "#include \"c/..//a\"\n#include \"b\"")]) "a")).requests = [⟨"a", 1⟩, ⟨"b", 2⟩] := by
  decide +kernel

end Outcomes

end Expansion

end Source

end ShaderChain
