import ShaderChain.Proofs.Source.Bytes
import ShaderChain.Proofs.Source.Completeness
import ShaderChain.Proofs.Source.Stream

/-!
# Exchanging the stages

The directives for stages are taken out of a source, so that its bytes do not show them. If in
all files of a store each of these directives is exchanged for that of the other stage, a
source is expanded line by line to the same texts in the other stage, and its annotation is the
same, digest included, but for its two texts, which are exchanged.

The files are written anew with a carriage return at the end of each line. Lines lose one, so
that those that have others at their end keep them.
-/

namespace ShaderChain

namespace Text

variable {line : List Char} {lines : List (List Char)}

/-- A text begins with a line that ends at a line feed. -/
theorem lines_append_cons (h : ∀ c ∈ line, (c == '\n') = false) (rest : List Char) :
    Text.lines (line ++ '\n' :: rest) = dropReturn line :: Text.lines rest := by
  have hcut := List.splitOn_append_cons_of_forall_mem_beq_eq_false h '\n' (by rfl) rest
  obtain ⟨p, ps, hp⟩ := List.exists_cons_of_ne_nil (List.splitOn_ne_nil '\n' rest)
  simp [Text.lines, hcut, hp]

/-- Lines are read back if each of them is written with a carriage return and a line feed. -/
theorem lines_flatMap (h : ∀ line ∈ lines, ∀ c ∈ line, (c == '\n') = false) :
    Text.lines (lines.flatMap (· ++ ['\r', '\n'])) = lines := by
  induction lines with
  | nil => rfl
  | cons line lines ih =>
      have hline : ∀ c ∈ line ++ ['\r'], (c == '\n') = false := by
        intro c hc
        rcases List.mem_append.1 hc with hc | hc
        · exact h line List.mem_cons_self c hc
        · rw [List.mem_singleton.1 hc]
          rfl
      have hdrop : dropReturn (line ++ ['\r']) = line := by simp [dropReturn]
      have hsplit : (line :: lines).flatMap (· ++ ['\r', '\n']) =
          (line ++ ['\r']) ++ '\n' :: lines.flatMap (· ++ ['\r', '\n']) := by simp
      rw [hsplit, lines_append_cons hline, hdrop,
        ih fun l hl => h l (List.mem_cons_of_mem _ hl)]

theorem forall_of_mem_lines {s : List Char} (h : line ∈ Text.lines s) :
    ∀ c ∈ line, (c == '\n') = false := by
  simp only [Text.lines, List.mem_append, List.mem_map, List.mem_filter] at h
  rcases h with ⟨p, hp, rfl⟩ | ⟨hlast, -⟩
  · have hpiece := forall_of_mem_splitOn ((List.dropLast_sublist _).subset hp)
    unfold dropReturn
    split
    · exact fun c hc => hpiece c ((List.dropLast_sublist _).subset hc)
    · exact hpiece
  · rw [Option.mem_toList] at hlast
    exact forall_of_mem_splitOn (List.mem_of_getLast? hlast)

end Text

def Stage.other : Stage → Stage
  | .vertex => .fragment
  | .fragment => .vertex

namespace Source

section Lines

variable {line argument : List Char}

/-- The directive for a stage. -/
def stageLine (s : Stage) : List Char := "#pragma stage ".toList ++ (Named.name s).toList

/-- The directive for the other stage in place of one for a stage, and any other line as it is. -/
def exchangeLine (line : List Char) : List Char :=
  match Directive.ofLine line with
  | .stage argument =>
      match Named.ofName? (String.ofList (Text.trim argument)) with
      | some stage => stageLine (Stage.other stage)
      | none => line
  | _ => line

theorem exchangeLine_of_ne (h : ∀ argument, Directive.ofLine line ≠ .stage argument) :
    exchangeLine line = line := by
  unfold exchangeLine
  split
  · next argument hline => exact absurd hline (h argument)
  · rfl

theorem exchangeLine_of_stage {stage : Stage} (hline : Directive.ofLine line = .stage argument)
    (hword : Named.name stage = String.ofList (Text.trim argument)) :
    exchangeLine line = stageLine stage.other := by
  simp only [exchangeLine, hline, ← hword, Named.ofName?_name]

/-- The directive for a stage is read as one. -/
theorem exists_directive_stageLine (s : Stage) :
    ∃ argument, Directive.ofLine (stageLine s) = .stage argument ∧
      Named.name s = String.ofList (Text.trim argument) := by
  cases s with
  | vertex => exact ⟨" vertex".toList, by decide, by decide⟩
  | fragment => exact ⟨" fragment".toList, by decide, by decide⟩

theorem forall_of_mem_stageLine (s : Stage) : ∀ c ∈ stageLine s, (c == '\n') = false := by
  have hall : (stageLine s).all (fun c => !(c == '\n')) = true := by cases s <;> rfl
  intro c hc
  simpa using List.all_eq_true.1 hall c hc

theorem forall_of_mem_exchangeLine (h : ∀ c ∈ line, (c == '\n') = false) :
    ∀ c ∈ exchangeLine line, (c == '\n') = false := by
  unfold exchangeLine
  split
  · split
    · exact forall_of_mem_stageLine _
    · exact h
  · exact h

/-- A file with the stages exchanged in all its lines. -/
def exchangeText (text : String) : String :=
  String.ofList (((Text.lines text.toList).map exchangeLine).flatMap (· ++ ['\r', '\n']))

theorem lines_exchangeText (text : String) :
    Text.lines (exchangeText text).toList = (Text.lines text.toList).map exchangeLine := by
  rw [exchangeText, String.toList_ofList]
  apply Text.lines_flatMap
  intro line hline
  obtain ⟨line, hmem, rfl⟩ := List.mem_map.1 hline
  exact forall_of_mem_exchangeLine (Text.forall_of_mem_lines hmem)

end Lines

end Source

/-- A store with the stages exchanged in all its files. -/
def FileStore.exchange (store : FileStore) : FileStore :=
  ⟨store.files.map fun f => (f.1, Source.exchangeText f.2)⟩

theorem FileStore.get?_exchange (store : FileStore) (path : String) :
    store.exchange.get? path = (store.get? path).map Source.exchangeText := by
  unfold FileStore.get? FileStore.exchange
  induction store.files with
  | nil => rfl
  | cons f fs ih =>
      rw [List.map_cons, List.lookup_cons, List.lookup_cons, ih]
      split <;> rfl

namespace Source

def LineKind.exchange : LineKind → LineKind
  | .stage s => .stage s.other
  | k => k

def Line.exchange (l : Line) : Line := { l with kind := l.kind.exchange }

theorem isKept_exchange (k : LineKind) (s : Stage) : k.exchange.isKept s = k.isKept s.other := by
  cases k with
  | stage t => cases s <;> cases t <;> rfl
  | common => rfl
  | marker => rfl

theorem textOf_map_exchange (ls : List Line) : textOf (ls.map Line.exchange) = textOf ls := by
  induction ls with
  | nil => rfl
  | cons l ls ih =>
      rw [List.map_cons, textOf, textOf, ih]
      rfl

/-- Lines with their stages exchanged have their texts exchanged. -/
theorem extract_map_exchange (s : Stage) (ls : List Line) :
    extract s (ls.map Line.exchange) = extract s.other ls := by
  have hkept : kept s (ls.map Line.exchange) = (kept s.other ls).map Line.exchange := by
    simp only [kept, List.filter_map, Function.comp_def, Line.exchange, isKept_exchange]
  rw [extract, hkept, textOf_map_exchange]
  rfl

/-- Lines with their stages exchanged have the same bytes. -/
theorem bytesOf_map_exchange (ls : List Line) : bytesOf (ls.map Line.exchange) = bytesOf ls := by
  rw [bytesOf, List.flatMap_map]
  rfl

namespace Expansion

variable {store : FileStore} {path : String} {number depth : Nat} {line : List Char}
  {lines : List (List Char)} {e e' : Expansion}

def exchange (e : Expansion) : Expansion :=
  { e with lines := e.lines.map Line.exchange, stage := e.stage.map Stage.other }

@[simp] theorem exchange_mark (e : Expansion) (number : Nat) (path : String) :
    (e.mark number path).exchange = e.exchange.mark number path := by
  simp [exchange, mark, Line.exchange, LineKind.exchange, Line.marker]

@[simp] theorem exchange_keep (e : Expansion) (text : String) (origin : Option Origin) :
    (e.keep text origin).exchange = e.exchange.keep text origin := by
  cases h : e.stage <;>
    simp [exchange, keep, Line.exchange, LineKind.exchange, LineKind.ofStage, h]

/-- What a line makes of an expansion, the exchanged line makes of the exchanged one. -/
theorem step_exchange (h : Step path number line e e') :
    Step path number (exchangeLine line) e.exchange e'.exchange := by
  cases h with
  | text hline =>
      rw [exchangeLine_of_ne (by simp [hline]), exchange_keep]
      exact .text hline
  | endif hline =>
      rw [exchangeLine_of_ne (by simp [hline]), exchange_mark, exchange_keep]
      exact .endif hline
  | name hline hnew =>
      rw [exchangeLine_of_ne (by simp [hline]), exchange_mark]
      exact .name hline hnew
  | format hline hnew htoken =>
      rw [exchangeLine_of_ne (by simp [hline]), exchange_mark]
      exact .format hline hnew htoken
  | parameter hline hread hadd =>
      rw [exchangeLine_of_ne (by simp [hline]), exchange_mark, exchange_keep]
      exact .parameter hline hread hadd
  | @stage argument stage hline hword =>
      obtain ⟨argument', hline', hword'⟩ := exists_directive_stageLine stage.other
      rw [exchangeLine_of_stage hline hword, exchange_mark]
      exact .stage hline' hword'

theorem includedPath?_exchangeLine {target : String} (h : includedPath? path line = some target) :
    includedPath? path (exchangeLine line) = some target := by
  rw [exchangeLine_of_ne, h]
  intro argument hline
  rw [includedPath?, hline] at h
  cases h

/-- By induction on the derivation. What decides on the rules, the requests and inclusions, is
not exchanged. -/
theorem expands_exchange (h : Expands store depth path number lines e e') :
    Expands store.exchange depth path number (lines.map exchangeLine) e.exchange e'.exchange := by
  induction h with
  | nil => exact .nil
  | step hstep _ ih => exact .step (step_exchange hstep) ih
  | again hline hseen _ ih =>
      rw [exchange_mark] at ih
      exact .again (includedPath?_exchangeLine hline) hseen ih
  | @inclusion depth path number line rest target text e e₁ e' hline hnew htext _ _ ihinner
      ihrest =>
      have htext' : store.exchange.get? target = some (exchangeText text) := by
        rw [FileStore.get?_exchange, htext]
        rfl
      rw [exchange_mark, ← lines_exchangeText] at ihinner
      rw [exchange_mark] at ihrest
      exact .inclusion (includedPath?_exchangeLine hline) hnew htext' ihinner ihrest

/-- The expansion of a file with the stages exchanged is that of the file, exchanged. -/
theorem ofFile_exchange (h : ofFile store path = .ok e) :
    ofFile store.exchange path = .ok e.exchange := by
  obtain ⟨text, version, rest, htext, hlines, hversion, hexpands⟩ := ofFile_eq_ok_iff.1 h
  have hkeep : exchangeLine version = version :=
    exchangeLine_of_ne (by simp [directive_of_version hversion])
  refine ofFile_eq_ok_iff.2
    ⟨exchangeText text, version, rest.map exchangeLine, ?_, ?_, hversion, ?_⟩
  · rw [FileStore.get?_exchange, htext]
    rfl
  · rw [lines_exchangeText, hlines, List.map_cons, hkeep]
  · exact expands_exchange hexpands

end Expansion

variable {store : FileStore} {path : String} {a : Annotation} {e : Expansion}

/-- The annotation of a file with the stages exchanged is that of the file, with its texts
exchanged and the same digest. -/
theorem Annotation.ofFile_exchange (h : ofFile store path = .ok a) :
    ofFile store.exchange path = .ok { a with vertex := a.fragment, fragment := a.vertex } := by
  obtain ⟨e, he, rfl⟩ := ofFile_eq_ok_iff.1 h
  refine ofFile_eq_ok_iff.2 ⟨e.exchange, Expansion.ofFile_exchange he, ?_⟩
  simp only [ofExpansion, Expansion.exchange, extract_map_exchange, digest, bytesOf_map_exchange]
  rfl

/-- The digest is that of the bytes. Together with the stage of each byte they tell the texts,
but alone they do not: every source has another one with the same bytes, whose texts are
exchanged. -/
theorem Annotation.texts_of_bytesOf_and_stagesOf (h : ofFile store path = .ok a)
    (he : Expansion.ofFile store (Path.normalize path) = .ok e) :
    a.hash = Digest.ofBytes (bytesOf e.lines) ∧
      (∀ (store' : FileStore) (path' : String) (a' : Annotation) (e' : Expansion),
        ofFile store' path' = .ok a' →
          Expansion.ofFile store' (Path.normalize path') = .ok e' →
            bytesOf e.lines = bytesOf e'.lines → stagesOf e.lines = stagesOf e'.lines →
              a.vertex = a'.vertex ∧ a.fragment = a'.fragment) ∧
      ofFile store.exchange path = .ok { a with vertex := a.fragment, fragment := a.vertex } ∧
        ∃ e', Expansion.ofFile store.exchange (Path.normalize path) = .ok e' ∧
          bytesOf e'.lines = bytesOf e.lines := by
  have hexchange := ofFile_exchange h
  obtain ⟨e₀, he₀, rfl⟩ := ofFile_eq_ok_iff.1 h
  obtain rfl : e₀ = e := Except.ok.inj (he₀.symm.trans he)
  refine ⟨rfl, ?_, hexchange, e₀.exchange, Expansion.ofFile_exchange he,
    bytesOf_map_exchange e₀.lines⟩
  intro store' path' a' e' h' he' hbytes hstages
  obtain ⟨e₁, he₁, rfl⟩ := ofFile_eq_ok_iff.1 h'
  obtain rfl : e₁ = e' := Except.ok.inj (he₁.symm.trans he')
  exact ⟨extract_eq_of_bytesOf_eq hbytes hstages .vertex,
    extract_eq_of_bytesOf_eq hbytes hstages .fragment⟩

/-- A file with one line in the vertex stage. -/
def vertexStore : FileStore := .ofList [("root", "#version 450\n#pragma stage vertex\nfoo")]

/-- A file with the same line in the fragment stage. -/
def fragmentStore : FileStore := .ofList [("root", "#version 450\n#pragma stage fragment\nfoo")]

theorem Annotation.texts_of_bytesOf_and_stagesOf_vertexStore :
    ∃ (a : Annotation) (e : Expansion), ofFile vertexStore "root" = .ok a ∧
      Expansion.ofFile vertexStore (Path.normalize "root") = .ok e ∧ a.vertex ≠ a.fragment ∧
        ofFile vertexStore.exchange "root" =
          .ok { a with vertex := a.fragment, fragment := a.vertex } := by
  have h : ∃ a, ofFile vertexStore "root" = .ok a ∧ decide (a.vertex ≠ a.fragment) = true :=
    Success.map_iff.1 (by decide +kernel)
  obtain ⟨a, ha, hne⟩ := h
  obtain ⟨e, he, -⟩ := ofFile_eq_ok_iff.1 ha
  obtain ⟨-, -, hexchange, -⟩ := texts_of_bytesOf_and_stagesOf ha he
  exact ⟨a, e, ha, he, of_decide_eq_true hne, hexchange⟩

/-- What both of these files have in the text of either stage. -/
def sharedText : String :=
  "#version 450\n" ++ extensionLine ++ "\n#line 2 \"root\"\n#line 3 \"root\"\n"

/-- Two sources with the same bytes and the same digest, of which each has the text in the one
stage that the other has in the other. -/
theorem Annotation.exists_bytesOf_eq_and_texts_ne :
    ∃ (a a' : Annotation) (e e' : Expansion), ofFile vertexStore "root" = .ok a ∧
      ofFile fragmentStore "root" = .ok a' ∧
        Expansion.ofFile vertexStore (Path.normalize "root") = .ok e ∧
          Expansion.ofFile fragmentStore (Path.normalize "root") = .ok e' ∧
            bytesOf e.lines = bytesOf e'.lines ∧ a.hash = a'.hash ∧ a.vertex ≠ a'.vertex ∧
              a.fragment ≠ a'.fragment := by
  have hvertex : ∃ e, Expansion.ofFile vertexStore (Path.normalize "root") = .ok e ∧
      (extract .vertex e.lines, extract .fragment e.lines) = (sharedText ++ "foo\n", sharedText) :=
    Success.map_iff.1 (by decide +kernel)
  have hfragment : ∃ e, Expansion.ofFile fragmentStore (Path.normalize "root") = .ok e ∧
      (extract .vertex e.lines, extract .fragment e.lines) = (sharedText, sharedText ++ "foo\n") :=
    Success.map_iff.1 (by decide +kernel)
  have hbytes : (Expansion.ofFile vertexStore (Path.normalize "root")).map (bytesOf ·.lines) =
      (Expansion.ofFile fragmentStore (Path.normalize "root")).map (bytesOf ·.lines) := by
    decide +kernel
  obtain ⟨e, he, htexts⟩ := hvertex
  obtain ⟨e', he', htexts'⟩ := hfragment
  rw [he, he'] at hbytes
  have hbytes : bytesOf e.lines = bytesOf e'.lines := Except.ok.inj hbytes
  obtain ⟨hv, hf⟩ := Prod.mk.inj htexts
  obtain ⟨hv', hf'⟩ := Prod.mk.inj htexts'
  refine ⟨ofExpansion _ e, ofExpansion _ e', e, e', ofFile_eq_ok_iff.2 ⟨e, he, rfl⟩,
    ofFile_eq_ok_iff.2 ⟨e', he', rfl⟩, he, he', hbytes, congrArg Digest.ofBytes hbytes, ?_, ?_⟩
  · show extract .vertex e.lines ≠ extract .vertex e'.lines
    rw [hv, hv']
    decide
  · show extract .fragment e.lines ≠ extract .fragment e'.lines
    rw [hf, hf']
    decide

end Source

end ShaderChain
