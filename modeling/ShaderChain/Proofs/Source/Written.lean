import ShaderChain.Proofs.Success
import ShaderChain.Proofs.Text.Words
import ShaderChain.Source.Expansion

/-!
# Written declarations

How a declaration can be written, apart from how it is read: a name, a description in quotes and
three or four numbers. The name is a word, so that quotes may stand in it, and the description is
what stands between the quotes, so that space may; between the two there is space, and the numbers
are words behind the closing quote, of which the first may follow it at once.

`read?_eq_some_iff_and_declare_eq_error_iff` says that these are the texts that are read, each as
the one declaration that it is written for, and that a line with any other text is refused.
-/

namespace ShaderChain

namespace Declaration

/-- Whether numbers are given for a declaration: the initial value, the bounds, and the step, which
may be left out if it is a tenth of the range. -/
inductive HasNumbers (d : Declaration) : List Single → Prop
  | unstepped (h : d.step = Single.tenth * (d.maximum - d.minimum)) :
      HasNumbers d [d.initial, d.minimum, d.maximum]
  | stepped : HasNumbers d [d.initial, d.minimum, d.maximum, d.step]

/-- Whether a text is written for a declaration. -/
inductive IsWritten (d : Declaration) : List Char → Prop
  | intro {lead gap rest : List Char} {words : List (List Char)} {numbers : List Single}
      (hlead : Text.AreSpaces lead) (hname : Text.IsWord d.name.toList)
      (hgap : Text.AreSpaces gap) (hne : gap ≠ []) (hdescription : '"' ∉ d.description.toList)
      (hwords : Text.AreWords rest words)
      (hread : List.Forall₂ (fun w x => Single.read? w = some x) words numbers)
      (hnumbers : d.HasNumbers numbers) :
      IsWritten d (lead ++ (d.name.toList ++ (gap ++ '"' :: (d.description.toList ++ '"' :: rest))))

variable {d : Declaration} {s rest name description : List Char} {numbers : List Single}

theorem ofNumbers?_eq_some_iff :
    ofNumbers? name description numbers = some d ↔
      d.name.toList = name ∧ d.description.toList = description ∧ d.HasNumbers numbers := by
  constructor
  · intro h
    unfold ofNumbers? at h
    split at h
    · cases h
      exact ⟨String.toList_ofList, String.toList_ofList, .unstepped rfl⟩
    · cases h
      exact ⟨String.toList_ofList, String.toList_ofList, .stepped⟩
    · cases h
  · rintro ⟨rfl, rfl, hnumbers⟩
    cases hnumbers with
    | unstepped hstep => simp [ofNumbers?, ← hstep]
    | stepped => simp [ofNumbers?]

theorem numbers?_eq_some_iff :
    numbers? s = some numbers ↔
      ∃ words, Text.AreWords s words ∧
        List.Forall₂ (fun w x => Single.read? w = some x) words numbers := by
  simp only [← Text.words_eq_iff, exists_eq_left']
  exact Success.mapM_eq_some_iff

/-- A description stands behind space and in quotes, which do not stand in it. -/
theorem description?_eq_some_iff :
    description? s = some (description, rest) ↔
      ∃ gap, s = gap ++ '"' :: (description ++ '"' :: rest) ∧ Text.AreSpaces gap ∧
        '"' ∉ description := by
  constructor
  · intro h
    unfold description? at h
    split at h
    · next r htrim =>
        obtain ⟨gap, hs, hgap, -⟩ := Text.trimStart_eq_iff.1 htrim
        obtain ⟨⟨a, b⟩, hcut, hparts⟩ := Option.map_eq_some_iff.1 h
        obtain ⟨hr, ha, c, hc, hquote⟩ := Text.cutAt?_eq_some_iff.1 hcut
        obtain ⟨b, rfl⟩ := List.head?_eq_some_iff.1 hc
        cases hparts
        obtain rfl := beq_iff_eq.1 hquote
        refine ⟨gap, by rw [hs, hr]; rfl, hgap, fun hmem => ?_⟩
        have hself := ha '"' hmem
        simp at hself
    · cases h
  · rintro ⟨gap, rfl, hgap, hfree⟩
    have htrim : Text.trimStart (gap ++ '"' :: (description ++ '"' :: rest)) =
        '"' :: (description ++ '"' :: rest) := by
      refine Text.trimStart_eq_iff.2 ⟨gap, rfl, hgap, ?_⟩
      rintro c ⟨⟩
      rfl
    have hcut : Text.cutAt? (· == '"') (description ++ '"' :: rest) =
        some (description, '"' :: rest) := by
      refine Text.cutAt?_append (fun c hc => ?_) ⟨'"', rfl, rfl⟩
      rw [beq_eq_false_iff_ne]
      rintro rfl
      exact hfree hc
    rw [description?, htrim]
    exact congrArg (Option.map _) hcut

theorem read?_eq_some_iff : read? s = some d ↔ d.IsWritten s := by
  have hparts : read? s = some d ↔
      ∃ b, Text.cutAt? Text.isSpace (Text.trimStart s) = some (d.name.toList, b) ∧
        ∃ rest, description? b = some (d.description.toList, rest) ∧
          ∃ numbers, numbers? rest = some numbers ∧ d.HasNumbers numbers := by
    simp only [read?, Option.bind_eq_bind, Option.bind_eq_some_iff, Prod.exists,
      ofNumbers?_eq_some_iff]
    constructor
    · rintro ⟨name, b, hname, description, rest, hdescription, numbers, hnumbers, rfl, rfl, hhas⟩
      exact ⟨b, hname, rest, hdescription, numbers, hnumbers, hhas⟩
    · rintro ⟨b, hname, rest, hdescription, numbers, hnumbers, hhas⟩
      exact ⟨_, b, hname, _, rest, hdescription, numbers, hnumbers, rfl, rfl, hhas⟩
  rw [hparts]
  constructor
  · rintro ⟨b, hcut, rest, hdescription, numbers, hnumbers, hhas⟩
    obtain ⟨lead, rfl, hlead, hname, c, hc, hspace⟩ :=
      Text.cutAt?_isSpace_trimStart_eq_some_iff.1 hcut
    obtain ⟨gap, rfl, hgap, hfree⟩ := description?_eq_some_iff.1 hdescription
    obtain ⟨words, hwords, hread⟩ := numbers?_eq_some_iff.1 hnumbers
    refine .intro hlead hname hgap ?_ hfree hwords hread hhas
    -- the quote is no space, and so space is in front of it
    rintro rfl
    cases hc
    cases hspace
  · rintro @⟨lead, gap, rest, words, numbers, hlead, hname, hgap, hne, hfree, hwords, hread, hhas⟩
    refine ⟨gap ++ '"' :: (d.description.toList ++ '"' :: rest), ?_, rest, ?_, numbers, ?_, hhas⟩
    · obtain ⟨c, gap, rfl⟩ := List.exists_cons_of_ne_nil hne
      exact Text.cutAt?_isSpace_trimStart_eq_some_iff.2
        ⟨lead, rfl, hlead, hname, c, rfl, hgap c List.mem_cons_self⟩
    · exact description?_eq_some_iff.2 ⟨gap, rfl, hgap, hfree⟩
    · exact numbers?_eq_some_iff.2 ⟨words, hwords, hread⟩

/-- A line that declares a parameter is refused as malformed if its argument is not read, and then
it is named without the space around it. -/
theorem declare_eq_malformed_iff {e : Source.Expansion} {line : List Char} {t : String} :
    e.declare line s = .error (.malformedParameter t) ↔
      t = String.ofList (Text.trim line) ∧ read? s = none := by
  rw [Source.Expansion.declare]
  cases hread : read? s with
  | none => simp [eq_comm]
  | some d => cases hadd : add? e.declarations d <;> simp [hadd]

/-- A text is read exactly as the declaration that it is written for, and a line with a text that is
written for none is refused. -/
theorem read?_eq_some_iff_and_declare_eq_error_iff (s : List Char) :
    (∀ d, read? s = some d ↔ d.IsWritten s) ∧
      ∀ (e : Source.Expansion) (line : List Char) (t : String),
        e.declare line s = .error (.malformedParameter t) ↔
          t = String.ofList (Text.trim line) ∧ ∀ d : Declaration, ¬ d.IsWritten s := by
  refine ⟨fun d => read?_eq_some_iff, fun e line t => ?_⟩
  simp only [declare_eq_malformed_iff, Option.eq_none_iff_forall_ne_some, ne_eq, read?_eq_some_iff]

example :
    read? " MIX\"\t\"No # end\"1 0 2e1".toList =
      some ⟨"MIX\"", "No # end", ⟨0x3F800000⟩, ⟨0⟩, ⟨0x41A00000⟩, ⟨0x40000000⟩⟩ := by
  decide +kernel

end Declaration

end ShaderChain
