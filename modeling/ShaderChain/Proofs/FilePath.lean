import Mathlib.Data.List.Basic
import ShaderChain.FilePath
import ShaderChain.Path
import ShaderChain.Proofs.Text.Bytes

/-!
# File paths and text

The path of a text shows the text, and no other path shows any. Texts are joined as their bytes
are, since a slash is found among bytes exactly where it is among characters.
-/

namespace ShaderChain.FilePath

variable {p q : FilePath} {s : String}

/-- Whether a path is text. -/
def IsText (p : FilePath) : Prop := ∃ s, p = ofString s

theorem toByteArray_ofString (s : String) : (ofString s).bytes.toByteArray = s.toByteArray :=
  String.utf8Encode_toList

theorem text?_eq_some_iff : p.text? = some s ↔ p = ofString s := by
  constructor
  · intro h
    have hbytes : p.bytes.toByteArray = s.toByteArray := by
      unfold text? String.fromUTF8? at h
      split at h
      · cases h
        rfl
      · cases h
    rw [← toByteArray_ofString] at hbytes
    have hlist := congrArg (fun b => b.data.toList) hbytes
    simp only [List.data_toByteArray] at hlist
    exact congrArg FilePath.mk hlist
  · rintro rfl
    rw [text?, toByteArray_ofString, String.fromUTF8?, dif_pos s.isValidUTF8]
    rfl

theorem isText_iff : p.IsText ↔ ∃ s, p.text? = some s := by
  simp only [IsText, text?_eq_some_iff]

theorem isText_ofString (s : String) : (ofString s).IsText := ⟨s, rfl⟩

theorem head?_ofString_eq_slash_iff :
    (ofString s).bytes.head? = some slash ↔ Path.isAbsolute s.toList = true := by
  rw [Path.isAbsolute, beq_iff_eq]
  exact Text.head?_flatMap_utf8EncodeChar_eq_iff (d := '/') (by decide)

theorem getLast?_ofString_eq_slash_iff :
    (ofString s).bytes.getLast? = some slash ↔ s.toList.getLast? = some '/' :=
  Text.getLast?_flatMap_utf8EncodeChar_eq_iff (d := '/') (by decide)

theorem bytes_ofString_eq_nil_iff : (ofString s).bytes = [] ↔ s = "" := by
  rw [ofString, List.flatMap_eq_nil_iff, ← String.toList_inj]
  constructor
  · intro h
    refine List.eq_nil_iff_forall_not_mem.2 fun c hc => ?_
    exact String.utf8EncodeChar_ne_nil (h c hc)
  · intro h
    simp [h]

theorem join_ofString (a b : String) :
    (ofString a).join (ofString b) = ofString (Path.join a b) := by
  unfold join Path.join
  simp only [head?_ofString_eq_slash_iff, getLast?_ofString_eq_slash_iff,
    bytes_ofString_eq_nil_iff]
  split
  · rfl
  · split
    · simp [ofString]
    · simp [ofString, slash]
      rfl

theorem IsText.join (hp : p.IsText) (hq : q.IsText) : (p.join q).IsText := by
  obtain ⟨a, rfl⟩ := hp
  obtain ⟨b, rfl⟩ := hq
  exact ⟨Path.join a b, join_ofString a b⟩

end ShaderChain.FilePath
