import Mathlib.Data.List.Basic
import ShaderChain.Source.Line

/-!
# Bytes and stages of lines

The bytes of lines do not tell the stages that the lines are in, and this is all that they leave
out: the text of a stage consists of those bytes that are in no other stage. Lines with the same
bytes, in the same stages, have the same texts.
-/

namespace ShaderChain.Source

section Encoding

theorem toList_loop_eq (bytes : ByteArray) (i : Nat) (before : List UInt8) :
    ByteArray.toList.loop bytes i before = before.reverse ++ bytes.data.toList.drop i := by
  fun_induction ByteArray.toList.loop bytes i before with
  | case1 i before h ih =>
      have hi : i < bytes.data.toList.length := by simpa using h
      have hget : bytes.get! i = bytes.data.toList[i] := by
        simp only [ByteArray.get!, Array.getElem_toList]
        exact getElem!_pos bytes.data i (by simpa using hi)
      rw [ih, List.drop_eq_getElem_cons hi, hget]
      simp
  | case2 i before h =>
      have hi : bytes.data.toList.length ≤ i := by simpa using h
      rw [List.drop_eq_nil_of_le hi, List.append_nil]

theorem toList_eq (bytes : ByteArray) : bytes.toList = bytes.data.toList := by
  rw [ByteArray.toList, toList_loop_eq]
  rfl

theorem toList_toUTF8_append (s t : String) :
    (s ++ t).toUTF8.toList = s.toUTF8.toList ++ t.toUTF8.toList := by
  rw [toList_eq, toList_eq, toList_eq, String.toUTF8, String.toByteArray_append,
    ByteArray.data_append, Array.toList_append]
  rfl

/-- A text is told by its bytes. -/
theorem toList_toUTF8_inj {s t : String} : s.toUTF8.toList = t.toUTF8.toList ↔ s = t := by
  rw [toList_eq, toList_eq, Array.toList_inj, ← ByteArray.ext_iff]
  exact String.toByteArray_inj

end Encoding

section Stages

/-- The stage in which lines of a kind stand, if it is one only. -/
def LineKind.stage? : LineKind → Option Stage
  | .stage s => some s
  | _ => none

theorem LineKind.isKept_eq (k : LineKind) (s : Stage) : k.isKept s = k.stage?.all (· == s) := by
  cases k <;> rfl

/-- The bytes of a line with its line feed. -/
def Line.bytes (l : Line) : List UInt8 := l.text.toUTF8.toList ++ [10]

/-- The stage of each byte of lines. -/
def stagesOf (ls : List Line) : List (Option Stage) :=
  ls.flatMap fun l => l.bytes.map fun _ => l.kind.stage?

theorem bytesOf_cons (l : Line) (ls : List Line) : bytesOf (l :: ls) = l.bytes ++ bytesOf ls := rfl

theorem stagesOf_cons (l : Line) (ls : List Line) :
    stagesOf (l :: ls) = (l.bytes.map fun _ => l.kind.stage?) ++ stagesOf ls := rfl

/-- The bytes of the text of lines are those of the lines. -/
theorem toList_toUTF8_textOf (ls : List Line) : (textOf ls).toUTF8.toList = bytesOf ls := by
  induction ls with
  | nil => exact toList_eq _
  | cons l ls ih =>
      have hfeed : "\n".toUTF8.toList = [10] := toList_eq _
      rw [textOf, toList_toUTF8_append, toList_toUTF8_append, ih, hfeed]
      rfl

/-- The bytes of the text of a stage are those bytes that are in no other stage. -/
theorem bytesOf_kept (s : Stage) (ls : List Line) :
    bytesOf (kept s ls) =
      (((bytesOf ls).zip (stagesOf ls)).filter fun b => b.2.all (· == s)).map (·.1) := by
  induction ls with
  | nil => rfl
  | cons l ls ih =>
      have hzip : l.bytes.zip (l.bytes.map fun _ => l.kind.stage?) =
          l.bytes.map fun b => (b, l.kind.stage?) := by
        simpa using (List.zip_map' (f := id) (g := fun _ => l.kind.stage?) (l := l.bytes))
      rw [bytesOf_cons, stagesOf_cons, List.zip_append (by simp), List.filter_append,
        List.map_append, ← ih, hzip]
      cases hkept : l.kind.isKept s with
      | true =>
          have hall : l.kind.stage?.all (· == s) = true := LineKind.isKept_eq _ s ▸ hkept
          simp [kept, hkept, bytesOf_cons, List.filter_map, Function.comp_def, hall]
      | false =>
          have hall : l.kind.stage?.all (· == s) = false := LineKind.isKept_eq _ s ▸ hkept
          simp [kept, hkept, List.filter_map, Function.comp_def, hall]

/-- Lines with the same bytes, in the same stages, have the same texts. -/
theorem extract_eq_of_bytesOf_eq {as bs : List Line} (hbytes : bytesOf as = bytesOf bs)
    (hstages : stagesOf as = stagesOf bs) (s : Stage) : extract s as = extract s bs := by
  rw [extract, extract, ← toList_toUTF8_inj, toList_toUTF8_textOf, toList_toUTF8_textOf,
    bytesOf_kept, bytesOf_kept, hbytes, hstages]

end Stages

end ShaderChain.Source
