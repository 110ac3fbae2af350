import Phrasebook.Files.Path
import Phrasebook.Proofs.Text.Bytes

/-! Paths that are texts, and the path of a file in a folder. -/
namespace Phrasebook.Path
open Text

/-- A path has a text if it is the path of that text. -/
theorem text?_eq_some_iff {path : Path} {text : String} :
    path.text? = some text ↔ path = ofText text := by
  rw [Path.text?, ofBytes?_eq_some_iff, ofText, Path.ext_iff]

/-- A path that is a text is shown as it is. -/
@[simp] theorem display_ofText (text : String) : (ofText text).display = text := lossy_bytes text

lemma bytes_join (folder name : Path) :
    (folder.join name).bytes = name.bytes ∨
      ∃ before, (folder.join name).bytes = before ++ slash :: name.bytes := by
  by_cases hempty : folder.bytes = []
  · exact .inl (by simp [join, hempty])
  · refine .inr ?_
    by_cases hslash : folder.bytes.getLast? = some slash
    · obtain ⟨before, hbefore⟩ := List.getLast?_eq_some_iff.1 hslash
      exact ⟨before, by simp [join, hbefore]⟩
    · exact ⟨folder.bytes, by simp [join, hempty, hslash]⟩

lemma pieces_of_not_mem {name : Path} (h : slash ∉ name.bytes) : name.pieces = [name.bytes] := by
  refine splitAll_of_forall fun b hb => ?_
  rw [beq_eq_false_iff_ne]
  rintro rfl
  exact h hb

/-- The name of a file in a folder is the last piece of its path. -/
lemma pieces_join (folder : Path) {name : Path} (h : slash ∉ name.bytes) :
    ∃ before, (folder.join name).pieces = before ++ [name.bytes] := by
  have hname := pieces_of_not_mem h
  rcases bytes_join folder name with hjoin | ⟨before, hjoin⟩
  · exact ⟨[], by rw [pieces, hjoin]; exact hname⟩
  · refine ⟨splitAll (· == slash) before, ?_⟩
    rw [pieces, hjoin, splitAll_append_cons (by simp)]
    exact congrArg _ hname

end Phrasebook.Path
