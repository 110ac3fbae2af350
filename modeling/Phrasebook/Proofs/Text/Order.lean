import Mathlib.Tactic.SplitIfs
import Phrasebook.Proofs.Text.Bytes

/-! Texts come in the same order by their code points and by their bytes in UTF-8. -/
namespace Phrasebook.Text

/-- A character that comes before another one does so in its bytes, whatever follows. -/
lemma utf8EncodeChar_lt {c d : Char} (h : c < d) (xs ys : List UInt8) :
    String.utf8EncodeChar c ++ xs < String.utf8EncodeChar d ++ ys := by
  have hlt : c.val.toNat < d.val.toNat := h
  have hd : d.val.toNat < 0x110000 := by
    have hvalid := d.valid
    simp only [UInt32.isValidChar, Nat.isValidChar] at hvalid
    omega
  simp only [String.utf8EncodeChar]
  generalize c.val.toNat = m at hlt ⊢
  generalize d.val.toNat = n at hlt hd ⊢
  -- The first byte tells how many there are, and equally many are compared digit by digit.
  split_ifs <;> try omega
  all_goals
    simp (disch := omega) only [List.cons_append, List.nil_append, List.cons_lt_cons_iff,
      UInt8.lt_iff_toNat_lt, ← UInt8.toNat_inj, UInt8.toNat_ofNat', Nat.reducePow, Nat.mod_eq_of_lt]
    omega

theorem bytes_lt_bytes {a b : String} (h : a < b) : bytes a < bytes b := by
  have hlists : a.toList < b.toList := h
  rw [← a.ofList_toList, ← b.ofList_toList, bytes_ofList, bytes_ofList]
  generalize a.toList = as at hlists ⊢
  generalize b.toList = bs at hlists ⊢
  induction hlists with
  | nil =>
    rename_i d ds
    obtain ⟨first, more, hd⟩ := List.exists_cons_of_ne_nil (String.utf8EncodeChar_ne_nil (c := d))
    rw [List.flatMap_cons, hd]
    exact List.nil_lt_cons ..
  | rel hlt => exact utf8EncodeChar_lt hlt _ _
  | cons _ ih => exact List.append_left_lt ih

end Phrasebook.Text
