import Mathlib.Data.String.Basic
import Phrasebook.Text.Bytes

/-! Places in a text, counted in bytes. The bytes of one text stand in another just where its characters
do, so a search among bytes never ends up inside a character; and bytes that are those of a text read as
it. -/
namespace Phrasebook.Text

lemma utf8ByteSize_ofList (cs : List Char) :
    (String.ofList cs).utf8ByteSize = byteLength cs := by
  rw [String.utf8ByteSize_ofList]
  induction cs with
  | nil => rfl
  | cons c rest ih => simp [String.utf8Len, ih, Nat.add_comm]

lemma eq_nil_of_byteLength_eq_zero {cs : List Char} (h : byteLength cs = 0) : cs = [] := by
  cases cs with
  | nil => rfl
  | cons c rest =>
    have hpos := c.utf8Size_pos
    rw [byteLength_cons] at h
    omega

/-- Of two places in a text the earlier one is reached first. -/
lemma exists_append_of_byteLength_le {a b c d : List Char} (h : a ++ b = c ++ d)
    (hle : byteLength a ≤ byteLength c) : ∃ mid, c = a ++ mid ∧ b = mid ++ d := by
  rcases List.append_eq_append_iff.1 h with hmid | ⟨mid, rfl, rfl⟩
  · exact hmid
  · rw [byteLength_append] at hle
    obtain rfl : mid = [] := eq_nil_of_byteLength_eq_zero (by omega)
    exact ⟨[], by simp, by simp⟩

/-- Places at the same distance are the same. -/
lemma append_inj_of_byteLength {a b c d : List Char} (h : a ++ b = c ++ d)
    (heq : byteLength a = byteLength c) : a = c ∧ b = d := by
  obtain ⟨mid, rfl, hrest⟩ := exists_append_of_byteLength_le h heq.le
  rw [byteLength_append] at heq
  obtain rfl : mid = [] := eq_nil_of_byteLength_eq_zero (by omega)
  exact ⟨(List.append_nil a).symm, hrest⟩

lemma bytes_ofList (cs : List Char) :
    bytes (String.ofList cs) = cs.flatMap String.utf8EncodeChar := by
  simp [bytes, List.utf8Encode]

theorem bytes_append (a b : String) : bytes (a ++ b) = bytes a ++ bytes b := by
  simp [bytes]

lemma length_bytes (text : String) : (bytes text).length = text.utf8ByteSize := by
  simp [bytes]

/-- The one byte of an ASCII character is the number of the character. -/
lemma toNat_toUInt8_of_ascii {c : Char} (h : c.utf8Size = 1) :
    c.val.toUInt8.toNat = c.toNat ∧ c.toNat ≤ 127 := by
  have hle : c.toNat ≤ 127 := UInt32.le_iff_toNat_le.1 (Char.utf8Size_eq_one_iff.1 h)
  refine ⟨?_, hle⟩
  rw [UInt32.toNat_toUInt8]
  exact Nat.mod_eq_of_lt (Nat.lt_of_le_of_lt hle (by decide))

lemma bytes_of_ascii {cs : List Char} (h : ∀ c ∈ cs, c.utf8Size = 1) :
    bytes (String.ofList cs) = cs.map fun c => c.val.toUInt8 := by
  rw [bytes_ofList]
  induction cs with
  | nil => rfl
  | cons c rest ih =>
    obtain ⟨hc, hrest⟩ := List.forall_mem_cons.1 h
    rw [List.flatMap_cons, String.utf8EncodeChar_eq_singleton hc, ih hrest]
    rfl

lemma toByteArray_bytes (text : String) : (bytes text).toByteArray = text.toUTF8 := by
  apply ByteArray.ext
  simp [bytes]

lemma fromUTF8?_toUTF8 (text : String) : String.fromUTF8? text.toUTF8 = some text :=
  dif_pos text.isValidUTF8

theorem ofBytes?_eq_some_iff {bs : List UInt8} {text : String} :
    ofBytes? bs = some text ↔ bs = bytes text := by
  constructor
  · intro h
    simp only [ofBytes?, String.fromUTF8?] at h
    split at h
    · cases h
      simp [bytes, String.fromUTF8]
    · cases h
  · rintro rfl
    rw [ofBytes?, toByteArray_bytes, fromUTF8?_toUTF8]

lemma lossyAfter_append (skipped bs : List UInt8) :
    lossyAfter skipped.length (skipped ++ bs) = lossyAfter 0 bs := by
  induction skipped with
  | nil => rfl
  | cons b rest ih => exact ih

lemma lossyAfter_flatMap (cs : List Char) :
    lossyAfter 0 (cs.flatMap String.utf8EncodeChar) = cs := by
  induction cs with
  | nil => rfl
  | cons c rest ih =>
    have hdecode := List.utf8DecodeChar?_utf8Encode_cons (l := rest) (c := c)
    obtain ⟨b, tail, hc⟩ := List.exists_cons_of_ne_nil (String.utf8EncodeChar_ne_nil (c := c))
    have hsize : c.utf8Size - 1 = tail.length := by
      rw [← String.length_utf8EncodeChar, hc, List.length_cons, Nat.add_sub_cancel]
    rw [List.utf8Encode, List.flatMap_cons, hc] at hdecode
    rw [List.flatMap_cons, hc, List.cons_append, lossyAfter, ← List.cons_append, hdecode]
    dsimp only
    rw [hsize, lossyAfter_append, ih]

/-- A text reads as it is: nothing of it is replaced. -/
theorem lossy_bytes (text : String) : lossy (bytes text) = text := by
  rw [lossy, ← text.ofList_toList, bytes_ofList, lossyAfter_flatMap]

/-- A text begins with the bytes of another one just where it begins with its characters. -/
theorem bytes_prefix_iff {a b : String} : bytes a <+: bytes b ↔ a.toList <+: b.toList := by
  constructor
  · rintro ⟨tail, htail⟩
    refine List.isPrefix_of_utf8Encode_append_eq_utf8Encode tail.toByteArray ?_
    rw [String.utf8Encode_toList, String.utf8Encode_toList]
    apply ByteArray.ext
    apply Array.toList_inj.1
    simpa [bytes] using htail
  · rintro ⟨tail, htail⟩
    refine ⟨bytes (String.ofList tail), ?_⟩
    rw [← bytes_append]
    congr 1
    apply String.toList_injective
    simpa using htail

/-- The bytes of a part stand in a text from a place on. -/
def StandsAt (part text : String) (place : Nat) : Prop :=
  text.toUTF8.extract place (place + part.utf8ByteSize) = part.toUTF8

/-- No character of the text goes on across the place. -/
def IsBoundary (text : String) (place : Nat) : Prop := String.Pos.Raw.IsValid text ⟨place⟩

theorem isBoundary_iff {text : String} {place : Nat} :
    IsBoundary text place ↔ ∃ before after, text = before ++ after ∧ before.utf8ByteSize = place := by
  rw [IsBoundary, String.Pos.Raw.isValid_iff_exists_append]
  constructor
  · rintro ⟨before, after, htext, hplace⟩
    exact ⟨before, after, htext, (congrArg String.Pos.Raw.byteIdx hplace).symm⟩
  · rintro ⟨before, after, htext, rfl⟩
    exact ⟨before, after, htext, rfl⟩

lemma StandsAt.le {part text : String} {place : Nat} (h : StandsAt part text place)
    (hne : part ≠ "") : place + part.utf8ByteSize ≤ text.utf8ByteSize := by
  have hsize := congrArg ByteArray.size h
  have hpos : part.utf8ByteSize ≠ 0 := by simpa using hne
  simp only [String.toUTF8, ByteArray.size_extract, String.size_toByteArray] at hsize
  omega

/-- Where the bytes of a text stand that is not empty, no character goes on across either end. -/
theorem StandsAt.isBoundary {part text : String} {place : Nat} (h : StandsAt part text place)
    (hne : part ≠ "") :
    IsBoundary text place ∧ IsBoundary text (place + part.utf8ByteSize) := by
  have hpos : part.utf8ByteSize ≠ 0 := by simpa using hne
  have hle := h.le hne
  have hvalid : (text.toByteArray.extract place (place + part.utf8ByteSize)).IsValidUTF8 := by
    have hpart : text.toByteArray.extract place (place + part.utf8ByteSize) = part.toByteArray := h
    rw [hpart]
    exact part.isValidUTF8
  have hcases := (String.Pos.Raw.isValidUTF8_extract_iff (s := text) ⟨place⟩
    ⟨place + part.utf8ByteSize⟩ (Nat.le_add_right _ _) hle).1 hvalid
  refine hcases.resolve_left fun heq => hpos ?_
  have hplace : place = place + part.utf8ByteSize := congrArg String.Pos.Raw.byteIdx heq
  omega

lemma standsAt_append_left {part before rest : String} {place : Nat} :
    StandsAt part (before ++ rest) (before.utf8ByteSize + place) ↔ StandsAt part rest place := by
  have hextract : (before ++ rest).toUTF8.extract (before.utf8ByteSize + place)
      (before.utf8ByteSize + place + part.utf8ByteSize) =
      rest.toUTF8.extract place (place + part.utf8ByteSize) := by
    rw [Nat.add_assoc]
    simp only [String.toUTF8, String.toByteArray_append]
    exact ByteArray.extract_append_size_add' String.size_toByteArray.symm
  rw [StandsAt, hextract, StandsAt]

lemma standsAt_append_right (part after : String) : StandsAt part (part ++ after) 0 := by
  simp only [StandsAt, String.toUTF8, String.toByteArray_append, Nat.zero_add]
  exact ByteArray.extract_append_eq_left String.size_toByteArray.symm

/-- Bytes that are those of a text are no part of other characters. -/
theorem standsAt_iff {part text : String} (hne : part ≠ "") {place : Nat} :
    StandsAt part text place ↔
      ∃ before after, text = before ++ (part ++ after) ∧ before.utf8ByteSize = place := by
  constructor
  · intro h
    obtain ⟨before, rest, rfl, rfl⟩ := isBoundary_iff.1 (h.isBoundary hne).1
    have hrest : StandsAt part rest 0 := standsAt_append_left.1 h
    obtain ⟨first, after, rfl, hsize⟩ := isBoundary_iff.1 (hrest.isBoundary hne).2
    have hfirst : first.toUTF8 = part.toUTF8 := by
      have hstands := standsAt_append_right first after
      rw [StandsAt, hsize, Nat.zero_add] at hstands
      exact hstands.symm.trans hrest
    obtain rfl : first = part := String.toByteArray_inj.1 hfirst
    exact ⟨before, after, rfl, rfl⟩
  · rintro ⟨before, after, rfl, rfl⟩
    have hstands : StandsAt part (before ++ (part ++ after)) (before.utf8ByteSize + 0) :=
      standsAt_append_left.2 (standsAt_append_right part after)
    rwa [Nat.add_zero] at hstands

end Phrasebook.Text
