import Mathlib.Tactic.SplitIfs
import Phrasebook.Proofs.Tag.Scan

/-! The replacement of tags, byte by byte: a tag is replaced as it is met, and any other byte is copied.
No byte inside a character begins a tag, so this comes to the search for one tag after the other. -/
namespace Phrasebook.Tag
open Text

/-- The key of the tag that some bytes begin with. -/
def leadingKey? (opener : String) (bs : List UInt8) : Option String :=
  let key := String.ofList (((bs.drop opener.utf8ByteSize).take 16).map fun b => Char.ofNat b.toNat)
  if IsKey key.toList ∧ (bytes (opener ++ key ++ ">")).isPrefixOf bs then some key else none

/-- Goes over bytes from left to right. What is put in for a tag is not gone over. -/
def substituteBytes {m : Type → Type} [Monad m] (opener : String) (f : String → m String) :
    List UInt8 → m (List UInt8)
  | [] => pure []
  | b :: rest =>
    match leadingKey? opener (b :: rest) with
    | none => return b :: (← substituteBytes opener f rest)
    | some key => do
      let text ← f key
      return bytes text ++ (← substituteBytes opener f ((b :: rest).drop (width opener)))
termination_by bs => bs.length
decreasing_by
  · exact Nat.lt_succ_self _
  · simp only [List.length_drop, List.length_cons, width]
    omega

lemma map_ofNat_bytes {cs : List Char} (h : cs.all Char.isHexDigit = true) :
    (bytes (String.ofList cs)).map (fun b => Char.ofNat b.toNat) = cs := by
  have hascii : ∀ c ∈ cs, c.utf8Size = 1 := fun c hc =>
    utf8Size_of_isHexDigit (List.all_eq_true.1 h c hc)
  have hback : ∀ c ∈ cs, Char.ofNat c.val.toUInt8.toNat = c := by
    intro c hc
    rw [(toNat_toUInt8_of_ascii (hascii c hc)).1, Char.ofNat_toNat]
  rw [bytes_of_ascii hascii, List.map_map]
  exact (List.map_congr_left hback).trans cs.map_id

theorem leadingKey?_eq_some_iff {opener key : String} {bs : List UInt8} :
    leadingKey? opener bs = some key ↔ IsKey key.toList ∧ bytes (opener ++ key ++ ">") <+: bs := by
  unfold leadingKey?
  constructor
  · intro h
    simp only [Option.ite_none_right_eq_some, Option.some.injEq] at h
    obtain ⟨⟨hkey, hprefix⟩, rfl⟩ := h
    exact ⟨hkey, List.isPrefixOf_iff_prefix.1 hprefix⟩
  · rintro ⟨hkey, rest, rfl⟩
    have hread : ((bytes (opener ++ key ++ ">") ++ rest).drop opener.utf8ByteSize).take 16 =
        bytes key := by
      have hlength : (bytes key).length = 16 := by
        rw [length_bytes, ← key.ofList_toList, utf8ByteSize_ofList, hkey.byteLength_eq]
      rw [bytes_append, bytes_append, List.append_assoc, List.append_assoc, ← length_bytes,
        List.drop_left, ← hlength, List.take_left]
    have hmap := map_ofNat_bytes hkey.2
    rw [String.ofList_toList] at hmap
    simp only [hread, hmap, String.ofList_toList]
    exact if_pos ⟨hkey, List.isPrefixOf_iff_prefix.2 (List.prefix_append _ _)⟩

/-- All bytes of a character but the first are none of ASCII. -/
lemma exists_utf8EncodeChar_eq (c : Char) :
    ∃ b tail, String.utf8EncodeChar c = b :: tail ∧ ∀ x ∈ tail, 128 ≤ x := by
  have hlow : ∀ n : Nat, 128 ≤ UInt8.ofNat (n % 64 + 128) := by
    intro n
    rw [UInt8.le_iff_toNat_le, UInt8.toNat_ofNat']
    show 128 ≤ _
    omega
  simp only [String.utf8EncodeChar]
  split_ifs
  all_goals
    refine ⟨_, _, rfl, ?_⟩
    simp only [List.forall_mem_cons, List.not_mem_nil, false_imp_iff, implies_true, hlow, and_self]

lemma leadingKey?_of_continuation {opener : String} (hascii : startsAscii opener.toList)
    {b : UInt8} (hb : 128 ≤ b) (bs : List UInt8) : leadingKey? opener (b :: bs) = none := by
  cases hkey : leadingKey? opener (b :: bs) with
  | none => rfl
  | some key =>
    obtain ⟨-, hprefix⟩ := leadingKey?_eq_some_iff.1 hkey
    cases hopener : opener.toList with
    | nil =>
      rw [hopener] at hascii
      cases hascii
    | cons x rest =>
      have hx : x.utf8Size = 1 := by simpa [startsAscii, hopener] using hascii
      rw [← (opener ++ key ++ ">").ofList_toList, toList_written, hopener] at hprefix
      have hbytes : bytes (String.ofList (written (x :: rest) key.toList)) =
          x.val.toUInt8 :: bytes (String.ofList (written rest key.toList)) := by
        rw [bytes_ofList, bytes_ofList, written, written, List.cons_append, List.cons_append,
          List.flatMap_cons, String.utf8EncodeChar_eq_singleton hx, List.singleton_append]
      rw [hbytes] at hprefix
      obtain ⟨rfl, -⟩ := List.cons_prefix_cons.1 hprefix
      have hge : 128 ≤ x.val.toUInt8.toNat := UInt8.le_iff_toNat_le.1 hb
      obtain ⟨hbyte, hle⟩ := toNat_toUInt8_of_ascii hx
      omega

/-- Tags at the head of a text are tags at the head of its bytes. -/
theorem leadingKey?_bytes {opener key : String} {cs : List Char} :
    leadingKey? opener (bytes (String.ofList cs)) = some key ↔
      ∃ after, head? opener.toList cs = some (key.toList, after) := by
  rw [leadingKey?_eq_some_iff, bytes_prefix_iff, toList_written, String.toList_ofList]
  constructor
  · rintro ⟨hkey, after, rfl⟩
    exact ⟨after, head?_eq_some_iff.2 ⟨hkey, rfl⟩⟩
  · rintro ⟨after, h⟩
    obtain ⟨hkey, rfl⟩ := head?_eq_some_iff.1 h
    exact ⟨hkey, List.prefix_append _ _⟩

section Pass

variable {m : Type → Type} [Monad m] {opener : String} (f : String → m String)

lemma substituteBytes_nil : substituteBytes opener f [] = pure [] := by rw [substituteBytes]

lemma substituteBytes_of_leadingKey?_some {key : String} {bs : List UInt8}
    (h : leadingKey? opener bs = some key) :
    substituteBytes opener f bs = do
      let text ← f key
      return bytes text ++ (← substituteBytes opener f (bs.drop (width opener))) := by
  cases bs with
  | nil =>
    obtain ⟨-, hprefix⟩ := leadingKey?_eq_some_iff.1 h
    have hlength := hprefix.length_le
    simp [bytes] at hlength
  | cons b bs => rw [substituteBytes, h]

lemma substituteBytes_of_tag {cs key after : List Char}
    (h : head? opener.toList cs = some (key, after)) :
    substituteBytes opener f (bytes (String.ofList cs)) = do
      let text ← f (String.ofList key)
      return bytes text ++ (← substituteBytes opener f (bytes (String.ofList after))) := by
  obtain ⟨hkey, rfl⟩ := head?_eq_some_iff.1 h
  have hwritten : String.ofList (written opener.toList key) = opener ++ String.ofList key ++ ">" := by
    apply String.toList_injective
    rw [String.toList_ofList, toList_written, String.toList_ofList]
  have hdrop : (bytes (String.ofList (written opener.toList key ++ after))).drop (width opener) =
      bytes (String.ofList after) := by
    have hkey' : IsKey (String.ofList key).toList := by rwa [String.toList_ofList]
    rw [String.ofList_append, bytes_append, hwritten, ← utf8ByteSize_written opener hkey',
      ← length_bytes, List.drop_left]
  rw [substituteBytes_of_leadingKey?_some f
    (leadingKey?_bytes.2 ⟨after, h.trans (by rw [String.toList_ofList])⟩), hdrop]

variable [LawfulMonad m]

lemma substituteBytes_of_leadingKey?_none {b : UInt8} {bs : List UInt8}
    (h : leadingKey? opener (b :: bs) = none) :
    substituteBytes opener f (b :: bs) = (b :: ·) <$> substituteBytes opener f bs := by
  rw [substituteBytes, h, map_eq_pure_bind]

lemma substituteBytes_continuation (hascii : startsAscii opener.toList) {tail : List UInt8}
    (htail : ∀ x ∈ tail, 128 ≤ x) (bs : List UInt8) :
    substituteBytes opener f (tail ++ bs) = (tail ++ ·) <$> substituteBytes opener f bs := by
  induction tail with
  | nil => simp
  | cons b tail ih =>
    obtain ⟨hb, htail⟩ := List.forall_mem_cons.1 htail
    rw [List.cons_append, substituteBytes_of_leadingKey?_none f
      (leadingKey?_of_continuation hascii hb _), ih htail, Functor.map_map]
    rfl

lemma substituteBytes_of_no_tag (hascii : startsAscii opener.toList) {c : Char} {rest : List Char}
    (h : head? opener.toList (c :: rest) = none) :
    substituteBytes opener f (bytes (String.ofList (c :: rest))) =
      (String.utf8EncodeChar c ++ ·) <$> substituteBytes opener f (bytes (String.ofList rest)) := by
  have hnone : leadingKey? opener (bytes (String.ofList (c :: rest))) = none := by
    cases hkey : leadingKey? opener (bytes (String.ofList (c :: rest))) with
    | none => rfl
    | some key =>
      obtain ⟨after, hhead⟩ := leadingKey?_bytes.1 hkey
      rw [h] at hhead
      cases hhead
  obtain ⟨b, tail, hc, htail⟩ := exists_utf8EncodeChar_eq c
  rw [bytes_ofList, List.flatMap_cons, ← bytes_ofList, hc, List.cons_append] at hnone ⊢
  rw [substituteBytes_of_leadingKey?_none f hnone, substituteBytes_continuation f hascii htail,
    Functor.map_map]
  rfl

lemma substituteBytes_of_find?_none (hascii : startsAscii opener.toList) {cs : List Char}
    (h : find? opener.toList cs = none) :
    substituteBytes opener f (bytes (String.ofList cs)) = pure (bytes (String.ofList cs)) := by
  induction cs with
  | nil => exact substituteBytes_nil f
  | cons c rest ih =>
    obtain ⟨hhead, hrest⟩ := (find?_cons_eq_none_iff hascii).1 h
    rw [substituteBytes_of_no_tag f hascii hhead, ih hrest, map_pure, bytes_ofList, bytes_ofList,
      List.flatMap_cons]

lemma substituteBytes_of_find?_some (hascii : startsAscii opener.toList) {cs : List Char}
    {t : Found} (h : find? opener.toList cs = some t) :
    substituteBytes opener f (bytes (String.ofList cs)) =
      (bytes (String.ofList t.before) ++ ·) <$> do
        let text ← f (String.ofList t.key)
        return bytes text ++ (← substituteBytes opener f (bytes (String.ofList t.after))) := by
  replace h := finds_of_find? hascii h
  induction h with
  | here hhead =>
    rw [substituteBytes_of_tag f hhead]
    exact (id_map _).symm
  | later hhead ht ih =>
    rw [substituteBytes_of_no_tag f hascii hhead, ih, Functor.map_map]
    simp only [bytes_ofList, List.flatMap_cons, List.append_assoc]

end Pass

end Phrasebook.Tag
