import Phrasebook.Proofs.Tag.Scan

/-! A text put together anew around its tags: what stands between them is copied byte for byte, and
something else is put in for each tag. The tags are those of the text as it was before. -/
namespace Phrasebook.Tag
open Text

/-- The tags of a text, each of them and in order. -/
structure AreTags (opener text : String) (ts : List Tag) : Prop where
  cut : ∀ t ∈ ts, IsCutFrom opener text t
  ordered : ts.Pairwise fun t t' => t.stop ≤ t'.start
  complete : ∀ p, OccursAt opener text p → ∃ t ∈ ts, t.start = p

/-- The bytes of a text from a place on, with other texts in the place of its tags. -/
def spliced (text : String) (f : String → String) : Nat → List Tag → ByteArray
  | place, [] => text.toUTF8.extract place text.utf8ByteSize
  | place, t :: ts =>
    text.toUTF8.extract place t.start ++ (f t.key).toUTF8 ++ spliced text f t.stop ts

section Greedy

variable {opener text : String} {place : Nat} {ts : List Tag}

lemma Greedy.le_start (h : Greedy opener text place ts) {t : Tag} (ht : t ∈ ts) :
    place ≤ t.start := by
  induction h with
  | finish => cases ht
  | next least cut rest ih =>
    rcases List.mem_cons.1 ht with rfl | ht
    · exact least.1.1
    · have hstop := ih ht
      have hlt := cut.lt
      have hle := least.1.1
      omega

lemma Greedy.ordered (h : Greedy opener text place ts) :
    ts.Pairwise fun t t' => t.stop ≤ t'.start := by
  induction h with
  | finish => exact .nil
  | next _ _ rest ih => exact .cons (fun _ ht => rest.le_start ht) ih

/-- Tags put in for themselves leave the text as it is. -/
theorem Greedy.spliced_eq (h : Greedy opener text place ts) {f : String → String}
    (hf : ∀ t ∈ ts, f t.key = opener ++ t.key ++ ">") :
    spliced text f place ts = text.toUTF8.extract place text.utf8ByteSize := by
  induction h with
  | finish => rfl
  | next least cut rest ih =>
    have hkey := hf _ (List.mem_cons_self ..)
    have hrest := ih fun t ht => hf t (List.mem_cons_of_mem _ ht)
    have hstart := cut.lt.le
    rw [spliced, hrest, hkey, ← cut.bytes,
      ← ByteArray.extract_eq_extract_append_extract _ least.1.1 hstart,
      ← ByteArray.extract_eq_extract_append_extract _ (least.1.1.trans hstart) cut.le]

end Greedy

theorem areTags_all {opener : String} (h : opener ∈ openers) (text : String) :
    AreTags opener text (all opener text) := by
  have hascii : startsAscii opener.toList := by
    rw [startsAscii, head?_of_mem h]
    rfl
  have hgreedy := greedy_all hascii text
  refine ⟨fun t ht => hgreedy.mem_cut ht, hgreedy.ordered, fun p hp => ?_⟩
  refine hgreedy.exists_start ?_ (Nat.zero_le p) hp
  exact fun p q hp hq => occursAt_apart (standsOut_of_mem h) rfl hp hq

/-- What stands between two places of a text. -/
lemma extract_eq {text : String} {before between after : List Char}
    (h : text.toList = before ++ (between ++ after)) :
    text.toUTF8.extract (byteLength before) (byteLength before + byteLength between) =
      (String.ofList between).toUTF8 := by
  have htext : text = String.ofList before ++ (String.ofList between ++ String.ofList after) := by
    apply String.toList_injective
    simp [h]
  have hstands : StandsAt (String.ofList between) text ((String.ofList before).utf8ByteSize + 0) := by
    rw [htext]
    exact standsAt_append_left.2 (standsAt_append_right _ _)
  rwa [StandsAt, Nat.add_zero, utf8ByteSize_ofList, utf8ByteSize_ofList] at hstands

/-- From the cursor on, the tags it meets are replaced. -/
theorem Cursor.IsIn.spliced_tags {opener text : String} (hascii : startsAscii opener.toList)
    (f : String → String) {c : Cursor} (hc : c.IsIn text) :
    spliced text f c.offset (c.tags opener.toList) =
      (String.ofList (substitute opener.toList (fun key => (f (String.ofList key)).toList)
        c.rest)).toUTF8 := by
  induction c using tags_induction opener.toList with
  | untagged c hfind =>
    obtain ⟨passed, htext, hoffset⟩ := hc
    have hrest : text.toList = passed ++ (c.rest ++ []) := by rw [List.append_nil, htext]
    have hsize : text.utf8ByteSize = byteLength passed + byteLength c.rest := by
      rw [← text.ofList_toList, utf8ByteSize_ofList, htext, byteLength_append]
    rw [tags_of_find?_none hfind, spliced, substitute_of_find?_none _ hascii hfind, ← hoffset,
      hsize, extract_eq hrest]
  | tagged c found hfind ih =>
    have hnext := ih (hc.next hascii hfind)
    obtain ⟨passed, htext, hoffset⟩ := hc
    obtain ⟨-, hrest, -⟩ := find?_eq_some hascii hfind
    have hbetween := extract_eq (htext.trans (congrArg (passed ++ ·) hrest))
    rw [hoffset] at hbetween
    rw [tags_of_find?_some hfind, spliced, hnext, substitute_of_find?_some _ hascii hfind,
      String.ofList_append, String.ofList_append, String.ofList_toList]
    change text.toUTF8.extract c.offset (c.offset + byteLength found.before) ++ _ ++ _ = _
    rw [hbetween]
    simp only [String.toUTF8, String.toByteArray_append]
    exact ByteArray.append_assoc

theorem toUTF8_replaceAll {opener : String} (hascii : startsAscii opener.toList)
    (f : String → String) (text : String) :
    (replaceAll opener f text).toUTF8 = spliced text f 0 (all opener text) :=
  ((Cursor.isIn_ofText text).spliced_tags hascii f).symm

end Phrasebook.Tag
