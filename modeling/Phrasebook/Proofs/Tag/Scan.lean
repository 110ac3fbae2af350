import Mathlib.Order.Bounds.Basic
import Phrasebook.Proofs.Tag.Cut
import Phrasebook.Proofs.Text.Bytes

/-! The tags that a scan reports are those that a reader of the bytes would mark from left to right. Tags
that begin with `<global:` or `<ref:` never overlap, and so the scan reports every one of them. -/
namespace Phrasebook.Tag
open Text

/-- A tag with some key is written in the bytes of a text from a place on. -/
def OccursAt (opener text : String) (place : Nat) : Prop :=
  ∃ key : String, IsKey key.toList ∧ StandsAt (opener ++ key ++ ">") text place

/-- The bytes of a tag. -/
def width (opener : String) : Nat := opener.utf8ByteSize + 17

/-- A tag as it is cut out of a text, between two of its characters. -/
structure IsCutFrom (opener text : String) (t : Tag) : Prop where
  key : IsKey t.key.toList
  bytes : text.toUTF8.extract t.start t.stop = (opener ++ t.key ++ ">").toUTF8
  start : IsBoundary text t.start
  stop : IsBoundary text t.stop
  lt : t.start < t.stop
  le : t.stop ≤ text.utf8ByteSize

/-- The tags of a text from a place on, taken greedily: at each turn the first one that does not
begin before the last one has ended. -/
inductive Greedy (opener text : String) : Nat → List Tag → Prop
  | finish {place} (hclear : ∀ p, place ≤ p → ¬ OccursAt opener text p) : Greedy opener text place []
  | next {place t ts} (least : IsLeast {p | place ≤ p ∧ OccursAt opener text p} t.start)
      (cut : IsCutFrom opener text t) (rest : Greedy opener text t.stop ts) :
      Greedy opener text place (t :: ts)

lemma utf8Size_of_isHexDigit {c : Char} (h : c.isHexDigit = true) : c.utf8Size = 1 := by
  have hascii : c.val ≤ 127 := by
    simp only [Char.isHexDigit, Char.isDigit, Bool.or_eq_true, Bool.and_eq_true, decide_eq_true_eq,
      UInt32.le_iff_toNat_le] at h
    rw [UInt32.le_iff_toNat_le]
    have h9 : '9'.val.toNat ≤ 127 := by decide
    have hf : 'f'.val.toNat ≤ 127 := by decide
    have hF : 'F'.val.toNat ≤ 127 := by decide
    change c.val.toNat ≤ 127
    omega
  exact Char.utf8Size_eq_one_iff.2 hascii

lemma IsKey.byteLength_eq {key : List Char} (h : IsKey key) : byteLength key = 16 := by
  have hlength : ∀ cs : List Char, cs.all Char.isHexDigit = true → byteLength cs = cs.length := by
    intro cs
    induction cs with
    | nil => simp
    | cons c rest ih =>
      intro hall
      simp only [List.all_cons, Bool.and_eq_true] at hall
      have hc := utf8Size_of_isHexDigit hall.1
      have hrest := ih hall.2
      simp only [byteLength_cons, List.length_cons]
      omega
  rw [hlength key h.2, h.1]

lemma toList_written (opener key : String) :
    (opener ++ key ++ ">").toList = written opener.toList key.toList := by
  simp [written]

lemma utf8ByteSize_written (opener : String) {key : String} (hkey : IsKey key.toList) :
    (opener ++ key ++ ">").utf8ByteSize = width opener := by
  have hbytes : key.utf8ByteSize = 16 := by
    rw [← hkey.byteLength_eq, ← utf8ByteSize_ofList, String.ofList_toList]
  have hclose : ">".utf8ByteSize = 1 := rfl
  simp only [String.utf8ByteSize_append, hbytes, hclose, width]

lemma written_ne_empty (opener key : String) : opener ++ key ++ ">" ≠ "" := by
  intro hempty
  have := congrArg String.toList hempty
  simp at this

/-- The bytes of a tag stand where its characters do. -/
theorem occursAt_iff {opener text : String} {place : Nat} :
    OccursAt opener text place ↔ ∃ before key after, IsKey key ∧
      text.toList = before ++ (written opener.toList key ++ after) ∧ byteLength before = place := by
  constructor
  · rintro ⟨key, hkey, hstands⟩
    obtain ⟨before, after, rfl, rfl⟩ := (standsAt_iff (written_ne_empty opener key)).1 hstands
    refine ⟨before.toList, key.toList, after.toList, hkey, ?_, ?_⟩
    · rw [String.toList_append, String.toList_append, toList_written]
    · rw [← utf8ByteSize_ofList, String.ofList_toList]
  · rintro ⟨before, key, after, hkey, htext, rfl⟩
    refine ⟨String.ofList key, by rwa [String.toList_ofList], (standsAt_iff (written_ne_empty _ _)).2 ?_⟩
    refine ⟨String.ofList before, String.ofList after, ?_, utf8ByteSize_ofList before⟩
    apply String.toList_injective
    simp only [String.toList_append, String.toList_ofList, htext]
    simp [written]

/-- No tag stands before the one that is found. -/
lemma find?_before_prefix {opener cs pre key after : List Char} {t : Found}
    (hascii : startsAscii opener) (h : find? opener cs = some t) (hkey : IsKey key)
    (hcs : cs = pre ++ (written opener key ++ after)) : t.before <+: pre := by
  replace h := finds_of_find? hascii h
  induction h generalizing pre with
  | here => exact List.nil_prefix
  | later hhead ht ih =>
    cases pre with
    | nil =>
      rw [head?_eq_some_iff.2 ⟨hkey, hcs⟩] at hhead
      cases hhead
    | cons x pre =>
      obtain ⟨rfl, hrest⟩ := List.cons.inj hcs
      exact List.cons_prefix_cons.2 ⟨rfl, ih hrest⟩

namespace Cursor

variable {opener : String}

/-- The cursor has a text behind it and the rest of the text before it. -/
def IsIn (text : String) (c : Cursor) : Prop :=
  ∃ passed, text.toList = passed ++ c.rest ∧ byteLength passed = c.offset

lemma isIn_ofText (text : String) : (Cursor.ofText text).IsIn text := ⟨[], rfl, rfl⟩

lemma next?_of_find?_none {o : List Char} {c : Cursor} (h : find? o c.rest = none) :
    c.next? o = (none, ⟨c.offset + byteLength c.rest, []⟩) := by
  rw [next?, h]

/-- The tag that is found, as it is reported. -/
def report (opener : List Char) (c : Cursor) (f : Found) : Tag :=
  let start := c.offset + byteLength f.before
  ⟨start, start + byteLength opener + keyLength + 1, String.ofList f.key⟩

lemma next?_of_find?_some {o : List Char} {c : Cursor} {f : Found} (h : find? o c.rest = some f) :
    c.next? o = (some (c.report o f), ⟨(c.report o f).stop, f.after⟩) := by
  rw [next?, h]
  rfl

lemma tags_of_find?_none {o : List Char} {c : Cursor} (h : find? o c.rest = none) :
    c.tags o = [] := by
  rw [tags]
  split
  · rfl
  · simp_all [next?_of_find?_none h]

lemma tags_of_find?_some {o : List Char} {c : Cursor} {f : Found} (h : find? o c.rest = some f) :
    c.tags o = c.report o f :: Cursor.tags o ⟨(c.report o f).stop, f.after⟩ := by
  rw [tags]
  split
  · simp_all [next?_of_find?_some h]
  · simp_all [next?_of_find?_some h]

/-- What holds of a cursor that meets no tag, and of any cursor if it does of the one after the next
tag, holds of all cursors. -/
@[elab_as_elim]
theorem tags_induction (o : List Char) {motive : Cursor → Prop}
    (untagged : ∀ c : Cursor, find? o c.rest = none → motive c)
    (tagged : ∀ (c : Cursor) f, find? o c.rest = some f →
      motive ⟨(c.report o f).stop, f.after⟩ → motive c) (c : Cursor) : motive c := by
  obtain ⟨offset, rest⟩ := c
  induction rest using find?_induction o generalizing offset with
  | untagged rest hfind => exact untagged ⟨offset, rest⟩ hfind
  | tagged rest f hfind ih => exact tagged ⟨offset, rest⟩ f hfind (ih _)

lemma IsIn.next {o : List Char} {text : String} {c : Cursor} {f : Found} (hc : c.IsIn text)
    (hascii : startsAscii o) (h : find? o c.rest = some f) :
    IsIn text ⟨(c.report o f).stop, f.after⟩ := by
  obtain ⟨passed, htext, hoffset⟩ := hc
  obtain ⟨hkey, hrest, -⟩ := find?_eq_some hascii h
  refine ⟨passed ++ (f.before ++ written o f.key), ?_, ?_⟩
  · rw [htext, hrest]
    simp only [List.append_assoc]
  · have hclose : '>'.utf8Size = 1 := rfl
    simp only [byteLength_append, written, byteLength_cons, byteLength_nil, hkey.byteLength_eq,
      report, keyLength, hoffset, hclose]
    omega

/-- A tag that begins at the cursor or after it is in the rest of the text. -/
theorem IsIn.rest_eq {text : String} {c : Cursor} (hc : c.IsIn text) {before tail : List Char}
    (htext : text.toList = before ++ tail) (hplace : c.offset ≤ byteLength before) :
    ∃ skipped, c.rest = skipped ++ tail ∧ c.offset + byteLength skipped = byteLength before := by
  obtain ⟨passed, hrest, hoffset⟩ := hc
  obtain ⟨skipped, rfl, hskipped⟩ :=
    exists_append_of_byteLength_le (hrest.symm.trans htext) (hoffset.trans_le hplace)
  exact ⟨skipped, hskipped, by rw [byteLength_append, hoffset]⟩

lemma IsIn.isLeast {text : String} {c : Cursor} {f : Found} (hc : c.IsIn text)
    (hascii : startsAscii opener.toList) (h : find? opener.toList c.rest = some f) :
    IsLeast {p | c.offset ≤ p ∧ OccursAt opener text p} (c.report opener.toList f).start := by
  obtain ⟨hkey, hrest, -⟩ := find?_eq_some hascii h
  refine ⟨⟨Nat.le_add_right .., occursAt_iff.2 ?_⟩, ?_⟩
  · obtain ⟨passed, htext, hoffset⟩ := hc
    refine ⟨passed ++ f.before, f.key, f.after, hkey, ?_, ?_⟩
    · rw [htext, hrest, List.append_assoc]
    · rw [byteLength_append, hoffset]
      rfl
  · rintro p ⟨hp, hoccurs⟩
    obtain ⟨before, key, after, hkey', htext, rfl⟩ := occursAt_iff.1 hoccurs
    obtain ⟨skipped, hskipped, hplace⟩ := hc.rest_eq htext hp
    obtain ⟨more, rfl⟩ := find?_before_prefix hascii h hkey' hskipped
    change c.offset + byteLength f.before ≤ byteLength before
    rw [byteLength_append] at hplace
    omega

theorem IsIn.isCutFrom {text : String} {c : Cursor} {f : Found} (hc : c.IsIn text)
    (hascii : startsAscii opener.toList) (h : find? opener.toList c.rest = some f) :
    IsCutFrom opener text (c.report opener.toList f) := by
  obtain ⟨hkey, hrest, -⟩ := find?_eq_some hascii h
  obtain ⟨passed, htext, hoffset⟩ := hc
  have hkey' : IsKey (String.ofList f.key).toList := by rwa [String.toList_ofList]
  have hwidth := utf8ByteSize_written opener hkey'
  have hstop : (c.report opener.toList f).stop =
      (c.report opener.toList f).start + (opener ++ String.ofList f.key ++ ">").utf8ByteSize := by
    have hopener : byteLength opener.toList = opener.utf8ByteSize := by
      rw [← utf8ByteSize_ofList, String.ofList_toList]
    rw [hwidth]
    simp only [report, hopener, keyLength, width]
    omega
  have hne : opener ++ String.ofList f.key ++ ">" ≠ "" := by
    intro hempty
    rw [hempty] at hwidth
    simp [width] at hwidth
  have hstands : StandsAt (opener ++ String.ofList f.key ++ ">") text
      (c.report opener.toList f).start := by
    refine (standsAt_iff hne).2 ⟨String.ofList (passed ++ f.before), String.ofList f.after, ?_, ?_⟩
    · apply String.toList_injective
      rw [htext, hrest]
      simp [written]
    · rw [utf8ByteSize_ofList, byteLength_append, hoffset]
      rfl
  obtain ⟨hstart, hend⟩ := hstands.isBoundary hne
  have hle := hstands.le hne
  rw [← hstop] at hend hle
  refine ⟨hkey', ?_, hstart, hend, ?_, hle⟩
  · rw [hstop]
    exact hstands
  · rw [hstop, hwidth, width]
    omega

/-- Turn by turn the scanner takes the tags greedily. -/
theorem greedy_tags {text : String} (hascii : startsAscii opener.toList) {c : Cursor}
    (hc : c.IsIn text) : Greedy opener text c.offset (c.tags opener.toList) := by
  induction c using tags_induction opener.toList with
  | untagged c hfind =>
    rw [tags_of_find?_none hfind]
    refine .finish fun p hp hoccurs => ?_
    obtain ⟨before, key, after, hkey, htext, rfl⟩ := occursAt_iff.1 hoccurs
    obtain ⟨skipped, hskipped, -⟩ := hc.rest_eq htext hp
    exact (find?_eq_none_iff hascii _).1 hfind ⟨skipped, key, after, hkey, hskipped⟩
  | tagged c f hfind ih =>
    rw [tags_of_find?_some hfind]
    exact .next (hc.isLeast hascii hfind) (hc.isCutFrom hascii hfind) (ih (hc.next hascii hfind))

/-- The answers to one call after another: the tags in order, and nothing from then on. -/
theorem next?_iterate (o : List Char) (n : Nat) (c : Cursor) :
    (((fun c => (c.next? o).2)^[n] c).next? o).1 = (c.tags o)[n]? := by
  induction n generalizing c with
  | zero =>
    cases hfind : find? o c.rest with
    | none => simp [tags_of_find?_none hfind, next?_of_find?_none hfind]
    | some f => simp [tags_of_find?_some hfind, next?_of_find?_some hfind]
  | succ n ih =>
    rw [Function.iterate_succ_apply, ih]
    cases hfind : find? o c.rest with
    | none =>
      have hover : find? o ([] : List Char) = none := rfl
      rw [next?_of_find?_none hfind, tags_of_find?_none hfind, tags_of_find?_none hover]
      simp
    | some f =>
      rw [next?_of_find?_some hfind, tags_of_find?_some hfind, List.getElem?_cons_succ]

end Cursor

section IsCutFrom

variable {opener text : String} {t t' : Tag}

lemma IsCutFrom.stop_eq (h : IsCutFrom opener text t) : t.stop = t.start + width opener := by
  have hsize := congrArg ByteArray.size h.bytes
  simp only [String.toUTF8, ByteArray.size_extract, String.size_toByteArray,
    utf8ByteSize_written opener h.key] at hsize
  have hlt := h.lt
  have hle := h.le
  omega

lemma IsCutFrom.standsAt (h : IsCutFrom opener text t) :
    StandsAt (opener ++ t.key ++ ">") text t.start := by
  rw [StandsAt, utf8ByteSize_written opener h.key, ← h.stop_eq]
  exact h.bytes

lemma IsCutFrom.occursAt (h : IsCutFrom opener text t) : OccursAt opener text t.start :=
  ⟨t.key, h.key, h.standsAt⟩

lemma IsCutFrom.ext (h : IsCutFrom opener text t) (h' : IsCutFrom opener text t')
    (hstart : t.start = t'.start) : t = t' := by
  have hstop : t.stop = t'.stop := by rw [h.stop_eq, h'.stop_eq, hstart]
  have hwritten : opener ++ t.key ++ ">" = opener ++ t'.key ++ ">" := by
    have hbytes := h.bytes
    rw [hstart, hstop] at hbytes
    exact String.toByteArray_inj.1 (hbytes.symm.trans h'.bytes)
  have hlists := congrArg String.toList hwritten
  simp only [String.toList_append, List.append_assoc] at hlists
  have hkey : t.key = t'.key :=
    String.toList_injective (List.append_cancel_right (List.append_cancel_left hlists))
  cases t
  cases t'
  simp_all

end IsCutFrom

/-- There is one way to take the tags greedily. -/
theorem Greedy.unique {opener text : String} {place : Nat} {ts ts' : List Tag}
    (h : Greedy opener text place ts) (h' : Greedy opener text place ts') : ts = ts' := by
  induction h generalizing ts' with
  | finish hclear =>
    cases h' with
    | finish => rfl
    | next least => exact absurd least.1.2 (hclear _ least.1.1)
  | next least cut rest ih =>
    cases h' with
    | finish hclear => exact absurd least.1.2 (hclear _ least.1.1)
    | next least' cut' rest' =>
      obtain rfl := cut.ext cut' (least.unique least')
      rw [ih rest']

lemma Greedy.mem_cut {opener text : String} {place : Nat} {ts : List Tag}
    (h : Greedy opener text place ts) {t : Tag} (ht : t ∈ ts) : IsCutFrom opener text t := by
  induction h with
  | finish => cases ht
  | next _ cut _ ih =>
    rcases List.mem_cons.1 ht with rfl | ht
    · exact cut
    · exact ih ht

/-- Where no two tags overlap, each one is taken. -/
theorem Greedy.exists_start {opener text : String} {place : Nat} {ts : List Tag}
    (h : Greedy opener text place ts)
    (apart : ∀ p q, OccursAt opener text p → OccursAt opener text q → p < q → p + width opener ≤ q)
    {p : Nat} (hp : place ≤ p) (hoccurs : OccursAt opener text p) : ∃ t ∈ ts, t.start = p := by
  induction h with
  | finish hclear => exact absurd hoccurs (hclear p hp)
  | @next place t ts least cut rest ih =>
    rcases Nat.lt_or_eq_of_le (least.2 ⟨hp, hoccurs⟩) with hlt | heq
    · have hnext := apart _ _ least.1.2 hoccurs hlt
      rw [← cut.stop_eq] at hnext
      obtain ⟨t', ht', hstart⟩ := ih hnext
      exact ⟨t', List.mem_cons_of_mem _ ht', hstart⟩
    · exact ⟨t, List.mem_cons_self .., heq⟩

/-- A tag that begins after another one with the same first character begins after its end. -/
lemma StandsOut.written_prefix {a b mid key key' after after' : List Char} (ha : StandsOut a)
    (hhead : b.head? = a.head?) (hkey : IsKey key) (hmid : mid ≠ [])
    (h : written a key ++ after = mid ++ (written b key' ++ after')) : written a key <+: mid := by
  obtain ⟨x, tail, rfl, -⟩ := id ha
  obtain ⟨y, hwritten⟩ := ha.written_eq
  obtain ⟨rest, hrest, hy⟩ := hwritten key hkey
  cases b with
  | nil => cases hhead
  | cons z b =>
    cases mid with
    | nil => exact absurd rfl hmid
    | cons m mid =>
      obtain rfl : z = x := Option.some.inj hhead
      obtain rfl : z = y := (List.cons.inj hrest).1
      rw [hrest] at h ⊢
      obtain ⟨rfl, htail⟩ := List.cons.inj h
      exact List.cons_prefix_cons.2 ⟨rfl, prefix_of_prefix_append_cons hy ⟨after, htail⟩⟩

lemma occursAt_apart {a b text : String} (ha : StandsOut a.toList)
    (hhead : b.toList.head? = a.toList.head?) {p q : Nat} (hp : OccursAt a text p)
    (hq : OccursAt b text q) (h : p < q) : p + width a ≤ q := by
  obtain ⟨before, key, after, hkey, htext, rfl⟩ := occursAt_iff.1 hp
  obtain ⟨before', key', after', hkey', htext', rfl⟩ := occursAt_iff.1 hq
  obtain ⟨mid, rfl, hmid⟩ := exists_append_of_byteLength_le (htext.symm.trans htext') h.le
  have hne : mid ≠ [] := by
    rintro rfl
    simp at h
  obtain ⟨more, rfl⟩ := ha.written_prefix hhead hkey hne hmid
  have hwidth : byteLength (written a.toList key) = width a := by
    have hkey' : IsKey (String.ofList key).toList := by rwa [String.toList_ofList]
    have hsize := utf8ByteSize_written a hkey'
    rw [← hsize, ← utf8ByteSize_ofList]
    congr 1
    apply String.toList_injective
    simp [written]
  simp only [byteLength_append, hwidth]
  omega

/-- The openers of both kinds of tags. -/
def openers : List String := ["<global:", "<ref:"]

lemma standsOut_of_mem {a : String} (ha : a ∈ openers) : StandsOut a.toList := by
  simp only [openers, List.mem_cons, List.not_mem_nil, or_false] at ha
  rcases ha with rfl | rfl
  · exact standsOut_variableOpener
  · exact standsOut_entryOpener

lemma head?_of_mem {a : String} (ha : a ∈ openers) : a.toList.head? = some '<' := by
  simp only [openers, List.mem_cons, List.not_mem_nil, or_false] at ha
  rcases ha with rfl | rfl <;> rfl

/-- Tags of both kinds do not begin at one place. -/
theorem eq_of_occursAt {a b text : String} (ha : a ∈ openers) (hb : b ∈ openers) {p : Nat}
    (hp : OccursAt a text p) (hq : OccursAt b text p) : a = b := by
  obtain ⟨before, key, after, hkey, htext, hplace⟩ := occursAt_iff.1 hp
  obtain ⟨before', key', after', hkey', htext', rfl⟩ := occursAt_iff.1 hq
  obtain ⟨-, hwritten⟩ := append_inj_of_byteLength (htext.symm.trans htext') hplace
  simp only [openers, List.mem_cons, List.not_mem_nil, or_false] at ha hb
  -- The second characters of the openers differ.
  rcases ha with rfl | rfl <;> rcases hb with rfl | rfl
  · rfl
  · simp [written] at hwritten
  · simp [written] at hwritten
  · rfl

/-- Two tags of a text are one, or they do not overlap. -/
theorem apart_of_mem {a b text : String} (ha : a ∈ openers) (hb : b ∈ openers) {p q : Nat}
    (hp : OccursAt a text p) (hq : OccursAt b text q) :
    (a = b ∧ p = q) ∨ p + width a ≤ q ∨ q + width b ≤ p := by
  have hsame : b.toList.head? = a.toList.head? := (head?_of_mem hb).trans (head?_of_mem ha).symm
  rcases Nat.lt_trichotomy p q with hlt | rfl | hlt
  · exact .inr (.inl (occursAt_apart (standsOut_of_mem ha) hsame hp hq hlt))
  · exact .inl ⟨eq_of_occursAt ha hb hp hq, rfl⟩
  · exact .inr (.inr (occursAt_apart (standsOut_of_mem hb) hsame.symm hq hp hlt))

theorem greedy_all {opener : String} (hascii : startsAscii opener.toList) (text : String) :
    Greedy opener text 0 (all opener text) :=
  Cursor.greedy_tags hascii (Cursor.isIn_ofText text)

theorem occurs_iff_occursAt {opener : String} (hascii : startsAscii opener.toList) (text : String) :
    occurs opener.toList text.toList = true ↔ ∃ p, OccursAt opener text p := by
  rw [occurs_iff hascii]
  constructor
  · rintro ⟨before, key, after, hkey, htext⟩
    exact ⟨_, occursAt_iff.2 ⟨before, key, after, hkey, htext, rfl⟩⟩
  · rintro ⟨p, hoccurs⟩
    obtain ⟨before, key, after, hkey, htext, -⟩ := occursAt_iff.1 hoccurs
    exact ⟨before, key, after, hkey, htext⟩

/-- A scan takes the tags of a text greedily, one at each call, and reports nothing from then on. With
the opener of either kind it reports every tag, as no two tags of these kinds overlap. -/
theorem all_exact :
    (∀ opener : String, startsAscii opener.toList → ∀ text,
      (∀ ts, Greedy opener text 0 ts ↔ ts = all opener text) ∧
      ∀ n, (((fun c => (Cursor.next? opener.toList c).2)^[n] (.ofText text)).next? opener.toList).1 =
        (all opener text)[n]?) ∧
    ∀ a ∈ openers, ∀ text,
      (∀ b ∈ openers, ∀ p q, OccursAt a text p → OccursAt b text q →
        (a = b ∧ p = q) ∨ p + width a ≤ q ∨ q + width b ≤ p) ∧
      (∀ p, OccursAt a text p ↔ ∃ t ∈ all a text, t.start = p) ∧
      (occurs a.toList text.toList = true ↔ ∃ p, OccursAt a text p) := by
  refine ⟨?_, ?_⟩
  · intro opener hascii text
    refine ⟨?_, fun n => Cursor.next?_iterate _ n _⟩
    intro ts
    constructor
    · intro h
      exact h.unique (greedy_all hascii text)
    · rintro rfl
      exact greedy_all hascii text
  · intro a ha text
    have hascii : startsAscii a.toList := by
      rw [startsAscii, head?_of_mem ha]
      rfl
    have hgreedy := greedy_all hascii text
    refine ⟨fun b hb p q => apart_of_mem ha hb, ?_, occurs_iff_occursAt hascii text⟩
    intro p
    constructor
    · intro hoccurs
      refine hgreedy.exists_start ?_ (Nat.zero_le p) hoccurs
      exact fun p q hp hq => occursAt_apart (standsOut_of_mem ha) rfl hp hq
    · rintro ⟨t, ht, rfl⟩
      exact (hgreedy.mem_cut ht).occursAt

/-- A tag inside a candidate that is none, after a character of two bytes and before a tag of the
other kind. -/
theorem all_exact_nested :
    let text := "é<global:<global:0123456789abcdef><ref:FEDCBA9876543210>"
    startsAscii "<global:".toList ∧ "<global:" ∈ openers ∧ "<ref:" ∈ openers ∧
    OccursAt "<global:" text 10 ∧ OccursAt "<ref:" text 35 ∧
    Greedy "<global:" text 0 [⟨10, 35, "0123456789abcdef"⟩] ∧
    (((fun c => (Cursor.next? "<global:".toList c).2)^[1] (.ofText text)).next?
      "<global:".toList).1 = none ∧
    10 + width "<global:" ≤ 35 ∧
    occurs "<ref:".toList text.toList = true := by
  intro text
  have ascii : startsAscii "<global:".toList := by decide
  have global : "<global:" ∈ openers := by decide
  have ref : "<ref:" ∈ openers := by decide
  have tags : all "<global:" text = [⟨10, 35, "0123456789abcdef"⟩] := by decide +kernel
  have refs : all "<ref:" text = [⟨35, 57, "FEDCBA9876543210"⟩] := by decide +kernel
  obtain ⟨greedy, calls⟩ := all_exact.1 "<global:" ascii text
  obtain ⟨apart, reported, -⟩ := all_exact.2 "<global:" global text
  obtain ⟨-, reported', occurring⟩ := all_exact.2 "<ref:" ref text
  have first : OccursAt "<global:" text 10 := (reported 10).2 (by rw [tags]; exact ⟨_, .head _, rfl⟩)
  have second : OccursAt "<ref:" text 35 := (reported' 35).2 (by rw [refs]; exact ⟨_, .head _, rfl⟩)
  have call := calls 1
  rw [tags] at call
  refine ⟨ascii, global, ref, first, second, (greedy _).2 tags.symm, call, ?_,
    occurring.2 ⟨35, second⟩⟩
  rcases apart "<ref:" ref 10 35 first second with ⟨-, h⟩ | h | h
  · omega
  · exact h
  · omega

end Phrasebook.Tag
