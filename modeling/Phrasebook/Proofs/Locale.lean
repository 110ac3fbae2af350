import Phrasebook.Locale
import Phrasebook.Proofs.Text.Blank

/-! The subtags of a locale's tag, and the normal form of its name. A name is trimmed before its encoding
and its modifier are taken away, so blanks right before these stay at the end of the tag; tags without
any are exactly those that are their own normal form. -/
namespace Phrasebook.Locale
open Text

/-- The subtags of a name are the parts without hyphens that make it up with hyphens between them. -/
theorem subtags_eq_iff {tag : String} {parts : List String} :
    subtags tag = parts ↔
      parts ≠ [] ∧ (∀ part ∈ parts, '-' ∉ part.toList) ∧ "-".intercalate parts = tag := by
  have hlists : subtags tag = parts ↔ splitAll (· == '-') tag.toList = parts.map String.toList := by
    constructor
    · rintro rfl
      simp [subtags, Function.comp_def]
    · intro h
      simp [subtags, h, Function.comp_def]
  have htext : ['-'].intercalate (parts.map String.toList) = tag.toList ↔
      "-".intercalate parts = tag := by
    rw [← String.toList_inj, String.toList_intercalate]
    rfl
  rw [hlists, splitAll_eq_iff, htext, List.forall_mem_map, ne_eq, List.map_eq_nil_iff]

/-- Neither an encoding nor a modifier. -/
def IsUnmarked (cs : List Char) : Prop := ∀ c ∈ cs, c ≠ '.' ∧ c ≠ '@'

/-- Neither an encoding nor a modifier, and no underscore. -/
def IsPlain (cs : List Char) : Prop := ∀ c ∈ cs, c ≠ '.' ∧ c ≠ '@' ∧ c ≠ '_'

instance (cs : List Char) : Decidable (IsPlain cs) :=
  List.decidableBAll (fun c => c ≠ '.' ∧ c ≠ '@' ∧ c ≠ '_') cs

/-- A tag as it should be reported. -/
structure IsNormal (tag : String) : Prop where
  usable : tag ≠ "" ∧ tag ≠ "C" ∧ tag ≠ "POSIX"
  plain : IsPlain tag.toList
  trimmed : IsTrimmed tag.toList

section Parts

variable {cs : List Char}

lemma isBlank_hyphen (c : Char) : isBlank (if c = '_' then '-' else c) = isBlank c := by
  by_cases hc : c = '_'
  · subst hc
    decide
  · rw [if_neg hc]

lemma forall_mem_map_hyphen_iff (o : Option Char) :
    (∀ c ∈ o.map fun c => if c = '_' then '-' else c, isBlank c = false) ↔
      ∀ c ∈ o, isBlank c = false := by
  cases o with
  | none => simp
  | some c => simp only [Option.map_some, Option.mem_some_iff, forall_eq', isBlank_hyphen]

/-- A hyphen is no more a blank than an underscore is. -/
theorem isTrimmed_hyphenated_iff : IsTrimmed (hyphenated cs) ↔ IsTrimmed cs := by
  have hhead := forall_mem_map_hyphen_iff cs.head?
  have hlast := forall_mem_map_hyphen_iff cs.getLast?
  rw [← List.head?_map] at hhead
  rw [← List.getLast?_map] at hlast
  exact ⟨fun h => ⟨hhead.1 h.head, hlast.1 h.last⟩, fun h => ⟨hhead.2 h.head, hlast.2 h.last⟩⟩

lemma isUnmarked_base (cs : List Char) : IsUnmarked (base cs) := by
  intro c hc
  have hbase : (c != '.' && c != '@') = true :=
    List.mem_takeWhile_imp (p := fun c => c != '.' && c != '@') hc
  simpa using hbase

lemma IsUnmarked.base_eq (h : IsUnmarked cs) : base cs = cs := by
  rw [base, List.takeWhile_eq_self_iff]
  intro c hc
  simp [h c hc]

lemma IsUnmarked.base_append_mark {mark : Char} (h : IsUnmarked cs)
    (hmark : mark = '.' ∨ mark = '@') (rest : List Char) : base (cs ++ mark :: rest) = cs := by
  have hcs : ∀ c ∈ cs, (c != '.' && c != '@') = true := fun c hc => by simp [h c hc]
  rw [base, List.takeWhile_append_of_pos hcs]
  rcases hmark with rfl | rfl <;> simp

/-- All of a text is kept, or what stands before its first mark. -/
lemma eq_base_or_exists_mark (cs : List Char) :
    cs = base cs ∨ ∃ mark rest, (mark = '.' ∨ mark = '@') ∧ cs = base cs ++ mark :: rest := by
  have hcut : base cs ++ cs.dropWhile (fun c => c != '.' && c != '@') = cs :=
    List.takeWhile_append_dropWhile
  have hhead := List.head?_dropWhile_not (fun c => c != '.' && c != '@') cs
  cases hrest : cs.dropWhile fun c => c != '.' && c != '@' with
  | nil =>
    rw [hrest, List.append_nil] at hcut
    exact .inl hcut.symm
  | cons mark rest =>
    rw [hrest] at hcut hhead
    refine .inr ⟨mark, rest, ?_, hcut.symm⟩
    by_cases hdot : mark = '.'
    · exact .inl hdot
    · simpa [hdot] using hhead

lemma head?_base_trim (cs : List Char) : ∀ c ∈ (base (trim cs)).head?, isBlank c = false := by
  intro c hc
  rw [base, List.head?_takeWhile] at hc
  exact (isTrimmed_trim cs).head c (Option.mem_filter_iff.1 hc).1

lemma IsUnmarked.isPlain_hyphenated (h : IsUnmarked cs) : IsPlain (hyphenated cs) := by
  intro c hc
  obtain ⟨x, hx, rfl⟩ := List.mem_map.1 hc
  have hmarks := h x hx
  by_cases hunderscore : x = '_'
  · rw [if_pos hunderscore]
    decide
  · rw [if_neg hunderscore]
    exact ⟨hmarks.1, hmarks.2, hunderscore⟩

theorem isPlain_hyphenated_base (cs : List Char) : IsPlain (hyphenated (base cs)) :=
  (isUnmarked_base cs).isPlain_hyphenated

lemma IsPlain.isUnmarked (h : IsPlain cs) : IsUnmarked cs :=
  fun c hc => ⟨(h c hc).1, (h c hc).2.1⟩

lemma IsPlain.hyphenated_eq (h : IsPlain cs) : hyphenated cs = cs :=
  (List.map_congr_left fun c hc => if_neg (h c hc).2.2).trans (List.map_id' cs)

lemma IsPlain.trim (h : IsPlain cs) : IsPlain (Text.trim cs) :=
  fun c hc => h c (mem_of_mem_trim hc)

/-- A plain text is its own name once it is trimmed. -/
theorem IsPlain.hyphenated_base_trim (h : IsPlain cs) :
    hyphenated (base (Text.trim cs)) = Text.trim cs := by
  rw [h.trim.isUnmarked.base_eq, h.trim.hyphenated_eq]

lemma IsPlain.append_gap {gap : List Char} (h : IsPlain cs) (hgap : IsGap gap) :
    IsPlain (cs ++ gap) := by
  intro c hc
  rcases List.mem_append.1 hc with hc | hc
  · exact h c hc
  · have hblank : isBlank c = true := hgap c hc
    refine ⟨?_, ?_, ?_⟩ <;> (rintro rfl; cases hblank)

lemma IsPlain.subtags {tag : String} (h : IsPlain tag.toList) :
    ∀ part ∈ subtags tag, IsPlain part.toList := by
  intro part hpart c hc
  obtain ⟨piece, hpiece, rfl⟩ := List.mem_map.1 hpart
  rw [String.toList_ofList] at hc
  exact h c (mem_of_mem_splitAll hpiece hc).1

end Parts

/-- How a name is written: between blanks, or with an encoding or a modifier after it. Blanks right
before these are part of the name. -/
inductive IsWritten (name : List Char) : List Char → Prop
  | bare {front back} (hfront : IsGap front) (hname : IsTrimmed name) (hback : IsGap back) :
      IsWritten name (front ++ (name ++ back))
  | marked {front mark} (hfront : IsGap front) (hhead : ∀ c ∈ name.head?, isBlank c = false)
      (hmark : mark = '.' ∨ mark = '@') (rest : List Char) :
      IsWritten name (front ++ (name ++ mark :: rest))

section Written

variable {name raw : List Char}

lemma isWritten_of_base_trim (h : base (trim raw) = name) : IsWritten name raw := by
  obtain ⟨front, back, hfront, hback, htrimmed, hraw⟩ := exists_trim raw
  have hname := eq_base_or_exists_mark (trim raw)
  rw [h] at hname
  rcases hname with hall | ⟨mark, rest, hmark, hcut⟩
  · rw [hall] at htrimmed hraw
    rw [hraw]
    exact .bare hfront htrimmed hback
  · have hhead : ∀ c ∈ name.head?, isBlank c = false := by
      rw [← h]
      exact head?_base_trim raw
    rw [hcut, List.append_assoc, List.cons_append] at hraw
    rw [hraw]
    exact .marked hfront hhead hmark (rest ++ back)

/-- Trimmed at its end, a text that starts with a mark has no blank at either end. -/
lemma isTrimmed_mark_cons {mark : Char} (hmark : mark = '.' ∨ mark = '@') (rest : List Char) :
    IsTrimmed (mark :: trimEnd rest) := by
  have hsolid : isBlank mark = false := by rcases hmark with rfl | rfl <;> decide
  refine ⟨fun c hc => ?_, fun c hc => ?_⟩
  · obtain rfl : mark = c := by simpa using hc
    exact hsolid
  · rw [List.getLast?_cons, Option.mem_some_iff] at hc
    cases hkept : (trimEnd rest).getLast? with
    | none =>
      obtain rfl : mark = c := by simpa [hkept] using hc
      exact hsolid
    | some x =>
      obtain rfl : x = c := by simpa [hkept] using hc
      exact getLast?_trimEnd rest x hkept

lemma IsWritten.base_trim (hname : IsUnmarked name) (h : IsWritten name raw) :
    base (trim raw) = name := by
  cases h with
  | bare hfront htrimmed hback => rw [trim_eq hfront hback htrimmed, hname.base_eq]
  | @marked front mark hfront hhead hmark rest =>
    -- Blanks after the encoding are trimmed away, which leaves its mark where it is.
    obtain ⟨back, hback, hrest⟩ := exists_trimEnd rest
    have hmarked := isTrimmed_mark_cons hmark rest
    have hbody : IsTrimmed (name ++ mark :: trimEnd rest) := by
      by_cases hne : name = []
      · rwa [hne, List.nil_append]
      · exact .append hhead hne hmarked.last (List.cons_ne_nil _ _)
    have hraw : name ++ mark :: rest = name ++ mark :: trimEnd rest ++ back := by
      rw [List.append_assoc, List.cons_append, ← hrest]
    rw [hraw, trim_eq hfront hback hbody, hname.base_append_mark hmark]

theorem base_trim_eq_iff : base (trim raw) = name ↔ IsUnmarked name ∧ IsWritten name raw := by
  constructor
  · intro h
    refine ⟨?_, isWritten_of_base_trim h⟩
    rw [← h]
    exact isUnmarked_base _
  · rintro ⟨hname, h⟩
    exact h.base_trim hname

end Written

lemma isUsable_iff (tag : String) :
    isUsable tag = true ↔ tag ≠ "" ∧ tag ≠ "C" ∧ tag ≠ "POSIX" := by
  simp [isUsable, and_assoc]

theorem normalize?_eq_some_iff {raw tag : String} : normalize? raw = some tag ↔
    tag = String.ofList (hyphenated (base (trim raw.toList))) ∧ isUsable tag = true := by
  rw [normalize?]
  constructor
  · intro h
    split at h
    · next husable =>
      cases h
      exact ⟨rfl, husable⟩
    · cases h
  · rintro ⟨rfl, husable⟩
    rw [if_pos husable]

lemma isPlain_of_normalize? {raw tag : String} (h : normalize? raw = some tag) :
    IsPlain tag.toList := by
  obtain ⟨htag, -⟩ := normalize?_eq_some_iff.1 h
  rw [htag, String.toList_ofList]
  exact isPlain_hyphenated_base _

/-- The normal form is the written name with hyphens between its parts, if that is usable. -/
theorem normalize?_eq_some_iff_isWritten {raw tag : String} : normalize? raw = some tag ↔
    (tag ≠ "" ∧ tag ≠ "C" ∧ tag ≠ "POSIX") ∧
    ∃ name, IsUnmarked name ∧ IsWritten name raw.toList ∧ tag.toList = hyphenated name := by
  rw [normalize?_eq_some_iff, isUsable_iff, and_comm]
  refine and_congr_right fun _ => ?_
  constructor
  · intro htag
    obtain ⟨hname, hwritten⟩ := base_trim_eq_iff.1 (rfl : base (trim raw.toList) = _)
    exact ⟨_, hname, hwritten, by rw [htag, String.toList_ofList]⟩
  · rintro ⟨name, hname, hwritten, htag⟩
    rw [hwritten.base_trim hname, ← htag, String.ofList_toList]

theorem normalize?_of_isWritten {name raw : List Char} (hname : IsPlain name)
    (h : IsWritten name raw) : normalize? (String.ofList raw) =
      if isUsable (String.ofList name) then some (String.ofList name) else none := by
  rw [normalize?, String.toList_ofList, h.base_trim hname.isUnmarked, hname.hyphenated_eq]

/-- A plain tag is only trimmed. -/
theorem normalize?_of_isPlain {tag : String} (h : IsPlain tag.toList) :
    normalize? tag = if isUsable (trimmed tag) then some (trimmed tag) else none := by
  rw [normalize?, h.hyphenated_base_trim]
  rfl

/-- The normal tags are those that are their own normal form. -/
theorem normalize?_eq_self_iff (tag : String) : normalize? tag = some tag ↔ IsNormal tag := by
  constructor
  · intro h
    obtain ⟨htag, husable⟩ := normalize?_eq_some_iff.1 h
    have hplain := isPlain_of_normalize? h
    have hself : trim tag.toList = tag.toList := by
      rw [hplain.hyphenated_base_trim] at htag
      rw [← String.toList_ofList (l := trim tag.toList), ← htag]
    exact ⟨(isUsable_iff tag).1 husable, hplain, trim_eq_self_iff.1 hself⟩
  · intro h
    refine normalize?_eq_some_iff.2 ⟨?_, (isUsable_iff tag).2 h.usable⟩
    rw [h.plain.hyphenated_base_trim, trim_eq_self_iff.2 h.trimmed, String.ofList_toList]

/-- What is left of a tag in the end is normal. -/
theorem isNormal_of_normalize? {tag again : String} (hplain : IsPlain tag.toList)
    (h : normalize? tag = some again) : IsNormal again := by
  rw [normalize?_of_isPlain hplain] at h
  split at h
  · next husable =>
    cases h
    refine ⟨(isUsable_iff _).1 husable, ?_, ?_⟩
    · rw [trimmed, String.toList_ofList]
      exact hplain.trim
    · rw [trimmed, String.toList_ofList]
      exact isTrimmed_trim _
  · cases h

/-- No unusable name has a blank in it. -/
theorem isUsable_of_mem {tag : String} {c : Char} (hc : c ∈ tag.toList) (hblank : isBlank c = true) :
    isUsable tag = true := by
  have hsolid : ¬ IsSolid tag.toList := fun h => by simp [h c hc] at hblank
  rw [isUsable_iff]
  refine ⟨?_, ?_, ?_⟩ <;> (rintro rfl; exact hsolid (by decide))

section Pseudo

variable {name : String} {front gap : List Char}

lemma plain_and_solid_of_pseudo (h : name = "C" ∨ name = "POSIX") :
    IsPlain name.toList ∧ IsSolid name.toList ∧ name.toList ≠ [] ∧ isUsable name = false := by
  rcases h with rfl | rfl <;> decide

/-- The name of no locale, with blanks around it. -/
theorem normalize?_of_pseudo (h : name = "C" ∨ name = "POSIX") (hfront : IsGap front)
    (hgap : IsGap gap) : normalize? (String.ofList (front ++ (name.toList ++ gap))) = none := by
  obtain ⟨hplain, hsolid, -, husable⟩ := plain_and_solid_of_pseudo h
  rw [normalize?_of_isWritten hplain (.bare hfront hsolid.isTrimmed hgap), String.ofList_toList,
    husable]
  rfl

/-- With an encoding or a modifier it is rejected if and only if there is no blank before that. -/
theorem normalize?_of_marked_pseudo (h : name = "C" ∨ name = "POSIX") (hfront : IsGap front)
    (hgap : IsGap gap) {mark : Char} (hmark : mark = '.' ∨ mark = '@') (rest : List Char) :
    normalize? (String.ofList (front ++ (name.toList ++ gap ++ mark :: rest))) = none ↔
      gap = [] := by
  obtain ⟨hplain, hsolid, hne, husable⟩ := plain_and_solid_of_pseudo h
  have hhead : ∀ c ∈ (name.toList ++ gap).head?, isBlank c = false := by
    rw [List.head?_append_of_ne_nil _ hne]
    exact hsolid.isTrimmed.head
  have hall := hplain.append_gap hgap
  rw [normalize?_of_isWritten hall (.marked hfront hhead hmark rest)]
  constructor
  · intro hnone
    rw [List.eq_nil_iff_forall_not_mem]
    intro c hc
    rw [isUsable_of_mem (c := c) (by simp [hc]) (hgap c hc)] at hnone
    cases hnone
  · rintro rfl
    rw [List.append_nil, String.ofList_toList, husable]
    rfl

end Pseudo

/-- The normal form of a name is usable and plain and starts with no blank. Normalized again it loses
the blanks that stood right before an encoding or a modifier, and after that nothing more; so it is its
own normal form if and only if there were none. The names of no locale have no normal form, whatever
blanks are around them; before an encoding or a modifier they have one if and only if there are blanks
between. -/
theorem normalize?_settles (raw : String) :
    (∀ tag, normalize? raw = some tag →
      (tag ≠ "" ∧ tag ≠ "C" ∧ tag ≠ "POSIX") ∧ IsPlain tag.toList ∧
      (∀ c ∈ tag.toList.head?, isBlank c = false) ∧
      (IsNormal tag ↔ ∀ c ∈ (base (trim raw.toList)).getLast?, isBlank c = false) ∧
      (normalize? tag = some tag ↔ IsNormal tag) ∧
      normalize? tag = (if isUsable (trimmed tag) then some (trimmed tag) else none) ∧
      ∀ again, normalize? tag = some again → IsNormal again ∧ normalize? again = some again) ∧
    ∀ name front gap, name = "C" ∨ name = "POSIX" → IsGap front → IsGap gap →
      (raw = String.ofList (front ++ (name.toList ++ gap)) → normalize? raw = none) ∧
      ∀ mark rest, mark = '.' ∨ mark = '@' →
        raw = String.ofList (front ++ (name.toList ++ gap ++ mark :: rest)) →
        (normalize? raw = none ↔ gap = []) := by
  refine ⟨fun tag h => ?_, fun name front gap hname hfront hgap => ⟨?_, ?_⟩⟩
  · obtain ⟨htag, husable⟩ := normalize?_eq_some_iff.1 h
    have hchars : tag.toList = hyphenated (base (trim raw.toList)) := by
      rw [htag, String.toList_ofList]
    have hplain : IsPlain tag.toList := by
      rw [hchars]
      exact isPlain_hyphenated_base _
    have husable' := (isUsable_iff tag).1 husable
    have htrimmed : IsTrimmed tag.toList ↔
        ∀ c ∈ (base (trim raw.toList)).getLast?, isBlank c = false := by
      rw [hchars, isTrimmed_hyphenated_iff]
      exact ⟨fun h => h.last, fun h => ⟨head?_base_trim raw.toList, h⟩⟩
    have hhead : ∀ c ∈ tag.toList.head?, isBlank c = false := by
      rw [hchars, hyphenated, List.head?_map, forall_mem_map_hyphen_iff]
      exact head?_base_trim raw.toList
    refine ⟨husable', hplain, hhead, ⟨fun hnormal => htrimmed.1 hnormal.trimmed, fun hflush => ?_⟩,
      normalize?_eq_self_iff tag, normalize?_of_isPlain hplain, fun again hagain => ?_⟩
    · exact ⟨husable', hplain, htrimmed.2 hflush⟩
    · have hnormal := isNormal_of_normalize? hplain hagain
      exact ⟨hnormal, (normalize?_eq_self_iff again).2 hnormal⟩
  · rintro rfl
    exact normalize?_of_pseudo hname hfront hgap
  · rintro mark rest hmark rfl
    exact normalize?_of_marked_pseudo hname hfront hgap hmark rest

/-- A name with its encoding at once after it, one with a blank between them, and the name of no
locale. -/
theorem normalize?_settles_taiwanese :
    normalize? "\tzh_TW.Big5 " = some "zh-TW" ∧ normalize? "zh-TW" = some "zh-TW" ∧
    normalize? " zh_TW @radical" = some "zh-TW " ∧ normalize? "zh-TW " = some "zh-TW" ∧
    normalize? " C.UTF-8" = none ∧ normalize? " C\n" = none := by
  have flush : normalize? "\tzh_TW.Big5 " = some "zh-TW" := by decide +kernel
  have spaced : normalize? " zh_TW @radical" = some "zh-TW " := by decide +kernel
  have last : (base (trim "\tzh_TW.Big5 ".toList)).getLast? = some 'W' := by decide +kernel
  obtain ⟨-, -, -, normal, fixed, -, -⟩ := (normalize?_settles _).1 _ flush
  obtain ⟨-, -, -, -, -, again, -⟩ := (normalize?_settles _).1 _ spaced
  refine ⟨flush, fixed.2 (normal.2 ?_), spaced, ?_, ?_, ?_⟩
  · rw [last]
    rintro c ⟨⟩
    decide
  · rw [again]
    decide +kernel
  · obtain ⟨-, marked⟩ := (normalize?_settles " C.UTF-8").2 "C" [' '] [] (.inl rfl) (by decide)
      (by decide)
    exact (marked '.' "UTF-8".toList (.inl rfl) rfl).2 rfl
  · exact ((normalize?_settles " C\n").2 "C" [' '] ['\n'] (.inl rfl) (by decide) (by decide)).1 rfl

/-- A blank between the name of no locale and its encoding makes it pass for a tag, which ends with the
blank and has no normal form. -/
theorem normalize?_before_encoding :
    normalize? "C .UTF-8" = some "C " ∧ normalize? "C " = none ∧ ¬ IsTrimmed "C ".toList := by
  refine ⟨by decide +kernel, by decide +kernel, fun h => ?_⟩
  have hlast : isBlank ' ' = false := h.last ' ' rfl
  cases hlast

end Phrasebook.Locale
