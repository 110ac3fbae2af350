import Phrasebook.Proofs.Tag.Splice
import Phrasebook.Proofs.Translator

/-! Expansion goes over a text once. It replaces the entry tags of the text as it was given, and whatever
tags there are in what it puts in, or across the ends of it, stay. -/
namespace Phrasebook.Translator
open Tag

/-- What an entry tag with a key turns into: the text of the entry, or itself if there is none. -/
def tagText (t : Translator) (v : Values Id) (key : String) : String :=
  (t.get v key).getD ("<ref:" ++ key ++ ">")

/-- Expansion copies what stands between the tags of a text and puts the text of an entry in for each
tag that has one. A text without such tags stays as it is. -/
theorem expand_spliced (t : Translator) (v : Values Id) (text : String) :
    AreTags "<ref:" text (all "<ref:" text) ∧
    (t.expand v text).toUTF8 = spliced text (t.tagText v) 0 (all "<ref:" text) ∧
    ((∀ tag ∈ all "<ref:" text, t.get v tag.key = none) → t.expand v text = text) := by
  have hascii : startsAscii "<ref:".toList := startsAscii_entryOpener
  have hbytes : (t.expand v text).toUTF8 = spliced text (t.tagText v) 0 (all "<ref:" text) := by
    rw [expand_eq_replaceAll]
    exact toUTF8_replaceAll hascii _ text
  refine ⟨areTags_all (by decide) text, hbytes, fun hnone => ?_⟩
  have hself : ∀ tag ∈ all "<ref:" text, t.tagText v tag.key = "<ref:" ++ tag.key ++ ">" := by
    intro tag htag
    rw [tagText, hnone tag htag, Option.getD_none]
  apply String.toByteArray_inj.1
  change (t.expand v text).toUTF8 = text.toUTF8
  rw [hbytes, (greedy_all hascii text).spliced_eq hself]
  exact ByteArray.extract_zero_size

/-- An entry that holds its own tag, and one that holds the beginning of a tag. -/
def circular : Translator :=
  start
    [.entry "00000000000000a1" (.ofList [("en", "<<ref:00000000000000a1>>")]),
      .entry "00000000000000b2" (.ofList [("en", "<ref:0000")])]
    ⟨[⟨"en", "Noto Sans", .one⟩], .empty⟩ "en-US" .auto

/-- The tags of both entries are replaced, though not the one that an entry puts in, nor the one that
comes about behind the other; and a tag without an entry stays. -/
theorem expand_spliced_circular :
    let v := Variables.values .empty ""
    let text := "é<ref:00000000000000a1><ref:00000000000000b2>0000000000a1>"
    let stray := "<ref:00000000000000FF><ref:"
    (circular.expand v text).toUTF8 =
      "é<<ref:00000000000000a1>><ref:00000000000000a1>".toUTF8 ∧
    (∀ tag ∈ all "<ref:" stray, circular.get v tag.key = none) ∧
    circular.expand v stray = stray := by
  intro v text stray
  have tags : all "<ref:" text = [⟨2, 24, "00000000000000a1"⟩, ⟨24, 46, "00000000000000b2"⟩] := by
    decide +kernel
  have unmet : ∀ tag ∈ all "<ref:" stray, circular.get v tag.key = none := by decide +kernel
  obtain ⟨-, spliced, -⟩ := expand_spliced circular v text
  obtain ⟨-, -, unchanged⟩ := expand_spliced circular v stray
  refine ⟨?_, unmet, unchanged unmet⟩
  rw [spliced, tags]
  decide +kernel

end Phrasebook.Translator
