import Phrasebook.Proofs.Tag.Simultaneous
import Phrasebook.Proofs.Translator.Expansion
import Phrasebook.Proofs.Translator.Switching

/-! The two passes over a text. Its variables are put in place when it is looked up and its entries when
it is expanded, so expansion meets the values of the variables as well and takes an entry tag in them for
one of the text. -/
namespace Phrasebook.Translator
open Tag

section Passes

variable {t : Translator} {v : Values Id} {id raw : String}

/-- The text of an id is its authored text after one pass for each kind of tag. -/
theorem text_eq_replaceAll (hget : t.get v id = some (replaceAll "<global:" v.textOf raw)) :
    t.text v id =
      some (replaceAll "<ref:" (t.tagText v) (replaceAll "<global:" v.textOf raw)) := by
  rw [text, hget, Option.map_some, expand_eq_replaceAll]
  rfl

/-- The passes come to one as long as no value brings or makes up the tag of an entry that has text. -/
theorem text_eq_replaceBoth (hget : t.get v id = some (replaceAll "<global:" v.textOf raw))
    (h : ∀ tag ∈ all "<ref:" (replaceAll "<global:" v.textOf raw),
      IsAuthored v.textOf raw tag ∨ t.get v tag.key = none) :
    t.text v id = some (replaceBoth v.textOf (t.tagText v) raw) := by
  rw [text_eq_replaceAll hget]
  refine congrArg some (replaceAll_replaceAll fun tag htag => ?_)
  rcases h tag htag with hown | hnone
  · exact .inl hown
  · exact .inr (by rw [tagText, hnone, Option.getD_none])

end Passes

/-- After any switches the text of an id is its authored text with the variables put in place first, the
values as they are, and then the entries, nothing that these put in being replaced again. An entry tag
that comes with a value, or comes about at its ends, is replaced like the others. If there is none such
with a text, each tag of the authored text is replaced where it stands, and nothing else is. -/
theorem text_switchAll {o : Offer} (ho : o.languages ≠ []) (forest : List Node) (locale : String)
    (r : Request) (switches : List (String × Request)) (v : Values Id) (id raw : String) :
    let t := (start forest o locale r).switchAll switches
    Node.authored? forest t.active.name id = some raw →
    t.text v id =
      some (replaceAll "<ref:" (t.tagText v) (replaceAll "<global:" v.textOf raw)) ∧
    ((∀ tag ∈ all "<ref:" (replaceAll "<global:" v.textOf raw),
      IsAuthored v.textOf raw tag ∨ t.get v tag.key = none) →
      t.text v id = some (replaceBoth v.textOf (t.tagText v) raw)) := by
  intro t hraw
  have hserves : Serves forest o t := (serves_start forest o locale r).switchAll switches
  have hget : t.get v id = some (replaceAll "<global:" v.textOf raw) := by
    rw [hserves.get_eq ho, hraw, Option.map_some]
  exact ⟨text_eq_replaceAll hget, text_eq_replaceBoth hget⟩

/-- A greeting for whatever a variable says, after the moon or before it. -/
def moonForest : List Node :=
  [.entry "0000000000000001" (.ofList
      [("en", "Hello <global:00000000000000a1>"),
        ("fr", "<ref:00000000000000b2> : <global:00000000000000a1>")]),
    .entry "00000000000000b2" (.ofList [("en", "moon"), ("fr", "lune")])]

/-- A value that is the tag of an unknown entry is left alone beside a tag that the text has itself. -/
theorem text_switchAll_moon :
    let o : Offer := ⟨[.named "en", .named "fr"], .empty⟩
    let v : Values Id := Values.ofDict (.ofList [("00000000000000a1", "<ref:00000000000000ff>")]) ""
    let raw := "<ref:00000000000000b2> : <global:00000000000000a1>"
    let t := (start moonForest o "en-US" .auto).switchAll [("en-US", .explicit "fr")]
    o.languages ≠ [] ∧
    Node.authored? moonForest t.active.name "0000000000000001" = some raw ∧
    (∀ tag ∈ all "<ref:" (replaceAll "<global:" v.textOf raw),
      IsAuthored v.textOf raw tag ∨ t.get v tag.key = none) ∧
    t.text v "0000000000000001" = some "lune : <ref:00000000000000ff>" := by
  intro o v raw t
  have configured : o.languages ≠ [] := List.cons_ne_nil _ _
  have authored : Node.authored? moonForest t.active.name "0000000000000001" = some raw := by
    decide +kernel
  have tags : all "<ref:" (replaceAll "<global:" v.textOf raw) =
      [⟨0, 22, "00000000000000b2"⟩, ⟨25, 47, "00000000000000ff"⟩] := by
    decide +kernel
  have inert : ∀ tag ∈ all "<ref:" (replaceAll "<global:" v.textOf raw),
      IsAuthored v.textOf raw tag ∨ t.get v tag.key = none := by
    rw [tags]
    simp only [List.mem_cons, List.not_mem_nil, or_false, forall_eq_or_imp, forall_eq]
    refine ⟨.inl ⟨"", " : <global:00000000000000a1>", ?_, ?_⟩, .inr ?_⟩ <;> decide +kernel
  obtain ⟨-, replaced⟩ := text_switchAll configured moonForest "en-US" .auto
    [("en-US", .explicit "fr")] v "0000000000000001" raw authored
  refine ⟨configured, authored, inert, ?_⟩
  rw [replaced inert]
  decide +kernel

/-- A value that is the tag of the moon is expanded, though the text has no entry tag. -/
theorem text_start_brought :
    let t := start moonForest ⟨[.named "en"], .empty⟩ "en-US" (.explicit "en")
    let v : Values Id := Values.ofDict (.ofList [("00000000000000a1", "<ref:00000000000000b2>")]) ""
    let raw := "Hello <global:00000000000000a1>"
    Node.authored? moonForest t.active.name "0000000000000001" = some raw ∧
    t.text v "0000000000000001" = some "Hello moon" ∧
    replaceBoth v.textOf (t.tagText v) raw = "Hello <ref:00000000000000b2>" := by
  decide +kernel

end Phrasebook.Translator
