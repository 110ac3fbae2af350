import Phrasebook.Proofs.Catalog.Leaves
import Phrasebook.Proofs.Negotiation
import Phrasebook.Translator

/-! The read path from the authored texts: the variables of a text are replaced when it is looked up,
its entries when it is expanded. -/
namespace Phrasebook.Translator
open Tag

section Compiled

variable {t : Translator} {forest : List Node} {languages : List String}
  (hcatalog : t.catalog = (Catalog.ofForest forest).compileAll languages)
include hcatalog

theorem getIn_of_listed {language : String} (hlanguage : language ∈ languages) (v : Values Id)
    (id : String) : t.getIn v id language =
      (Node.authored? forest language id).map (replaceAll "<global:" v.textOf) := by
  have hread : Content.read v ∘ Content.compile = replaceAll "<global:" v.textOf := by
    funext raw
    exact Content.read_compile v raw
  rw [getIn, hcatalog, Catalog.content?_compiled hlanguage, Option.map_map, hread]

theorem getIn_of_unlisted {language : String} (hlanguage : language ∉ languages) (v : Values Id)
    (id : String) : t.getIn v id language = Node.authored? forest language id := by
  rw [getIn, hcatalog, Catalog.content?_compileAll, if_neg hlanguage, Catalog.content?_ofForest,
    Option.map_map]
  exact Option.map_id'

end Compiled

/-- The active language is a compiled one whenever there is a language at all. -/
theorem get_start {o : Offer} (ho : o.languages ≠ []) (forest : List Node) (locale : String)
    (r : Request) (v : Values Id) (id : String) :
    (start forest o locale r).get v id =
      (Node.authored? forest (o.choose locale r).name id).map (replaceAll "<global:" v.textOf) :=
  getIn_of_listed rfl (List.mem_map_of_mem (Offer.choose_mem ho locale r)) v id

theorem expand_eq_replaceAll (t : Translator) (v : Values Id) (text : String) :
    t.expand v text =
      replaceAll "<ref:" (fun key => (t.get v key).getD ("<ref:" ++ key ++ ">")) text := by
  have hpiece : t.expandPiece v = Piece.filled fun key =>
      ((t.get v (String.ofList key)).getD ("<ref:" ++ String.ofList key ++ ">")).toList := by
    funext p
    cases p with
    | plain text => rfl
    | tag key =>
      simp only [expandPiece, Piece.filled]
      cases t.get v (String.ofList key) with
      | some text => rfl
      | none =>
        simp only [Option.getD_none, String.toList_append, String.toList_ofList]
        rfl
  rw [expand, hpiece, flatMap_pieces _ startsAscii_entryOpener]
  rfl

end Phrasebook.Translator
