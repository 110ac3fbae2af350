import Mathlib.Data.List.ProdSigma
import Phrasebook.Proofs.Catalog.Compilation
import Phrasebook.Proofs.Catalog.Flattening
import Phrasebook.Proofs.Translator.Switching

/-! Which texts are missing. The report walks over the ids in order and, for each, over a list of
languages; a reader looks up an id and then a language. Both find the same gaps, in every catalog of a
forest and however it has been compiled. -/
namespace Phrasebook

namespace Catalog
open Node

lemma languagesOf_of_get? {c : Catalog} {id : String} {e : Entry}
    (h : c.entries.get? id = some e) : c.languagesOf id = e.contents.keys := by
  rw [languagesOf, h]

/-- The languages of an id are those in which there is content to read. -/
lemma mem_languagesOf_iff (c : Catalog) (id l : String) :
    l ∈ c.languagesOf id ↔ (c.content? id l).isSome = true := by
  unfold languagesOf content?
  cases c.entries.get? id with
  | none => simp
  | some e => exact Dict.mem_keys_iff e.contents l

lemma contains_of_mem_languagesOf {c : Catalog} {id l : String} (h : l ∈ c.languagesOf id) :
    c.contains id = true := by
  rw [mem_languagesOf_iff, content?] at h
  exact Option.isSome_of_isSome_bind h

lemma languagesOf_increasing (c : Catalog) (id : String) :
    (c.languagesOf id).Pairwise (· < ·) := by
  unfold languagesOf
  cases c.entries.get? id with
  | none => exact .nil
  | some e => exact e.contents.increasing

/-- The walk goes through all pairs of an id and a language, in the order of both, and leaves out
those that have content. -/
theorem missing_eq (c : Catalog) (languages : List String) :
    c.missing languages =
      (c.ids.product languages).filter fun pair => pair.2 ∉ c.languagesOf pair.1 := by
  rw [missing, ids, Dict.keys, List.product, List.flatMap_map, List.filter_flatMap]
  refine List.flatMap_congr fun entry hentry => ?_
  obtain ⟨id, e⟩ := entry
  have hget : c.entries.get? id = some e :=
    (Dict.mem_iff_lookup c.entries.nodup_keys (id, e)).1 hentry
  rw [List.filter_map]
  refine congrArg (List.map (Prod.mk id)) (List.filter_congr fun l _ => ?_)
  simp only [Function.comp_apply, languagesOf_of_get? hget, Dict.mem_keys_iff, Dict.contains,
    decide_not, Bool.decide_eq_true]

theorem mem_missing_iff (c : Catalog) (languages : List String) (id l : String) :
    (id, l) ∈ c.missing languages ↔
      l ∈ languages ∧ c.contains id = true ∧ c.content? id l = none := by
  rw [missing_eq, List.mem_filter, List.pair_mem_product, ids, Dict.mem_keys_iff,
    decide_eq_true_iff, mem_languagesOf_iff, Option.not_isSome_iff_eq_none]
  constructor
  · rintro ⟨⟨hid, hl⟩, hnone⟩
    exact ⟨hl, hid, hnone⟩
  · rintro ⟨hl, hid, hnone⟩
    exact ⟨⟨hid, hl⟩, hnone⟩

/-- However a catalog is compiled, the languages of an id are those of its last leaf. -/
theorem mem_languagesOf_compileEach (forest : List Node) (calls : List (List String))
    (id l : String) :
    l ∈ ((ofForest forest).compileEach calls).languagesOf id ↔
      ∃ texts, IsLast (leavesAll forest) id texts ∧ (texts.get? l).isSome = true := by
  rw [compileEach_eq, languagesOf_compileAll, mem_languagesOf_iff, content?_ofForest,
    Option.isSome_map, authored?, Option.isSome_bind]
  cases hlast : (leavesAll forest).reverse.lookup id with
  | none => simp [isLast_iff, hlast]
  | some texts => simp [isLast_iff, hlast]

end Catalog

namespace Translator
open Node

theorem getIn_eq_none_iff (t : Translator) (v : Values Id) (id l : String) :
    t.getIn v id l = none ↔ t.catalog.content? id l = none :=
  Option.map_eq_none_iff

/-- A text is read as none if its id is unknown or if it is one of the missing ones. -/
theorem getIn_eq_none_iff_missing (t : Translator) (v : Values Id) {languages : List String}
    {l : String} (hl : l ∈ languages) (id : String) :
    t.getIn v id l = none ↔
      t.catalog.contains id = false ∨ (id, l) ∈ t.catalog.missing languages := by
  rw [getIn_eq_none_iff, Catalog.mem_missing_iff]
  constructor
  · intro hnone
    cases hid : t.catalog.contains id with
    | false => exact .inl rfl
    | true => exact .inr ⟨hl, rfl, hnone⟩
  · rintro (hid | ⟨-, -, hnone⟩)
    · rw [← Option.not_isSome_iff_eq_none, ← Catalog.mem_languagesOf_iff]
      intro hmem
      rw [Catalog.contains_of_mem_languagesOf hmem] at hid
      cases hid
    · exact hnone

/-- A translator keeps the catalog it was started with, compiled once. -/
theorem catalog_switchAll (forest : List Node) (o : Offer) (locale : String) (r : Request)
    (switches : List (String × Request)) :
    ((start forest o locale r).switchAll switches).catalog =
      (Catalog.ofForest forest).compileEach [o.languages.map Language.name] :=
  ((serves_start forest o locale r).switchAll switches).catalog

/-- The report on a catalog lists, id by id and in the order of the languages asked for, the languages
that the last leaf with the id is without, before and after any compilations. Over such a catalog, as a
translator holds one after any switches, a text is reported if and only if its id exists and nothing is
read for it; and an id reads as nothing in the active language if and only if it is unknown or reported. -/
theorem missing_iff_unread (forest : List Node) (calls : List (List String)) :
    let c := (Catalog.ofForest forest).compileEach calls
    (∀ languages, c.missing languages =
      (c.ids.product languages).filter fun pair => pair.2 ∉ c.languagesOf pair.1) ∧
    c.ids.Pairwise (fun a b => Text.bytes a < Text.bytes b) ∧
    (∀ id, id ∈ c.ids ↔ id ∈ (leavesAll forest).map Prod.fst) ∧
    (∀ id, (c.languagesOf id).Pairwise (fun a b => Text.bytes a < Text.bytes b)) ∧
    (∀ id l, l ∈ c.languagesOf id ↔
      ∃ texts, IsLast (leavesAll forest) id texts ∧ (texts.get? l).isSome = true) ∧
    (∀ o locale r switches, calls = [o.languages.map Language.name] →
      ((start forest o locale r).switchAll switches).catalog = c) ∧
    ∀ (t : Translator) (v : Values Id), t.catalog = c →
      (∀ languages id l, (id, l) ∈ c.missing languages ↔
        l ∈ languages ∧ c.contains id = true ∧ t.getIn v id l = none) ∧
      ∀ languages id, t.active.name ∈ languages →
        (t.get v id = none ↔ c.contains id = false ∨ (id, t.active.name) ∈ c.missing languages) := by
  intro c
  refine ⟨c.missing_eq, c.entries.increasing.imp Text.bytes_lt_bytes, fun id => ?_, fun id => ?_,
    Catalog.mem_languagesOf_compileEach forest calls, ?_, ?_⟩
  · rw [show c.ids = _ from congrArg Catalog.ids (Catalog.compileEach_eq _ calls),
      Catalog.ids_compileAll, Catalog.mem_ids_ofForest]
  · exact (c.languagesOf_increasing id).imp Text.bytes_lt_bytes
  · rintro o locale r switches rfl
    exact catalog_switchAll forest o locale r switches
  · intro t v hcatalog
    rw [← hcatalog]
    refine ⟨fun languages id l => ?_, fun languages id hactive => ?_⟩
    · rw [Catalog.mem_missing_iff, getIn_eq_none_iff]
    · exact t.getIn_eq_none_iff_missing v hactive id

/-- A greeting that is written again without its French, and a language that is asked for twice. -/
theorem missing_iff_unread_regreeted :
    let o : Offer := ⟨[.named "en", .named "fr"], .empty⟩
    let calls := [o.languages.map Language.name]
    let c := (Catalog.ofForest Catalog.regreeted).compileEach calls
    let t := (start Catalog.regreeted o "en-GB" (.explicit "en")).switchAll [("en-GB", .explicit "fr")]
    let v : Values Id := Values.ofDict .empty ""
    t.catalog = c ∧ t.active.name ∈ ["fr", "en", "fr"] ∧
    c.missing ["fr", "en", "fr"] = [("bye", "fr"), ("bye", "fr"), ("hi", "fr"), ("hi", "fr")] ∧
    t.getIn v "hi" "fr" = none ∧ t.get v "bye" = none ∧ t.get v "nobody" = none := by
  intro o calls c t v
  obtain ⟨report, -, -, -, -, built, agree⟩ := missing_iff_unread Catalog.regreeted calls
  have same : t.catalog = c := built o "en-GB" (.explicit "en") [("en-GB", .explicit "fr")] rfl
  have asked : t.active.name ∈ ["fr", "en", "fr"] := by decide +kernel
  have listed : c.missing ["fr", "en", "fr"] =
      [("bye", "fr"), ("bye", "fr"), ("hi", "fr"), ("hi", "fr")] := by
    rw [report]
    decide +kernel
  obtain ⟨reported, unread⟩ := agree t v same
  have french : (("hi", "fr") : String × String) ∈ c.missing ["fr", "en", "fr"] := by
    rw [listed]
    decide
  refine ⟨same, asked, listed, ((reported _ "hi" "fr").1 french).2.2, ?_, ?_⟩
  · exact (unread _ "bye" asked).2 (.inr (by rw [listed]; decide +kernel))
  · exact (unread _ "nobody" asked).2 (.inl (by decide +kernel))

end Translator
end Phrasebook
