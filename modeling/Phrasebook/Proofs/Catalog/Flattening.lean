import Mathlib.Data.Finset.Card
import Phrasebook.Proofs.Catalog.Leaves
import Phrasebook.Proofs.Text.Order

/-! A catalog is its forest with the groups forgotten: the leaves alone count, in their order, and the
last one with an id is the entry of that id. -/
namespace Phrasebook

namespace Node

/-- The texts of the last leaf with an id. -/
def IsLast (leaves : List (String × Dict String)) (id : String) (texts : Dict String) : Prop :=
  ∃ before after, leaves = before ++ (id, texts) :: after ∧ ∀ leaf ∈ after, leaf.1 ≠ id

lemma isLast_iff {leaves : List (String × Dict String)} {id : String} {texts : Dict String} :
    IsLast leaves id texts ↔ leaves.reverse.lookup id = some texts := by
  rw [List.lookup_eq_some_iff]
  constructor
  · rintro ⟨before, after, rfl, hafter⟩
    refine ⟨after.reverse, before.reverse, by simp, fun leaf hleaf => ?_⟩
    exact bne_iff_ne.2 (hafter leaf (List.mem_reverse.1 hleaf)).symm
  · rintro ⟨after, before, hleaves, hafter⟩
    refine ⟨before.reverse, after.reverse, ?_, fun leaf hleaf => ?_⟩
    · rw [← leaves.reverse_reverse, hleaves]
      simp
    · exact (bne_iff_ne.1 (hafter leaf (List.mem_reverse.1 hleaf))).symm

lemma leavesAll_append (f g : List Node) : leavesAll (f ++ g) = leavesAll f ++ leavesAll g := by
  induction f with
  | nil => rfl
  | cons node rest ih => rw [List.cons_append, leavesAll, leavesAll, ih, List.append_assoc]

end Node

namespace Catalog
open Node

lemma ofForest_congr {f g : List Node} (h : leavesAll f = leavesAll g) :
    ofForest f = ofForest g := by
  have hentries : (ofForest f).entries = (ofForest g).entries := by
    rw [ofForest, ofForest, entries_addAll, entries_addAll, h]
  exact congrArg Catalog.mk hentries

/-- An entry of the second forest stands in the place of one of the first. -/
theorem get?_ofForest_append (f g : List Node) (id : String) :
    (ofForest (f ++ g)).entries.get? id =
      ((ofForest g).entries.get? id).or ((ofForest f).entries.get? id) := by
  rw [get?_ofForest, get?_ofForest, get?_ofForest, leavesAll_append, List.reverse_append,
    List.lookup_append, Option.map_or]

theorem get?_ofForest_eq_some_iff (forest : List Node) (id : String) (e : Entry) :
    (ofForest forest).entries.get? id = some e ↔
      ∃ texts, IsLast (leavesAll forest) id texts ∧ e.id = id ∧
        ∀ l, e.contents.get? l = (texts.get? l).map Content.fixed := by
  rw [get?_ofForest, Option.map_eq_some_iff]
  constructor
  · rintro ⟨texts, hlast, rfl⟩
    exact ⟨texts, isLast_iff.2 hlast, rfl, Dict.get?_map _ texts⟩
  · rintro ⟨texts, hlast, rfl, hcontents⟩
    have hsame : texts.map (fun _ raw => Content.fixed raw) = e.contents := by
      refine Dict.ext_get? fun l => ?_
      rw [Dict.get?_map, hcontents]
    exact ⟨texts, isLast_iff.1 hlast, by rw [entryOf, hsame]⟩

theorem contains_ofForest (forest : List Node) (id : String) :
    (ofForest forest).contains id = true ↔ id ∈ (leavesAll forest).map Prod.fst := by
  rw [← mem_ids_ofForest, ids, Dict.mem_keys_iff]
  rfl

theorem size_ofForest (forest : List Node) :
    (ofForest forest).size = ((leavesAll forest).map Prod.fst).toFinset.card := by
  have hids : ((leavesAll forest).map Prod.fst).toFinset = (ofForest forest).ids.toFinset := by
    ext id
    rw [List.mem_toFinset, List.mem_toFinset, mem_ids_ofForest]
  have hnodup : (ofForest forest).ids.Nodup := (ofForest forest).entries.nodup_keys
  rw [hids, List.toFinset_card_of_nodup hnodup]
  exact (List.length_map _).symm

/-- The catalog of a forest holds the last leaf with each id, with its own texts and no others, under
ids that increase by their bytes. What counts of a forest is its leaves in order, and of two forests
side by side the second one goes first. -/
theorem ofForest_flattened :
    (∀ forest : List Node,
      (∀ id, (ofForest forest).contains id = true ↔ id ∈ (leavesAll forest).map Prod.fst) ∧
      (∀ id e, (ofForest forest).entries.get? id = some e ↔
        ∃ texts, IsLast (leavesAll forest) id texts ∧ e.id = id ∧
          ∀ l, e.contents.get? l = (texts.get? l).map Content.fixed) ∧
      (∀ id, id ∈ (ofForest forest).ids ↔ (ofForest forest).contains id = true) ∧
      (ofForest forest).ids.Pairwise (fun a b => Text.bytes a < Text.bytes b) ∧
      (ofForest forest).size = ((leavesAll forest).map Prod.fst).toFinset.card) ∧
    (∀ f g, leavesAll f = leavesAll g → ofForest f = ofForest g) ∧
    ∀ f g id, (ofForest (f ++ g)).entries.get? id =
      ((ofForest g).entries.get? id).or ((ofForest f).entries.get? id) := by
  refine ⟨fun forest => ⟨?_, ?_, ?_, ?_, ?_⟩, fun f g => ofForest_congr, get?_ofForest_append⟩
  · exact contains_ofForest forest
  · exact get?_ofForest_eq_some_iff forest
  · exact fun id => Dict.mem_keys_iff _ id
  · exact (ofForest forest).entries.increasing.imp Text.bytes_lt_bytes
  · exact size_ofForest forest

/-- A greeting that is written twice, the second time in a group of its own and without French. -/
def regreeted : List Node :=
  [.group [.entry "hi" (.ofList [("en", "Hi"), ("fr", "Salut")]), .group []],
    .group [.group [.entry "hi" (.ofList [("en", "Hey")])], .entry "bye" (.ofList [("en", "Bye")])]]

/-- The same leaves under other groups. -/
def regrouped : List Node :=
  [.entry "hi" (.ofList [("en", "Hi"), ("fr", "Salut")]), .group [],
    .group [.entry "hi" (.ofList [("en", "Hey")]), .group [.entry "bye" (.ofList [("en", "Bye")])]]]

theorem ofForest_flattened_regrouped :
    leavesAll regreeted = leavesAll regrouped ∧ ofForest regreeted = ofForest regrouped := by
  have same : leavesAll regreeted = leavesAll regrouped := by decide +kernel
  exact ⟨same, ofForest_flattened.2.1 regreeted regrouped same⟩

end Catalog
end Phrasebook
