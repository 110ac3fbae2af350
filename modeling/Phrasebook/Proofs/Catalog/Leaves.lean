import Phrasebook.Catalog
import Phrasebook.Proofs.Dict
import Phrasebook.Proofs.Template

/-! The catalog as a view of its forest: a text is that of the last leaf with its id, cut or not. -/
namespace Phrasebook
namespace Node

mutual

/-- The ids and texts of the entries below a node, depth first. -/
def leaves : Node → List (String × Dict String)
  | .group children => leavesAll children
  | .entry id texts => [(id, texts)]

def leavesAll : List Node → List (String × Dict String)
  | [] => []
  | node :: rest => leaves node ++ leavesAll rest

end

/-- The text of an id as it is written: the last leaf with the id counts, and none before it, even
where that leaf is without a text. -/
def authored? (forest : List Node) (language id : String) : Option String :=
  ((leavesAll forest).reverse.lookup id).bind fun texts => texts.get? language

end Node

namespace Catalog
open Node

/-- The entry of a leaf before its texts are compiled. -/
def entryOf (id : String) (texts : Dict String) : Entry := ⟨id, texts.map fun _ raw => .fixed raw⟩

mutual

lemma entries_add : (node : Node) → (c : Catalog) → (c.add node).entries =
    (leaves node).foldl (fun d e => d.insert e.1 (entryOf e.1 e.2)) c.entries
  | .group children, c => by
    rw [add, leaves]
    exact entries_addAll children c
  | .entry id texts, c => by
    rw [add, leaves]
    rfl

lemma entries_addAll : (nodes : List Node) → (c : Catalog) → (c.addAll nodes).entries =
    (leavesAll nodes).foldl (fun d e => d.insert e.1 (entryOf e.1 e.2)) c.entries
  | [], c => by
    rw [addAll, leavesAll]
    rfl
  | node :: rest, c => by
    rw [addAll, leavesAll, List.foldl_append, ← entries_add node c]
    exact entries_addAll rest (c.add node)

end

theorem get?_ofForest (forest : List Node) (id : String) :
    (ofForest forest).entries.get? id =
      ((leavesAll forest).reverse.lookup id).map (entryOf id) := by
  rw [ofForest, entries_addAll, Dict.get?_foldl_insert]
  exact Option.or_none

/-- The ids of a catalog are those of the leaves. -/
theorem mem_ids_ofForest (forest : List Node) (id : String) :
    id ∈ (ofForest forest).ids ↔ id ∈ (leavesAll forest).map Prod.fst := by
  rw [ids, Dict.mem_keys_iff, get?_ofForest, Option.isSome_map, List.lookup_isSome_iff,
    List.mem_map]
  simp only [List.mem_reverse, beq_iff_eq]
  constructor
  · rintro ⟨e, he, rfl⟩
    exact ⟨e, he, rfl⟩
  · rintro ⟨e, he, rfl⟩
    exact ⟨e, he, rfl⟩

theorem ids_compileAll (c : Catalog) (languages : List String) :
    (c.compileAll languages).ids = c.ids :=
  Dict.keys_map _ c.entries

theorem content?_ofForest (forest : List Node) (id language : String) :
    (ofForest forest).content? id language =
      (authored? forest language id).map Content.fixed := by
  unfold content? authored?
  rw [get?_ofForest]
  cases (leavesAll forest).reverse.lookup id with
  | none => rfl
  | some texts => exact Dict.get?_map _ texts language

lemma get?_compileIn (e : Entry) (language l : String) :
    (e.compileIn language).contents.get? l =
      if l = language then (e.contents.get? l).map Content.compiled else e.contents.get? l :=
  Dict.get?_modify e.contents language l Content.compiled

/-- A text is compiled if its language is listed, and only once. -/
lemma get?_foldl_compileIn (languages : List String) (e : Entry) (l : String) :
    (languages.foldl Entry.compileIn e).contents.get? l =
      if l ∈ languages then (e.contents.get? l).map Content.compiled else e.contents.get? l := by
  induction languages generalizing e with
  | nil => simp
  | cons language rest ih =>
    rw [List.foldl_cons, ih, get?_compileIn]
    by_cases hl : l = language
    · subst hl
      cases e.contents.get? l with
      | none => simp
      | some content => simp
    · simp [hl]

theorem content?_compileAll (c : Catalog) (languages : List String) (id l : String) :
    (c.compileAll languages).content? id l =
      if l ∈ languages then (c.content? id l).map Content.compiled else c.content? id l := by
  simp only [content?, compileAll, Dict.get?_map]
  cases c.entries.get? id with
  | none => simp
  | some e => exact get?_foldl_compileIn languages e l

/-- In a compiled language each text is what its authored one compiles to. -/
theorem content?_compiled {forest : List Node} {languages : List String} {l : String}
    (hl : l ∈ languages) (id : String) :
    ((ofForest forest).compileAll languages).content? id l =
      (authored? forest l id).map Content.compile := by
  rw [content?_compileAll, if_pos hl, content?_ofForest, Option.map_map]
  rfl

end Catalog
end Phrasebook
