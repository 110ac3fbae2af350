import Phrasebook.Proofs.Catalog.Leaves

/-! Compilations of one catalog, one after another. Each compiles what is still raw in its languages, so
in the end it only counts which languages have been listed at all. -/
namespace Phrasebook

namespace Entry

lemma ext_contents {e e' : Entry} (hid : e.id = e'.id)
    (hcontents : ∀ l, e.contents.get? l = e'.contents.get? l) : e = e' := by
  have hsame : e.contents = e'.contents := Dict.ext_get? hcontents
  cases e
  cases e'
  simp_all

lemma id_foldl_compileIn (languages : List String) (e : Entry) :
    (languages.foldl compileIn e).id = e.id := by
  induction languages generalizing e with
  | nil => rfl
  | cons language rest ih => exact ih (e.compileIn language)

lemma keys_foldl_compileIn (languages : List String) (e : Entry) :
    (languages.foldl compileIn e).contents.keys = e.contents.keys := by
  induction languages generalizing e with
  | nil => rfl
  | cons language rest ih =>
    rw [List.foldl_cons, ih]
    exact Dict.keys_map _ e.contents

/-- Neither the order nor the repetitions of a list of languages count. -/
lemma foldl_compileIn_congr {languages languages' : List String}
    (h : ∀ l, l ∈ languages ↔ l ∈ languages') (e : Entry) :
    languages.foldl compileIn e = languages'.foldl compileIn e := by
  refine ext_contents ?_ fun l => ?_
  · rw [id_foldl_compileIn, id_foldl_compileIn]
  · simp only [Catalog.get?_foldl_compileIn, h]

end Entry

namespace Catalog
open Node

/-- One compilation for each list of languages. -/
def compileEach (c : Catalog) (calls : List (List String)) : Catalog := calls.foldl compileAll c

/-- The language occurs in one of the lists. -/
def IsListed (calls : List (List String)) (l : String) : Prop := ∃ languages ∈ calls, l ∈ languages

instance (calls : List (List String)) (l : String) : Decidable (IsListed calls l) :=
  inferInstanceAs (Decidable (∃ languages ∈ calls, l ∈ languages))

lemma isListed_iff {calls : List (List String)} {l : String} :
    IsListed calls l ↔ l ∈ calls.flatten :=
  List.mem_flatten.symm

lemma ext_entries {c c' : Catalog} (h : ∀ id, c.entries.get? id = c'.entries.get? id) :
    c = c' :=
  congrArg Catalog.mk (Dict.ext_get? h)

theorem get?_compileAll (c : Catalog) (languages : List String) (id : String) :
    (c.compileAll languages).entries.get? id =
      (c.entries.get? id).map (languages.foldl Entry.compileIn) :=
  Dict.get?_map _ c.entries id

/-- Compilations of a catalog come to one for all of their languages. -/
theorem compileEach_eq (c : Catalog) (calls : List (List String)) :
    c.compileEach calls = c.compileAll calls.flatten := by
  refine ext_entries fun id => ?_
  rw [get?_compileAll]
  induction calls generalizing c with
  | nil => exact Option.map_id'.symm
  | cons languages rest ih =>
    refine (ih (c.compileAll languages)).trans ?_
    rw [get?_compileAll, Option.map_map, List.flatten_cons]
    simp only [Function.comp_def, List.foldl_append]

lemma compileAll_congr {languages languages' : List String}
    (h : ∀ l, l ∈ languages ↔ l ∈ languages') (c : Catalog) :
    c.compileAll languages = c.compileAll languages' := by
  refine ext_entries fun id => ?_
  rw [get?_compileAll, get?_compileAll]
  exact congrArg (Option.map · _) (funext (Entry.foldl_compileIn_congr h))

lemma languagesOf_compileAll (c : Catalog) (languages : List String) (id : String) :
    (c.compileAll languages).languagesOf id = c.languagesOf id := by
  unfold languagesOf
  rw [get?_compileAll]
  cases c.entries.get? id with
  | none => rfl
  | some e => exact Entry.keys_foldl_compileIn languages e

/-- However often a catalog is compiled and for whatever languages, its entries keep their ids and their
languages. A text has been compiled once if its language was listed, and it is raw if not; so lists of
the same languages compile to the same, and what has been compiled stays as it is. -/
theorem compileEach_settles :
    (∀ (forest : List Node) (calls : List (List String)),
      let c := (ofForest forest).compileEach calls
      c.ids = (ofForest forest).ids ∧
      (∀ id, (c.entries.get? id).map Entry.id = ((ofForest forest).entries.get? id).map Entry.id) ∧
      (∀ id, c.languagesOf id = (ofForest forest).languagesOf id) ∧
      ∀ id l, c.content? id l = (authored? forest l id).map
        (if IsListed calls l then Content.compile else Content.fixed)) ∧
    (∀ (c : Catalog) (calls calls' : List (List String)),
      (∀ l, IsListed calls l ↔ IsListed calls' l) → c.compileEach calls = c.compileEach calls') ∧
    ∀ (c : Catalog) (calls more : List (List String)) (id l : String), IsListed calls l →
      (c.compileEach (calls ++ more)).content? id l = (c.compileEach calls).content? id l := by
  refine ⟨?_, ?_, ?_⟩
  · intro forest calls c
    have hc : c = (ofForest forest).compileAll calls.flatten := compileEach_eq _ calls
    rw [hc]
    refine ⟨ids_compileAll _ _, fun id => ?_, languagesOf_compileAll _ _, fun id l => ?_⟩
    · rw [get?_compileAll, Option.map_map]
      exact congrArg (Option.map · _) (funext (Entry.id_foldl_compileIn _))
    · by_cases hl : IsListed calls l
      · rw [content?_compiled (isListed_iff.1 hl), if_pos hl]
      · rw [content?_compileAll, if_neg (mt isListed_iff.2 hl), if_neg hl, content?_ofForest]
  · intro c calls calls' h
    rw [compileEach_eq, compileEach_eq]
    exact compileAll_congr (fun l => by rw [← isListed_iff, ← isListed_iff, h]) c
  · intro c calls more id l hl
    have hmore : l ∈ (calls ++ more).flatten := by
      rw [List.flatten_append]
      exact List.mem_append_left _ (isListed_iff.1 hl)
    rw [compileEach_eq, compileEach_eq, content?_compileAll, content?_compileAll,
      if_pos (isListed_iff.1 hl), if_pos hmore]

/-- A score that is written twice, the second time without German. -/
def scores : List Node :=
  [.entry "score" (.ofList [("de", "Stand: <global:00000000000000a1>"), ("en", "Score")]),
    .group [.entry "score" (.ofList
      [("en", "Score: <global:00000000000000a1>"), ("fr", "Points : <global:00000000000000a1>")]),
      .entry "quit" (.ofList [("en", "Quit")])]]

/-- Lists with a repetition, an unknown language, an empty one and an overlap. -/
theorem compileEach_settles_scores :
    let calls := [["en", "xx", "en"], [], ["de", "en"]]
    let calls' := [["de"], ["xx"], ["en"]]
    let raw := "Score: <global:00000000000000a1>"
    (∀ l, IsListed calls l ↔ IsListed calls' l) ∧
    (ofForest scores).compileEach calls = (ofForest scores).compileEach calls' ∧
    IsListed calls "en" ∧
    ((ofForest scores).compileEach (calls ++ [["en", "fr"]])).content? "score" "en" =
      some (.compile raw) ∧
    ((ofForest scores).compileEach calls).content? "score" "fr" =
      some (.fixed "Points : <global:00000000000000a1>") ∧
    ((ofForest scores).compileEach calls).content? "score" "de" = none := by
  intro calls calls' raw
  obtain ⟨settled, union, stays⟩ := compileEach_settles
  obtain ⟨-, -, -, content⟩ := settled scores calls
  have same : ∀ l, IsListed calls l ↔ IsListed calls' l := by
    intro l
    simp only [isListed_iff, calls, calls']
    grind
  have listed : IsListed calls "en" := by decide
  refine ⟨same, union _ calls calls' same, listed, ?_, ?_, ?_⟩
  · rw [stays _ calls [["en", "fr"]] "score" "en" listed, content, if_pos listed]
    decide +kernel
  · rw [content, if_neg (by decide)]
    decide +kernel
  · rw [content]
    decide +kernel

end Catalog
end Phrasebook
