import Mathlib.Data.List.Forall2
import Phrasebook.Catalog.Source
import Phrasebook.Proofs.Dict

/-! What a phrasebook has to look like. A value spells at most one node: a group if the items under its
one `children` all spell nodes, and else an entry if its id and its texts are in order. -/
namespace Phrasebook
namespace Json

lemma fieldsNamed_cons (name : String) (e : String × Json) (fields : List (String × Json)) :
    fieldsNamed name (e :: fields) =
      if e.1 = name then e.2 :: fieldsNamed name fields else fieldsNamed name fields := by
  unfold fieldsNamed
  by_cases h : e.1 = name
  · rw [List.filter_cons_of_pos (by simpa using h), if_pos h]
    rfl
  · rw [List.filter_cons_of_neg (by simpa using h), if_neg h]

lemma getLast?_fieldsNamed (name : String) (fields : List (String × Json)) :
    (fieldsNamed name fields).getLast? = fields.reverse.lookup name := by
  induction fields with
  | nil => rfl
  | cons e rest ih =>
    obtain ⟨key, v⟩ := e
    rw [fieldsNamed_cons, List.reverse_cons, List.lookup_append, ← ih]
    by_cases h : key = name
    · subst h
      rw [if_pos rfl, List.getLast?_cons, List.lookup_cons_self]
      cases (fieldsNamed key rest).getLast? <;> rfl
    · rw [if_neg h, List.lookup_cons, beq_eq_false_iff_ne.2 (Ne.symm h)]
      simp

end Json

namespace Node
open Json

section Judgement

/-- Fields that are all texts, of which the last one under a language counts. -/
structure HoldsTexts (fields : List (String × Json)) (texts : Dict String) : Prop where
  isText : ∀ e ∈ fields, ∃ text, e.2 = .string text
  last : ∀ language, (fieldsNamed language fields).getLast? = (texts.get? language).map .string

/-- An entry has one id and one object of texts, whatever else stands beside them. -/
structure IsEntry (fields : List (String × Json)) (id : String) (texts : Dict String) : Prop where
  id_once : fieldsNamed "id" fields = [.string id]
  contents_once : ∃ contents, fieldsNamed "contents" fields = [.object contents] ∧
    HoldsTexts contents texts

/-- What spells no node: neither a group, for want of items or because of one of them, nor an entry. -/
inductive Unfit : Json → Prop
  | scalar {v} (h : ∀ fields, v ≠ .object fields) : Unfit v
  | shapeless {fields} (hgroup : ∀ items, fieldsNamed "children" fields ≠ [.array items])
      (hentry : ∀ id texts, ¬ IsEntry fields id texts) : Unfit (.object fields)
  | spoiled {fields items item} (hchildren : fieldsNamed "children" fields = [.array items])
      (hitem : item ∈ items) (h : Unfit item)
      (hentry : ∀ id texts, ¬ IsEntry fields id texts) : Unfit (.object fields)

/-- What spells which node. An entry is not a group, but one of its items may have kept it from being
one. -/
inductive Fits : Json → Node → Prop
  | group {fields items children} (hchildren : fieldsNamed "children" fields = [.array items])
      (h : List.Forall₂ Fits items children) : Fits (.object fields) (.group children)
  | entry {fields id texts} (hgroup : ∀ items, fieldsNamed "children" fields = [.array items] →
      ∃ item ∈ items, Unfit item) (h : IsEntry fields id texts) :
      Fits (.object fields) (.entry id texts)

end Judgement

section Texts

variable {fields : List (String × Json)} {texts : Dict String}

/-- The fields that spell texts. -/
def spelled (l : List (String × String)) : List (String × Json) := l.map fun e => (e.1, .string e.2)

lemma textField?_eq_some_iff {e : String × Json} {e' : String × String} :
    textField? e = some e' ↔ e = (e'.1, .string e'.2) := by
  obtain ⟨key, v⟩ := e
  obtain ⟨key', text⟩ := e'
  cases v <;> simp [textField?]

lemma mapM_textField?_eq_some_iff {l : List (String × String)} :
    fields.mapM textField? = some l ↔ fields = spelled l := by
  induction fields generalizing l with
  | nil => cases l <;> simp [spelled]
  | cons e rest ih =>
    rw [List.mapM_cons]
    simp only [bind, Option.bind_eq_some_iff, pure, Option.some.injEq, textField?_eq_some_iff, ih]
    cases l with
    | nil => simp [spelled]
    | cons e' l => simp [spelled]

lemma filterMap_spelled (l : List (String × String)) : (spelled l).filterMap textField? = l := by
  rw [spelled, List.filterMap_map]
  exact List.filterMap_some

lemma exists_spelled_iff : (∀ e ∈ fields, ∃ text, e.2 = .string text) ↔ ∃ l, fields = spelled l := by
  constructor
  · intro h
    induction fields with
    | nil => exact ⟨[], rfl⟩
    | cons e rest ih =>
      obtain ⟨text, htext⟩ := h e (List.mem_cons_self ..)
      obtain ⟨l, hl⟩ := ih fun e he => h e (List.mem_cons_of_mem _ he)
      refine ⟨(e.1, text) :: l, ?_⟩
      rw [hl, spelled, spelled, List.map_cons, ← htext]
  · rintro ⟨l, rfl⟩ e he
    obtain ⟨e', -, rfl⟩ := List.mem_map.1 he
    exact ⟨e'.2, rfl⟩

lemma getLast?_fieldsNamed_spelled (name : String) (l : List (String × String)) :
    (fieldsNamed name (spelled l)).getLast? = ((Dict.ofList l).get? name).map .string := by
  rw [getLast?_fieldsNamed, spelled, ← List.map_reverse,
    Dict.lookup_map_value fun _ text => Json.string text, Dict.ofList,
    Dict.get?_foldl_insert fun _ text => text]
  simp

lemma texts?_eq_some_iff :
    texts? (.object fields) = some texts ↔ HoldsTexts fields texts := by
  have hinjective : Function.Injective (Option.map Json.string) :=
    Option.map_injective fun _ _ h => Json.string.inj h
  rw [texts?, Option.map_eq_some_iff]
  constructor
  · rintro ⟨l, hl, rfl⟩
    rw [mapM_textField?_eq_some_iff] at hl
    exact ⟨exists_spelled_iff.2 ⟨l, hl⟩, fun name => hl ▸ getLast?_fieldsNamed_spelled name l⟩
  · intro h
    obtain ⟨l, rfl⟩ := exists_spelled_iff.1 h.isText
    refine ⟨l, mapM_textField?_eq_some_iff.2 rfl, Dict.ext_get? fun name => hinjective ?_⟩
    rw [← getLast?_fieldsNamed_spelled, h.last]

lemma entry?_eq_some_iff {n : Node} :
    entry? fields = some n ↔ ∃ id texts, n = .entry id texts ∧ IsEntry fields id texts := by
  unfold entry?
  constructor
  · intro h
    split at h
    · rename_i id contents hid hcontents
      obtain ⟨texts, htexts, rfl⟩ := Option.map_eq_some_iff.1 h
      cases contents with
      | object contents => exact ⟨id, texts, rfl, hid, contents, hcontents, texts?_eq_some_iff.1 htexts⟩
      | _ => cases htexts
    · cases h
  · rintro ⟨id, texts, rfl, hid, contents, hcontents, htexts⟩
    rw [hid, hcontents]
    simp only [texts?_eq_some_iff.2 htexts, Option.map_some]

lemma entry?_eq_none_iff : entry? fields = none ↔ ∀ id texts, ¬ IsEntry fields id texts := by
  rw [Option.eq_none_iff_forall_ne_some]
  constructor
  · intro h id texts hentry
    exact h _ (entry?_eq_some_iff.2 ⟨id, texts, rfl, hentry⟩)
  · intro h n hn
    obtain ⟨id, texts, -, hentry⟩ := entry?_eq_some_iff.1 hn
    exact h id texts hentry

end Texts

section Decoding

variable {fields : List (String × Json)} {items : List Json} {item : Json}

/-- What the value of a field `children` spells. -/
def childList? : Json → Option (List Node)
  | .array items => allOfJson? items
  | _ => none

lemma childLists_eq (fields : List (String × Json)) :
    childLists fields = (fieldsNamed "children" fields).map childList? := by
  induction fields with
  | nil => rw [childLists]; rfl
  | cons e rest ih =>
    obtain ⟨key, v⟩ := e
    rw [fieldsNamed_cons]
    by_cases hkey : key = "children"
    · cases v <;> simp [childLists, childList?, hkey, ih]
    · cases v <;> simp [childLists, hkey, ih]

lemma ofJson?_of_group {children : List Node} (h : fieldsNamed "children" fields = [.array items])
    (hall : allOfJson? items = some children) :
    ofJson? (.object fields) = some (.group children) := by
  rw [ofJson?, childLists_eq, h, List.map_singleton, childList?, hall]

/-- A value that is not a group is an entry, if anything. -/
lemma ofJson?_of_no_group
    (h : ∀ items, fieldsNamed "children" fields = [.array items] → allOfJson? items = none) :
    ofJson? (.object fields) = entry? fields := by
  rw [ofJson?, childLists_eq]
  split
  · rename_i children hlists
    obtain ⟨v, hv, hitems⟩ := List.map_eq_singleton_iff.1 hlists
    cases v with
    | array items =>
      have hnone := h items hv
      rw [childList?, hnone] at hitems
      cases hitems
    | _ => cases hitems
  · rfl

theorem allOfJson?_eq_some_iff {nodes : List Node} :
    allOfJson? items = some nodes ↔ List.Forall₂ (fun item n => ofJson? item = some n) items nodes := by
  induction items generalizing nodes with
  | nil =>
    rw [allOfJson?, List.forall₂_nil_left_iff]
    simp [eq_comm]
  | cons item rest ih =>
    rw [allOfJson?, List.forall₂_cons_left_iff]
    simp only [← ih]
    cases ofJson? item <;> cases allOfJson? rest <;> simp [eq_comm]

lemma allOfJson?_eq_none_iff : allOfJson? items = none ↔ ∃ item ∈ items, ofJson? item = none := by
  induction items with
  | nil => simp [allOfJson?]
  | cons item rest ih =>
    rw [List.exists_mem_cons_iff, ← ih, allOfJson?]
    cases ofJson? item <;> cases allOfJson? rest <;> simp

lemma sizeOf_lt_of_children {name : String} (h : fieldsNamed name fields = [.array items])
    (hitem : item ∈ items) : sizeOf item < sizeOf (Json.object fields) := by
  have hfield : Json.array items ∈ fieldsNamed name fields := h ▸ List.mem_singleton_self _
  obtain ⟨e, he, hvalue⟩ := List.mem_map.1 hfield
  have hsize := List.sizeOf_lt_of_mem (List.mem_of_mem_filter he)
  have hsizeItem := List.sizeOf_lt_of_mem hitem
  obtain ⟨key, v⟩ := e
  cases hvalue
  simp only [Json.object.sizeOf_spec, Json.array.sizeOf_spec, Prod.mk.sizeOf_spec] at hsize ⊢
  omega

lemma none_of_children (hchildren : fieldsNamed "children" fields = [.array items])
    (hnone : allOfJson? items = none) :
    ∀ items, fieldsNamed "children" fields = [.array items] → allOfJson? items = none := by
  intro items' hchildren'
  rw [hchildren] at hchildren'
  cases hchildren'
  exact hnone

lemma ofJson?_of_unfit {v : Json} (h : Unfit v) : ofJson? v = none := by
  induction h with
  | @scalar v h =>
    cases v with
    | object fields => exact absurd rfl (h fields)
    | _ => rw [ofJson?]; intro fields; simp
  | shapeless hgroup hentry =>
    rw [ofJson?_of_no_group fun items hchildren => absurd hchildren (hgroup items)]
    exact entry?_eq_none_iff.2 hentry
  | @spoiled fields items item hchildren hitem _ hentry ih =>
    have hnone := allOfJson?_eq_none_iff.2 ⟨item, hitem, ih⟩
    rw [ofJson?_of_no_group (none_of_children hchildren hnone)]
    exact entry?_eq_none_iff.2 hentry

lemma unfit_of_ofJson? : (v : Json) → ofJson? v = none → Unfit v
  | .null, _ | .bool _, _ | .int _, _ | .float _, _ | .string _, _ | .array _, _ =>
    .scalar fun _ heq => by cases heq
  | .object fields, h => by
    by_cases hgroup : ∃ items, fieldsNamed "children" fields = [.array items]
    · obtain ⟨items, hchildren⟩ := hgroup
      cases hall : allOfJson? items with
      | some children =>
        rw [ofJson?_of_group hchildren hall] at h
        cases h
      | none =>
        rw [ofJson?_of_no_group (none_of_children hchildren hall)] at h
        obtain ⟨item, hitem, hnone⟩ := allOfJson?_eq_none_iff.1 hall
        exact .spoiled hchildren hitem (unfit_of_ofJson? item hnone) (entry?_eq_none_iff.1 h)
    · rw [not_exists] at hgroup
      rw [ofJson?_of_no_group fun items hchildren => absurd hchildren (hgroup items)] at h
      exact .shapeless hgroup (entry?_eq_none_iff.1 h)
termination_by v => sizeOf v
decreasing_by exact sizeOf_lt_of_children hchildren hitem

theorem ofJson?_eq_none_iff {v : Json} : ofJson? v = none ↔ Unfit v :=
  ⟨unfit_of_ofJson? v, ofJson?_of_unfit⟩

theorem allOfJson?_eq_none_iff_unfit : allOfJson? items = none ↔ ∃ item ∈ items, Unfit item := by
  simp only [allOfJson?_eq_none_iff, ofJson?_eq_none_iff]

section Exactness

variable {n : Node} (hitems : ∀ items, fieldsNamed "children" fields = [.array items] →
  ∀ item ∈ items, ∀ n, ofJson? item = some n ↔ Fits item n)
include hitems

lemma fits_of_ofJson?_object (h : ofJson? (.object fields) = some n) : Fits (.object fields) n := by
  by_cases hgroup : ∃ items children, fieldsNamed "children" fields = [.array items] ∧
      allOfJson? items = some children
  · obtain ⟨items, children, hchildren, hall⟩ := hgroup
    rw [ofJson?_of_group hchildren hall] at h
    cases h
    have hboth := (List.forall₂_and_left _ _).2
      ⟨hitems items hchildren, allOfJson?_eq_some_iff.1 hall⟩
    exact .group hchildren (hboth.imp fun item n h => (h.1 n).1 h.2)
  · have hnone : ∀ items, fieldsNamed "children" fields = [.array items] → allOfJson? items = none := by
      intro items hchildren
      cases hall : allOfJson? items with
      | none => rfl
      | some children => exact absurd ⟨items, children, hchildren, hall⟩ hgroup
    rw [ofJson?_of_no_group hnone] at h
    obtain ⟨id, texts, rfl, hentry⟩ := entry?_eq_some_iff.1 h
    exact .entry (fun items hchildren => allOfJson?_eq_none_iff_unfit.1 (hnone items hchildren)) hentry

lemma ofJson?_object_of_fits (h : Fits (.object fields) n) : ofJson? (.object fields) = some n := by
  cases h with
  | @group _ items children hchildren h =>
    have hboth := (List.forall₂_and_left _ _).2 ⟨hitems items hchildren, h⟩
    exact ofJson?_of_group hchildren
      (allOfJson?_eq_some_iff.2 (hboth.imp fun item n h => (h.1 n).2 h.2))
  | entry hgroup hentry =>
    rw [ofJson?_of_no_group fun items hchildren => allOfJson?_eq_none_iff_unfit.2 (hgroup items hchildren)]
    exact entry?_eq_some_iff.2 ⟨_, _, rfl, hentry⟩

end Exactness

/-- The decoder is exact: it finds a node if the value spells it. -/
theorem ofJson?_eq_some_iff (v : Json) (n : Node) : ofJson? v = some n ↔ Fits v n := by
  by_cases hobject : ∃ fields, v = .object fields
  · obtain ⟨fields, rfl⟩ := hobject
    -- The items of a value are smaller than it is, which lets the recursion reach them.
    have hitems : ∀ items, fieldsNamed "children" fields = [.array items] →
        ∀ item ∈ items, ∀ n, ofJson? item = some n ↔ Fits item n :=
      fun items hchildren item hitem n => ofJson?_eq_some_iff item n
    exact ⟨fits_of_ofJson?_object hitems, ofJson?_object_of_fits hitems⟩
  · rw [ofJson?_of_unfit (.scalar (not_exists.1 hobject))]
    constructor
    · intro h
      cases h
    · intro h
      cases h <;> exact absurd ⟨_, rfl⟩ hobject
termination_by sizeOf v
decreasing_by
  subst_vars
  exact sizeOf_lt_of_children hchildren hitem

theorem allOfJson?_eq_some_iff_fits {nodes : List Node} :
    allOfJson? items = some nodes ↔ List.Forall₂ Fits items nodes := by
  simp only [allOfJson?_eq_some_iff, ofJson?_eq_some_iff]

end Decoding

end Node
end Phrasebook
