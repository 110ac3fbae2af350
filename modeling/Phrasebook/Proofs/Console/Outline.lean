import Mathlib.Data.List.Nodup
import Phrasebook.Proofs.Console.Screen
import Phrasebook.Proofs.Display.Traversal

/-! The outline of a console: its panels and labels, each at its place. The elements on the display,
the list of the labels and the drawn lines all follow it. -/
namespace Phrasebook
open Display

namespace Tree

variable {α : Type}

mutual

/-- Each value with its place: on the way down to it, the number of each tree among its siblings. -/
def located (place : List Nat) : Tree α → Tree (List Nat × α)
  | .node v children => .node (place, v) (locatedAll place 0 children)

def locatedAll (place : List Nat) (i : Nat) : List (Tree α) → List (Tree (List Nat × α))
  | [] => []
  | t :: rest => located (place ++ [i]) t :: locatedAll place (i + 1) rest

end

mutual

lemma prefix_of_mem_located (place : List Nat) (t : Tree α) :
    ∀ p ∈ (t.located place).preorder, place <+: p.1 := by
  intro p hp
  obtain ⟨v, children⟩ := t
  rcases List.mem_cons.mp hp with rfl | hp
  · exact List.prefix_rfl
  · obtain ⟨j, -, hj⟩ := prefix_of_mem_locatedAll place 0 children p hp
    exact (List.prefix_append place [j]).trans hj

lemma prefix_of_mem_locatedAll (place : List Nat) (i : Nat) (ts : List (Tree α)) :
    ∀ p ∈ preorderAll (locatedAll place i ts), ∃ j, i ≤ j ∧ place ++ [j] <+: p.1 := by
  intro p hp
  cases ts with
  | nil => cases hp
  | cons t rest =>
    rcases List.mem_append.mp hp with hp | hp
    · exact ⟨i, Nat.le_refl i, prefix_of_mem_located (place ++ [i]) t p hp⟩
    · obtain ⟨j, hij, hj⟩ := prefix_of_mem_locatedAll place (i + 1) rest p hp
      exact ⟨j, Nat.le_of_succ_le hij, hj⟩

end

/-- A place is not below itself. -/
lemma not_append_singleton_prefix (place : List Nat) (j : Nat) : ¬ place ++ [j] <+: place := by
  intro h
  have hlength : place.length + 1 ≤ place.length := by simpa using h.length_le
  omega

/-- No place is below two siblings. -/
lemma eq_of_append_singleton_prefix {place below : List Nat} {i j : Nat}
    (hi : place ++ [i] <+: below) (hj : place ++ [j] <+: below) : i = j := by
  have hsame : place ++ [i] = place ++ [j] :=
    (List.prefix_of_prefix_length_le hi hj (by simp)).eq_of_length (by simp)
  exact List.singleton_inj.mp (List.append_cancel_left hsame)

mutual

/-- No two nodes of a tree have one place. -/
theorem nodup_located (place : List Nat) (t : Tree α) :
    ((t.located place).preorder.map Prod.fst).Nodup := by
  obtain ⟨v, children⟩ := t
  refine List.nodup_cons.mpr ⟨?_, nodup_locatedAll place 0 children⟩
  intro hmem
  obtain ⟨p, hp, hplace⟩ := List.mem_map.mp hmem
  obtain ⟨j, -, hj⟩ := prefix_of_mem_locatedAll place 0 children p hp
  rw [hplace] at hj
  exact not_append_singleton_prefix place j hj

lemma nodup_locatedAll (place : List Nat) (i : Nat) (ts : List (Tree α)) :
    ((preorderAll (locatedAll place i ts)).map Prod.fst).Nodup := by
  cases ts with
  | nil => exact List.nodup_nil
  | cons t rest =>
    simp only [locatedAll, preorderAll, List.map_append]
    refine (nodup_located (place ++ [i]) t).append (nodup_locatedAll place (i + 1) rest) ?_
    intro below hfirst hrest
    obtain ⟨p, hp, rfl⟩ := List.mem_map.mp hfirst
    obtain ⟨q, hq, hpq⟩ := List.mem_map.mp hrest
    have hi := prefix_of_mem_located (place ++ [i]) t p hp
    obtain ⟨j, hij, hj⟩ := prefix_of_mem_locatedAll place (i + 1) rest q hq
    have := eq_of_append_singleton_prefix hi (hpq ▸ hj)
    omega

end

mutual

lemma map_snd_located (place : List Nat) (t : Tree α) : (t.located place).map Prod.snd = t := by
  obtain ⟨v, children⟩ := t
  simp only [located, map, map_snd_locatedAll]

lemma map_snd_locatedAll (place : List Nat) (i : Nat) (ts : List (Tree α)) :
    mapAll Prod.snd (locatedAll place i ts) = ts := by
  cases ts with
  | nil => rfl
  | cons t rest => simp only [locatedAll, mapAll, map_snd_located, map_snd_locatedAll]

end

end Tree

/-- A panel or a label, without what is in it. -/
inductive Item where
  | label (id : String)
  | panel (name : String)

namespace Item

def label? : Item → Option String
  | .label id => some id
  | .panel _ => none

def element (v : Values Id) : Item → Element Screen
  | .label id => some (Screen.refreshLabel v id)
  | .panel _ => none

/-- What is drawn of an item at a depth. -/
def line (shown : String → String) (depth : Nat) : Item → String
  | .label id => Widget.indent depth ++ id ++ ": " ++ shown id
  | .panel name => Widget.indent depth ++ "[" ++ name ++ "]"

end Item

namespace Widget

mutual

/-- The items with those that are in them. -/
def outline : Widget → Tree Item
  | .label id => .node (.label id) []
  | .panel name children => .node (.panel name) (outlineAll children)

def outlineAll : List Widget → List (Tree Item)
  | [] => []
  | w :: rest => outline w :: outlineAll rest

end

/-- The items at their places, in display order. -/
def items (w : Widget) : List (List Nat × Item) := (w.outline.located []).preorder

/-- The elements as nodes that are known by place and item. -/
def nodes (v : Values Id) (w : Widget) : Tree (Display.Node Screen (List Nat × Item)) :=
  (w.outline.located []).map fun p => (p, p.2.element v)

mutual

theorem elements_eq_outline (v : Values Id) (w : Widget) :
    w.elements v = w.outline.map (Item.element v) := by
  cases w with
  | label id => rfl
  | panel name children =>
    simp only [elements, outline, Tree.map, elementsAll_eq_outlineAll v children]
    rfl

lemma elementsAll_eq_outlineAll (v : Values Id) (ws : List Widget) :
    elementsAll v ws = Tree.mapAll (Item.element v) (outlineAll ws) := by
  cases ws with
  | nil => rfl
  | cons w rest =>
    simp only [elementsAll, outlineAll, Tree.mapAll, elements_eq_outline v w,
      elementsAll_eq_outlineAll v rest]

end

mutual

theorem labels_eq_outline (w : Widget) : w.labels = w.outline.preorder.filterMap Item.label? := by
  cases w with
  | label id => rfl
  | panel name children => exact labelsAll_eq_outlineAll children

lemma labelsAll_eq_outlineAll (ws : List Widget) :
    labelsAll ws = (Tree.preorderAll (outlineAll ws)).filterMap Item.label? := by
  cases ws with
  | nil => rfl
  | cons w rest =>
    simp only [labelsAll, outlineAll, Tree.preorderAll, List.filterMap_append, labels_eq_outline w,
      labelsAll_eq_outlineAll rest]

end

mutual

/-- A line for each item, indented by the length of the way down to it. -/
theorem lines_eq_outline (shown : String → String) (place : List Nat) (w : Widget) :
    w.lines shown place.length =
      (w.outline.located place).preorder.map fun p => p.2.line shown p.1.length := by
  cases w with
  | label id => rfl
  | panel name children =>
    simp only [lines, outline, Tree.located, Tree.preorder, List.map_cons,
      linesAll_eq_outlineAll shown place 0 children]
    rfl

lemma linesAll_eq_outlineAll (shown : String → String) (place : List Nat) (i : Nat)
    (ws : List Widget) :
    linesAll shown (place.length + 1) ws =
      (Tree.preorderAll (Tree.locatedAll place i (outlineAll ws))).map
        fun p => p.2.line shown p.1.length := by
  cases ws with
  | nil => rfl
  | cons w rest =>
    have hdepth : place.length + 1 = (place ++ [i]).length := by simp
    simp only [linesAll, outlineAll, Tree.locatedAll, Tree.preorderAll, List.map_append]
    rw [← linesAll_eq_outlineAll shown place (i + 1) rest, hdepth,
      lines_eq_outline shown (place ++ [i]) w]

end

lemma map_snd_items (w : Widget) : w.items.map Prod.snd = w.outline.preorder := by
  rw [items, ← Tree.preorder_map, Tree.map_snd_located]

lemma preorder_nodes (v : Values Id) (w : Widget) :
    (w.nodes v).preorder = w.items.map fun p => (p, p.2.element v) := by
  rw [nodes, Tree.preorder_map, items]

lemma map_snd_nodes (v : Values Id) (w : Widget) : (w.nodes v).map Prod.snd = w.elements v := by
  calc (w.nodes v).map Prod.snd
      = (w.outline.located []).map (Item.element v ∘ Prod.snd) := Tree.map_map _ _ _
    _ = ((w.outline.located []).map Prod.snd).map (Item.element v) := (Tree.map_map _ _ _).symm
    _ = w.elements v := by rw [Tree.map_snd_located, elements_eq_outline]

/-- On a console no step fails, and the labels are refreshed in their order. -/
theorem refreshTree_elements (v : Values Id) (w : Widget) (t : Translator) (s : Screen) :
    refreshTree t (w.elements v) s =
      ({ s with texts := Screen.refreshed v t w.labels s.texts }, .ok w.labels.length) := by
  rw [refreshTree_eq, refreshers_elements, Screen.runActs_refreshLabel]
  simp only [List.length_map]

/-- The loop over a console ends in one way, and it has visited all items in display order. -/
theorem walks_nodes_iff (v : Values Id) (w : Widget) (t : Translator) (s : Screen)
    (done : List (Display.Node Screen (List Nat × Item))) (s' : Screen)
    (r : Except DisplayError Nat) :
    Walks t [w.nodes v] 0 s done s' r ↔
      done = w.items.map (fun p => (p, p.2.element v)) ∧
        (s', r) = refreshTree t (w.elements v) s := by
  have hvisits := visits_preorder t (w.nodes v) s
  rw [map_snd_nodes, refreshTree_elements] at hvisits
  rw [walks_iff, map_snd_nodes, hvisits.eq_order, preorder_nodes]

/-- The loop over a tree of elements ends in one way. It has the result of the walk, and it has
visited the nodes in display order, up to the first whose step fails. On a console it visits each
item once, and it refreshes the labels in the order in which they are listed and drawn. -/
theorem traversals_agree :
    (∀ {σ ι : Type} (t : Translator) (root : Tree (Display.Node σ ι)) (s : σ),
      ∃ visited,
        Visits t root.preorder 0 s visited (refreshTree t (root.map Prod.snd) s).1
          (refreshTree t (root.map Prod.snd) s).2 ∧
        ∀ done s' r, Walks t [root] 0 s done s' r ↔
          done = visited ∧ (s', r) = refreshTree t (root.map Prod.snd) s) ∧
    ∀ (w : Widget) (v : Values Id) (t : Translator) (s : Screen),
      (∀ done s' r, Walks t [w.nodes v] 0 s done s' r ↔
        done = w.items.map (fun p => (p, p.2.element v)) ∧
          (s', r) = refreshTree t (w.elements v) s) ∧
      refreshTree t (w.elements v) s =
        ({ s with texts := Screen.refreshed v t w.labels s.texts }, .ok w.labels.length) ∧
      (w.items.map Prod.fst).Nodup ∧
      w.labels = w.items.filterMap (fun p => p.2.label?) ∧
      ∀ shown, w.lines shown 0 = w.items.map (fun p => p.2.line shown p.1.length) ∧
        w.render shown = "\n".intercalate (w.lines shown 0) := by
  constructor
  · intro σ ι t root s
    exact ⟨(visit t root.preorder 0 s).1, visits_preorder t root s, walks_iff t root s⟩
  · intro w v t s
    refine ⟨walks_nodes_iff v w t s, refreshTree_elements v w t s,
      Tree.nodup_located [] w.outline, ?_, fun shown => ⟨lines_eq_outline shown [] w, rfl⟩⟩
    rw [labels_eq_outline, ← map_snd_items, List.filterMap_map]
    rfl

example : (panel "a" [label "1", panel "b" [label "2"], label "4"]).lines (fun _ => "-") 0 =
    ["[a]", "  1: -", "  [b]", "    2: -", "  4: -"] := rfl

end Widget
end Phrasebook
