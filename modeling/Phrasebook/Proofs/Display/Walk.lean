import Mathlib.Tactic.Lemma
import Phrasebook.Display

/-! The walk over a stack of trees visits what the trees hold in display order, and a presentation is
one list of steps, run up to the first that fails. -/
namespace Phrasebook

namespace Tree

variable {α β : Type}

mutual

/-- The values of a tree in display order: a node before its children, and these in their order. -/
def preorder : Tree α → List α
  | .node v children => v :: preorderAll children

def preorderAll : List (Tree α) → List α
  | [] => []
  | t :: rest => preorder t ++ preorderAll rest

end

@[simp] lemma preorderAll_append (a b : List (Tree α)) :
    preorderAll (a ++ b) = preorderAll a ++ preorderAll b := by
  induction a with
  | nil => rfl
  | cons t a ih => simp only [List.cons_append, preorderAll, ih, List.append_assoc]

/-- Putting the children on the stack keeps the order. -/
lemma preorderAll_node (v : α) (children rest : List (Tree α)) :
    preorderAll (.node v children :: rest) = v :: preorderAll (children ++ rest) := by
  simp only [preorderAll, preorder, preorderAll_append, List.cons_append]

mutual

def map (f : α → β) : Tree α → Tree β
  | .node v children => .node (f v) (mapAll f children)

def mapAll (f : α → β) : List (Tree α) → List (Tree β)
  | [] => []
  | t :: rest => map f t :: mapAll f rest

end

mutual

theorem preorder_map (f : α → β) (t : Tree α) : (t.map f).preorder = t.preorder.map f := by
  cases t with
  | node v children =>
    simp only [map, preorder, List.map_cons]
    rw [preorderAll_mapAll f children]

lemma preorderAll_mapAll (f : α → β) (ts : List (Tree α)) :
    preorderAll (mapAll f ts) = (preorderAll ts).map f := by
  cases ts with
  | nil => rfl
  | cons t rest =>
    simp only [mapAll, preorderAll, List.map_append]
    rw [preorder_map f t, preorderAll_mapAll f rest]

end

mutual

lemma map_map {γ : Type} (f : α → β) (g : β → γ) (t : Tree α) :
    (t.map f).map g = t.map (g ∘ f) := by
  cases t with
  | node v children => simp only [map, mapAll_mapAll f g children, Function.comp_apply]

lemma mapAll_mapAll {γ : Type} (f : α → β) (g : β → γ) (ts : List (Tree α)) :
    mapAll g (mapAll f ts) = mapAll (g ∘ f) ts := by
  cases ts with
  | nil => rfl
  | cons t rest => simp only [mapAll, map_map f g t, mapAll_mapAll f g rest]

end

end Tree

namespace Display

variable {σ : Type}

/-- The steps that refresh those of some elements that can be refreshed. -/
def refreshers (t : Translator) (elements : List (Element σ)) : List (Act σ) :=
  elements.filterMap fun element => element.map fun refresh => refresh t

lemma runActs_append (a b : List (Act σ)) (s : σ) :
    runActs (a ++ b) s =
      match runActs a s with
      | (s, some e) => (s, some e)
      | (s, none) => runActs b s := by
  induction a generalizing s with
  | nil => rfl
  | cons act a ih =>
    simp only [List.cons_append, runActs]
    split
    · rfl
    · exact ih _

/-- The walk runs the refreshing steps in display order, and counts them if none fails. -/
theorem refreshStack_eq (t : Translator) (stack : List (Tree (Element σ))) (s : σ) :
    refreshStack t stack s =
      match runActs (refreshers t (Tree.preorderAll stack)) s with
      | (s, some e) => (s, .error e)
      | (s, none) => (s, .ok (refreshers t (Tree.preorderAll stack)).length) := by
  fun_induction refreshStack t stack s with
  | case1 s => rfl
  | case2 children rest s ih =>
    rw [ih, Tree.preorderAll_node]
    rfl
  | case3 children rest s refresh s' e h =>
    rw [Tree.preorderAll_node]
    simp only [refreshers, List.filterMap_cons, Option.map_some, runActs, h]
  | case4 children rest s refresh s' h s'' n hn ih =>
    rw [Tree.preorderAll_node]
    rw [hn] at ih
    simp only [refreshers, List.filterMap_cons, Option.map_some, runActs, h] at ih ⊢
    split at ih
    · cases ih
    · rename_i s₁ hs
      simp_all
  | case5 children rest s refresh s' h s'' e he ih =>
    rw [Tree.preorderAll_node]
    rw [he] at ih
    simp only [refreshers, List.filterMap_cons, Option.map_some, runActs, h] at ih ⊢
    split at ih
    · simp_all
    · cases ih

theorem refreshTree_eq (t : Translator) (root : Tree (Element σ)) (s : σ) :
    refreshTree t root s =
      match runActs (refreshers t root.preorder) s with
      | (s, some e) => (s, .error e)
      | (s, none) => (s, .ok (refreshers t root.preorder).length) := by
  rw [refreshTree, refreshStack_eq]
  simp only [Tree.preorderAll, List.append_nil]

/-- All that a presentation does: elements first, then the listeners, then the surface. -/
def steps (surface : Surface σ) (breakAnywhere : List String) (t : Translator)
    (root : Tree (Element σ)) : List (Act σ) :=
  refreshers t root.preorder ++
    [fun s => (surface.notify s, none), surface.font t.active.font, surface.scale t.active.scale,
      surface.wrap (.forLanguage t.active.name breakAnywhere)]

/-- What is reported of a presentation that ended with or without a failure. -/
def Change.ofEnd (active : String) : Option DisplayError → Change
  | none => .applied active
  | some e => .degraded active e

theorem announce_eq (surface : Surface σ) (breakAnywhere : List String) (root : Tree (Element σ))
    (t : Translator) (s : σ) :
    announce surface breakAnywhere root t s =
      let (s, ending) := runActs (steps surface breakAnywhere t root) s
      (s, .ofEnd t.active.name ending) := by
  rw [steps, runActs_append, announce, present, refreshTree_eq]
  cases runActs (refreshers t root.preorder) s with
  | mk s₁ failed =>
    cases failed with
    | some e => rfl
    | none =>
      have hnotify : ∀ rest : List (Act σ),
          runActs ((fun s => (surface.notify s, none)) :: rest) s₁ =
            runActs rest (surface.notify s₁) := fun _ => rfl
      simp only [hnotify]
      cases runActs [surface.font t.active.font, surface.scale t.active.scale,
        surface.wrap (.forLanguage t.active.name breakAnywhere)] (surface.notify s₁) with
      | mk s₂ failed => cases failed <;> rfl

end Display
end Phrasebook
