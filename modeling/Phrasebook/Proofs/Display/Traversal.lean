import Phrasebook.Proofs.Display.FanOut

/-! The walk as a loop over a stack that grows and shrinks at its end. It always ends, with the result
of the walk, and it has visited the nodes of the tree in display order, up to the first that fails. -/
namespace Phrasebook

namespace Tree

variable {α : Type}

/-- What the trees of a stack hold, in the order in which they are taken from its end. -/
def held (stack : List (Tree α)) : List α := preorderAll stack.reverse

@[simp] lemma held_nil : held ([] : List (Tree α)) = [] := rfl

@[simp] lemma held_singleton (root : Tree α) : held [root] = root.preorder := by
  simp only [held, List.reverse_singleton, preorderAll, List.append_nil]

/-- One round of the loop: a node is taken away, and its children are put on top in reverse. -/
@[simp] lemma held_push (stack children : List (Tree α)) (v : α) :
    held (stack ++ [.node v children]) = v :: held (stack ++ children.reverse) := by
  rw [held, List.reverse_append, List.reverse_singleton, List.singleton_append, preorderAll_node,
    held, List.reverse_append, List.reverse_reverse]

/-- What holds of the empty stack and goes back over a round of the loop holds of every stack. -/
lemma held_ind {motive : List (Tree α) → Prop} (nil : motive [])
    (push : ∀ stack v children, motive (stack ++ children.reverse) →
      motive (stack ++ [.node v children])) (stack : List (Tree α)) : motive stack := by
  -- The induction is on what the stack holds, which is one node less after each round.
  generalize horder : held stack = order
  induction order generalizing stack with
  | nil =>
    rcases List.eq_nil_or_concat stack with rfl | ⟨below, ⟨v, children⟩, rfl⟩
    · exact nil
    · simp at horder
  | cons first order ih =>
    rcases List.eq_nil_or_concat stack with rfl | ⟨below, ⟨v, children⟩, rfl⟩
    · simp at horder
    · rw [List.concat_eq_append] at horder ⊢
      rw [held_push] at horder
      exact push below v children (ih _ (List.tail_eq_of_cons_eq horder))

end Tree

namespace Display

variable {σ ι : Type} {t : Translator}

/-- The loop that refreshes what a stack holds: `Walks t stack n s visited s' r` if, after `n`
elements, it visits these nodes and ends with this result. -/
inductive Walks (t : Translator) : List (Tree (Node σ ι)) → Nat → σ →
    List (Node σ ι) → σ → Except DisplayError Nat → Prop
  | ended {n s} : Walks t [] n s [] s (.ok n)
  | plain {stack name children n s visited s' r}
      (rest : Walks t (stack ++ children.reverse) n s visited s' r) :
      Walks t (stack ++ [.node (name, none) children]) n s ((name, none) :: visited) s' r
  | refreshed {stack name refresh children n s s₁ visited s' r} (passed : refresh t s = (s₁, none))
      (rest : Walks t (stack ++ children.reverse) (n + 1) s₁ visited s' r) :
      Walks t (stack ++ [.node (name, some refresh) children]) n s
        ((name, some refresh) :: visited) s' r
  | failed {stack name refresh children n s s' e} (failure : refresh t s = (s', some e)) :
      Walks t (stack ++ [.node (name, some refresh) children]) n s [(name, some refresh)] s'
        (.error e)

/-- The calls that refresh those of some nodes that have a step. -/
def calls (t : Translator) (nodes : List (Node σ ι)) : List (Event ι × Act σ) :=
  nodes.filterMap fun (name, element) =>
    element.map fun refresh => (.refreshed name t.selection, refresh t)

/-- Nodes visited in an order, with `n` elements refreshed before: all of them if no step fails, or
else those up to the first that does, with its failure. -/
inductive Visits (t : Translator) (order : List (Node σ ι)) (n : Nat) (s : σ) :
    List (Node σ ι) → σ → Except DisplayError Nat → Prop
  | all {s'} (passed : Passes (calls t order) s s') :
      Visits t order n s order s' (.ok (n + (calls t order).length))
  | stopped {before name refresh after s₁ s' e}
      (split : order = before ++ (name, some refresh) :: after)
      (passed : Passes (calls t before) s s₁) (failure : refresh t s₁ = (s', some e)) :
      Visits t order n s (before ++ [(name, some refresh)]) s' (.error e)

namespace Visits

lemma plain {name : ι} {order visited : List (Node σ ι)} {n : Nat} {s s' : σ}
    {r : Except DisplayError Nat} (rest : Visits t order n s visited s' r) :
    Visits t ((name, none) :: order) n s ((name, none) :: visited) s' r := by
  cases rest with
  | all passed => exact .all passed
  | stopped split passed failure =>
    rw [split, ← List.cons_append]
    exact .stopped rfl passed failure

lemma refreshed {name : ι} {refresh : Translator → Act σ} {order visited : List (Node σ ι)}
    {n : Nat} {s s₁ s' : σ} {r : Except DisplayError Nat} (passed : refresh t s = (s₁, none))
    (rest : Visits t order (n + 1) s₁ visited s' r) :
    Visits t ((name, some refresh) :: order) n s ((name, some refresh) :: visited) s' r := by
  cases rest with
  | all tail =>
    rw [Nat.add_assoc, Nat.add_comm 1]
    exact .all (.cons passed tail)
  | stopped split tail failure =>
    rw [split, ← List.cons_append]
    exact .stopped rfl (.cons passed tail) failure

/-- Where no step fails all nodes are visited. -/
lemma eq_order {order visited : List (Node σ ι)} {n m : Nat} {s s' : σ}
    (h : Visits t order n s visited s' (.ok m)) : visited = order := by
  cases h
  rfl

end Visits

/-- The visit of nodes in an order, with `n` elements refreshed before. -/
def visit (t : Translator) :
    List (Node σ ι) → Nat → σ → List (Node σ ι) × σ × Except DisplayError Nat
  | [], n, s => ([], s, .ok n)
  | (name, none) :: rest, n, s =>
    let (visited, s, r) := visit t rest n s
    ((name, none) :: visited, s, r)
  | (name, some refresh) :: rest, n, s =>
    match refresh t s with
    | (s, some e) => ([(name, some refresh)], s, .error e)
    | (s, none) =>
      let (visited, s, r) := visit t rest (n + 1) s
      ((name, some refresh) :: visited, s, r)

lemma visit_visits (t : Translator) (order : List (Node σ ι)) (n : Nat) (s : σ) :
    Visits t order n s (visit t order n s).1 (visit t order n s).2.1 (visit t order n s).2.2 := by
  induction order generalizing n s with
  | nil => exact .all (.nil s)
  | cons node rest ih =>
    obtain ⟨name, element⟩ := node
    cases element with
    | none => exact (ih n s).plain
    | some refresh =>
      cases h : refresh t s with
      | mk s₁ failure =>
        cases failure with
        | some e =>
          simp only [visit, h]
          exact .stopped (List.nil_append _).symm (.nil s) h
        | none =>
          simp only [visit, h]
          exact (ih (n + 1) s₁).refreshed h

/-- The nodes visited aside, a visit runs the steps of the nodes and counts them. -/
lemma visit_snd (t : Translator) (order : List (Node σ ι)) (n : Nat) (s : σ) :
    (visit t order n s).2 =
      match runActs (refreshers t (order.map Prod.snd)) s with
      | (s, some e) => (s, .error e)
      | (s, none) => (s, .ok (n + (refreshers t (order.map Prod.snd)).length)) := by
  induction order generalizing n s with
  | nil => rfl
  | cons node rest ih =>
    obtain ⟨name, element⟩ := node
    cases element with
    | none => exact ih n s
    | some refresh =>
      have hcalls : refreshers t (((name, some refresh) :: rest).map Prod.snd) =
          refresh t :: refreshers t (rest.map Prod.snd) := rfl
      rw [hcalls]
      cases h : refresh t s with
      | mk s₁ failure =>
        cases failure with
        | some e => simp only [visit, runActs, h]
        | none => simp only [visit, runActs, h, ih, List.length_cons, Nat.add_assoc, Nat.add_comm 1]

/-- With the nodes of a tree in display order, that is the walk. -/
theorem visit_preorder_snd (t : Translator) (root : Tree (Node σ ι)) (s : σ) :
    (visit t root.preorder 0 s).2 = refreshTree t (root.map Prod.snd) s := by
  rw [visit_snd, refreshTree_eq, Tree.preorder_map]
  cases runActs (refreshers t (root.preorder.map Prod.snd)) s with
  | mk s₁ failure =>
    cases failure with
    | some e => rfl
    | none => simp only [Nat.zero_add]

/-- The loop can make the visit of what its stack holds. -/
theorem walks_visit (t : Translator) (stack : List (Tree (Node σ ι))) (n : Nat) (s : σ) :
    Walks t stack n s (visit t (Tree.held stack) n s).1 (visit t (Tree.held stack) n s).2.1
      (visit t (Tree.held stack) n s).2.2 := by
  induction stack using Tree.held_ind generalizing n s with
  | nil => exact .ended
  | push stack node children ih =>
    rw [Tree.held_push]
    obtain ⟨name, element⟩ := node
    cases element with
    | none => exact .plain (ih n s)
    | some refresh =>
      cases h : refresh t s with
      | mk s₁ failure =>
        cases failure with
        | some e =>
          simp only [visit, h]
          exact .failed h
        | none =>
          simp only [visit, h]
          exact .refreshed h (ih (n + 1) s₁)

/-- And it does nothing else. -/
theorem Walks.eq_visit {stack : List (Tree (Node σ ι))} {n : Nat} {s s' : σ}
    {visited : List (Node σ ι)} {r : Except DisplayError Nat}
    (h : Walks t stack n s visited s' r) : (visited, s', r) = visit t (Tree.held stack) n s := by
  induction h with
  | ended => rfl
  | plain rest ih => rw [Tree.held_push, visit, ← ih]
  | refreshed passed rest ih => simp only [Tree.held_push, visit, passed, ← ih]
  | failed failure => simp only [Tree.held_push, visit, failure]

theorem visits_preorder (t : Translator) (root : Tree (Node σ ι)) (s : σ) :
    Visits t root.preorder 0 s (visit t root.preorder 0 s).1
      (refreshTree t (root.map Prod.snd) s).1 (refreshTree t (root.map Prod.snd) s).2 := by
  rw [← visit_preorder_snd]
  exact visit_visits t root.preorder 0 s

/-- From the root of a tree the loop ends in one way, with the result of the walk. -/
theorem walks_iff (t : Translator) (root : Tree (Node σ ι)) (s : σ) (visited : List (Node σ ι))
    (s' : σ) (r : Except DisplayError Nat) :
    Walks t [root] 0 s visited s' r ↔
      visited = (visit t root.preorder 0 s).1 ∧
        (s', r) = refreshTree t (root.map Prod.snd) s := by
  rw [← visit_preorder_snd, ← Tree.held_singleton]
  constructor
  · intro h
    rw [← h.eq_visit]
    exact ⟨rfl, rfl⟩
  · rintro ⟨rfl, hresult⟩
    obtain ⟨rfl, rfl⟩ := Prod.mk.inj hresult
    exact walks_visit t [root] 0 s

end Display
end Phrasebook
