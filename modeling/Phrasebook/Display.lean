import Phrasebook.Translator

/-! A change of language reaches what shows text: first the elements of a tree, depth first, then the
listeners, then font, scale and word wrap of the surface. The first failure ends it, and the language
stays changed. -/
namespace Phrasebook

/-- A setting of the surface on which text is drawn. -/
inductive Setting where
  | font
  | scale
  | wordWrap
  deriving DecidableEq, Repr

def Setting.name : Setting → String
  | .font => "font"
  | .scale => "scale"
  | .wordWrap => "word wrap"

inductive DisplayError where
  | refresh (element reason : String)
  | surface (setting : Setting) (reason : String)
  deriving DecidableEq, Repr

def DisplayError.message : DisplayError → String
  | .refresh element reason =>
    "Failed to refresh text of element '" ++ element ++ "': " ++ reason
  | .surface setting reason => "Text renderer rejected " ++ setting.name ++ ": " ++ reason

inductive Tree (α : Type) where
  | node (value : α) (children : List (Tree α))

namespace Tree

variable {α : Type}

instance [Inhabited α] : Inhabited (Tree α) := ⟨.node default []⟩

mutual

def size : Tree α → Nat
  | .node _ children => sizeAll children + 1

def sizeAll : List (Tree α) → Nat
  | [] => 0
  | t :: rest => size t + sizeAll rest

end

theorem sizeAll_append (a b : List (Tree α)) : sizeAll (a ++ b) = sizeAll a + sizeAll b := by
  induction a with
  | nil => simp [sizeAll]
  | cons t a ih => simp only [List.cons_append, sizeAll, ih]; omega

theorem sizeAll_children_append_lt (v : α) (cs rest : List (Tree α)) :
    sizeAll (cs ++ rest) < sizeAll (.node v cs :: rest) := by
  rw [sizeAll_append]; simp only [sizeAll, size]; omega

end Tree

/-- A step on the state of what shows text. A step that fails may still have changed the state. -/
abbrev Act (σ : Type) := σ → σ × Option DisplayError

/-- An element of the tree: the step that reads its text again, if it shows one. -/
abbrev Element (σ : Type) := Option (Translator → Act σ)

structure Surface (σ : Type) where
  notify : σ → σ
  font : String → Act σ
  scale : Decimal.Single → Act σ
  wrap : Wrap → Act σ

namespace Display

variable {σ : Type}

/-- Refreshes the elements on a stack of trees and counts them. -/
def refreshStack (t : Translator) : List (Tree (Element σ)) → σ → σ × Except DisplayError Nat
  | [], s => (s, .ok 0)
  | .node element children :: rest, s =>
    match element with
    | none => refreshStack t (children ++ rest) s
    | some refresh =>
      match refresh t s with
      | (s, some e) => (s, .error e)
      | (s, none) =>
        match refreshStack t (children ++ rest) s with
        | (s, .ok n) => (s, .ok (n + 1))
        | (s, .error e) => (s, .error e)
termination_by stack => Tree.sizeAll stack
decreasing_by all_goals exact Tree.sizeAll_children_append_lt ..

def refreshTree (t : Translator) (root : Tree (Element σ)) (s : σ) : σ × Except DisplayError Nat :=
  refreshStack t [root] s

/-- Steps one after the other up to the first failure. -/
def runActs : List (Act σ) → Act σ
  | [], s => (s, none)
  | act :: rest, s =>
    match act s with
    | (s, some e) => (s, some e)
    | (s, none) => runActs rest s

/-- Brings the active language to the tree, the listeners and the surface. -/
def present (surface : Surface σ) (breakAnywhere : List String) (t : Translator)
    (root : Tree (Element σ)) (s : σ) : σ × Except DisplayError Nat :=
  match refreshTree t root s with
  | (s, .error e) => (s, .error e)
  | (s, .ok n) =>
    match runActs [surface.font t.active.font, surface.scale t.active.scale,
      surface.wrap (.forLanguage t.active.name breakAnywhere)] (surface.notify s) with
    | (s, some e) => (s, .error e)
    | (s, none) => (s, .ok n)

/-- What became of a request for a language. -/
inductive Change where
  | unchanged
  | applied (active : String)
  | degraded (active : String) (error : DisplayError)
  deriving DecidableEq, Repr

def Change.isSwitched : Change → Bool
  | .unchanged => false
  | _ => true

/-- Presents the active language as it is. -/
def announce (surface : Surface σ) (breakAnywhere : List String) (root : Tree (Element σ))
    (t : Translator) (s : σ) : σ × Change :=
  match present surface breakAnywhere t root s with
  | (s, .ok _) => (s, .applied t.active.name)
  | (s, .error e) => (s, .degraded t.active.name e)

theorem announce_isSwitched (surface : Surface σ) (breakAnywhere : List String)
    (root : Tree (Element σ)) (t : Translator) (s : σ) :
    (announce surface breakAnywhere root t s).2.isSwitched = true := by
  unfold announce
  split <;> rfl

/-- Selects a language and presents it if the request is a new one. -/
def setLanguage (surface : Surface σ) (breakAnywhere : List String) (root : Tree (Element σ))
    (r : Request) (t : Translator) (s : σ) : Translator × σ × Change :=
  match t.select r with
  | none => (t, s, .unchanged)
  | some t =>
    let (s, change) := announce surface breakAnywhere root t s
    (t, s, change)

section SetLanguage

variable (surface : Surface σ) (breakAnywhere : List String) (root : Tree (Element σ))
  {t : Translator} {r : Request}

theorem setLanguage_of_eq (h : t.requested = r) (s : σ) :
    setLanguage surface breakAnywhere root r t s = (t, s, .unchanged) := by
  simp only [setLanguage, Translator.select, h, if_true]

theorem setLanguage_of_ne (h : t.requested ≠ r) (s : σ) :
    setLanguage surface breakAnywhere root r t s =
      let t' := { t with selection := ⟨r, t.offer.choose t.locale r⟩ }
      (t', announce surface breakAnywhere root t' s) := by
  simp only [setLanguage, Translator.select, h, if_false]

end SetLanguage

end Display
end Phrasebook
