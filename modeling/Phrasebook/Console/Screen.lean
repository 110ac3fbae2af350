import Phrasebook.Display

/-! The screen of the console: labels in named panels, and the font, scale and word wrap that were
applied last. -/
namespace Phrasebook
open Decimal

structure Screen where
  /-- The text that the label of each id shows. -/
  texts : Dict String
  font : String
  scale : Single
  wrap : Wrap
  deriving DecidableEq

namespace Screen

def new : Screen := ⟨.empty, "", .one, .keepTogether⟩

/-- A font has a name that is not blank. -/
def setFont (font : String) : Act Screen := fun s =>
  if (Text.trim font.toList).isEmpty then (s, some (.surface .font "empty font family"))
  else ({ s with font := font }, none)

def setScale (scale : Single) : Act Screen := fun s =>
  if scale.isPositive then ({ s with scale := scale }, none)
  else (s, some (.surface .scale (scale.text ++ " is not a positive scale")))

def setWrap (wrap : Wrap) : Act Screen := fun s => ({ s with wrap := wrap }, none)

def surface : Surface Screen := ⟨id, setFont, setScale, setWrap⟩

def shown (s : Screen) (id : String) : String := (s.texts.get? id).getD ""

/-- The text of a label; an id without text shows itself. -/
def labelText (t : Translator) (v : Values Id) (id : String) : String :=
  (t.text v id).getD ("[" ++ id ++ "]")

def refreshLabel (v : Values Id) (id : String) (t : Translator) : Act Screen := fun s =>
  ({ s with texts := s.texts.insert id (labelText t v id) }, none)

end Screen

/-- A label is bound to the entry of its id. -/
inductive Widget where
  | label (id : String)
  | panel (name : String) (children : List Widget)
  deriving Inhabited

namespace Widget

mutual

/-- The ids of all labels in display order. -/
def labels : Widget → List String
  | .label id => [id]
  | .panel _ children => labelsAll children

def labelsAll : List Widget → List String
  | [] => []
  | w :: rest => labels w ++ labelsAll rest

end

def indent (depth : Nat) : String := String.ofList (List.replicate (2 * depth) ' ')

mutual

/-- A line for the name of each panel and one for each label, indented by depth. -/
def lines (shown : String → String) (depth : Nat) : Widget → List String
  | .label id => [indent depth ++ id ++ ": " ++ shown id]
  | .panel name children =>
    (indent depth ++ "[" ++ name ++ "]") :: linesAll shown (depth + 1) children

def linesAll (shown : String → String) (depth : Nat) : List Widget → List String
  | [] => []
  | w :: rest => lines shown depth w ++ linesAll shown depth rest

end

def render (shown : String → String) (w : Widget) : String := "\n".intercalate (lines shown 0 w)

mutual

/-- The elements of the tree; only labels show text. -/
def elements (v : Values Id) : Widget → Tree (Element Screen)
  | .label id => .node (some (Screen.refreshLabel v id)) []
  | .panel _ children => .node none (elementsAll v children)

def elementsAll (v : Values Id) : List Widget → List (Tree (Element Screen))
  | [] => []
  | w :: rest => elements v w :: elementsAll v rest

end

end Widget
end Phrasebook
