import Phrasebook.Console
import Phrasebook.Proofs.Dict
import Phrasebook.Proofs.Display.Walk
import Phrasebook.Proofs.Text.Blank

/-! What a presentation does to the screen of the console: its labels are always refreshed, and the
surface is changed as a whole if the font has a name. -/
namespace Phrasebook
open Display

/-- A language whose font has no name but blanks. -/
def Language.isFontless (l : Language) : Bool := l.font.toList.all Text.isBlank

lemma Language.isFontless_eq (l : Language) :
    l.isFontless = (Text.trim l.font.toList).isEmpty := by
  apply Bool.eq_iff_iff.mpr
  rw [isFontless, List.all_eq_true, List.isEmpty_iff, Text.trim_eq_nil_iff]

namespace Widget

mutual

/-- The elements that can be refreshed are the labels. -/
theorem refreshers_elements (v : Values Id) (t : Translator) (w : Widget) :
    refreshers t (w.elements v).preorder =
      w.labels.map fun id => Screen.refreshLabel v id t := by
  cases w with
  | label id => rfl
  | panel name children => exact refreshers_elementsAll v t children

lemma refreshers_elementsAll (v : Values Id) (t : Translator) (ws : List Widget) :
    refreshers t (Tree.preorderAll (elementsAll v ws)) =
      (labelsAll ws).map fun id => Screen.refreshLabel v id t := by
  cases ws with
  | nil => rfl
  | cons w rest =>
    have hw := refreshers_elements v t w
    have hrest := refreshers_elementsAll v t rest
    simp only [refreshers] at hw hrest ⊢
    simp only [elementsAll, Tree.preorderAll, List.filterMap_append, labelsAll, List.map_append]
    rw [hw, hrest]

end

end Widget

namespace Screen

/-- The texts of labels after a refresh. -/
def refreshed (v : Values Id) (t : Translator) (ids : List String) (texts : Dict String) :
    Dict String :=
  ids.foldl (fun texts id => texts.insert id (labelText t v id)) texts

lemma runActs_refreshLabel (v : Values Id) (t : Translator) (ids : List String) (s : Screen) :
    runActs (ids.map fun id => refreshLabel v id t) s =
      ({ s with texts := refreshed v t ids s.texts }, none) := by
  induction ids generalizing s with
  | nil => rfl
  | cons id ids ih =>
    simp only [List.map_cons, runActs, refreshLabel, ih]
    rfl

lemma get?_refreshed (v : Values Id) (t : Translator) (ids : List String) (texts : Dict String)
    (id : String) :
    (refreshed v t ids texts).get? id =
      if id ∈ ids then some (labelText t v id) else texts.get? id := by
  unfold refreshed
  induction ids generalizing texts with
  | nil => simp
  | cons first rest ih =>
    rw [List.foldl_cons, ih, Dict.get?_insert]
    by_cases hrest : id ∈ rest
    · simp [hrest]
    · by_cases hfirst : id = first
      · simp [hfirst]
      · simp [hrest, hfirst]

/-- The screen with the font, scale and wrap of a language; without a font nothing is applied. -/
def applied (breakAnywhere : List String) (l : Language) (s : Screen) : Screen :=
  if l.isFontless then s
  else { s with font := l.font, scale := l.scale, wrap := .forLanguage l.name breakAnywhere }

/-- What is reported of a language brought to the screen. -/
def report (l : Language) : Change :=
  if l.isFontless then .degraded l.name (.surface .font "empty font family") else .applied l.name

/-- With a positive scale only the font can be refused. -/
theorem announce_elements (breakAnywhere : List String) (v : Values Id) (w : Widget)
    {t : Translator} (h : t.active.scale.isPositive = true) (s : Screen) :
    announce surface breakAnywhere (w.elements v) t s =
      (applied breakAnywhere t.active { s with texts := refreshed v t w.labels s.texts },
        report t.active) := by
  rw [announce_eq, steps, Widget.refreshers_elements, runActs_append, runActs_refreshLabel]
  simp only [runActs, surface, setFont, setScale, setWrap, id, ← Language.isFontless_eq]
  cases hf : t.active.isFontless with
  | true => simp [applied, report, hf, Change.ofEnd]
  | false => simp [applied, report, hf, h, Change.ofEnd]

/-- The labels are refreshed before the surface can refuse anything. -/
theorem texts_announce_elements (breakAnywhere : List String) (v : Values Id) (w : Widget)
    (t : Translator) (s : Screen) :
    (announce surface breakAnywhere (w.elements v) t s).1.texts =
      refreshed v t w.labels s.texts := by
  rw [announce_eq, steps, Widget.refreshers_elements, runActs_append, runActs_refreshLabel]
  simp only [runActs, surface, setFont, setScale, setWrap, id]
  cases hf : (Text.trim t.active.font.toList).isEmpty with
  | true => rfl
  | false =>
    cases hs : t.active.scale.isPositive with
    | true => rfl
    | false => rfl

end Screen
end Phrasebook
