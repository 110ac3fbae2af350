import Phrasebook.Decimal.Shortest
import Phrasebook.Json.Basic
import Phrasebook.Text.Blank

/-! Languages as they are configured, a user's request for one, and the way its lines break. -/
namespace Phrasebook
open Decimal

/-- A language code with the font and the scale its text is drawn in. -/
structure Language where
  name : String
  font : String
  scale : Single
  deriving DecidableEq, Repr

/-- A language of which only the name is known. -/
def Language.named (name : String) : Language := ⟨name, "", Single.one⟩

/-- The same values, where a scale that is no number equals none. -/
def Language.agrees (a b : Language) : Bool :=
  a.name == b.name && a.font == b.font && a.scale.agrees b.scale

/-- Either the language that suits the reported locale best, or a language by its code. -/
inductive Request where
  | auto
  | explicit (code : String)
  deriving DecidableEq, Repr

namespace Request

def ofText (code : String) : Request := if code = "auto" then .auto else .explicit code

/-- Blanks around the code do not count. -/
def parse (text : String) : Request := ofText (Text.trimmed text)

def text : Request → String
  | .auto => "auto"
  | .explicit code => code

def isAuto : Request → Bool
  | .auto => true
  | .explicit _ => false

def toJson (r : Request) : Json := .string r.text

def ofJson? : Json → Option Request
  | .string s => some (ofText s)
  | _ => none

@[simp] theorem ofText_text_ofText (code : String) : ofText (ofText code).text = ofText code := by
  by_cases h : code = "auto" <;> simp [ofText, text, h]

end Request

/-- Whether a line may break between any two characters or only at blanks. -/
inductive Wrap where
  | breakAnywhere
  | keepTogether
  deriving DecidableEq, Repr

namespace Wrap

def forLanguage (name : String) (breakAnywhere : List String) : Wrap :=
  if name ∈ breakAnywhere then .breakAnywhere else .keepTogether

def text : Wrap → String
  | .breakAnywhere => "break-anywhere"
  | .keepTogether => "keep-together"

def ofText? (s : String) : Option Wrap :=
  if s = "break-anywhere" then some .breakAnywhere
  else if s = "keep-together" then some .keepTogether
  else none

def toJson (w : Wrap) : Json := .string w.text

/-- The name itself, or an object that has it as its one key over `null`. -/
def ofJson? : Json → Option Wrap
  | .string s => ofText? s
  | .object [(s, .null)] => ofText? s
  | _ => none

end Wrap
end Phrasebook
