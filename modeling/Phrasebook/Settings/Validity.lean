import Phrasebook.Settings.Basic
import Phrasebook.Settings.Identifier

/-! Which settings are valid. Only the list of languages matters, and the first fault is reported. -/
namespace Phrasebook.Settings
open Decimal

inductive Problem where
  | noLanguage
  | duplicate (name : String)
  | identifier (name : String)
  | scale (name : String) (factor : Single)
  deriving DecidableEq, Repr

def Problem.message : Problem → String
  | .noLanguage => "At least one language must be configured"
  | .duplicate name => "Language '" ++ name ++ "' is configured more than once"
  | .identifier name => "Invalid language identifier: " ++ name
  | .scale name factor =>
    "Scale for language '" ++ name ++ "' must be a positive number, got " ++ factor.text

/-- The fault of a language after languages of the names `seen`. -/
def fault? (seen : List String) (l : Language) : Option Problem :=
  if l.name ∈ seen then some (.duplicate l.name)
  else if !Identifier.isValid l.name then some (.identifier l.name)
  else if !l.scale.isPositive then some (.scale l.name l.scale)
  else none

def checkFrom (seen : List String) : List Language → Except Problem Unit
  | [] => .ok ()
  | l :: rest =>
    match fault? seen l with
    | some p => .error p
    | none => checkFrom (l.name :: seen) rest

def checkLanguages : List Language → Except Problem Unit
  | [] => .error .noLanguage
  | ls => checkFrom [] ls

def check (s : Settings) : Except Problem Unit := checkLanguages s.localization.languages

end Phrasebook.Settings
