import Phrasebook.Text.Blank

/-! Language identifiers: a language, a script, a region and variants, separated by hyphens or
underscores. All but the language may be left out. -/
namespace Phrasebook.Identifier
open Text

def isLetter (c : Char) : Bool := ('a' ≤ c && c ≤ 'z') || ('A' ≤ c && c ≤ 'Z')

def isLetterOrDigit (c : Char) : Bool := isLetter c || c.isDigit

def isPlainAscii (c : Char) : Bool := c.toNat < 128 && c.toNat != 0

def isLanguage (part : List Char) : Bool :=
  part.all isLetter && (part.length == 2 || part.length == 3 ||
    (5 ≤ part.length && part.length ≤ 8))

def isScript (part : List Char) : Bool := part.all isLetter && part.length == 4

def isRegion (part : List Char) : Bool :=
  (part.length == 2 && part.all isLetter) || (part.length == 3 && part.all Char.isDigit)

/-- Four characters make a variant if the first is a digit or the other three are letters and digits;
the rest of the four may be any of ASCII. -/
def isVariant (part : List Char) : Bool :=
  if part.length = 4 then
    part.all isPlainAscii &&
      ((part.take 1).all Char.isDigit || (part.drop 1).all isLetterOrDigit)
  else 5 ≤ part.length && part.length ≤ 8 && part.all isLetterOrDigit

def areVariants (parts : List (List Char)) : Bool := parts.all isVariant

def afterScript : List (List Char) → Bool
  | [] => true
  | part :: rest => (isRegion part || isVariant part) && areVariants rest

def afterLanguage : List (List Char) → Bool
  | [] => true
  | part :: rest =>
    if isScript part then afterScript rest else (isRegion part || isVariant part) && areVariants rest

/-- The parts of a name. -/
def parts (name : String) : List (List Char) := splitAll (fun c => c == '-' || c == '_') name.toList

def isValid (name : String) : Bool :=
  match parts name with
  | language :: rest => isLanguage language && afterLanguage rest
  | [] => false

end Phrasebook.Identifier
