import Phrasebook.Text.Bytes
import Phrasebook.Yaml.Spelling

/-! Data as YAML in block style. A list under a key is not indented further than the key. -/
namespace Phrasebook.Yaml
open Decimal

/-- Numbers of binary32 are written in full from `10 ^ -6` to below `10 ^ 13`. -/
def singleStyle : Style := ⟨fun e => -6 ≤ e && e ≤ 12, true, false, false, ".nan", ".inf"⟩

/-- Numbers of binary64 are written in full from `10 ^ -5` to below `10 ^ 16`. -/
def doubleStyle : Style := ⟨fun e => -5 ≤ e && e ≤ 15, true, false, false, ".nan", ".inf"⟩

def scalarText (indent : Nat) : Data → String
  | .bool b => if b then "true" else "false"
  | .int i => toString i
  | .double x => doubleStyle.text x
  | .single x => singleStyle.text x
  | .string s => spelled indent s
  | .bare s => s
  | _ => "null"

def indentation (n : Nat) : String := String.ofList (spaces n)

/-- Goes to a new line, unless the text has gone there already. -/
def newLine (text : String) : String :=
  if text.toList.getLast?.any isBreak then text else text ++ "\n"

/-- Entries of a block, each but the first on a new line. -/
def lined (indent : Nat) : List String → String
  | [] => ""
  | [entry] => entry
  | entry :: rest => newLine entry ++ indentation indent ++ lined indent rest

/-- A key up to its colon. A long one, or one of several lines, is written after a question mark. -/
def keyText (indent : Nat) (name : String) : String :=
  if name.toList.any isBreak || 128 < Text.byteLength name.toList then
    newLine ("? " ++ spelled (indent + 2) name) ++ indentation indent ++ ":"
  else spelled (indent + 2) name ++ ":"

mutual

/-- What follows the colon of a key in a block at an indentation. -/
def afterKey (indent : Nat) : Data → String
  | .list [] => " []"
  | .record [] => " \x7b\x7d"
  | .list items => "\n" ++ indentation indent ++ lined indent (itemTexts indent items)
  | .record fields =>
    "\n" ++ indentation (indent + 2) ++ lined (indent + 2) (fieldTexts (indent + 2) fields)
  | d => " " ++ scalarText (indent + 2) d

/-- What follows the hyphen of an item. -/
def afterHyphen (indent : Nat) : Data → String
  | .list [] => "[]"
  | .record [] => "\x7b\x7d"
  | .list items => lined (indent + 2) (itemTexts (indent + 2) items)
  | .record fields => lined (indent + 2) (fieldTexts (indent + 2) fields)
  | d => scalarText (indent + 2) d

def itemTexts (indent : Nat) : List Data → List String
  | [] => []
  | d :: rest => ("- " ++ afterHyphen indent d) :: itemTexts indent rest

def fieldTexts (indent : Nat) : List (String × Data) → List String
  | [] => []
  | (k, d) :: rest => (keyText indent k ++ afterKey indent d) :: fieldTexts indent rest

end

/-- The document of a value. -/
def print : Data → String
  | .record [] => "\x7b\x7d\n"
  | .list [] => "[]\n"
  | .record fields => newLine (lined 0 (fieldTexts 0 fields))
  | .list items => newLine (lined 0 (itemTexts 0 items))
  | d => newLine (scalarText 2 d)

end Phrasebook.Yaml
