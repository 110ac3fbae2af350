import Phrasebook.Decimal.Shortest
import Phrasebook.Data.Basic
import Phrasebook.Toml.Quoted

/-! Data as TOML. The simple fields of a table stand before its tables, each of which has a section
under a header of its own, with a blank line between sections. A field without a value is left out. -/
namespace Phrasebook.Toml
open Decimal

/-- Numbers are written in full, with a point. -/
def numberStyle : Style := ⟨fun _ => true, true, false, true, "nan", "inf"⟩

/-- Two items or more stand on lines of their own. -/
def listText (texts : List String) : String :=
  if texts.length ≤ 1 then "[" ++ "".intercalate texts ++ "]"
  else "[" ++ String.join (texts.map fun t => "\n    " ++ t ++ ",") ++ "\n]"

def inlineTableText (pairs : List String) : String :=
  if pairs.isEmpty then "\x7b\x7d" else "\x7b " ++ ", ".intercalate pairs ++ " \x7d"

mutual

/-- A value on the line of its key. A number of binary32 is written as one of binary64. -/
def valueText : Data → String
  | .null => ""
  | .bool b => if b then "true" else "false"
  | .int i => toString i
  | .double x => numberStyle.text x
  | .single x => numberStyle.text (x.convert : Double)
  | .string s => quotedText s
  | .bare s => quotedText s
  | .unreadable => ""
  | .list items => listText (valueTexts items)
  | .record fields => inlineTableText (pairTexts fields)

def valueTexts : List Data → List String
  | [] => []
  | d :: rest => valueText d :: valueTexts rest

def pairTexts : List (String × Data) → List String
  | [] => []
  | (_, .null) :: rest => pairTexts rest
  | (k, d) :: rest => (keyText k ++ " = " ++ valueText d) :: pairTexts rest

end

def isRecord : Data → Bool
  | .record _ => true
  | _ => false

/-- Fields that have sections: tables and lists of tables. -/
def hasSection : Data → Bool
  | .record _ => true
  | .list items => !items.isEmpty && items.all isRecord
  | _ => false

def simpleLines (fields : List (String × Data)) : List String :=
  pairTexts (fields.filter fun e => !hasSection e.2)

def pathText (path : List String) : String := ".".intercalate (path.map keyText)

/-- The header of a table, or of a table in a list. -/
def header (inList : Bool) (path : List String) : String :=
  if inList then "[[" ++ pathText path ++ "]]" else "[" ++ pathText path ++ "]"

/-- The section of a table without the tables in it. It is needless where there is nothing else, unless
the table stands in a list. -/
def ownSection (inList : Bool) (path : List String) (fields : List (String × Data)) : List String :=
  let lines := simpleLines fields
  if !inList && lines.isEmpty && !fields.isEmpty then []
  else [String.join ((header inList path :: lines).map (· ++ "\n"))]

mutual

/-- The sections of the value at a path. -/
def sectionsAt (inList : Bool) (path : List String) : Data → List String
  | .record fields => ownSection inList path fields ++ sections path fields
  | .list items => if !inList && hasSection (.list items) then itemSections path items else []
  | _ => []

/-- The sections of the tables among the fields of the table at a path. -/
def sections (path : List String) : List (String × Data) → List String
  | [] => []
  | (k, d) :: rest => sectionsAt false (path ++ [k]) d ++ sections path rest

def itemSections (path : List String) : List Data → List String
  | [] => []
  | d :: rest => sectionsAt true path d ++ itemSections path rest

end

/-- The document of a table. -/
def print : Data → String
  | .record fields =>
    let lines := simpleLines fields
    let own := if lines.isEmpty then [] else [String.join (lines.map (· ++ "\n"))]
    "\n".intercalate (own ++ sections [] fields)
  | d => valueText d

end Phrasebook.Toml
