import Phrasebook.Data.Basic
import Phrasebook.Json.Reader

/-! JSON documents as data. What no field reads need not have a value; it only has to be well formed,
and may be nested without a limit. -/
namespace Phrasebook.Json
open Decimal

def laxBuilder : Builder Data :=
  ⟨false, .null, .bool, .int, .double, .string, .list, .record, .unreadable⟩

def document? (text : String) : Option Data :=
  let cs := text.toList
  (whole (value laxBuilder cs.length) cs).toOption

/-- Numbers of binary32 are written in full from `10 ^ -6` to below `10 ^ 13`. -/
def singleStyle : Style := ⟨fun e => -6 ≤ e && e ≤ 12, true, true, false, "null", "null"⟩

def singleText (x : Single) : String := if x.isFinite then singleStyle.text x else "null"

def scalarText : Data → String
  | .bool b => if b then "true" else "false"
  | .int i => toString i
  | .double x => if x.isFinite then numberStyle.text x else "null"
  | .single x => singleText x
  | .string s => quoted s
  | .bare s => quoted s
  | _ => "null"

mutual

/-- The data without blanks. -/
def compact : Data → String
  | .list items => "[" ++ ",".intercalate (compactItems items) ++ "]"
  | .record fields => "\x7b" ++ ",".intercalate (compactFields fields) ++ "\x7d"
  | d => scalarText d

def compactItems : List Data → List String
  | [] => []
  | d :: rest => compact d :: compactItems rest

def compactFields : List (String × Data) → List String
  | [] => []
  | (k, d) :: rest => (quoted k ++ ":" ++ compact d) :: compactFields rest

end

def indent (depth : Nat) : String := String.ofList (List.replicate (2 * depth) ' ')

/-- Parts on lines of their own between brackets; without parts the brackets are one word. -/
def bracketed (opening closing : String) (depth : Nat) (parts : List String) : String :=
  if parts.isEmpty then opening ++ closing
  else opening ++ "\n" ++ ",\n".intercalate (parts.map fun p => indent (depth + 1) ++ p) ++ "\n" ++
    indent depth ++ closing

mutual

/-- The data with each item and each field on a line of its own. -/
def pretty (depth : Nat) : Data → String
  | .list items => bracketed "[" "]" depth (prettyItems (depth + 1) items)
  | .record fields => bracketed "\x7b" "\x7d" depth (prettyFields (depth + 1) fields)
  | d => scalarText d

def prettyItems (depth : Nat) : List Data → List String
  | [] => []
  | d :: rest => pretty depth d :: prettyItems depth rest

def prettyFields (depth : Nat) : List (String × Data) → List String
  | [] => []
  | (k, d) :: rest => (quoted k ++ ": " ++ pretty depth d) :: prettyFields depth rest

end

end Phrasebook.Json
