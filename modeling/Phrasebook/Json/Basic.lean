import Phrasebook.Decimal.Shortest
import Phrasebook.Dict
import Phrasebook.Text.Hex

/-! JSON values and their compact text. An object keeps its fields in order and a field may be
repeated; the canonical form of a value has each object's fields sorted, the last of equal ones. -/
namespace Phrasebook
open Decimal Text

inductive Json where
  | null
  | bool (value : Bool)
  | int (value : Int)
  | float (value : Double)
  | string (value : String)
  | array (items : List Json)
  | object (fields : List (String × Json))
  deriving Repr, Inhabited

namespace Json

mutual

def canonical : Json → Json
  | .array items => .array (canonicalItems items)
  | .object fields => .object (Dict.ofList (canonicalFields fields)).entries
  | v => v

def canonicalItems : List Json → List Json
  | [] => []
  | v :: rest => canonical v :: canonicalItems rest

def canonicalFields : List (String × Json) → List (String × Json)
  | [] => []
  | (k, v) :: rest => (k, canonical v) :: canonicalFields rest

end

/-- The values under a name, in order. -/
def fieldsNamed (name : String) (fields : List (String × Json)) : List Json :=
  (fields.filter fun e => e.1 == name).map Prod.snd

def escaped (c : Char) : List Char :=
  match c with
  | '"' => ['\\', '"']
  | '\\' => ['\\', '\\']
  | '\x08' => ['\\', 'b']
  | '\x0c' => ['\\', 'f']
  | '\n' => ['\\', 'n']
  | '\r' => ['\\', 'r']
  | '\t' => ['\\', 't']
  | c =>
    if c.toNat < 0x20 then
      ['\\', 'u', '0', '0', lowerHexDigit (c.toNat / 16), lowerHexDigit (c.toNat % 16)]
    else [c]

/-- Text in quotes; only quotes, backslashes and controls are escaped. -/
def quoted (s : String) : String :=
  String.ofList ('"' :: s.toList.flatMap escaped ++ ['"'])

/-- Numbers are written in full from `10 ^ -5` to below `10 ^ 16`. -/
def numberStyle : Style :=
  ⟨fun e => -5 ≤ e && e ≤ 15, true, true, false, "null", "null"⟩

mutual

/-- The value without blanks. -/
def text : Json → String
  | .null => "null"
  | .bool b => if b then "true" else "false"
  | .int i => toString i
  | .float x => numberStyle.text x
  | .string s => quoted s
  | .array items => "[" ++ ",".intercalate (itemTexts items) ++ "]"
  | .object fields => "\x7b" ++ ",".intercalate (fieldTexts fields) ++ "\x7d"

def itemTexts : List Json → List String
  | [] => []
  | v :: rest => text v :: itemTexts rest

def fieldTexts : List (String × Json) → List String
  | [] => []
  | (k, v) :: rest => (quoted k ++ ":" ++ text v) :: fieldTexts rest

end

end Json
end Phrasebook
