import Phrasebook.Data.Basic
import Phrasebook.Decimal.Reader

/-! Scalars as the fields of a record read them. An unquoted scalar is any text for a field of text,
and a truth value, a number or nothing where it has the spelling of one. -/
namespace Phrasebook.Data
open Decimal

def bareBool? (s : String) : Option Bool :=
  if s ∈ ["true", "True", "TRUE"] then some true
  else if s ∈ ["false", "False", "FALSE"] then some false
  else none

def isBareNull (s : String) : Bool := s ∈ ["~", "null", "Null", "NULL"]

/-- A finite decimal, or an infinity or no number under a name of its own. A plus may stand before a
number but not before another sign. -/
def bareNumber? (s : String) : Option Double :=
  let body := match s.toList with
    | '+' :: rest => String.ofList rest
    | _ => s
  if s.toList.head? = some '+' && (body.toList.head? == some '+' || body.toList.head? == some '-')
  then none
  else if body ∈ [".inf", ".Inf", ".INF"] then some (.infinite false)
  else if s ∈ ["-.inf", "-.Inf", "-.INF"] then some (.infinite true)
  else if s ∈ [".nan", ".NaN", ".NAN"] then some .nan
  else (Binary.parse? body).filter Binary.isFinite

def text? : Data → Option String
  | .string s => some s
  | .bare s => some s
  | _ => none

def bool? : Data → Option Bool
  | .bool b => some b
  | .bare s => bareBool? s
  | _ => none

/-- A number rounded to binary32; a fraction is rounded to binary64 before. -/
def single? : Data → Option Single
  | .int i => some (.ofInt i)
  | .double x => some x.convert
  | .single x => some x
  | .bare s => (bareNumber? s).map Binary.convert
  | _ => none

/-- A text that may be left out. -/
def optionalText? : Data → Option (Option String)
  | .null => some none
  | .string s => some (some s)
  | .bare s => some (if s = "" || isBareNull s then none else some s)
  | _ => none

/-- The items of a list; an empty bare scalar is an empty list. -/
def items? : Data → Option (List Data)
  | .list items => some items
  | .bare s => if s = "" then some [] else none
  | _ => none

def texts? (d : Data) : Option (List String) := d.items?.bind (·.mapM text?)

def textField? (e : String × Data) : Option (String × String) := e.2.text?.map fun s => (e.1, s)

/-- A table of texts, in which the last of equal names stays. -/
def table? : Data → Option (Dict String)
  | .record fields => (fields.mapM textField?).map Dict.ofList
  | .bare s => if s = "" then some .empty else none
  | _ => none

/-- The fields of a record with the given names. Where positions are read, a list holds the first
ones of them in order. -/
def fields? (positional : Bool) (names : List String) : Data → Option (List (String × Data))
  | .record fields => some fields
  | .list items =>
    if positional && items.length ≤ names.length then some (names.zip items) else none
  | .bare s => if s = "" then some [] else none
  | _ => none

/-- A field that stands at most once; without it the record has the standard value. -/
def field {α : Type} (name : String) (read : Data → Option α) (standard : Option α)
    (fields : List (String × Data)) : Option α :=
  match under name fields with
  | [] => standard
  | [d] => read d
  | _ => none

end Phrasebook.Data
