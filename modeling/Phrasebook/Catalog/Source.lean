import Phrasebook.Json.Reader

/-! A phrasebook as it is written: a forest of groups and entries, read from JSON. A node is a group
if it has the shape of one and else an entry. -/
namespace Phrasebook

inductive Node where
  | group (children : List Node)
  | entry (id : String) (texts : Dict String)

namespace Node
open Json

def textField? : String × Json → Option (String × String)
  | (language, .string text) => some (language, text)
  | _ => none

/-- The texts of an entry by language; the last of equal languages stays. -/
def texts? : Json → Option (Dict String)
  | .object fields => (fields.mapM textField?).map Dict.ofList
  | _ => none

/-- The entry that an object spells; each of its two fields stands once. -/
def entry? (fields : List (String × Json)) : Option Node :=
  match fieldsNamed "id" fields, fieldsNamed "contents" fields with
  | [.string id], [contents] => (texts? contents).map (.entry id)
  | _, _ => none

mutual

def ofJson? : Json → Option Node
  | .object fields =>
    match childLists fields with
    | [some children] => some (.group children)
    | _ => entry? fields
  | _ => none

/-- What each field named `children` holds. -/
def childLists : List (String × Json) → List (Option (List Node))
  | [] => []
  | (key, .array items) :: rest =>
    if key = "children" then allOfJson? items :: childLists rest else childLists rest
  | (key, _) :: rest => if key = "children" then none :: childLists rest else childLists rest

def allOfJson? : List Json → Option (List Node)
  | [] => some []
  | v :: rest =>
    match ofJson? v, allOfJson? rest with
    | some node, some nodes => some (node :: nodes)
    | _, _ => none

end

mutual

def toJson : Node → Json
  | .group children => .object [("children", .array (allToJson children))]
  | .entry id texts => .object [("id", .string id),
      ("contents", .object (texts.entries.map fun (language, text) => (language, .string text)))]

def allToJson : List Node → List Json
  | [] => []
  | node :: rest => toJson node :: allToJson rest

end

/-- Reads one node whole before its shape is looked at. -/
def scan : Scan Node := fun cs => do
  let (v, rest) ← value builder (maxDepth - 1) cs
  match ofJson? v with
  | some node => .ok (node, rest)
  | none => .error .unfit

/-- Reads the forest. Another value than an array does not fit as soon as its kind is known. -/
def scanForest : Scan (List Node) := fun cs =>
  match skip cs with
  | '[' :: rest => arrayTail scan rest
  | '{' :: _ => .error .unfit
  | rest => do
    let _ ← valueWith builder none rest
    .error .unfit

/-- The forest that a text spells. -/
def parseForest (text : String) : Except Fault (List Node) := whole scanForest text.toList

end Node
end Phrasebook
