import Phrasebook.Data.Basic

/-! Tables of a TOML document while it is read. No name is given a second value, and how a table came
about decides what may still be added to it. -/
namespace Phrasebook.Toml

/-- A table stands under a header, is implied by a longer header or is made by a dotted key. -/
inductive Origin where
  | header
  | implied
  | dotted
  deriving DecidableEq, Repr

inductive Node where
  | value (data : Data)
  | table (origin : Origin) (entries : List (String × Node))
  /-- Tables in a list; headers and keys go to the last one. The others are in reverse. -/
  | tables (last : List (String × Node)) (earlier : List (List (String × Node)))
  deriving Inhabited

abbrev Entries := List (String × Node)

namespace Entries

def find? (es : Entries) (name : String) : Option Node :=
  (List.find? (fun e => e.1 == name) es).map Prod.snd

/-- Gives a name a node, in the place of its old one if it has one. -/
def put (es : Entries) (name : String) (node : Node) : Entries :=
  match es with
  | [] => [(name, node)]
  | e :: rest => if e.1 = name then (name, node) :: rest else e :: put rest name node

/-- Changes the table at a path and makes the tables that are missing on the way. A dotted key does
not pass through a table that has a header. -/
def changeAt (dotted : Bool) (change : Origin → Entries → Option Entries) :
    List String → Origin → Entries → Option Entries
  | [], origin, es => change origin es
  | name :: path, _, es =>
    match es.find? name with
    | none =>
      let origin := if dotted then .dotted else .implied
      (changeAt dotted change path origin []).map fun inner => es.put name (.table origin inner)
    | some (.value _) => none
    | some (.table origin inner) =>
      if dotted && origin == .header then none
      else (changeAt dotted change path origin inner).map fun inner =>
        es.put name (.table origin inner)
    | some (.tables last earlier) =>
      (changeAt dotted change path .header last).map fun last => es.put name (.tables last earlier)

/-- Gives the dotted key `path`, `name` a value. Only tables made by dotted keys take one by a longer
key; the table at hand counts as one. -/
def assign (path : List String) (name : String) (data : Data) (es : Entries) : Option Entries :=
  changeAt true (fun origin inner =>
    if origin = .dotted ∧ (inner.find? name).isNone then some (inner.put name (.value data))
    else none) path .dotted es

/-- Assigns within the table of a header. -/
def assignUnder (header path : List String) (name : String) (data : Data) (es : Entries) :
    Option Entries :=
  changeAt false (fun _ inner => inner.assign path name data) header .header es

/-- The table of a header is new or was implied by another header. -/
def openTable (path : List String) (name : String) (es : Entries) : Option Entries :=
  changeAt false (fun _ inner =>
    match inner.find? name with
    | none => some (inner.put name (.table .header []))
    | some (.table .implied below) => some (inner.put name (.table .header below))
    | some _ => none) path .header es

/-- A header of double brackets adds a table to a list. -/
def openItem (path : List String) (name : String) (es : Entries) : Option Entries :=
  changeAt false (fun _ inner =>
    match inner.find? name with
    | none => some (inner.put name (.tables [] []))
    | some (.tables last earlier) => some (inner.put name (.tables [] (last :: earlier)))
    | some _ => none) path .header es

end Entries

mutual

def Node.data : Node → Data
  | .value d => d
  | .table _ entries => .record (fieldsOf entries)
  | .tables last earlier => .list ((recordsOf earlier).reverse ++ [.record (fieldsOf last)])

def fieldsOf : List (String × Node) → List (String × Data)
  | [] => []
  | (name, node) :: rest => (name, node.data) :: fieldsOf rest

def recordsOf : List (List (String × Node)) → List Data
  | [] => []
  | entries :: rest => .record (fieldsOf entries) :: recordsOf rest

end

end Phrasebook.Toml
