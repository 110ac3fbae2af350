import Phrasebook.Catalog.Source
import Phrasebook.Template

/-! The flat table of entries by id, and the compilation of their texts. -/
namespace Phrasebook

structure Entry where
  id : String
  contents : Dict Content
  deriving DecidableEq

/-- Compiles the text in one language, if there is one. -/
def Entry.compileIn (e : Entry) (language : String) : Entry :=
  { e with contents := e.contents.modify language Content.compiled }

structure Catalog where
  entries : Dict Entry
  deriving DecidableEq

namespace Catalog

def empty : Catalog := ⟨.empty⟩

/-- An entry takes the place of an earlier one with its id. -/
def addEntry (c : Catalog) (id : String) (texts : Dict String) : Catalog :=
  ⟨c.entries.insert id ⟨id, texts.map fun _ raw => .fixed raw⟩⟩

mutual

/-- Adds the entries below a node, depth first. -/
def add (c : Catalog) : Node → Catalog
  | .group children => addAll c children
  | .entry id texts => c.addEntry id texts

def addAll (c : Catalog) : List Node → Catalog
  | [] => c
  | node :: rest => addAll (add c node) rest

end

def ofForest (nodes : List Node) : Catalog := addAll empty nodes

/-- Compiles the texts in the given languages. -/
def compileAll (c : Catalog) (languages : List String) : Catalog :=
  ⟨c.entries.map fun _ e => languages.foldl Entry.compileIn e⟩

def content? (c : Catalog) (id language : String) : Option Content :=
  (c.entries.get? id).bind fun e => e.contents.get? language

def contains (c : Catalog) (id : String) : Bool := c.entries.contains id

def size (c : Catalog) : Nat := c.entries.size

/-- In increasing order. -/
def ids (c : Catalog) : List String := c.entries.keys

/-- The languages an entry has text in, in increasing order. -/
def languagesOf (c : Catalog) (id : String) : List String :=
  match c.entries.get? id with
  | some e => e.contents.keys
  | none => []

/-- Every id with every language of the list that it has no text in. -/
def missing (c : Catalog) (languages : List String) : List (String × String) :=
  c.entries.entries.flatMap fun (id, e) =>
    (languages.filter fun l => !e.contents.contains l).map fun l => (id, l)

end Catalog
end Phrasebook
