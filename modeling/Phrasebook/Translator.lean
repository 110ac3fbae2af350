import Phrasebook.Catalog
import Phrasebook.Negotiation

/-! The read path from an id to its text in the active language. The catalog and the offer never
change after the start; only the selection of the language does. -/
namespace Phrasebook

/-- What was asked for and the language that stands for it. -/
structure Selection where
  requested : Request
  active : Language
  deriving DecidableEq, Repr

structure Translator where
  catalog : Catalog
  offer : Offer
  /-- The reported locale. -/
  locale : String
  selection : Selection
  deriving DecidableEq

namespace Translator

/-- The catalog is compiled for the configured languages, and the first request is resolved. -/
def start (forest : List Node) (offer : Offer) (locale : String) (r : Request) : Translator where
  catalog := (Catalog.ofForest forest).compileAll (offer.languages.map Language.name)
  offer := offer
  locale := locale
  selection := ⟨r, offer.choose locale r⟩

def active (t : Translator) : Language := t.selection.active

def requested (t : Translator) : Request := t.selection.requested

def getIn (t : Translator) (v : Values Id) (id language : String) : Option String :=
  (t.catalog.content? id language).map (Content.read v)

/-- The text of an id in the active language, if there is one. -/
def get (t : Translator) (v : Values Id) (id : String) : Option String :=
  t.getIn v id t.active.name

/-- A piece of a text; an entry without text leaves its tag as it is. -/
def expandPiece (t : Translator) (v : Values Id) : Tag.Piece → List Char
  | .plain text => text
  | .tag key =>
    match t.get v (String.ofList key) with
    | some text => text.toList
    | none => Tag.entryOpener ++ key ++ ['>']

/-- Puts entries in the place of their tags, once: a text put in is not searched again. -/
def expand (t : Translator) (v : Values Id) (text : String) : String :=
  String.ofList ((Tag.pieces Tag.entryOpener text.toList).flatMap (t.expandPiece v))

def text (t : Translator) (v : Values Id) (id : String) : Option String :=
  (t.get v id).map (t.expand v)

/-- Resolves and keeps a request; one that is kept already changes nothing. -/
def select (t : Translator) (r : Request) : Option Translator :=
  if t.requested = r then none
  else some { t with selection := ⟨r, t.offer.choose t.locale r⟩ }

end Translator
end Phrasebook
