import Phrasebook.Tag
import Phrasebook.Variables

/-! Text with live variables is cut once into literal segments and filler slots; reading it looks up
one value for each slot and never searches for tags again. -/
namespace Phrasebook
open Text

inductive Segment where
  | literal (text : String)
  /-- An index into the keys of the template. -/
  | filler (slot : Nat)
  deriving DecidableEq, Repr

structure Template where
  segments : List Segment
  keys : List String
  /-- The bytes of all literals. -/
  literalBytes : Nat
  deriving DecidableEq, Repr

namespace Template
open Tag

/-- Numbers the tags of a cut text from `slot` on. -/
def segmentsFrom : Nat → List Piece → List Segment
  | _, [] => []
  | slot, .plain text :: rest => .literal (String.ofList text) :: segmentsFrom slot rest
  | slot, .tag _ :: rest => .filler slot :: segmentsFrom (slot + 1) rest

def keysOf : List Piece → List String
  | [] => []
  | .plain _ :: rest => keysOf rest
  | .tag key :: rest => String.ofList key :: keysOf rest

def plainBytes : List Piece → Nat
  | [] => 0
  | .plain text :: rest => byteLength text + plainBytes rest
  | .tag _ :: rest => plainBytes rest

def ofPieces (ps : List Piece) : Template := ⟨segmentsFrom 0 ps, keysOf ps, plainBytes ps⟩

variable {m : Type → Type} [Monad m]

def segmentText (t : Template) (v : Values m) : Segment → m String
  | .literal text => pure text
  | .filler slot =>
    match t.keys[slot]? with
    | some key => do return (← v.lookup key).getD v.undefined
    | none => pure v.undefined

/-- The literals with the current value of every filler between them. -/
def read (t : Template) (v : Values m) : m String := do
  return String.join (← t.segments.mapM (t.segmentText v))

end Template

/-- The text of an entry in one language. -/
inductive Content where
  | fixed (text : String)
  | live (template : Template)
  deriving DecidableEq, Repr

namespace Content

/-- A text without variable tags stays as it is. -/
def compile (raw : String) : Content :=
  if Tag.occurs Tag.variableOpener raw.toList then
    .live (.ofPieces (Tag.pieces Tag.variableOpener raw.toList))
  else .fixed raw

/-- Compiles what has not been cut yet. -/
def compiled : Content → Content
  | .fixed raw => compile raw
  | .live t => .live t

def readM {m : Type → Type} [Monad m] (v : Values m) : Content → m String
  | .fixed text => pure text
  | .live t => t.read v

def read (v : Values Id) (c : Content) : String := Id.run (c.readM v)

def isLive : Content → Bool
  | .fixed _ => false
  | .live _ => true

end Content
end Phrasebook
