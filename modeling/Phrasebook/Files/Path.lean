import Phrasebook.Text.Blank
import Phrasebook.Text.Bytes

/-! Paths and their parts. A path is made of bytes, which are often those of a text but need not be. -/
namespace Phrasebook

@[ext] structure Path where
  bytes : List UInt8
  deriving DecidableEq, Repr

namespace Path
open Text

@[coe] def ofText (text : String) : Path := ⟨Text.bytes text⟩

instance : Coe String Path := ⟨ofText⟩

/-- The text of a path, if it has one. -/
def text? (path : Path) : Option String := ofBytes? path.bytes

/-- How a path is shown, where replacement characters stand for what is no text. -/
def display (path : Path) : String := lossy path.bytes

def slash : UInt8 := 0x2F

def dot : UInt8 := 0x2E

/-- What stands between the slashes of a path. -/
def pieces (path : Path) : List (List UInt8) := splitAll (· == slash) path.bytes

/-- A piece that names nothing: empty or a single dot. -/
def isIdle (piece : List UInt8) : Bool := piece.isEmpty || piece == [dot]

/-- A piece that names the folder above. -/
def isUp (piece : List UInt8) : Bool := piece == [dot, dot]

/-- The names in a path; repeated slashes and single dots do not count. -/
def names (path : Path) : List (List UInt8) := (pieces path).filter fun piece => !isIdle piece

def isAbsolute (path : Path) : Bool := path.bytes.head? == some slash

/-- The last name, unless it leads upwards. -/
def fileName? (path : Path) : Option (List UInt8) :=
  (names path).getLast?.filter fun name => !isUp name

/-- What follows the last dot of a file name that does not begin there. -/
def extension? (path : Path) : Option (List UInt8) :=
  (fileName? path).bind fun name =>
    let (after, before) := name.reverse.span (· != dot)
    if before.length ≤ 1 then none else some after.reverse

/-- The folder that holds the file of a path, spelled as in the path. -/
def folder (path : Path) : Path :=
  let before := (((pieces path).reverse.dropWhile isIdle).drop 1).dropWhile isIdle
  let spelled := [slash].intercalate before.reverse
  if !spelled.isEmpty then ⟨spelled⟩ else if isAbsolute path then "/" else "."

/-- The path of a file in a folder; an empty one stands for the present folder. -/
def join (folder name : Path) : Path :=
  if folder.bytes.isEmpty || folder.bytes.getLast? == some slash then ⟨folder.bytes ++ name.bytes⟩
  else ⟨folder.bytes ++ slash :: name.bytes⟩

end Path
end Phrasebook
