import Phrasebook.Files.Basic

/-! A directory tree as a value, with the operations on files as state transitions. Nothing is known of
what lies outside the present folder: the folders above it and the root are there, and empty at
first. -/
namespace Phrasebook

inductive FileEntry where
  | file (bytes : ByteArray)
  | folder
  deriving Inhabited

/-- A place is told by the names that lead to it from the present folder, outermost first. Above the
present folder it begins with as many double dots as it lies higher, and from the root with a slash. -/
abbrev Place := List (List UInt8)

/-- The first entry of a place is the one that counts. -/
structure Directory where
  entries : List (Place × FileEntry)

namespace Directory
open Phrasebook.Path (slash dot isIdle isUp ofText join)

def empty : Directory := ⟨[]⟩

/-- The present folder, those above it and the root. -/
def isFixed (place : Place) : Bool := place.all isUp || place == [[slash]]

def above (place : Place) : Place :=
  if place == [[slash]] then place
  else if isFixed place then place ++ [[dot, dot]] else place.dropLast

def origin (path : Path) : Place := if path.isAbsolute then [[slash]] else []

def entry? (d : Directory) (place : Place) : Option FileEntry :=
  if isFixed place then some .folder else d.entries.lookup place

def drop (d : Directory) (place : Place) : Directory := ⟨d.entries.filter fun e => e.1 != place⟩

def put (d : Directory) (place : Place) (e : FileEntry) : Directory :=
  ⟨(place, e) :: (d.drop place).entries⟩

/-- Follows the pieces of a path. All that stands before a piece has to be a folder, also before one
that names nothing, and so before a slash at the end. -/
def walk (d : Directory) (place : Place) : List (List UInt8) → Except FileFault Place
  | [] => .ok place
  | piece :: rest =>
    match d.entry? place with
    | none => .error .notFound
    | some (.file _) => .error .notDirectory
    | some .folder =>
      if isIdle piece then walk d place rest
      else if isUp piece then walk d (above place) rest
      else if 255 < piece.length then .error .nameTooLong
      else walk d (place ++ [piece]) rest

/-- A path is not empty, holds no NUL and is shorter than 4096 bytes. -/
def checkPath (path : Path) : Except FileFault Unit :=
  if path.bytes.contains 0 then .error .nulInName
  else if path.bytes.isEmpty then .error .notFound
  else if 4096 ≤ path.bytes.length then .error .nameTooLong
  else .ok ()

/-- Where a path leads, whether or not anything is there. -/
def resolve (d : Directory) (path : Path) : Except FileFault Place := do
  checkPath path
  d.walk (origin path) path.pieces

/-- Where a path puts an entry in a folder; nowhere if its last piece only leads to a folder. -/
def slot? (d : Directory) (path : Path) : Except FileFault (Option Place) := do
  checkPath path
  let pieces := path.pieces.filter fun piece => !piece.isEmpty
  let folder ← d.walk (origin path) (pieces.dropLast ++ [[dot]])
  match pieces.getLast? with
  | none => .ok none
  | some last =>
    if isIdle last || isUp last then .ok none else (d.walk folder [last]).map some

def isPresent (d : Directory) (path : Path) : Except FileFault Bool :=
  match d.resolve path with
  | .ok place => .ok (d.entry? place).isSome
  | .error .notFound => .ok false
  | .error e => .error e

def readBytes (d : Directory) (path : Path) : Except FileFault ByteArray := do
  match d.entry? (← d.resolve path) with
  | some (.file bytes) => .ok bytes
  | some .folder => .error .isDirectory
  | none => .error .notFound

def read (d : Directory) (path : Path) : Except FileFault String := do
  match String.fromUTF8? (← d.readBytes path) with
  | some text => .ok text
  | none => .error .notText

/-- Gives a file its text. -/
def write (d : Directory) (path : Path) (bytes : ByteArray) : Except FileFault Directory := do
  let place ← d.resolve path
  match d.entry? place with
  | some .folder => .error .isDirectory
  | _ => .ok (d.put place (.file bytes))

/-- The first name for a temporary file that is not taken. -/
def freshName (d : Directory) (folder : Place) : Path :=
  let candidates := (List.range (d.entries.length + 1)).map fun n => ofText (".tmp" ++ toString n)
  (candidates.find? fun name => (d.entry? (folder ++ [name.bytes])).isNone).getD ".tmp"

/-- What is set aside in the path of a temporary file, which is told from the root, for its own name
and for the path of the present folder. -/
def temporaryReserve : Nat := 32

def createTemporary (d : Directory) (folder : Path) : Except FileFault (Path × Directory) := do
  let place ← d.resolve folder
  match d.entry? place with
  | none => .error .notFound
  | some (.file _) => .error .notDirectory
  | some .folder =>
    if 4096 ≤ folder.bytes.length + temporaryReserve then .error .nameTooLong
    else
      let name := d.freshName place
      .ok (join folder name, d.put (place ++ [name.bytes]) (.file .empty))

/-- Moves a file over the target, which is no folder and is not spelled like one. -/
def rename (d : Directory) (source target : Path) : Except FileFault Directory := do
  let bytes ← d.readBytes source
  if target.bytes.contains 0 then .error .invalidArgument
  else
    match ← d.slot? target with
    | none => .error .busy
    | some place =>
      if target.bytes.getLast? == some slash then .error .notDirectory
      else match d.entry? place with
        | some .folder => .error .isDirectory
        | _ => .ok ((d.put place (.file bytes)).drop (← d.resolve source))

def remove (d : Directory) (path : Path) : Directory :=
  match d.resolve path with
  | .ok place => d.drop place
  | .error _ => d

/-- Makes a folder of each place on the way along the pieces of a path. What was made before a fault
stays. -/
def createFoldersAt (d : Directory) (place : Place) :
    List (List UInt8) → Except FileFault Unit × Directory
  | [] => (.ok (), d)
  | piece :: rest =>
    match d.walk place [piece] with
    | .error e => (.error e, d)
    | .ok place =>
      match d.entry? place with
      | some .folder => createFoldersAt d place rest
      | some (.file _) => (.error .alreadyThere, d)
      | none => createFoldersAt (d.put place .folder) place rest

def createFolders (d : Directory) (path : Path) : Except FileFault Unit × Directory :=
  match checkPath path with
  | .error e => (.error e, d)
  | .ok _ => d.createFoldersAt (origin path) path.pieces

/-- A new state with the answer, or the old state with the fault. -/
def attempt {α : Type} (step : Directory → Except FileFault (α × Directory)) :
    StateM Directory (Except FileFault α) := fun d =>
  match step d with
  | .ok (x, d') => (.ok x, d')
  | .error e => (.error e, d)

/-- The operations on files as transitions of a directory. -/
def files : Files (StateM Directory) where
  isPresent path d := (d.isPresent path, d)
  read path d := (d.read path, d)
  createTemporary folder := attempt (·.createTemporary folder)
  write path text := attempt fun d => (d.write path text.toUTF8).map ((), ·)
  sync _ d := (.ok (), d)
  rename source target := attempt fun d => (d.rename source target).map ((), ·)
  remove path d := ((), d.remove path)
  createFolders path d := d.createFolders path

end Directory
end Phrasebook
