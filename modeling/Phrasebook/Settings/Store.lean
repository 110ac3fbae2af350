import Phrasebook.Files.Basic
import Phrasebook.Settings.Format
import Phrasebook.Settings.Validity

/-! Settings in a file. They are written to a temporary file beside it, which then takes its place, so
that a failure leaves the old file as it was. -/
namespace Phrasebook.Settings

inductive StoreError where
  | extension (path : Path)
  | invalid (problem : Problem)
  | unreadable
  /-- A path in the settings is no text. -/
  | unwritable
  | file (fault : FileFault)
  /-- No temporary file could be made in a folder. -/
  | temporary (folder : Path) (fault : FileFault)
  deriving DecidableEq, Repr

def StoreError.message : StoreError → String
  | .extension path => "Configuration error: Unsupported configuration file extension: " ++ path.display
  | .invalid problem => "Configuration error: " ++ problem.message
  | .unreadable => "Serialization error: not the settings of this program"
  | .unwritable => "Serialization error: path contains invalid UTF-8 characters"
  | .file fault => "I/O error: " ++ fault.message
  | .temporary folder fault => "I/O error: " ++ fault.message ++ " at path \"" ++ folder.display ++ "\""

def formatOf (path : Path) : Except StoreError Format :=
  match Format.ofPath? path with
  | some f => .ok f
  | none => .error (.extension path)

/-- Valid settings that a text spells. -/
def decode (f : Format) (text : String) : Except StoreError Settings :=
  match f.parse? text with
  | none => .error .unreadable
  | some s =>
    match s.check with
    | .ok _ => .ok s
    | .error problem => .error (.invalid problem)

variable {m : Type → Type} [Monad m]

/-- The extension is looked at before the file is. -/
def load (files : Files m) (path : Path) : m (Except StoreError Settings) :=
  match formatOf path with
  | .error e => pure (.error e)
  | .ok f => do
    match ← files.read path with
    | .error e => return .error (.file e)
    | .ok text => return decode f text

/-- Standard settings stand for a file that does not exist. -/
def loadOrStandard (files : Files m) (path : Path) : m (Except StoreError Settings) := do
  match ← files.isPresent path with
  | .error e => return .error (.file e)
  | .ok true => load files path
  | .ok false => return .ok standard

/-- Fills a temporary file and moves it to its place. -/
def fill (files : Files m) (temporary path : Path) (text : String) : m (Except FileFault Unit) := do
  match ← files.write temporary text with
  | .error e => return .error e
  | .ok _ =>
    match ← files.sync temporary with
    | .error e => return .error e
    | .ok _ => files.rename temporary path

def writeAtomically (files : Files m) (path : Path) (text : String) : m (Except StoreError Unit) := do
  let folder := path.folder
  match ← files.createTemporary folder with
  | .error e => return .error (.temporary folder e)
  | .ok temporary =>
    match ← fill files temporary path text with
    | .ok _ => return .ok ()
    | .error e =>
      files.remove temporary
      return .error (.file e)

/-- Nothing is written before the whole text is known. -/
def save (files : Files m) (path : Path) (s : Settings) : m (Except StoreError Unit) :=
  match formatOf path with
  | .error e => pure (.error e)
  | .ok f =>
    match f.render? s with
    | none => pure (.error .unwritable)
    | some text => writeAtomically files path text

end Phrasebook.Settings
