import Phrasebook.Console

/-! A whole session: the settings are found and loaded, the console is opened, and lines are answered
until the input ends or a line quits. -/
namespace Phrasebook.Session

/-- The environment variable that names the file of the settings. -/
def pathVariable : String := "GLOSSA_CONFIG"

def standardPath : Path := "glossa.yaml"

def settingsPath (env : Locale.Environment) : Path :=
  ((env.get? pathVariable).map Path.ofText).getD standardPath

/-- Why a session did not start. -/
inductive Failure where
  | settings (path : Path) (error : Settings.StoreError)
  | log (folder : Path) (fault : FileFault)
  | console (error : StartError)
  deriving DecidableEq, Repr

def Failure.message : Failure → String
  | .settings path _ => "failed to load " ++ path.display
  | .log folder _ => "failed to open a log in " ++ folder.display
  | .console _ => "failed to start the localization engine"

def Failure.cause : Failure → String
  | .settings _ e => e.message
  | .log _ fault => fault.message
  | .console e => e.message

/-- A session that cannot write its log does not end like others. -/
def Failure.label : Failure → String
  | .log _ _ => "Aborted: "
  | _ => "Error: "

/-- What is reported of a failure. -/
def Failure.report (f : Failure) : String :=
  f.label ++ f.message ++ "\n\nCaused by:\n    " ++ f.cause

/-- The exit code of the program after a failure. -/
def Failure.code : Failure → Nat
  | .log _ _ => 101
  | _ => 1

/-- The environment variables that a session looks at. -/
def variableNames : List String := pathVariable :: "LANGUAGE" :: Locale.platformVariables

variable {m : Type → Type} [Monad m]

/-- The log has a file a day. -/
def logName (day : String) : Path := .ofText ("glossa.log." ++ day)

/-- Makes the folder of the log. The names of all days are equally long, so that any of them tells
whether they fit. -/
def openLog (files : Files m) (folder : Path) : m (Except FileFault Unit) := do
  let path := folder.join (logName "0000-00-00")
  match ← files.createFolders path.folder with
  | .error e => return .error e
  | .ok _ => return (← files.isPresent path).map fun _ => ()

def openLogIn (files : Files m) : Option Path → m (Except FileFault Unit)
  | none => pure (.ok ())
  | some folder => openLog files folder

/-- Opens the console on the settings that the environment names. The log is opened as soon as the
settings are known. -/
def start (files : Files m) (env : Locale.Environment) : m (Except Failure Console) := do
  let path := settingsPath env
  match ← Settings.loadOrStandard files path with
  | .error e => return .error (.settings path e)
  | .ok settings =>
    let folder := settings.logging.directory
    match ← openLogIn files folder with
    | .error e => return .error (.log (folder.getD "") e)
    | .ok _ =>
      match ← Console.open? files settings (Locale.system env) with
      | .error e => return .error (.console e)
      | .ok c => return .ok { c with file := some path }

/-- What is printed for the result of a line; nothing is printed for the end. -/
inductive Reply where
  | none
  | line (text : String)
  | stop

def replyTo : Except LineError (Option Outcome) → Reply
  | .ok none => .none
  | .ok (some (.output text)) => .line text
  | .ok (some .quit) => .stop
  | .error e => .line ("error: " ++ e.message)

/-- The lines printed for the lines of an input. -/
def run (files : Files m) (c : Console) : List String → m (List String)
  | [] => pure []
  | line :: rest => do
    let (c, result) ← c.handle files line
    match replyTo result with
    | .none => run files c rest
    | .line text => return text :: (← run files c rest)
    | .stop => pure []

/-- A line without the carriage return that stood before its line feed. -/
def lineText (cs : List Char) : String :=
  String.ofList (if cs.getLast? == some '\r' then cs.dropLast else cs)

/-- The lines of an input; each ends at a line feed, and the last one may do without. -/
def inputLines (text : String) : List String :=
  let pieces := Text.splitAll (· == '\n') text.toList
  let last := pieces.getLastD []
  pieces.dropLast.map lineText ++ if last.isEmpty then [] else [String.ofList last]

end Phrasebook.Session
