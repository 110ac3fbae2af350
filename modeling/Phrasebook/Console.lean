import Phrasebook.Console.Command
import Phrasebook.Console.Screen
import Phrasebook.Settings.Store

/-! The console: settings, variables, the translator and the screen, and what a line does to them. -/
namespace Phrasebook

/-- What a line yields: a text to print, or the end. -/
inductive Outcome where
  | output (text : String)
  | quit
  deriving DecidableEq, Repr

inductive LineError where
  | command (problem : Command.Problem)
  | store (error : Settings.StoreError)
  /-- There is no file to save the settings to. -/
  | noFile
  deriving DecidableEq, Repr

def LineError.message : LineError → String
  | .command problem => "Invalid command: " ++ problem.message
  | .store error => error.message
  | .noFile => "No configuration file to save to"

/-- Why a console could not start. -/
inductive StartError where
  | load (path : Path) (fault : FileFault)
  | source (fault : Json.Fault)
  deriving DecidableEq, Repr

def StartError.message : StartError → String
  | .load path fault =>
    "Localization error: Failed to load catalog file " ++ path.display ++ ": " ++ fault.message
  | .source .malformed => "Localization error: Failed to parse text catalog: malformed text"
  | .source .unfinished => "Localization error: Failed to parse text catalog: unfinished text"
  | .source .unfit => "Localization error: Failed to parse text catalog: not a list of entries"

structure Console where
  /-- With the request that was kept last. -/
  settings : Settings
  /-- The file that `save` writes to. -/
  file : Option Path
  vars : Variables
  translator : Translator
  screen : Screen
  panel : Widget

namespace Console

/-- The tree of elements as they read with the present variables. -/
def tree (c : Console) : Tree (Element Screen) := c.panel.elements (c.vars.values "")

/-- One label for each id of the catalog, in order. -/
def panelOf (ids : List String) : Widget := .panel "catalog" (ids.map .label)

/-- The console before its language has reached the screen. -/
def prepare (settings : Settings) (forest : List Node) (locale : String) : Console :=
  let l := settings.localization
  let t := Translator.start forest ⟨l.languages, l.remap⟩ locale l.language
  ⟨settings, none, .empty, t, .new, panelOf t.catalog.ids⟩

/-- Brings the active language to the screen. -/
def announce (c : Console) : Console × Display.Change :=
  let (screen, change) := Display.announce Screen.surface c.settings.localization.breakAnywhere
    c.tree c.translator c.screen
  ({ c with screen := screen }, change)

/-- Builds the console and brings the first language to its screen. -/
def start (settings : Settings) (forest : List Node) (locale : String) : Console :=
  (prepare settings forest locale).announce.1

def changeText (c : Console) : Display.Change → String
  | .unchanged => "unchanged (" ++ c.translator.active.name ++ ")"
  | .applied active => active
  | .degraded active error => active ++ " (degraded: " ++ error.message ++ ")"

/-- Selects a language; the settings keep each request that switched it. -/
def select (c : Console) (r : Request) : Console × Display.Change :=
  let (t, screen, change) := Display.setLanguage Screen.surface c.settings.localization.breakAnywhere
    c.tree r c.translator c.screen
  ({ c with
    translator := t
    screen := screen
    settings := if change.isSwitched then c.settings.withLanguage r else c.settings }, change)

def lang (c : Console) (r : Request) : Console × String :=
  let (c, change) := c.select r
  (c, c.changeText change)

/-- One line for each configured language, with a star before the active one. -/
def languageLine (active : String) (l : Language) : String :=
  (if l.name = active then "* " else "  ") ++ l.name ++ " (" ++ l.font ++ ", x" ++ l.scale.text ++ ")"

def languageLines (c : Console) : String :=
  "\n".intercalate (c.translator.offer.languages.map (languageLine c.translator.active.name))

def values (c : Console) : Values Id := c.vars.values ""

variable {m : Type → Type} [Monad m]

def save (files : Files m) (c : Console) : m (Except LineError String) :=
  match c.file with
  | none => pure (.error .noFile)
  | some path => do
    match ← Settings.save files path c.settings with
    | .ok _ => return .ok ("saved " ++ path.display)
    | .error e => return .error (.store e)

def execute (files : Files m) (c : Console) : Command → m (Console × Except LineError Outcome)
  | .get id => pure (c, .ok (.output ((c.translator.text c.values id).getD "(missing)")))
  | .replace text => pure (c, .ok (.output (c.translator.expand c.values text)))
  | .lang r =>
    let (c, text) := c.lang r
    pure (c, .ok (.output text))
  | .set key value =>
    pure ({ c with vars := c.vars.set key value }, .ok (.output (key ++ " set")))
  | .display => pure (c, .ok (.output (c.panel.render c.screen.shown)))
  | .languages => pure (c, .ok (.output c.languageLines))
  | .save => do return (c, (← c.save files).map .output)
  | .quit => pure (c, .ok .quit)

/-- Runs a line; a blank one yields nothing. -/
def handle (files : Files m) (c : Console) (line : String) :
    m (Console × Except LineError (Option Outcome)) :=
  if (Text.trim line.toList).isEmpty then pure (c, .ok none)
  else
    match Command.parse line with
    | .error problem => pure (c, .error (.command problem))
    | .ok command => do
      let (c, result) ← c.execute files command
      return (c, result.map some)

/-- Reads the catalog that the settings name, and starts. -/
def open? (files : Files m) (settings : Settings) (locale : String) :
    m (Except StartError Console) := do
  let path := settings.localization.catalog
  match ← files.read path with
  | .error fault => return .error (.load path fault)
  | .ok text =>
    match Node.parseForest text with
    | .error fault => return .error (.source fault)
    | .ok forest => return .ok (start settings forest locale)

end Console
end Phrasebook
