import Phrasebook.Dict
import Phrasebook.Decimal.Reader
import Phrasebook.Text.Alphanumeric
import Phrasebook.Text.Blank
import Phrasebook.Text.Bytes

/-! Filters of log messages: a list of directives, each of which sets the level for a target or for
everything else. -/
namespace Phrasebook
open Text

inductive LogLevel where
  | off
  | error
  | warn
  | info
  | debug
  | trace
  deriving DecidableEq, Repr

namespace LogLevel

def name : LogLevel → String
  | .off => "off"
  | .error => "error"
  | .warn => "warn"
  | .info => "info"
  | .debug => "debug"
  | .trace => "trace"

def all : List LogLevel := [.off, .error, .warn, .info, .debug, .trace]

/-- A decimal number, which may have a plus before it. -/
def number? (cs : List Char) : Option Nat :=
  let ds := match cs with
    | '+' :: rest => rest
    | cs => cs
  if ds.isEmpty || !ds.all Char.isDigit then none else some (Decimal.digitsValue ds)

/-- A level by its number or, in any case, by its name. -/
def parse? (cs : List Char) : Option LogLevel :=
  match number? cs with
  | some n => all[n]?
  | none => all.find? fun l => l.name.toList == cs.map Char.toLower

end LogLevel

structure LogDirective where
  target : Option String
  level : LogLevel
  deriving DecidableEq, Repr

namespace LogDirective

def isStart (c : Char) : Bool := isAlphanumeric c || c == '-' || c == '_' || c == ':'

/-- A level, a target or a target and its level. Blanks before a directive count for its text but not
for where its parts are, which are cut as if the blanks were not there. -/
def parse? (cs : List Char) : Option LogDirective := do
  let trimmed := trim cs
  let first ← trimmed.head?
  if !isStart first then none
  else
    let target := trimmed.takeWhile (· != '=')
    if target.length = trimmed.length then
      match LogLevel.parse? cs with
      | some level => some ⟨none, level⟩
      | none => some ⟨some (String.ofList cs), .trace⟩
    else
      let word := cs.drop (target.length + 1)
      let level ← if word.isEmpty then some .trace else LogLevel.parse? word
      some ⟨some (String.ofList (cs.take target.length)), level⟩

def text (d : LogDirective) : String :=
  match d.target with
  | some target => target ++ "=" ++ d.level.name
  | none => d.level.name

/-- A longer target comes first, of equally long ones the greater, and no target comes last. -/
def before (a b : LogDirective) : Bool :=
  match a.target, b.target with
  | some s, some t =>
    t.utf8ByteSize < s.utf8ByteSize || (s.utf8ByteSize == t.utf8ByteSize && t < s)
  | some _, none => true
  | none, _ => false

/-- Puts a directive in its place, over one with its target. -/
def place (d : LogDirective) : List LogDirective → List LogDirective
  | [] => [d]
  | x :: rest =>
    if d.target = x.target then d :: rest
    else if d.before x then d :: x :: rest
    else x :: place d rest

end LogDirective

/-- Directives in the order in which they are tried. -/
abbrev LogFilter := List LogDirective

namespace LogFilter

/-- Directives between commas; nothing between two commas is no directive. -/
def parse? (text : String) : Option LogFilter :=
  (((splitAll (· == ',') text.toList).filter fun cs => !cs.isEmpty).mapM LogDirective.parse?).map
    fun ds => ds.foldl (fun filter d => d.place filter) []

def text (f : LogFilter) : String := ",".intercalate (f.map LogDirective.text)

def variableName : String := "RUST_LOG"

def fallback : LogFilter := [⟨none, .info⟩]

/-- The filter of the environment, or else of the settings, or else the standard one. -/
def choose (env : Dict String) (level : String) : LogFilter :=
  (((env.get? variableName).bind parse?).or (parse? level)).getD fallback

end LogFilter
end Phrasebook
