import Phrasebook.Json.Reader
import Phrasebook.Language

/-! The commands of the console. A line is a verb and its argument; blanks around them do not
count. -/
namespace Phrasebook

inductive Command where
  | get (id : String)
  | replace (text : String)
  | lang (request : Request)
  | set (key : String) (value : Json)
  | display
  | languages
  | save
  | quit

namespace Command
open Text

inductive Problem where
  | needsArgument (verb : String)
  | needsValue
  | unknown (verb : String)
  deriving DecidableEq, Repr

def Problem.message : Problem → String
  | .needsArgument verb => "'" ++ verb ++ "' needs an argument"
  | .needsValue => "usage: set <key> <value>"
  | .unknown verb => "unknown command '" ++ verb ++ "'"

/-- A JSON value, or else the text itself. -/
def valueOf (raw : List Char) : Json :=
  match Json.parse (String.ofList raw) with
  | .ok v => v.canonical
  | .error _ => .string (String.ofList raw)

/-- The argument of a verb that cannot do without. -/
def required (verb : String) (argument : List Char) : Except Problem (List Char) :=
  if argument.isEmpty then .error (.needsArgument verb) else .ok argument

/-- The verb of a line without blanks around it, and the argument. -/
def splitVerb (line : List Char) : String × List Char :=
  match splitBlank line with
  | some (verb, rest) => (String.ofList verb, trimStart rest)
  | none => (String.ofList line, [])

def parse (line : String) : Except Problem Command :=
  let (verb, argument) := splitVerb (trim line.toList)
  match verb with
  | "get" => (required verb argument).map fun a => .get (String.ofList a)
  | "replace" => .ok (.replace (String.ofList argument))
  | "lang" => (required verb argument).map fun a => .lang (.ofText (String.ofList a))
  | "set" => do
    match splitBlank (← required verb argument) with
    | some (key, value) => .ok (.set (String.ofList key) (valueOf (trim value)))
    | none => .error .needsValue
  | "show" => .ok .display
  | "langs" => .ok .languages
  | "save" => .ok .save
  | "quit" | "exit" => .ok .quit
  | verb => .error (.unknown verb)

end Command
end Phrasebook
