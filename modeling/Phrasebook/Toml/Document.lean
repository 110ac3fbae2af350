import Phrasebook.Toml.Moment
import Phrasebook.Toml.Number
import Phrasebook.Toml.Quoted
import Phrasebook.Toml.Table

/-! TOML documents as data: lines that give a key a value, below headers that open tables. -/
namespace Phrasebook.Toml
open Decimal

/-- Lists and tables are nested less deep than this, and a key has fewer names. -/
def depthLimit : Nat := 80

def bareKey : Scan String := fun cs =>
  match cs.takeWhile isBareKey with
  | [] => none
  | word => some (String.ofList word, cs.drop word.length)

def simpleKey : Scan String := fun cs => quotedLine cs <|> bareKey cs

/-- The names of a dotted key and the blanks around them. -/
def keyNames : Nat → Scan (List String)
  | 0, _ => none
  | fuel + 1, cs => do
    let (name, rest) ← simpleKey (skipBlanks cs)
    match skipBlanks rest with
    | '.' :: rest => (keyNames fuel rest).map fun (names, rest) => (name :: names, rest)
    | rest => some ([name], rest)

/-- A key by the tables on its path and its name. -/
def key : Scan (List String × String) := fun cs => do
  let (names, rest) ← keyNames (depthLimit - 1) cs
  return ((names.dropLast, names.getLastD ""), rest)

/-- The characters of words, numbers and times. -/
def isWord (c : Char) : Bool := isBareKey c || c == '+' || c == '.' || c == ':'

/-- The name under which a moment is kept as a field. -/
def momentField : String := "$__toml_private_datetime"

def ofMoment (cs : List Char) : Data := .record [(momentField, .string (String.ofList cs))]

/-- A word that is a value of its own. -/
def word? (cs : List Char) : Option Data :=
  if cs = "true".toList then some (.bool true)
  else if cs = "false".toList then some (.bool false)
  else
    (integer? cs).map Data.int <|> (fractional? cs).map Data.double <|>
      (special? cs).map Data.double <|> (moment? cs none).map ofMoment

/-- A word, or a date and a time with a space between. -/
def scalar : Scan Data := fun cs =>
  let word := cs.takeWhile isWord
  let rest := cs.drop word.length
  match rest with
  | ' ' :: c :: after =>
    if c.isDigit then
      let later := (c :: after).takeWhile isWord
      (moment? word (some later)).map fun m => (ofMoment m, (c :: after).drop later.length)
    else (word? word).map (·, rest)
  | _ => (word? word).map (·, rest)

mutual

/-- A value that may be nested `depth` deep. -/
def value : Nat → (depth : Nat) → Scan Data
  | 0, _, _ => none
  | fuel + 1, depth, cs =>
    match cs with
    | '"' :: _ => (quoted cs).map fun (s, rest) => (.string s, rest)
    | '\'' :: _ => (quoted cs).map fun (s, rest) => (.string s, rest)
    | '[' :: rest =>
      if depth = 0 then none
      else (items fuel (depth - 1) rest).map fun (xs, rest) => (.list xs, rest)
    | '{' :: rest =>
      if depth = 0 then none
      else match skipBlanks rest with
        | '}' :: rest => some (.record [], rest)
        | _ => (pairs fuel (depth - 1) [] rest).map fun (es, rest) => (.record (fieldsOf es), rest)
    | _ => scalar cs

/-- The items of a list. A comma may follow the last one, and lines may break between them. -/
def items : Nat → (depth : Nat) → Scan (List Data)
  | 0, _, _ => none
  | fuel + 1, depth, cs =>
    match skipLines cs.length cs with
    | ']' :: rest => some ([], rest)
    | cs => do
      let (x, rest) ← value fuel depth cs
      match skipLines rest.length rest with
      | ',' :: rest => (items fuel depth rest).map fun (xs, rest) => (x :: xs, rest)
      | ']' :: rest => some ([x], rest)
      | _ => none

/-- The pairs of a table on one line, added to those before them. -/
def pairs : Nat → (depth : Nat) → Entries → Scan Entries
  | 0, _, _, _ => none
  | fuel + 1, depth, es, cs => do
    let ((path, name), rest) ← key cs
    match rest with
    | '=' :: rest =>
      let (x, rest) ← value fuel depth (skipBlanks rest)
      let es ← es.assign path name x
      match skipBlanks rest with
      | ',' :: rest => pairs fuel depth es rest
      | '}' :: rest => some (es, rest)
      | _ => none
    | _ => none

end

/-- The tables read so far and the path of the header above. -/
structure Draft where
  entries : Entries
  header : List String

namespace Draft

/-- The key of a header up to its closing brackets. -/
def headerKey (closing : List Char) (cs : List Char) :
    Option ((List String × String) × List Char) := do
  let (k, rest) ← key cs
  if rest.take closing.length = closing then some (k, rest.drop closing.length) else none

/-- A header, or a key with its value, at the head of a text. -/
def statement (d : Draft) : Scan Draft
  | '[' :: '[' :: rest => do
    let ((path, name), rest) ← headerKey [']', ']'] rest
    let es ← d.entries.openItem path name
    return (⟨es, path ++ [name]⟩, rest)
  | '[' :: rest => do
    let ((path, name), rest) ← headerKey [']'] rest
    let es ← d.entries.openTable path name
    return (⟨es, path ++ [name]⟩, rest)
  | cs => do
    let ((path, name), rest) ← key cs
    match rest with
    | '=' :: rest =>
      let (x, rest) ← value (2 * rest.length + 2) (depthLimit - 1) (skipBlanks rest)
      let es ← d.entries.assignUnder d.header path name x
      return (⟨es, d.header⟩, rest)
    | _ => none

/-- Reads lines to the end of the text. -/
def run : Nat → Draft → List Char → Option Draft
  | 0, _, _ => none
  | fuel + 1, d, cs =>
    if cs.isEmpty then some d
    else match lineEnd? cs with
      | some rest => run fuel d rest
      | none => do
        let (d, rest) ← d.statement (skipBlanks cs)
        run fuel d (← lineEnd? rest)

end Draft

/-- The tables of a text that may begin with a byte order mark. -/
def document? (text : String) : Option Data :=
  let cs := match text.toList with
    | '\uFEFF' :: rest => rest
    | cs => cs
  (Draft.run (cs.length + 1) ⟨[], []⟩ cs).map fun d => .record (fieldsOf d.entries)

end Phrasebook.Toml
