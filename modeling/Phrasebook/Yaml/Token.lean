import Phrasebook.Yaml.Scalar

/-! The tokens of a YAML text. Indentation is spelled out by tokens that open and close blocks, and a
key on one line with its colon is recognised when the colon is met: its token is put in before it. -/
namespace Phrasebook.Yaml

inductive Token where
  | documentStart
  | documentEnd
  | blockList
  | blockTable
  | blockEnd
  | flowList
  | flowListEnd
  | flowTable
  | flowTableEnd
  | blockItem
  | flowItem
  | key
  | value
  | scalar (plain : Bool) (text : String)
  deriving DecidableEq, Repr

/-- A place where a key may have begun, by the number of its first token. -/
structure KeyMark where
  token : Nat
  required : Bool
  index : Nat
  line : Nat
  column : Nat

structure Scanner where
  cursor : Cursor
  tokens : Array Token
  /-- The indentation of the block and of those around it; none outside of all. -/
  indents : List Nat
  /-- One place for each flow collection that is open, innermost first, and one for the block. -/
  keys : List (Option KeyMark)
  keyAllowed : Bool

namespace Scanner

def start (cs : List Char) : Scanner := ⟨.ofText cs, #[], [], [none], true⟩

def inFlow (s : Scanner) : Bool := 1 < s.keys.length

/-- The indentation of the block, `-1` outside of all. -/
def indent (s : Scanner) : Int :=
  match s.indents with
  | n :: _ => n
  | [] => -1

def push (s : Scanner) (t : Token) : Scanner := { s with tokens := s.tokens.push t }

def insertAt (s : Scanner) (n : Nat) (t : Token) : Scanner :=
  { s with tokens := s.tokens.extract 0 n ++ #[t] ++ s.tokens.extract n s.tokens.size }

def advance (s : Scanner) (n : Nat) : Scanner := { s with cursor := s.cursor.advanceBy n }

/-- Closes the blocks that are indented further than a column. -/
def closeTo (s : Scanner) (column : Int) : Scanner :=
  if s.inFlow then s
  else
    let closed := s.indents.takeWhile fun (n : Nat) => column < (n : Int)
    { s with
      indents := s.indents.drop closed.length
      tokens := s.tokens ++ (closed.map fun _ => Token.blockEnd).toArray }

/-- Opens a block at a column that is indented further than the present one. -/
def openAt (s : Scanner) (column : Nat) (place : Nat) (t : Token) : Scanner :=
  if s.inFlow || column ≤ s.indent then s
  else { s.insertAt place t with indents := column :: s.indents }

/-- Gives up the innermost place of a key; a required key cannot be given up. -/
def dropKey (s : Scanner) : Option Scanner :=
  match s.keys with
  | some k :: rest => if k.required then none else some { s with keys := none :: rest }
  | _ => some s

/-- Notes that a key may begin here. -/
def markKey (s : Scanner) : Option Scanner :=
  if !s.keyAllowed then some s
  else do
    let s ← s.dropKey
    let c := s.cursor
    let k : KeyMark :=
      ⟨s.tokens.size, !s.inFlow && s.indent == c.column, c.index, c.line, c.column⟩
    return { s with keys := some k :: s.keys.drop 1 }

/-- A key ends on the line where it begins, within 1024 characters. -/
def dropStale (s : Scanner) : Option Scanner := do
  let keys ← s.keys.mapM fun mark =>
    match mark with
    | none => some none
    | some k =>
      if k.line < s.cursor.line || k.index + 1024 < s.cursor.index then
        if k.required then none else some none
      else some (some k)
  return { s with keys := keys }

/-- Moves over blanks, comments, line breaks and order marks. A tab is no indentation. -/
def toNextToken : Nat → Scanner → Scanner
  | 0, s => s
  | fuel + 1, s =>
    let c := s.cursor.skipOrderMark
    let c := c.skipWhile fun x => x == ' ' || ((s.inFlow || !s.keyAllowed) && x == '\t')
    let c := if c.rest.head? == some '#' then c.skipWhile fun x => !isBreak x else c
    if c.rest.head?.any isBreak then
      toNextToken fuel { s with cursor := c.nextLine, keyAllowed := s.keyAllowed || !s.inFlow }
    else { s with cursor := c }

def documentMark (s : Scanner) (t : Token) : Option Scanner := do
  let s ← (s.closeTo (-1)).dropKey
  return ({ s with keyAllowed := false }.advance 3).push t

def flowStart (s : Scanner) (t : Token) : Option Scanner := do
  let s ← s.markKey
  return ({ s with keys := none :: s.keys, keyAllowed := true }.advance 1).push t

def flowEnd (s : Scanner) (t : Token) : Option Scanner := do
  let s ← s.dropKey
  let keys := if s.inFlow then s.keys.drop 1 else s.keys
  return ({ s with keys := keys, keyAllowed := false }.advance 1).push t

def flowItem (s : Scanner) : Option Scanner := do
  let s ← s.dropKey
  return ({ s with keyAllowed := true }.advance 1).push .flowItem

def blockItem (s : Scanner) : Option Scanner :=
  if !s.inFlow && !s.keyAllowed then none
  else do
    let s ← (s.openAt s.cursor.column s.tokens.size .blockList).dropKey
    return ({ s with keyAllowed := true }.advance 1).push .blockItem

def explicitKey (s : Scanner) : Option Scanner :=
  if !s.inFlow && !s.keyAllowed then none
  else do
    let s ← (s.openAt s.cursor.column s.tokens.size .blockTable).dropKey
    return ({ s with keyAllowed := !s.inFlow }.advance 1).push .key

/-- A colon makes a key of what began at the place that was noted, if one was. -/
def colon (s : Scanner) : Option Scanner :=
  match s.keys with
  | some k :: rest =>
    let s := (s.insertAt k.token .key).openAt k.column k.token .blockTable
    some (({ s with keys := none :: rest, keyAllowed := false }.advance 1).push .value)
  | _ =>
    if !s.inFlow && !s.keyAllowed then none
    else
      let s := s.openAt s.cursor.column s.tokens.size .blockTable
      some (({ s with keyAllowed := !s.inFlow }.advance 1).push .value)

def block (s : Scanner) (literal : Bool) : Option Scanner := do
  let s ← s.dropKey
  let x ← blockScalar literal s.indent s.cursor
  return { s with cursor := x.cursor, keyAllowed := true }.push (.scalar false x.text)

def quoted (s : Scanner) (double : Bool) : Option Scanner := do
  let s ← s.markKey
  let x ← quotedScalar double s.cursor
  return { s with cursor := x.cursor, keyAllowed := false }.push (.scalar false x.text)

def plain (s : Scanner) : Option Scanner := do
  let s ← s.markKey
  let x ← plainScalar s.inFlow (s.indent + 1).toNat s.cursor
  return { s with cursor := x.cursor, keyAllowed := x.brokenEnd }.push (.scalar true x.text)

/-- Signs that no plain scalar begins with. -/
def isIndicator (c : Char) : Bool :=
  "-?:,[]\x7b\x7d#&*!|>'\"%@`".toList.contains c

/-- Whether a plain scalar may begin with a text. -/
def beginsPlain (inFlow : Bool) (c : Char) (after : List Char) : Bool :=
  (!isIndicator c && !isBlank c) || (c == '-' && !(after.head?.any isBlank)) ||
    (!inFlow && (c == '?' || c == ':') && !endsWord after)

/-- The next token, at a cursor that is at one. -/
def token (s : Scanner) (c : Char) (after : List Char) : Option Scanner :=
  if s.cursor.column == 0 && c == '%' then none
  else if s.cursor.atMark '-' then s.documentMark .documentStart
  else if s.cursor.atMark '.' then s.documentMark .documentEnd
  else if c == '[' then s.flowStart .flowList
  else if c == '{' then s.flowStart .flowTable
  else if c == ']' then s.flowEnd .flowListEnd
  else if c == '}' then s.flowEnd .flowTableEnd
  else if c == ',' then s.flowItem
  else if c == '-' && endsWord after then s.blockItem
  else if c == '?' && (s.inFlow || endsWord after) then s.explicitKey
  else if c == ':' && (s.inFlow || endsWord after) then s.colon
  else if c == '|' && !s.inFlow then s.block true
  else if c == '>' && !s.inFlow then s.block false
  else if c == '\'' then s.quoted false
  else if c == '"' then s.quoted true
  else if beginsPlain s.inFlow c after then s.plain
  else none

/-- Closes all blocks at the end of the text. -/
def finish (s : Scanner) : Option (Array Token) := (s.closeTo (-1)).dropKey.map Scanner.tokens

def run : Nat → Scanner → Option (Array Token)
  | 0, _ => none
  | fuel + 1, s => do
    let s ← (toNextToken (fuel + 1) s).dropStale
    let s := s.closeTo s.cursor.column
    match s.cursor.rest with
    | [] => s.finish
    | c :: after => run fuel (← s.token c after)

end Scanner

/-- The tokens of a text, if it holds only characters that it may hold. -/
def tokens? (text : String) : Option (List Token) :=
  let cs := text.toList
  if cs.all isAllowed then (Scanner.run (cs.length + 1) (.start cs)).map Array.toList else none

end Phrasebook.Yaml
