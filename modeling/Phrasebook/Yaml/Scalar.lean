import Phrasebook.Text.Hex
import Phrasebook.Yaml.Cursor

/-! The scalars of YAML: plain, quoted and block ones. Each is read to its text, with the cursor after
it. -/
namespace Phrasebook.Yaml

/-- A scalar and the place after it; `brokenEnd` tells that line breaks follow its last word. -/
structure Scanned where
  text : String
  cursor : Cursor
  brokenEnd : Bool

def isFlowMark (c : Char) : Bool := c == ',' || c == '[' || c == ']' || c == '{' || c == '}'

/-- The characters of a plain scalar up to a gap, a mark or the end, last one first. -/
def plainWord (flow : Bool) : Nat → List Char → Cursor → Option (List Char × Cursor)
  | 0, word, c => some (word, c)
  | fuel + 1, word, c =>
    match c.rest with
    | [] => some (word, c)
    | x :: after =>
      if isBlank x || isBreak x then some (word, c)
      else if flow && x == ':' && after.head?.any fun y => isFlowMark y || y == '?' then none
      else if x == ':' && endsWord after then some (word, c)
      else if flow && isFlowMark x then some (word, c)
      else plainWord flow fuel (x :: word) c.advance

/-- Words and the gaps between them; `gap` is the one before the cursor. Each word takes a character,
so that what bounds the number of words bounds the length of each as well. -/
def plainWords (flow : Bool) (limit : Nat) : Nat → List Char → Gap → Cursor → Option Scanned
  | 0, _, _, _ => none
  | fuel + 1, text, gap, c =>
    let done : Scanned := ⟨String.ofList text.reverse, c, !gap.breaks.isEmpty⟩
    if c.atDocumentMark || c.rest.head? == some '#' then some done
    else do
      let (word, c) ← plainWord flow (fuel + 1) [] c
      if word.isEmpty then some { done with cursor := c }
      else
        let text := word ++ (gap.folded false).reverse ++ text
        if c.atEnd || !endsWord c.rest then some ⟨String.ofList text.reverse, c, false⟩
        else
          let (gap, c) ← Gap.read limit (fuel + 1) false ⟨[], []⟩ c
          if !flow && c.column < limit then
            some ⟨String.ofList text.reverse, c, !gap.breaks.isEmpty⟩
          else plainWords flow limit fuel text gap c

def plainScalar (flow : Bool) (limit : Nat) (c : Cursor) : Option Scanned :=
  plainWords flow limit (c.rest.length + 1) [] ⟨[], []⟩ c

/-- The character of an escape without digits. -/
def escape? : Char → Option Char
  | '0' => some '\x00'
  | 'a' => some '\x07'
  | 'b' => some '\x08'
  | 't' => some '\t'
  | '\t' => some '\t'
  | 'n' => some '\n'
  | 'v' => some '\x0b'
  | 'f' => some '\x0c'
  | 'r' => some '\r'
  | 'e' => some '\x1b'
  | ' ' => some ' '
  | '"' => some '"'
  | '/' => some '/'
  | '\\' => some '\\'
  | 'N' => some '\u0085'
  | '_' => some '\u00a0'
  | 'L' => some '\u2028'
  | 'P' => some '\u2029'
  | _ => none

def escapeDigits? : Char → Option Nat
  | 'x' => some 2
  | 'u' => some 4
  | 'U' => some 8
  | _ => none

/-- The characters of a quoted scalar up to a gap or the closing quote, last one first. The flag tells
that the word ends at an escaped line break. -/
def quotedWord (double : Bool) : Nat → List Char → Cursor → Option (List Char × Bool × Cursor)
  | 0, word, c => some (word, false, c)
  | fuel + 1, word, c =>
    match c.rest with
    | [] => some (word, false, c)
    | x :: after =>
      if isBlank x || isBreak x then some (word, false, c)
      else if !double && x == '\'' && after.head? == some '\'' then
        quotedWord double fuel ('\'' :: word) (c.advanceBy 2)
      else if x == (if double then '"' else '\'') then some (word, false, c)
      else if double && x == '\\' then
        match after with
        | [] => none
        | y :: digits =>
          if isBreak y then some (word, true, c.advance.nextLine)
          else match escape? y with
            | some z => quotedWord double fuel (z :: word) (c.advanceBy 2)
            | none => do
              let n ← escapeDigits? y
              if digits.length < n then none
              else
                let z ← Text.codeChar? (digits.take n)
                quotedWord double fuel (z :: word) (c.advanceBy (2 + n))
      else quotedWord double fuel (x :: word) c.advance

def quotedWords (double : Bool) : Nat → List Char → Cursor → Option Scanned
  | 0, _, _ => none
  | fuel + 1, text, c =>
    if c.atDocumentMark || c.atEnd then none
    else do
      let (word, escaped, c) ← quotedWord double (fuel + 1) [] c
      let text := word ++ text
      if c.rest.head? == some (if double then '"' else '\'') then
        some ⟨String.ofList text.reverse, c.advance, false⟩
      else
        let (gap, c) ← Gap.read 0 (fuel + 1) escaped ⟨[], []⟩ c
        quotedWords double fuel ((gap.folded escaped).reverse ++ text) c

/-- A scalar in quotes, from its opening quote on. -/
def quotedScalar (double : Bool) (c : Cursor) : Option Scanned :=
  quotedWords double (c.rest.length + 2) [] c.advance

/-- What becomes of the line breaks at the end of a block scalar. -/
inductive Chomp where
  | strip
  | clip
  | keep
  deriving DecidableEq

structure BlockHeader where
  chomp : Chomp
  /-- How far the text is indented within its parent. -/
  indent : Option Nat

def chomp? : Char → Option Chomp
  | '+' => some .keep
  | '-' => some .strip
  | _ => none

def indent? (c : Char) : Option Nat := if c.isDigit then some (c.toNat - 48) else none

/-- The marks after the sign of a block scalar, in either order, and how many they are. -/
def blockHeader (cs : List Char) : BlockHeader × Nat :=
  match cs with
  | [] => (⟨.clip, none⟩, 0)
  | x :: rest =>
    match chomp? x, indent? x with
    | some chomp, _ =>
      match rest.head?.bind indent? with
      | some n => (⟨chomp, some n⟩, 2)
      | none => (⟨chomp, none⟩, 1)
    | none, some n =>
      match rest.head?.bind chomp? with
      | some chomp => (⟨chomp, some n⟩, 2)
      | none => (⟨.clip, some n⟩, 1)
    | none, none => (⟨.clip, none⟩, 0)

/-- Spaces that belong to the indentation; all that stand there while it is not known. -/
def skipIndent (indent : Option Nat) (c : Cursor) : Cursor :=
  let spaces := (c.rest.takeWhile (· == ' ')).length
  match indent with
  | none => c.advanceBy spaces
  | some n => c.advanceBy (min spaces (n - c.column))

/-- Empty lines before a line of text: their breaks, the widest indentation and the line's start. -/
def blockBreaks (indent : Option Nat) :
    Nat → List Char → Nat → Cursor → Option (List Char × Nat × Cursor)
  | 0, breaks, widest, c => some (breaks, widest, c)
  | fuel + 1, breaks, widest, c =>
    let c := skipIndent indent c
    let widest := max widest c.column
    if c.rest.head? == some '\t' && (indent.all fun n => c.column < n) then none
    else if c.rest.head?.any isBreak then
      blockBreaks indent fuel (breaks ++ c.lineBreak) widest c.nextLine
    else some (breaks, widest, c)

/-- The text so far, the break after its last line, and whether that line began with a blank. -/
structure BlockText where
  text : List Char
  lastBreak : List Char
  blankLine : Bool

def blockLines (literal : Bool) (indent : Nat) :
    Nat → BlockText → List Char → Cursor → Option (BlockText × List Char × Cursor)
  | 0, t, breaks, c => some (t, breaks, c)
  | fuel + 1, t, breaks, c =>
    if c.column != indent || c.atEnd then some (t, breaks, c)
    else
      let blank := c.rest.head?.any isBlank
      let gap :=
        if !literal && t.lastBreak == ['\n'] && !t.blankLine && !blank then
          if breaks.isEmpty then [' '] else breaks
        else t.lastBreak ++ breaks
      let line := c.rest.takeWhile fun x => !isBreak x
      let c := c.advanceBy line.length
      let t : BlockText := ⟨line.reverse ++ gap.reverse ++ t.text, c.lineBreak, blank⟩
      match blockBreaks (some indent) (fuel + 1) [] 0 c.nextLine with
      | none => none
      | some (breaks, _, c) => blockLines literal indent fuel t breaks c

/-- A block scalar from its sign on, in a parent of the given indentation. -/
def blockScalar (literal : Bool) (parent : Int) (c : Cursor) : Option Scanned := do
  let (header, n) := blockHeader (c.rest.drop 1)
  if header.indent == some 0 then none
  else
    let c := (c.advanceBy (n + 1)).skipWhile isBlank
    let c := if c.rest.head? == some '#' then c.skipWhile fun x => !isBreak x else c
    if !endsWord c.rest then none
    else
      let c := c.nextLine
      let known := header.indent.map fun n => if 0 ≤ parent then parent.toNat + n else n
      let (breaks, widest, c) ← blockBreaks known (c.rest.length + 1) [] 0 c
      let indent := known.getD (max (max widest (parent + 1).toNat) 1)
      let (t, breaks, c) ← blockLines literal indent (c.rest.length + 1) ⟨[], [], false⟩ breaks c
      let tail := match header.chomp with
        | .strip => []
        | .clip => t.lastBreak
        | .keep => t.lastBreak ++ breaks
      some ⟨String.ofList (t.text.reverse ++ tail), c, true⟩

end Phrasebook.Yaml
