/-! Places in a YAML text. Lines end at a carriage return, a line feed, both, or one of three Unicode
breaks; the first four kinds are read as a line feed. -/
namespace Phrasebook.Yaml

def isBlank (c : Char) : Bool := c == ' ' || c == '\t'

def isBreak (c : Char) : Bool :=
  c == '\n' || c == '\r' || c.toNat == 0x85 || c.toNat == 0x2028 || c.toNat == 0x2029

/-- A blank, a line break or the end of the text. -/
def endsWord : List Char → Bool
  | [] => true
  | c :: _ => isBlank c || isBreak c

/-- The characters that a text may hold. -/
def isAllowed (c : Char) : Bool :=
  let n := c.toNat
  n == 0x09 || n == 0x0A || n == 0x0D || (0x20 ≤ n && n ≤ 0x7E) || n == 0x85 ||
    (0xA0 ≤ n && n ≤ 0xFFFD) || 0x10000 ≤ n

structure Cursor where
  rest : List Char
  index : Nat
  line : Nat
  column : Nat

namespace Cursor

def ofText (cs : List Char) : Cursor := ⟨cs, 0, 0, 0⟩

def atEnd (c : Cursor) : Bool := c.rest.isEmpty

def advance (c : Cursor) : Cursor :=
  { c with rest := c.rest.drop 1, index := c.index + 1, column := c.column + 1 }

def advanceBy (n : Nat) (c : Cursor) : Cursor :=
  { c with rest := c.rest.drop n, index := c.index + n, column := c.column + n }

/-- A byte order mark at the start of a line is not read, but takes up a column of it. -/
def skipOrderMark (c : Cursor) : Cursor :=
  if c.column == 0 && c.rest.head? == some '\uFEFF' then c.advance else c

/-- What the line break at the cursor is read as. -/
def lineBreak (c : Cursor) : List Char :=
  match c.rest with
  | [] => []
  | x :: _ => if !isBreak x then [] else if 0x2028 ≤ x.toNat then [x] else ['\n']

/-- Past the line break at the cursor, if there is one. -/
def nextLine (c : Cursor) : Cursor :=
  match c.rest with
  | '\r' :: '\n' :: rest => ⟨rest, c.index + 2, c.line + 1, 0⟩
  | x :: rest => if isBreak x then ⟨rest, c.index + 1, c.line + 1, 0⟩ else c
  | [] => c

/-- Moves over characters up to one that is not wanted. -/
def skipWhile (wanted : Char → Bool) (c : Cursor) : Cursor :=
  c.advanceBy (c.rest.takeWhile wanted).length

/-- Three hyphens or three dots that stand alone at the start of a line. -/
def atMark (mark : Char) (c : Cursor) : Bool :=
  c.column == 0 && c.rest.take 3 == [mark, mark, mark] && endsWord (c.rest.drop 3)

def atDocumentMark (c : Cursor) : Bool := c.atMark '-' || c.atMark '.'

end Cursor

/-- Blanks and line breaks between two words of a scalar. -/
structure Gap where
  blanks : List Char
  breaks : List Char

namespace Gap

/-- What a gap is read as: blanks within a line as they are, a single line feed as a space, and
further ones as they are. After an escaped line break all breaks are kept. -/
def folded (escaped : Bool) (g : Gap) : List Char :=
  if escaped then g.breaks
  else match g.breaks with
    | [] => g.blanks
    | ['\n'] => [' ']
    | '\n' :: more => more
    | breaks => breaks

/-- Reads a gap. On a continued line a tab left of the limit is refused. -/
def read (limit : Nat) : Nat → Bool → Gap → Cursor → Option (Gap × Cursor)
  | 0, _, g, c => some (g, c)
  | fuel + 1, broken, g, c =>
    match c.rest with
    | [] => some (g, c)
    | x :: _ =>
      if isBreak x then
        read limit fuel true { g with breaks := g.breaks ++ c.lineBreak } c.nextLine
      else if isBlank x then
        if !broken then read limit fuel false { g with blanks := g.blanks ++ [x] } c.advance
        else if x == '\t' && c.column < limit then none
        else read limit fuel true g c.advance
      else some (g, c)

end Gap
end Phrasebook.Yaml
