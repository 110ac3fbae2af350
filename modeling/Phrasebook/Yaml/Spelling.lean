import Phrasebook.Data.Scalar
import Phrasebook.Text.Hex
import Phrasebook.Yaml.Cursor

/-! Texts as YAML scalars. A text is written plain unless it would then be read as something else;
otherwise in apostrophes, with its line breaks as a block, or at worst with escapes. -/
namespace Phrasebook.Yaml
open Decimal Text

/-- Characters that stand for themselves outside of double quotes. -/
def isPrintable (c : Char) : Bool :=
  let n := c.toNat
  n == 0x0A || (0x20 ≤ n && n ≤ 0x7E) || (0xA0 ≤ n && n ≤ 0xFFFD && n != 0xFEFF) || 0x10000 ≤ n

/-- The digits of a number after the sign of its base. -/
def basedDigits? : List Char → Option (Nat × List Char)
  | '0' :: 'x' :: ds => some (16, ds)
  | '0' :: 'o' :: ds => some (8, ds)
  | '0' :: 'b' :: ds => some (2, ds)
  | _ => none

/-- An integer of 128 bits in another base than ten. -/
def isBasedNumber (cs : List Char) : Bool :=
  let (negative, body) := splitSign cs
  match basedDigits? body with
  | none => false
  | some (base, ds) =>
    match ds.mapM fun c => (hexValue? c).filter (· < base) with
    | none => false
    | some values =>
      let n := values.foldl (fun n d => n * base + d) 0
      !values.isEmpty && if negative then n ≤ pow2 127 else n < pow2 128

/-- Digits that begin with a needless zero, after a sign or not. -/
def hasLeadingZero (cs : List Char) : Bool :=
  let body := (splitSign cs).2
  body.head? == some '0' && 1 < body.length && body.all Char.isDigit

/-- A plain scalar of this text is no text but nothing, a truth value or a number. -/
def readsOtherwise (s : String) : Bool :=
  s == "" || Data.isBareNull s || (Data.bareBool? s).isSome || (Data.bareNumber? s).isSome ||
    isBasedNumber s.toList || hasLeadingZero s.toList

/-- A colon before a gap or a hash after one; `previous` is the character just before. -/
def hasMark (previous : Char) : List Char → Bool
  | [] => false
  | c :: rest =>
    (c == ':' && endsWord rest) || (c == '#' && endsWord [previous]) || hasMark c rest

/-- A text that would not begin, or not go on, as a plain scalar. -/
def hasIndicator : List Char → Bool
  | [] => false
  | c :: rest =>
    "#,[]\x7b\x7d&*!|>'\"%@`".toList.contains c ||
      ((c == '?' || c == ':' || c == '-') && endsWord rest) || hasMark c rest ||
      (c :: rest).take 3 == ['-', '-', '-'] || (c :: rest).take 3 == ['.', '.', '.']

/-- The text has a character of the first kind just before one of the second. -/
def hasPair (first second : Char → Bool) (cs : List Char) : Bool :=
  (cs.zip (cs.drop 1)).any fun (a, b) => first a && second b

def isSpace (c : Char) : Bool := c == ' '

def isGap (c : Char) : Bool := isSpace c || isBreak c

/-- Spaces before a line break are lost, and so is what cannot be printed, without escapes. -/
def needsEscapes (cs : List Char) : Bool :=
  cs.any (fun c => !isPrintable c) || hasPair isSpace isBreak cs

def allowsPlain (cs : List Char) : Bool :=
  !needsEscapes cs && !cs.any isBreak && !hasIndicator cs && !cs.head?.any isGap &&
    !cs.getLast?.any isGap

def allowsQuotes (cs : List Char) : Bool := !needsEscapes cs && !hasPair isBreak isSpace cs

def allowsBlock (cs : List Char) : Bool := !needsEscapes cs && !cs.getLast?.any isSpace

inductive Spelling where
  | plain
  | quoted
  | escaped
  | block
  deriving DecidableEq, Repr

def Spelling.ofText (s : String) : Spelling :=
  let cs := s.toList
  if cs.contains '\n' then if allowsBlock cs then .block else .escaped
  else if !readsOtherwise s && allowsPlain cs then .plain
  else if allowsQuotes cs then .quoted
  else .escaped

def spaces (n : Nat) : List Char := List.replicate n ' '

/-- A text between apostrophes. What follows a line break is indented. -/
def quotedBody (indent : Nat) (broken : Bool) : List Char → List Char
  | [] => if broken then spaces indent else []
  | c :: rest =>
    if isBreak c then c :: quotedBody indent true rest
    else
      (if broken then spaces indent else []) ++ (if c == '\'' then ['\'', '\''] else [c]) ++
        quotedBody indent false rest

/-- Lines of a block; those that are not empty are indented. -/
def blockBody (indent : Nat) (broken : Bool) : List Char → List Char
  | [] => []
  | c :: rest =>
    if isBreak c then c :: blockBody indent true rest
    else (if broken then spaces indent else []) ++ c :: blockBody indent false rest

def shortName? (c : Char) : Option Char :=
  match c with
  | '\x00' => some '0'
  | '\x07' => some 'a'
  | '\x08' => some 'b'
  | '\t' => some 't'
  | '\n' => some 'n'
  | '\x0b' => some 'v'
  | '\x0c' => some 'f'
  | '\r' => some 'r'
  | '\x1b' => some 'e'
  | '"' => some '"'
  | '\\' => some '\\'
  | '\u0085' => some 'N'
  | '\u2028' => some 'L'
  | '\u2029' => some 'P'
  | _ => none

def escapedChar (c : Char) : List Char :=
  match shortName? c with
  | some name => ['\\', name]
  | none =>
    let n := c.toNat
    if isPrintable c then [c]
    else if n < 0x100 then '\\' :: 'x' :: upperHex n 2
    else if n < 0x10000 then '\\' :: 'u' :: upperHex n 4
    else '\\' :: 'U' :: upperHex n 8

/-- The sign of a block and its marks: for a text that begins with a gap how far it is indented, and
what becomes of the line breaks at its end. -/
def blockSign (cs : List Char) : List Char :=
  let indent := if cs.head?.any isGap then ['2'] else []
  let chomp := match cs.reverse with
    | [] => ['-']
    | [_] => ['+']
    | last :: previous :: _ => if !isBreak last then ['-'] else if isBreak previous then ['+'] else []
  '|' :: indent ++ chomp

/-- The scalar of a text whose further lines are indented. A block may end in a line break. -/
def spelled (indent : Nat) (s : String) : String :=
  let cs := s.toList
  String.ofList <| match Spelling.ofText s with
    | .plain => cs
    | .quoted => '\'' :: quotedBody indent false cs ++ ['\'']
    | .escaped => '"' :: cs.flatMap escapedChar ++ ['"']
    | .block => blockSign cs ++ '\n' :: blockBody indent true cs

end Phrasebook.Yaml
