import Phrasebook.Text.Hex
import Phrasebook.Toml.Line

/-! Texts in quotes. There are four kinds: with escapes between quotes or without escapes between
apostrophes, on one line between single marks or on several lines between triple ones. -/
namespace Phrasebook.Toml
open Text

structure Quotation where
  escapes : Bool
  lines : Bool
  deriving DecidableEq

namespace Quotation

def mark (q : Quotation) : Char := if q.escapes then '"' else '\''

def delimiter (q : Quotation) : List Char := List.replicate (if q.lines then 3 else 1) q.mark

/-- Past the closing marks at the head of a text. Two marks before the closing three belong to the
text that they close, and come with what follows. -/
def closing? (q : Quotation) (cs : List Char) : Option (List Char × List Char) :=
  let n := q.delimiter.length
  if cs.take n == q.delimiter then
    let rest := cs.drop n
    let more := if q.lines then (rest.take 2).takeWhile (· == q.mark) else []
    some (more, rest.drop more.length)
  else none

end Quotation

def shortEscape? : Char → Option Char
  | 'b' => some '\x08'
  | 't' => some '\t'
  | 'n' => some '\n'
  | 'f' => some '\x0c'
  | 'r' => some '\r'
  | '"' => some '"'
  | '\\' => some '\\'
  | _ => none

/-- A text without escapes, after the opening marks. -/
def literalTail (q : Quotation) : Scan (List Char)
  | [] => none
  | '\r' :: '\n' :: rest =>
    if q.lines then (literalTail q rest).map fun (text, rest) => ('\n' :: text, rest) else none
  | '\n' :: rest =>
    if q.lines then (literalTail q rest).map fun (text, rest) => ('\n' :: text, rest) else none
  | x :: rest =>
    match q.closing? (x :: rest) with
    | some closed => some closed
    | none =>
      if isText x then (literalTail q rest).map fun (text, rest) => (x :: text, rest) else none

/-- A text with escapes, after the opening marks. While `skipping`, blanks and line breaks are left
out: a backslash at the end of a line skips up to the next word. -/
def escapedTail (q : Quotation) (skipping : Bool) : Scan (List Char)
  | [] => none
  | '\\' :: 'u' :: a :: b :: c :: d :: rest => do
    let x ← codeChar? [a, b, c, d]
    (escapedTail q false rest).map fun (text, rest) => (x :: text, rest)
  | '\\' :: 'U' :: a :: b :: c :: d :: e :: f :: g :: h :: rest => do
    let x ← codeChar? [a, b, c, d, e, f, g, h]
    (escapedTail q false rest).map fun (text, rest) => (x :: text, rest)
  | '\\' :: x :: rest =>
    match shortEscape? x with
    | some y => (escapedTail q false rest).map fun (text, rest) => (y :: text, rest)
    | none =>
      if q.lines && (lineBreak? (skipBlanks (x :: rest))).isSome then escapedTail q true rest
      else none
  | '\r' :: '\n' :: rest =>
    if !q.lines then none
    else if skipping then escapedTail q true rest
    else (escapedTail q false rest).map fun (text, rest) => ('\n' :: text, rest)
  | '\n' :: rest =>
    if !q.lines then none
    else if skipping then escapedTail q true rest
    else (escapedTail q false rest).map fun (text, rest) => ('\n' :: text, rest)
  | x :: rest =>
    if skipping && isBlank x then escapedTail q true rest
    else match q.closing? (x :: rest) with
      | some closed => some closed
      | none =>
        if isText x then (escapedTail q false rest).map fun (text, rest) => (x :: text, rest) else none

def Quotation.tail (q : Quotation) (cs : List Char) : Option (String × List Char) :=
  (if q.escapes then escapedTail q false cs else literalTail q cs).map
    fun (text, rest) => (String.ofList text, rest)

/-- A line break that opens a text of several lines is not part of it. -/
def skipBreak (cs : List Char) : List Char := (lineBreak? cs).getD cs

/-- A text on one line. -/
def quotedLine : Scan String
  | '"' :: rest => Quotation.tail ⟨true, false⟩ rest
  | '\'' :: rest => Quotation.tail ⟨false, false⟩ rest
  | _ => none

def quoted : Scan String
  | '"' :: '"' :: '"' :: rest => Quotation.tail ⟨true, true⟩ (skipBreak rest)
  | '\'' :: '\'' :: '\'' :: rest => Quotation.tail ⟨false, true⟩ (skipBreak rest)
  | cs => quotedLine cs

/-- The longest run of a mark; `run` counts those just before. -/
def longestRun (mark : Char) : (run : Nat) → List Char → Nat
  | run, [] => run
  | run, c :: rest => if c = mark then longestRun mark (run + 1) rest else max run (longestRun mark 0 rest)

/-- Controls that no quotation holds without an escape. -/
def needsEscape (c : Char) : Bool := c != '\n' && !isText c

/-- The first of the four kinds that holds a text as it is; else one with escapes. -/
def Quotation.plainest (cs : List Char) : Quotation :=
  let controls := cs.any needsEscape
  let newline := cs.contains '\n'
  let backslash := cs.contains '\\'
  let quotes := longestRun '"' 0 cs
  let apostrophes := longestRun '\'' 0 cs
  if controls then ⟨true, newline⟩
  else if !backslash && quotes == 0 && !newline then ⟨true, false⟩
  else if apostrophes == 0 && !newline then ⟨false, false⟩
  else if !backslash && quotes ≤ 2 then ⟨true, true⟩
  else if apostrophes ≤ 2 then ⟨false, true⟩
  else ⟨true, newline⟩

def escaped (c : Char) : List Char :=
  match c with
  | '\x08' => ['\\', 'b']
  | '\t' => ['\\', 't']
  | '\n' => ['\\', 'n']
  | '\x0c' => ['\\', 'f']
  | '\r' => ['\\', 'r']
  | '"' => ['\\', '"']
  | '\\' => ['\\', '\\']
  | c => if needsEscape c then '\\' :: 'u' :: upperHex c.toNat 4 else [c]

/-- Text with escapes. In a text of several lines, line breaks and up to two quotes in a row stand for
themselves; `run` counts the quotes just before. -/
def escapedText (lines : Bool) : (run : Nat) → List Char → List Char
  | _, [] => []
  | run, c :: rest =>
    if lines && c == '\n' then '\n' :: escapedText lines 0 rest
    else if lines && c == '"' && run < 2 then '"' :: escapedText lines (run + 1) rest
    else escaped c ++ escapedText lines 0 rest

def Quotation.text (q : Quotation) (cs : List Char) : String :=
  let opening := if q.lines && cs.contains '\n' then ['\n'] else []
  let body := if q.escapes then escapedText q.lines 0 cs else cs
  String.ofList (q.delimiter ++ opening ++ body ++ q.delimiter)

def quotedText (s : String) : String := (Quotation.plainest s.toList).text s.toList

def isBareKey (c : Char) : Bool := c.isAlphanum || c == '-' || c == '_'

/-- A name is taken as it is between apostrophes if that spares it escapes. -/
def keyQuotation (cs : List Char) : Quotation :=
  let marked := cs.any fun c => c == '"' || c == '\\'
  ⟨!(marked && cs.all fun c => isText c && c != '\''), false⟩

/-- The name of a field, in quotes unless it is a word. -/
def keyText (s : String) : String :=
  if s ≠ "" ∧ s.toList.all isBareKey then s else (keyQuotation s.toList).text s.toList

end Phrasebook.Toml
