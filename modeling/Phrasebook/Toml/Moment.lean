import Phrasebook.Decimal.Reader

/-! Dates and times of TOML, each read to its canonical text. A date is a day of the calendar, and a
time may have an offset only after a date. -/
namespace Phrasebook.Toml
open Decimal

/-- A number of exactly `width` digits between bounds, at the head of a text. -/
def field? (width low high : Nat) (cs : List Char) : Option (Nat × List Char) :=
  let ds := cs.take width
  let n := digitsValue ds
  if ds.length = width ∧ ds.all Char.isDigit ∧ low ≤ n ∧ n ≤ high then some (n, cs.drop width)
  else none

def separator? (c : Char) : List Char → Option (List Char)
  | x :: rest => if x = c then some rest else none
  | [] => none

def daysInMonth (year month : Nat) : Nat :=
  if month = 2 then if year % 4 = 0 ∧ (year % 100 ≠ 0 ∨ year % 400 = 0) then 29 else 28
  else if month ∈ [4, 6, 9, 11] then 30
  else 31

/-- Reads a date of ten characters. -/
def date? (cs : List Char) : Option (List Char × List Char) := do
  let (year, rest) ← field? 4 0 9999 cs
  let (month, rest) ← field? 2 1 12 (← separator? '-' rest)
  let (_, rest) ← field? 2 1 (daysInMonth year month) (← separator? '-' rest)
  return (cs.take 10, rest)

/-- The digits of a fraction of a second: at most nine, without zeros at the end. -/
def canonicalFraction (ds : List Char) : List Char :=
  match ((ds.take 9).reverse.dropWhile (· == '0')).reverse with
  | [] => []
  | kept => '.' :: kept

/-- Reads a time; a minute may have a second more. -/
def time? (cs : List Char) : Option (List Char × List Char) := do
  let (_, rest) ← field? 2 0 23 cs
  let (_, rest) ← field? 2 0 59 (← separator? ':' rest)
  let (_, rest) ← field? 2 0 60 (← separator? ':' rest)
  match rest with
  | '.' :: rest =>
    let (ds, rest) := spanDigits rest
    if ds.isEmpty then none else some (cs.take 8 ++ canonicalFraction ds, rest)
  | _ => some (cs.take 8, rest)

/-- Reads an offset from universal time; none is written `+00:00` or `Z`. -/
def offset? : List Char → Option (List Char × List Char)
  | [] => some ([], [])
  | sign :: rest =>
    if sign = 'Z' ∨ sign = 'z' then some (['Z'], rest)
    else if sign = '+' ∨ sign = '-' then do
      let (hours, after) ← field? 2 0 23 rest
      let (minutes, after) ← field? 2 0 59 (← separator? ':' after)
      let sign := if hours = 0 ∧ minutes = 0 then '+' else sign
      return (sign :: rest.take 5, after)
    else none

/-- The whole of a text as a time after a date. -/
def clock? (cs : List Char) : Option (List Char) := do
  let (time, rest) ← time? cs
  let (offset, rest) ← offset? rest
  if rest.isEmpty then some (time ++ offset) else none

/-- The whole of a text as a date, a time or a date and a time, where `later` is the word after it if a
space and a digit come between. -/
def moment? (cs : List Char) (later : Option (List Char)) : Option (List Char) :=
  match date? cs with
  | some (date, []) =>
    match later with
    | none => some date
    | some cs => (clock? cs).map fun time => date ++ 'T' :: time
  | some (date, c :: rest) =>
    if later.isNone ∧ (c = 'T' ∨ c = 't') then (clock? rest).map fun time => date ++ 'T' :: time
    else none
  | none =>
    match time? cs, later with
    | some (time, []), none => some time
    | _, _ => none

end Phrasebook.Toml
