import Phrasebook.Decimal.Reader
import Phrasebook.Text.Blank
import Phrasebook.Text.Hex

/-! Numbers of TOML: integers of 64 bits, in four bases, and numbers of binary64. -/
namespace Phrasebook.Toml
open Decimal Text

/-- The digits of a text in which single underscores may stand between digits. -/
def groups? (isDigit : Char → Bool) (cs : List Char) : Option (List Char) :=
  let pieces := splitAll (· == '_') cs
  if pieces.all fun piece => !piece.isEmpty && piece.all isDigit then some pieces.flatten else none

/-- Decimal digits that do not begin with a zero, unless it is the only one. -/
def wholeDigits? (cs : List Char) : Option (List Char) :=
  if cs.head? == some '0' && cs.length != 1 then none else groups? Char.isDigit cs

def decimal? (cs : List Char) : Option Int :=
  let (negative, body) := splitSign cs
  (wholeDigits? body).map fun ds => if negative then -(digitsValue ds : Int) else digitsValue ds

/-- Digits of a base that is named by a prefix; there is no sign. -/
def based? (base : Nat) (cs : List Char) : Option Int :=
  let isDigit (c : Char) : Bool := (hexValue? c).any (· < base)
  (groups? isDigit cs).map fun ds => ds.foldl (fun n c => n * base + (hexValue? c).getD 0) 0

def integer? (cs : List Char) : Option Int :=
  let value := match cs with
    | '0' :: 'x' :: ds => based? 16 ds
    | '0' :: 'o' :: ds => based? 8 ds
    | '0' :: 'b' :: ds => based? 2 ds
    | _ => decimal? cs
  value.filter fun i => -pow2 63 ≤ i && i < pow2 63

def power? (cs : List Char) : Option Int :=
  let (negative, body) := splitSign cs
  (groups? Char.isDigit body).map fun ds =>
    if negative then -(digitsValue ds : Int) else digitsValue ds

/-- A fraction, a power of ten or both after the whole digits. A positive number beyond binary64 is
refused; a negative one is infinite. -/
def fractional? (cs : List Char) : Option Double := do
  let (negative, body) := splitSign cs
  let mantissa := body.takeWhile fun c => c != 'e' && c != 'E'
  let tail := body.drop mantissa.length
  let front := mantissa.takeWhile (· != '.')
  let point := mantissa.drop front.length
  if tail.isEmpty && point.isEmpty then none
  else
    let whole ← wholeDigits? front
    let fraction ← if point.isEmpty then some [] else groups? Char.isDigit (point.drop 1)
    let e ← if tail.isEmpty then some 0 else power? (tail.drop 1)
    (some (Binary.ofDecimal negative (digitsValue (whole ++ fraction)) (e - fraction.length))).filter
      (· != .infinite false)

/-- An infinity or no number, by name. -/
def special? (cs : List Char) : Option Double :=
  let (negative, body) := splitSign cs
  if body = ['i', 'n', 'f'] then some (.infinite negative)
  else if body = ['n', 'a', 'n'] then some .nan
  else none

end Phrasebook.Toml
