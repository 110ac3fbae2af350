import Phrasebook.Decimal.Binary

/-! Decimal text, read to the nearest binary number. -/
namespace Phrasebook.Decimal

def digitsValue (ds : List Char) : Nat := ds.foldl (fun n c => n * 10 + (c.toNat - 48)) 0

def spanDigits (cs : List Char) : List Char × List Char :=
  (cs.takeWhile Char.isDigit, cs.dropWhile Char.isDigit)

/-- A sign, if there is one, and what follows it. -/
def splitSign : List Char → Bool × List Char
  | '-' :: rest => (true, rest)
  | '+' :: rest => (false, rest)
  | cs => (false, cs)

def exponent? : List Char → Option Int
  | [] => some 0
  | c :: rest =>
    if c == 'e' || c == 'E' then
      let (below, ds) := splitSign rest
      if ds.isEmpty || !ds.all Char.isDigit then none
      else some (if below then -(digitsValue ds : Int) else digitsValue ds)
    else none

namespace Binary

variable {f : Format}

/-- Digits, a point and a power of ten; there is a digit before or after the point. -/
def unsigned? (negative : Bool) (cs : List Char) : Option (Binary f) :=
  let (whole, rest) := spanDigits cs
  let (fraction, rest) := match rest with
    | '.' :: rest => spanDigits rest
    | rest => ([], rest)
  if whole.isEmpty && fraction.isEmpty then none
  else (exponent? rest).map fun e =>
    ofDecimal negative (digitsValue (whole ++ fraction)) (e - fraction.length)

/-- A decimal number, or one of the words for what is no number. -/
def parse? (text : String) : Option (Binary f) :=
  let (negative, cs) := splitSign text.toList
  let word := String.ofList (cs.map Char.toLower)
  if word = "inf" ∨ word = "infinity" then some (.infinite negative)
  else if word = "nan" then some .nan
  else unsigned? negative cs

end Binary
end Phrasebook.Decimal
