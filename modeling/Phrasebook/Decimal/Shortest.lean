import Phrasebook.Decimal.Binary

/-! The decimal text of a binary number has the fewest digits that still round to that number, and
of such digits the nearest. How the digits are laid out is a `Style`. -/
namespace Phrasebook.Decimal

/-- The decimal `digits · 10 ^ exponent`. -/
structure Digits where
  digits : Nat
  exponent : Int
  deriving DecidableEq, Repr

/-- The reals that round to `± m · 2 ^ e`, as numerators over one denominator. The ends belong to
the interval when `m` is even, and the lower half is narrower below a power of two. -/
structure Interval where
  low : Nat
  value : Nat
  high : Nat
  denominator : Nat
  closed : Bool

def Interval.around (f : Format) (m : Nat) (e : Int) : Interval :=
  let shift := (e - 2).toNat
  let below := if m = pow2 (f.precision - 1) ∧ f.least < e then 1 else 2
  ⟨(4 * m - below) * pow2 shift, 4 * m * pow2 shift, (4 * m + 2) * pow2 shift, pow2 (2 - e).toNat,
    m % 2 == 0⟩

/-- `d · 10 ^ k` lies in the interval. -/
def Interval.holds (i : Interval) (d : Nat) (k : Int) : Bool :=
  let x := d * i.denominator * pow10 k.toNat
  let low := i.low * pow10 (-k).toNat
  let high := i.high * pow10 (-k).toNat
  if i.closed then low ≤ x && x ≤ high else low < x && x < high

/-- The better of the two multiples of `10 ^ k` next to the value, if one is in the interval. -/
def Interval.onGrid (i : Interval) (halfUp : Bool) (k : Int) : Option Nat :=
  let num := i.value * pow10 (-k).toNat
  let den := i.denominator * pow10 k.toNat
  let d := num / den
  let r := 2 * (num % den)
  let upper := den < r || (r == den && (halfUp || d % 2 == 1))
  match i.holds d k, i.holds (d + 1) k with
  | true, true => some (if upper then d + 1 else d)
  | true, false => some d
  | false, true => some (d + 1)
  | false, false => none

/-- The number `t` with `10 ^ (t - 1) ≤ value < 10 ^ t`. -/
def Interval.magnitude (i : Interval) : Int :=
  let guess : Int := (Nat.toDigits 10 i.value).length - (Nat.toDigits 10 i.denominator).length
  if i.denominator * pow10 guess.toNat ≤ i.value * pow10 (-guess).toNat then guess + 1 else guess

def dropZeros : Nat → Digits → Digits
  | 0, x => x
  | fuel + 1, x =>
    if x.digits ≠ 0 ∧ x.digits % 10 = 0 then dropZeros fuel ⟨x.digits / 10, x.exponent + 1⟩ else x

/-- The fewest digits in the interval around `m · 2 ^ e`; seventeen are always enough. -/
def shortest (f : Format) (halfUp : Bool) (m : Nat) (e : Int) : Digits :=
  if m = 0 then ⟨0, 0⟩
  else
    let i := Interval.around f m e
    let grids := (List.range 17).map fun n => i.magnitude - (n + 1 : Nat)
    match grids.findSome? fun k => (i.onGrid halfUp k).map (Digits.mk · k) with
    | some x => dropZeros 17 x
    | none => ⟨0, 0⟩

/-- How a decimal is laid out: the decimal exponents written without a power of ten, whether a whole
number ends in `.0`, whether a positive power of ten has a sign, which way an exact half goes, and
the texts of what is no number. -/
structure Style where
  positional : Int → Bool
  wholePoint : Bool
  plus : Bool
  halfUp : Bool
  nan : String
  infinity : String

def zeros (n : Nat) : List Char := List.replicate n '0'

def Style.layout (s : Style) (x : Digits) : List Char :=
  let ds := Nat.toDigits 10 x.digits
  let scale : Int := (ds.length : Int) - 1 + x.exponent
  if s.positional scale then
    if 0 ≤ x.exponent then
      ds ++ zeros x.exponent.toNat ++ if s.wholePoint then ".0".toList else []
    else if 0 ≤ scale then ds.take (scale.toNat + 1) ++ '.' :: ds.drop (scale.toNat + 1)
    else '0' :: '.' :: zeros (-scale - 1).toNat ++ ds
  else
    let point := if ds.length ≤ 1 then [] else '.' :: ds.drop 1
    let sign := if scale < 0 then ['-'] else if s.plus then ['+'] else []
    ds.take 1 ++ point ++ 'e' :: sign ++ Nat.toDigits 10 scale.natAbs

def Style.text {f : Format} (s : Style) : Binary f → String
  | .nan => s.nan
  | .infinite negative => if negative then "-" ++ s.infinity else s.infinity
  | .finite negative m e =>
    let body := s.layout (shortest f s.halfUp m e)
    String.ofList (if negative then '-' :: body else body)

/-- Plain text: never a power of ten, and no point in a whole number. -/
def plain : Style := ⟨fun _ => true, false, false, true, "NaN", "inf"⟩

def Binary.text {f : Format} (x : Binary f) : String := plain.text x

end Phrasebook.Decimal
