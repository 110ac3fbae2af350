import Phrasebook.Decimal.Reader
import Phrasebook.Json.Basic
import Phrasebook.Text.Bytes

/-! JSON text, read strictly or laxly. A strict reader refuses a number beyond binary64, a lone
surrogate and deep nesting as malformed; a lax one notes an unreadable value and goes on. -/
namespace Phrasebook.Json
open Decimal Text

/-- Malformed text, text that ends too early, or a well-formed value of the wrong shape. -/
inductive Fault where
  | malformed
  | unfinished
  | unfit
  deriving DecidableEq, Repr

/-- A reader takes a value from the head of a text and returns the rest. -/
abbrev Scan (α : Type) := List Char → Except Fault (α × List Char)

def isSpace (c : Char) : Bool := c == ' ' || c == '\t' || c == '\n' || c == '\r'

def skip (cs : List Char) : List Char := cs.dropWhile isSpace

/-- The fault of a text that does not go on as it should. -/
def faultAt : List Char → Fault
  | [] => .unfinished
  | _ => .malformed

def word : List Char → List Char → Except Fault (List Char)
  | [], cs => .ok cs
  | w :: ws, c :: cs => if w = c then word ws cs else .error .malformed
  | _, [] => .error .unfinished

def hex4? (a b c d : Char) : Option Nat := do
  return (((← hexValue? a) * 16 + (← hexValue? b)) * 16 + (← hexValue? c)) * 16 + (← hexValue? d)

def shortEscape? : Char → Option Char
  | '"' => some '"'
  | '\\' => some '\\'
  | '/' => some '/'
  | 'b' => some '\x08'
  | 'f' => some '\x0c'
  | 'n' => some '\n'
  | 'r' => some '\r'
  | 't' => some '\t'
  | _ => none

def isHighSurrogate (n : Nat) : Bool := 0xD800 ≤ n && n ≤ 0xDBFF
def isLowSurrogate (n : Nat) : Bool := 0xDC00 ≤ n && n ≤ 0xDFFF

/-- The low half of a surrogate pair, spelled as an escape at the head of a text. -/
def lowSurrogate : List Char → Except Fault (Nat × List Char)
  | '\\' :: 'u' :: a :: b :: c :: d :: rest =>
    match hex4? a b c d with
    | some n => if isLowSurrogate n then .ok (n, rest) else .error .malformed
    | none => .error .malformed
  | [] => .error .unfinished
  | ['\\'] => .error .unfinished
  | '\\' :: 'u' :: rest => if byteLength rest < 4 then .error .unfinished else .error .malformed
  | _ => .error .malformed

theorem lowSurrogate_length {cs rest : List Char} {n : Nat}
    (h : lowSurrogate cs = .ok (n, rest)) : rest.length < cs.length := by
  unfold lowSurrogate at h
  split at h
  · split at h
    · split at h
      · simp only [Except.ok.injEq, Prod.mk.injEq] at h
        rw [← h.2]; simp only [List.length_cons]; omega
      · cases h
    · cases h
  · cases h
  · cases h
  · split at h <;> cases h
  · cases h

/-- The text so far, or nothing once a lone surrogate has been met. -/
abbrev Spelled := Option (List Char)

def Spelled.push (c : Char) (s : Spelled) : Spelled := s.map (c :: ·)

/-- A string after its opening quote. -/
def stringTail (strict : Bool) : Scan Spelled
  | [] => .error .unfinished
  | '"' :: rest => .ok (some [], rest)
  | '\\' :: 'u' :: a :: b :: c :: d :: rest =>
    match hex4? a b c d with
    | none => .error .malformed
    | some n =>
      if isHighSurrogate n then
        match _h : lowSurrogate rest with
        | .ok (m, after) =>
          (stringTail strict after).map fun (s, r) =>
            (s.push (Char.ofNat (0x10000 + (n - 0xD800) * 0x400 + (m - 0xDC00))), r)
        | .error e =>
          if strict then .error e else (stringTail strict rest).map fun (_, r) => (none, r)
      else if isLowSurrogate n then
        if strict then .error .malformed
        else (stringTail strict rest).map fun (_, r) => (none, r)
      else (stringTail strict rest).map fun (s, r) => (s.push (Char.ofNat n), r)
  | '\\' :: 'u' :: rest => if byteLength rest < 4 then .error .unfinished else .error .malformed
  | ['\\'] => .error .unfinished
  | '\\' :: c :: rest =>
    match shortEscape? c with
    | some c => (stringTail strict rest).map fun (s, r) => (s.push c, r)
    | none => .error .malformed
  | c :: rest =>
    if c.toNat < 0x20 then .error .malformed
    else (stringTail strict rest).map fun (s, r) => (s.push c, r)
termination_by cs => cs.length
decreasing_by
  all_goals try simp only [List.length_cons]
  all_goals try have := lowSurrogate_length _h
  all_goals omega

/-- A number as it is spelled; the lists hold digits. -/
structure Numeral where
  negative : Bool
  whole : List Char
  fraction : List Char
  exponent : Option (Bool × List Char)
  deriving Repr

/-- Digits of which there has to be one. -/
def someDigits : Scan (List Char) := fun cs =>
  match spanDigits cs with
  | ([], rest) => .error (faultAt rest)
  | (ds, rest) => .ok (ds, rest)

def wholePart : Scan (List Char) := fun cs =>
  match cs with
  | '0' :: c :: rest => if c.isDigit then .error .malformed else .ok (['0'], c :: rest)
  | cs => someDigits cs

def exponentPart : Scan (Bool × List Char) := fun cs =>
  match cs with
  | '-' :: rest => (someDigits rest).map fun (ds, rest) => ((true, ds), rest)
  | '+' :: rest => (someDigits rest).map fun (ds, rest) => ((false, ds), rest)
  | cs => (someDigits cs).map fun (ds, rest) => ((false, ds), rest)

def numeral : Scan Numeral := fun cs => do
  let (negative, cs) := match cs with
    | '-' :: rest => (true, rest)
    | cs => (false, cs)
  let (whole, cs) ← wholePart cs
  let (fraction, cs) ← match cs with
    | '.' :: rest => someDigits rest
    | cs => .ok ([], cs)
  let (exponent, cs) ← match cs with
    | 'e' :: rest | 'E' :: rest => (exponentPart rest).map fun (e, r) => (some e, r)
    | cs => .ok (none, cs)
  return (⟨negative, whole, fraction, exponent⟩, cs)

/-- Takes digits into a significand for as long as it stays below `2 ^ 64`, and counts them. -/
def absorb : Nat → List Char → Nat × Nat
  | n, [] => (n, 0)
  | n, c :: rest =>
    let next := n * 10 + (c.toNat - 48)
    if next < pow2 64 then
      let (m, k) := absorb next rest
      (m, k + 1)
    else (n, 0)

def powerOfTen (n : Nat) : Double := .ofDecimal false 1 n

/-- The significand, rounded, times or over the nearest power of ten. Nothing if that is too large
for a finite number; a power beyond `10 ^ -308` is divided out in steps. -/
def scaled : Nat → Double → Int → Option Double
  | 0, x, _ => some x
  | fuel + 1, x, e =>
    if 0 ≤ e then
      if e ≤ 308 then
        let y := x.mul (powerOfTen e.toNat)
        if y.isFinite then some y else none
      else if x.agrees (.zero false) then some x else none
    else if -308 ≤ e then some (x.div (powerOfTen (-e).toNat))
    else if x.agrees (.zero false) then some x
    else scaled fuel (x.div (powerOfTen 308)) (e + 308)

def Numeral.isInteger (n : Numeral) : Bool := n.fraction.isEmpty && n.exponent.isNone

/-- The number is an integer of 64 bits, signed or unsigned, or else the scaled significand. -/
def Numeral.value? (n : Numeral) : Option (Int ⊕ Double) :=
  let i := digitsValue n.whole
  if n.isInteger && !n.negative && i < pow2 64 then some (.inl i)
  else if n.isInteger && n.negative && 0 < i && i ≤ pow2 63 then some (.inl (-i))
  else
    let (s, k) := absorb 0 n.whole
    let (s, l) := absorb s n.fraction
    let shift : Int := (n.whole.length - k : Nat) - (l : Int)
    let sign (x : Double) : Double := match x with
      | .finite _ m e => .finite n.negative m e
      | x => x
    let (below, e) := match n.exponent with
      | some (below, ds) => (below, digitsValue ds)
      | none => (false, 0)
    if e < pow2 31 then
      let total := shift + if below then -(e : Int) else e
      (scaled 8 (.ofInt s) total).map fun x => .inr (sign x)
    else if s != 0 && !below then none
    else some (.inr (.zero n.negative))

/-- What a reader makes of the parts of a value. -/
structure Builder (α : Type) where
  strict : Bool
  null : α
  bool : Bool → α
  int : Int → α
  float : Double → α
  string : String → α
  array : List α → α
  object : List (String × α) → α
  unreadable : α

variable {α : Type}

/-- Items up to the closing bracket. -/
def items (item : Scan α) : Nat → Scan (List α)
  | 0, _ => .error .malformed
  | fuel + 1, cs => do
    let (x, rest) ← item cs
    match skip rest with
    | ']' :: rest => .ok ([x], rest)
    | ',' :: rest =>
      let (xs, rest) ← items item fuel rest
      .ok (x :: xs, rest)
    | rest => .error (faultAt rest)

/-- An array after its opening bracket. -/
def arrayTail (item : Scan α) : Scan (List α) := fun cs =>
  match skip cs with
  | ']' :: rest => .ok ([], rest)
  | rest => items item (rest.length + 1) rest

def member (strict : Bool) (item : Scan α) : Scan (Spelled × α) := fun cs =>
  match skip cs with
  | '"' :: rest => do
    let (key, rest) ← stringTail strict rest
    match skip rest with
    | ':' :: rest =>
      let (x, rest) ← item rest
      .ok ((key, x), rest)
    | rest => .error (faultAt rest)
  | rest => .error (faultAt rest)

def members (strict : Bool) (item : Scan α) : Nat → Scan (List (Spelled × α))
  | 0, _ => .error .malformed
  | fuel + 1, cs => do
    let (x, rest) ← member strict item cs
    match skip rest with
    | '}' :: rest => .ok ([x], rest)
    | ',' :: rest =>
      let (xs, rest) ← members strict item fuel rest
      .ok (x :: xs, rest)
    | rest => .error (faultAt rest)

/-- An object after its opening brace. -/
def objectTail (strict : Bool) (item : Scan α) : Scan (List (Spelled × α)) := fun cs =>
  match skip cs with
  | '}' :: rest => .ok ([], rest)
  | rest => members strict item (rest.length + 1) rest

def number (b : Builder α) : Scan α := fun cs => do
  let (n, rest) ← numeral cs
  match n.value? with
  | some (.inl i) => .ok (b.int i, rest)
  | some (.inr x) => .ok (b.float x, rest)
  | none => if b.strict then .error .malformed else .ok (b.unreadable, rest)

/-- An object one of whose keys cannot be read cannot be read either. -/
def Builder.fields (b : Builder α) (l : List (Spelled × α)) : α :=
  match l.mapM fun (k, x) => k.map fun k => (String.ofList k, x) with
  | some l => b.object l
  | none => b.unreadable

/-- One value, whose items are read by `nested` where nesting is still allowed. -/
def valueWith (b : Builder α) (nested : Option (Scan α)) : Scan α := fun cs =>
  match skip cs with
  | [] => .error .unfinished
  | 'n' :: rest => (word "ull".toList rest).map (b.null, ·)
  | 't' :: rest => (word "rue".toList rest).map (b.bool true, ·)
  | 'f' :: rest => (word "alse".toList rest).map (b.bool false, ·)
  | '"' :: rest => (stringTail b.strict rest).map fun (s, rest) =>
      (s.elim b.unreadable fun s => b.string (String.ofList s), rest)
  | '[' :: rest =>
    match nested with
    | none => .error .malformed
    | some item => (arrayTail item rest).map fun (xs, rest) => (b.array xs, rest)
  | '{' :: rest =>
    match nested with
    | none => .error .malformed
    | some item => (objectTail b.strict item rest).map fun (xs, rest) => (b.fields xs, rest)
  | c :: rest => if c == '-' || c.isDigit then number b (c :: rest) else .error .malformed

/-- One value with at most `depth` arrays and objects inside each other. -/
def value (b : Builder α) : Nat → Scan α
  | 0 => valueWith b none
  | depth + 1 => valueWith b (some (value b depth))

/-- Nothing but blanks may follow. -/
def whole (scan : Scan α) (cs : List Char) : Except Fault α := do
  let (x, rest) ← scan cs
  match skip rest with
  | [] => .ok x
  | _ => .error .malformed

def builder : Builder Json :=
  ⟨true, .null, .bool, .int, .float, .string, .array, .object, .null⟩

/-- Arrays and objects may be nested this deep. -/
def maxDepth : Nat := 127

def parse (text : String) : Except Fault Json := whole (value builder maxDepth) text.toList

end Phrasebook.Json
