/-! Texts in UTF-8: their size, their bytes, and what bytes that need not be those of a text read as. -/
namespace Phrasebook.Text

/-- The number of bytes of a text in UTF-8. -/
def byteLength (cs : List Char) : Nat := cs.foldr (fun c n => c.utf8Size + n) 0

@[simp] theorem byteLength_nil : byteLength [] = 0 := rfl

@[simp] theorem byteLength_cons (c : Char) (cs : List Char) :
    byteLength (c :: cs) = c.utf8Size + byteLength cs := rfl

@[simp] theorem byteLength_append (a b : List Char) :
    byteLength (a ++ b) = byteLength a + byteLength b := by
  induction a with
  | nil => simp
  | cons c a ih => simp only [List.cons_append, byteLength_cons, ih]; omega

/-- The bytes of a text. -/
def bytes (text : String) : List UInt8 := text.toUTF8.data.toList

/-- The text of some bytes, if they are those of one. -/
def ofBytes? (bs : List UInt8) : Option String := String.fromUTF8? bs.toByteArray

/-- Whether a byte may stand in a character after its first one. -/
def isContinuation (b : UInt8) : Bool := 0x80 ≤ b && b ≤ 0xBF

/-- Whether two bytes may begin a character of three or four. The second one rules out long spellings
of low characters, surrogates, and what lies beyond U+10FFFF. -/
def mayBegin (first second : UInt8) : Bool :=
  if first = 0xE0 then 0xA0 ≤ second && second ≤ 0xBF
  else if first = 0xED then 0x80 ≤ second && second ≤ 0x9F
  else if first = 0xF0 then 0x90 ≤ second && second ≤ 0xBF
  else if first = 0xF4 then 0x80 ≤ second && second ≤ 0x8F
  else 0xE1 ≤ first && first ≤ 0xF3 && isContinuation second

/-- How many bytes are taken as one, where no character stands: those that one could have begun with,
and at least one. -/
def brokenSize : List UInt8 → Nat
  | first :: second :: rest =>
    if !mayBegin first second then 1
    else if 0xF0 ≤ first && rest.head?.any isContinuation then 3
    else 2
  | _ => 1

/-- The characters of some bytes after the first `skipped` ones. A replacement character stands for
bytes that are no character. -/
def lossyAfter : Nat → List UInt8 → List Char
  | _, [] => []
  | skipped + 1, _ :: rest => lossyAfter skipped rest
  | 0, b :: rest =>
    match ByteArray.utf8DecodeChar? (b :: rest).toByteArray 0 with
    | some c => c :: lossyAfter (c.utf8Size - 1) rest
    | none => '\uFFFD' :: lossyAfter (brokenSize (b :: rest) - 1) rest

/-- What some bytes read as, whether or not they are those of a text. -/
def lossy (bs : List UInt8) : String := String.ofList (lossyAfter 0 bs)

end Phrasebook.Text
