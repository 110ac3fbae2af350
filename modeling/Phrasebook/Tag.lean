import Phrasebook.Text.Bytes

/-! A tag is an opener, a key of sixteen hex digits and `>`. Tags are found from left to right and
never overlap; whatever misses the shape by one character is plain text. -/
namespace Phrasebook.Tag

def keyLength : Nat := 16

/-- Opens a tag that stands for a live variable. -/
def variableOpener : List Char := "<global:".toList

/-- Opens a tag that stands for another entry of the phrasebook. -/
def entryOpener : List Char := "<ref:".toList

/-- The key at the head of a text that has just been opened, and what follows the tag. -/
def key? (cs : List Char) : Option (List Char × List Char) :=
  match cs.drop keyLength with
  | '>' :: rest =>
    if (cs.take keyLength).all Char.isHexDigit then some (cs.take keyLength, rest) else none
  | _ => none

/-- What follows an opener at the head of a text. -/
def opened? : (opener cs : List Char) → Option (List Char)
  | [], cs => some cs
  | _ :: _, [] => none
  | x :: opener, c :: cs => if x = c then opened? opener cs else none

/-- A tag at the head of a text: its key and what follows it. -/
def head? (opener cs : List Char) : Option (List Char × List Char) := (opened? opener cs).bind key?

/-- The first tag of a text, with the plain text before it and the text after it. -/
structure Found where
  before : List Char
  key : List Char
  after : List Char
  deriving DecidableEq, Repr

/-- The search for a tag. A candidate that is no tag is left by one byte, and a search that would
resume inside a character is over; an opener that begins with an ASCII character never does that. -/
def find? (opener : List Char) : List Char → Option Found
  | [] => none
  | c :: rest =>
    match head? opener (c :: rest) with
    | some (key, after) => some ⟨[], key, after⟩
    | none =>
      if (opened? opener (c :: rest)).isSome && c.utf8Size != 1 then none
      else (find? opener rest).map fun f => { f with before := c :: f.before }

def occurs (opener cs : List Char) : Bool := (find? opener cs).isSome

theorem key?_length {cs key rest : List Char} (h : key? cs = some (key, rest)) :
    rest.length < cs.length := by
  unfold key? at h
  split at h
  · rename_i r hr
    split at h
    · simp only [Option.some.injEq, Prod.mk.injEq] at h
      have := congrArg List.length hr
      simp only [List.length_drop, List.length_cons] at this
      rw [← h.2]; omega
    · cases h
  · cases h

theorem opened?_eq_some_iff {opener cs rest : List Char} :
    opened? opener cs = some rest ↔ cs = opener ++ rest := by
  induction opener generalizing cs with
  | nil => simp [opened?]
  | cons x opener ih =>
    cases cs with
    | nil => simp [opened?]
    | cons c cs =>
      by_cases h : x = c
      · simp [opened?, h, ih]
      · simp [opened?, h, Ne.symm h]

theorem head?_length {opener cs key rest : List Char} (h : head? opener cs = some (key, rest)) :
    rest.length < cs.length := by
  obtain ⟨r, hr, hk⟩ := Option.bind_eq_some_iff.1 h
  have := key?_length hk
  rw [opened?_eq_some_iff.1 hr, List.length_append]
  omega

theorem find?_length {opener cs : List Char} {f : Found} (h : find? opener cs = some f) :
    f.after.length < cs.length := by
  induction cs generalizing f with
  | nil => cases h
  | cons c rest ih =>
    unfold find? at h
    split at h
    · rename_i key after hh
      have := head?_length hh
      simp only [Option.some.injEq] at h
      rw [← h]; exact this
    · split at h
      · cases h
      · obtain ⟨g, hg, rfl⟩ := Option.map_eq_some_iff.1 h
        have := ih hg
        simp only [List.length_cons]; omega

/-- A text cut at its tags. -/
inductive Piece where
  | plain (text : List Char)
  | tag (key : List Char)
  deriving DecidableEq, Repr

/-- The pieces of a text in order; plain pieces are not empty. -/
def pieces (opener cs : List Char) : List Piece :=
  match _h : find? opener cs with
  | none => if cs.isEmpty then [] else [.plain cs]
  | some f =>
    if f.before.isEmpty then .tag f.key :: pieces opener f.after
    else .plain f.before :: .tag f.key :: pieces opener f.after
termination_by cs.length
decreasing_by all_goals exact find?_length _h

end Phrasebook.Tag

namespace Phrasebook

/-- A tag in a text; offsets count bytes of UTF-8. -/
structure Tag where
  start : Nat
  stop : Nat
  key : String
  deriving DecidableEq, Repr

namespace Tag
open Text

/-- A place in a text from which the search goes on. -/
structure Cursor where
  offset : Nat
  rest : List Char
  deriving DecidableEq, Repr

def Cursor.ofText (text : String) : Cursor := ⟨0, text.toList⟩

/-- The next tag; a cursor that has found none is at the end of its text. -/
def Cursor.next? (opener : List Char) (c : Cursor) : Option Tag × Cursor :=
  match find? opener c.rest with
  | none => (none, ⟨c.offset + byteLength c.rest, []⟩)
  | some f =>
    let start := c.offset + byteLength f.before
    let stop := start + byteLength opener + keyLength + 1
    (some ⟨start, stop, String.ofList f.key⟩, ⟨stop, f.after⟩)

theorem Cursor.next?_length {opener : List Char} {c : Cursor} {t : Tag}
    (h : (c.next? opener).1 = some t) : (c.next? opener).2.rest.length < c.rest.length := by
  unfold next? at h ⊢
  split
  · simp_all
  · exact find?_length (by assumption)

def Cursor.tags (opener : List Char) (c : Cursor) : List Tag :=
  match _h : (c.next? opener).1 with
  | none => []
  | some t => t :: Cursor.tags opener (c.next? opener).2
termination_by c.rest.length
decreasing_by exact Cursor.next?_length _h

/-- The tags of a text from left to right. -/
def all (opener text : String) : List Tag := (Cursor.ofText text).tags opener.toList

end Tag
end Phrasebook
