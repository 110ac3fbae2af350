/-! Blank characters are those with the Unicode property White_Space. Words are cut at blanks and
texts are trimmed of them; nothing else is a blank, not even the zero-width space. -/
namespace Phrasebook.Text

def isBlank (c : Char) : Bool :=
  let n := c.toNat
  (0x09 ≤ n && n ≤ 0x0D) || n == 0x20 || n == 0x85 || n == 0xA0 || n == 0x1680 ||
    (0x2000 ≤ n && n ≤ 0x200A) || n == 0x2028 || n == 0x2029 || n == 0x202F || n == 0x205F ||
    n == 0x3000

def trimStart (cs : List Char) : List Char := cs.dropWhile isBlank

def trimEnd (cs : List Char) : List Char := (cs.reverse.dropWhile isBlank).reverse

def trim (cs : List Char) : List Char := trimEnd (trimStart cs)

/-- The text before the first blank and the text after it. -/
def splitBlank : List Char → Option (List Char × List Char)
  | [] => none
  | c :: rest =>
    if isBlank c then some ([], rest)
    else (splitBlank rest).map fun (word, after) => (c :: word, after)

/-- The pieces between separators; there is always at least one. -/
def splitAll {α : Type} (isSeparator : α → Bool) : List α → List (List α)
  | [] => [[]]
  | x :: rest =>
    if isSeparator x then [] :: splitAll isSeparator rest
    else match splitAll isSeparator rest with
      | piece :: more => (x :: piece) :: more
      | [] => [[x]]

def trimmed (s : String) : String := String.ofList (trim s.toList)

section Pieces

variable {α : Type}

/-- The pieces are those that the library cuts a list into. -/
theorem splitAll_eq_splitOnP (p : α → Bool) (xs : List α) : splitAll p xs = xs.splitOnP p := by
  induction xs with
  | nil => rfl
  | cons x rest ih =>
    obtain ⟨piece, more, hsplit⟩ := List.exists_cons_of_ne_nil (List.splitOnP_ne_nil p rest)
    rw [splitAll, ih, List.splitOnP_cons_eq_if_modifyHead, hsplit]
    rfl

theorem splitAll_ne_nil (p : α → Bool) (xs : List α) : splitAll p xs ≠ [] := by
  rw [splitAll_eq_splitOnP]
  exact List.splitOnP_ne_nil p xs

theorem splitAll_of_forall {isSeparator : α → Bool} {xs : List α}
    (h : ∀ x ∈ xs, isSeparator x = false) : splitAll isSeparator xs = [xs] := by
  rw [splitAll_eq_splitOnP]
  exact List.splitOnP_eq_singleton h

/-- A separator ends a piece. -/
theorem splitAll_append_cons {isSeparator : α → Bool} {x : α} (hx : isSeparator x = true)
    (xs rest : List α) :
    splitAll isSeparator (xs ++ x :: rest) = splitAll isSeparator xs ++ splitAll isSeparator rest := by
  simp only [splitAll_eq_splitOnP]
  exact List.splitOnP_append_cons xs rest hx

/-- The separators are all that is taken away. -/
theorem flatten_splitAll (isSeparator : α → Bool) (xs : List α) :
    (splitAll isSeparator xs).flatten = xs.filter fun x => !isSeparator x := by
  induction xs with
  | nil => rfl
  | cons x rest ih =>
    by_cases hx : isSeparator x = true
    · simp [splitAll, hx, ih]
    · obtain ⟨piece, more, hsplit⟩ := List.exists_cons_of_ne_nil (splitAll_ne_nil isSeparator rest)
      rw [hsplit, List.flatten_cons] at ih
      simp [splitAll, hx, hsplit, ih]

theorem mem_of_mem_splitAll {isSeparator : α → Bool} {xs piece : List α}
    (h : piece ∈ splitAll isSeparator xs) {x : α} (hx : x ∈ piece) :
    x ∈ xs ∧ isSeparator x = false := by
  have hmem : x ∈ (splitAll isSeparator xs).flatten := List.mem_flatten_of_mem h hx
  rw [flatten_splitAll] at hmem
  simpa using hmem

/-- The pieces between the places of an item are those that do not hold it and make up the list with
the item between them. -/
theorem splitAll_eq_iff [BEq α] [LawfulBEq α] {x : α} {xs : List α} {pieces : List (List α)} :
    splitAll (· == x) xs = pieces ↔
      pieces ≠ [] ∧ (∀ piece ∈ pieces, x ∉ piece) ∧ [x].intercalate pieces = xs := by
  constructor
  · rintro rfl
    refine ⟨splitAll_ne_nil _ xs, ?_, ?_⟩
    · intro piece hpiece hx
      simpa using (mem_of_mem_splitAll hpiece hx).2
    · rw [splitAll_eq_splitOnP]
      exact List.intercalate_splitOn x
  · rintro ⟨hne, hpieces, rfl⟩
    rw [splitAll_eq_splitOnP]
    exact List.splitOn_intercalate x hpieces hne

/-- The first piece ends at the first separator. -/
theorem headD_splitAll (isSeparator : α → Bool) (xs : List α) :
    (splitAll isSeparator xs).headD [] = xs.takeWhile fun x => !isSeparator x := by
  induction xs with
  | nil => rfl
  | cons x rest ih =>
    by_cases hx : isSeparator x = true
    · simp [splitAll, hx]
    · obtain ⟨piece, more, hsplit⟩ := List.exists_cons_of_ne_nil (splitAll_ne_nil isSeparator rest)
      rw [hsplit] at ih
      simp only [List.headD_cons] at ih
      simp [splitAll, hx, hsplit, ih]

end Pieces

end Phrasebook.Text
