import Mathlib.Tactic.Lemma
import Phrasebook.Tag

/-! The replacement of tags, character by character: a tag at the head of a text is replaced, and any
other character is copied. The search for the first tag and the cut into pieces come to the same. -/
namespace Phrasebook.Tag

/-- A key is sixteen hex digits. -/
def IsKey (key : List Char) : Prop := key.length = 16 ∧ key.all Char.isHexDigit = true

instance : DecidablePred IsKey := fun key =>
  inferInstanceAs (Decidable (key.length = 16 ∧ key.all Char.isHexDigit = true))

/-- A tag as it is written. -/
def written (opener key : List Char) : List Char := opener ++ key ++ ['>']

/-- The key of the tag that a text begins with. -/
def leading? (opener cs : List Char) : Option (List Char) :=
  let key := (cs.drop opener.length).take 16
  if IsKey key ∧ (written opener key).isPrefixOf cs then some key else none

/-- Replaces every tag; what is put in its place is not looked at again. -/
def substitute (opener : List Char) (f : List Char → List Char) : List Char → List Char
  | [] => []
  | c :: rest =>
    match leading? opener (c :: rest) with
    | some key => f key ++ substitute opener f ((c :: rest).drop (written opener key).length)
    | none => c :: substitute opener f rest
termination_by cs => cs.length
decreasing_by
  · simp only [List.length_drop, List.length_cons, written, List.length_append]
    omega
  · exact Nat.lt_succ_self _

/-- The same on whole texts. -/
def replaceAll (opener : String) (f : String → String) (text : String) : String :=
  String.ofList (substitute opener.toList (fun key => (f (String.ofList key)).toList) text.toList)

lemma leading?_eq_some_iff {opener cs key : List Char} :
    leading? opener cs = some key ↔ IsKey key ∧ written opener key <+: cs := by
  unfold leading?
  constructor
  · intro h
    simp only [Option.ite_none_right_eq_some, Option.some.injEq] at h
    obtain ⟨⟨hkey, hprefix⟩, rfl⟩ := h
    exact ⟨hkey, List.isPrefixOf_iff_prefix.1 hprefix⟩
  · rintro ⟨hkey, rest, rfl⟩
    have hread : ((written opener key ++ rest).drop opener.length).take 16 = key := by
      rw [written, List.append_assoc, List.append_assoc, List.drop_left, ← hkey.1, List.take_left]
    simp only [hread]
    exact if_pos ⟨hkey, List.isPrefixOf_iff_prefix.2 (List.prefix_append _ _)⟩

lemma key?_eq_some_iff {cs key rest : List Char} :
    key? cs = some (key, rest) ↔ IsKey key ∧ cs = key ++ '>' :: rest := by
  constructor
  · intro h
    unfold key? at h
    split at h
    · rename_i after hdrop
      split at h
      · rename_i hhex
        simp only [Option.some.injEq, Prod.mk.injEq] at h
        obtain ⟨rfl, rfl⟩ := h
        have hlength : keyLength < cs.length := by
          have := congrArg List.length hdrop
          simp only [List.length_drop, List.length_cons] at this
          omega
        refine ⟨⟨?_, hhex⟩, ?_⟩
        · rw [List.length_take]
          exact Nat.min_eq_left (Nat.le_of_lt hlength)
        · rw [← hdrop, List.take_append_drop]
      · cases h
    · cases h
  · rintro ⟨⟨hlength, hhex⟩, rfl⟩
    have hdrop : (key ++ '>' :: rest).drop keyLength = '>' :: rest := by
      rw [keyLength, ← hlength, List.drop_left]
    have htake : (key ++ '>' :: rest).take keyLength = key := by
      rw [keyLength, ← hlength, List.take_left]
    simp only [key?, hdrop, htake, hhex, if_true]

/-- The search sees a tag at the head of a text just where one is written there. -/
theorem head?_eq_some_iff {opener cs key rest : List Char} :
    head? opener cs = some (key, rest) ↔ IsKey key ∧ cs = written opener key ++ rest := by
  have hwritten : written opener key ++ rest = opener ++ (key ++ '>' :: rest) := by
    simp only [written, List.append_assoc, List.singleton_append]
  rw [hwritten, head?, Option.bind_eq_some_iff]
  constructor
  · rintro ⟨after, hopened, hkey⟩
    obtain ⟨hiskey, rfl⟩ := key?_eq_some_iff.1 hkey
    exact ⟨hiskey, opened?_eq_some_iff.1 hopened⟩
  · rintro ⟨hiskey, rfl⟩
    exact ⟨_, opened?_eq_some_iff.2 rfl, key?_eq_some_iff.2 ⟨hiskey, rfl⟩⟩

section Search

variable {opener : List Char} (f : List Char → List Char)

@[simp] lemma substitute_nil : substitute opener f [] = [] := by rw [substitute]

lemma substitute_of_tag {cs key rest : List Char} (h : head? opener cs = some (key, rest)) :
    substitute opener f cs = f key ++ substitute opener f rest := by
  obtain ⟨hkey, hcs⟩ := head?_eq_some_iff.1 h
  have hleading : leading? opener cs = some key :=
    leading?_eq_some_iff.2 ⟨hkey, rest, hcs.symm⟩
  have hdrop : cs.drop (written opener key).length = rest := by
    rw [hcs, List.drop_left]
  cases cs with
  | nil => simp [written] at hcs
  | cons c tail =>
    rw [substitute, hleading]
    simp only [hdrop]

lemma substitute_of_no_tag {c : Char} {rest : List Char} (h : head? opener (c :: rest) = none) :
    substitute opener f (c :: rest) = c :: substitute opener f rest := by
  have hleading : leading? opener (c :: rest) = none := by
    cases hl : leading? opener (c :: rest) with
    | none => rfl
    | some key =>
      obtain ⟨hkey, after, hcs⟩ := leading?_eq_some_iff.1 hl
      rw [head?_eq_some_iff.2 ⟨hkey, hcs.symm⟩] at h
      cases h
  rw [substitute, hleading]

/-- An opener that begins with an ASCII character. -/
def startsAscii (opener : List Char) : Bool := opener.head?.any fun c => c.utf8Size == 1

lemma startsAscii_variableOpener : startsAscii variableOpener := by decide

lemma startsAscii_entryOpener : startsAscii entryOpener := by decide

lemma utf8Size_of_opened (hascii : startsAscii opener) {c : Char} {rest : List Char}
    (h : (opened? opener (c :: rest)).isSome) : c.utf8Size = 1 := by
  obtain ⟨after, hafter⟩ := Option.isSome_iff_exists.1 h
  have hcs := opened?_eq_some_iff.1 hafter
  cases opener with
  | nil => cases hascii
  | cons x opener =>
    obtain ⟨rfl, -⟩ := List.cons.inj hcs
    simpa [startsAscii] using hascii

/-- No search for an ASCII opener is over before its text is. -/
theorem find?_of_no_tag (hascii : startsAscii opener) {c : Char} {rest : List Char}
    (h : head? opener (c :: rest) = none) :
    find? opener (c :: rest) =
      (find? opener rest).map fun t => { t with before := c :: t.before } := by
  rw [find?, h]
  have hresumes : ((opened? opener (c :: rest)).isSome && c.utf8Size != 1) = false := by
    cases hopened : (opened? opener (c :: rest)).isSome with
    | false => rfl
    | true => simp [utf8Size_of_opened hascii hopened]
  simp only [hresumes]
  rfl

lemma find?_of_tag {c : Char} {rest key after : List Char}
    (h : head? opener (c :: rest) = some (key, after)) :
    find? opener (c :: rest) = some ⟨[], key, after⟩ := by
  rw [find?, h]

lemma find?_cons_eq_none_iff (hascii : startsAscii opener) {c : Char} {rest : List Char} :
    find? opener (c :: rest) = none ↔
      head? opener (c :: rest) = none ∧ find? opener rest = none := by
  cases hhead : head? opener (c :: rest) with
  | some tag => simp [find?_of_tag hhead]
  | none => simp [find?_of_no_tag hascii hhead]

/-- The first tag of a text begins it, or is the first one of what stands after its first character. -/
inductive Finds (opener : List Char) : List Char → Found → Prop
  | here {cs key after} (h : head? opener cs = some (key, after)) : Finds opener cs ⟨[], key, after⟩
  | later {c rest t} (h : head? opener (c :: rest) = none) (ht : Finds opener rest t) :
    Finds opener (c :: rest) { t with before := c :: t.before }

lemma finds_of_find? (hascii : startsAscii opener) {cs : List Char} {t : Found}
    (h : find? opener cs = some t) : Finds opener cs t := by
  induction cs generalizing t with
  | nil => cases h
  | cons c rest ih =>
    cases hhead : head? opener (c :: rest) with
    | some tag =>
      rw [find?_of_tag hhead] at h
      cases h
      exact .here hhead
    | none =>
      rw [find?_of_no_tag hascii hhead] at h
      obtain ⟨t, ht, rfl⟩ := Option.map_eq_some_iff.1 h
      exact .later hhead (ih ht)

/-- What holds of texts without a tag, and of any text if it does of what stands after the first tag,
holds of all texts. -/
@[elab_as_elim]
theorem find?_induction (opener : List Char) {motive : List Char → Prop}
    (untagged : ∀ cs, find? opener cs = none → motive cs)
    (tagged : ∀ cs t, find? opener cs = some t → motive t.after → motive cs) (cs : List Char) :
    motive cs := by
  -- By the length of the text: the search goes on after a whole tag, not after one character.
  induction hn : cs.length using Nat.strongRecOn generalizing cs with
  | ind n ih =>
    cases hfind : find? opener cs with
    | none => exact untagged cs hfind
    | some t => exact tagged cs t hfind (ih t.after.length (hn ▸ find?_length hfind) t.after rfl)

lemma substitute_of_find?_none (hascii : startsAscii opener) {cs : List Char}
    (h : find? opener cs = none) : substitute opener f cs = cs := by
  induction cs with
  | nil => exact substitute_nil f
  | cons c rest ih =>
    obtain ⟨hhead, hrest⟩ := (find?_cons_eq_none_iff hascii).1 h
    rw [substitute_of_no_tag f hhead, ih hrest]

theorem substitute_of_find?_some (hascii : startsAscii opener) {cs : List Char} {t : Found}
    (h : find? opener cs = some t) :
    substitute opener f cs = t.before ++ (f t.key ++ substitute opener f t.after) := by
  replace h := finds_of_find? hascii h
  induction h with
  | here hhead => exact substitute_of_tag f hhead
  | later hhead ht ih =>
    rw [substitute_of_no_tag f hhead, ih]
    rfl

lemma pieces_of_find?_none {cs : List Char} (h : find? opener cs = none) :
    pieces opener cs = if cs.isEmpty then [] else [.plain cs] := by
  rw [pieces]
  split
  · rfl
  · simp_all

lemma pieces_of_find?_some {cs : List Char} {t : Found} (h : find? opener cs = some t) :
    pieces opener cs =
      if t.before.isEmpty then .tag t.key :: pieces opener t.after
      else .plain t.before :: .tag t.key :: pieces opener t.after := by
  rw [pieces]
  split
  · simp_all
  · simp_all

/-- What a piece leaves in the text. -/
def Piece.filled (f : List Char → List Char) : Piece → List Char
  | .plain text => text
  | .tag key => f key

/-- Filling the pieces of a text replaces its tags. -/
theorem flatMap_pieces (hascii : startsAscii opener) (cs : List Char) :
    (pieces opener cs).flatMap (Piece.filled f) = substitute opener f cs := by
  induction cs using find?_induction opener with
  | untagged cs hfind =>
    rw [pieces_of_find?_none hfind, substitute_of_find?_none f hascii hfind]
    cases cs with
    | nil => rfl
    | cons c rest => simp [Piece.filled]
  | tagged cs t hfind ih =>
    rw [pieces_of_find?_some hfind, substitute_of_find?_some f hascii hfind, ← ih]
    cases hbefore : t.before with
    | nil => rfl
    | cons c before => rfl

end Search

end Phrasebook.Tag
