import Mathlib.Data.List.Forall2
import Phrasebook.Json.Reader
import Phrasebook.Proofs.Text.Blank

/-! A value made of texts, arrays and objects is read back from its text, as long as it is not nested
too deep. The text of any value has no blanks around it. -/
namespace Phrasebook.Json
open Text

/-- A value of texts, in which at most `depth` arrays and objects stand inside each other. -/
inductive Nested : Nat → Json → Prop
  | string (depth : Nat) (s : String) : Nested depth (.string s)
  | array {depth items} (h : ∀ v ∈ items, Nested depth v) : Nested (depth + 1) (.array items)
  | object {depth fields} (h : ∀ e ∈ fields, Nested depth e.2) : Nested (depth + 1) (.object fields)

lemma Nested.mono {depth : Nat} {v : Json} (h : Nested depth v) {more : Nat} (hle : depth ≤ more) :
    Nested more v := by
  induction h generalizing more with
  | string => exact .string more _
  | array _ ih =>
    obtain ⟨more, rfl⟩ := Nat.exists_eq_add_one.2 (by omega : 0 < more)
    exact .array fun v hv => ih v hv (by omega)
  | object _ ih =>
    obtain ⟨more, rfl⟩ := Nat.exists_eq_add_one.2 (by omega : 0 < more)
    exact .object fun e he => ih e he (by omega)

/-- A scan takes a value off the head of any text that starts with its spelling. -/
def Takes {α : Type} (scan : Scan α) (spelling : List Char) (x : α) : Prop :=
  ∀ rest, scan (spelling ++ rest) = .ok (x, rest)

section Strings

lemma hex4?_control : ∀ n < 32,
    hex4? '0' '0' (lowerHexDigit (n / 16)) (lowerHexDigit (n % 16)) = some n := by decide

lemma stringTail_escaped (strict : Bool) (c : Char) (tail : List Char) :
    stringTail strict (escaped c ++ tail) =
      (stringTail strict tail).map fun (s, r) => (s.push c, r) := by
  unfold escaped
  split
  case h_8 =>
    rename_i hquote hbackslash _ _ _ _ _
    split
    · rename_i hcontrol
      have hhigh : isHighSurrogate c.toNat = false := by
        simp only [isHighSurrogate, Bool.and_eq_false_iff, decide_eq_false_iff_not]
        omega
      have hlow : isLowSurrogate c.toNat = false := by
        simp only [isLowSurrogate, Bool.and_eq_false_iff, decide_eq_false_iff_not]
        omega
      simp only [List.cons_append, List.nil_append]
      rw [stringTail, hex4?_control _ hcontrol]
      simp only [hhigh, hlow, Bool.false_eq_true, if_false, Char.ofNat_toNat]
    · rename_i hcontrol
      rw [List.singleton_append, stringTail]
      · rw [if_neg hcontrol]
      · exact fun h => hquote h
      all_goals
        intros
        subst_vars
        exact hbackslash rfl
  all_goals
    simp only [List.cons_append, List.nil_append]
    rw [stringTail]
    · rfl
    all_goals
      intros
      simp_all

lemma takes_stringTail (strict : Bool) (cs : List Char) :
    Takes (stringTail strict) (cs.flatMap escaped ++ ['"']) (some cs) := by
  intro rest
  rw [List.append_assoc]
  induction cs with
  | nil =>
    rw [List.flatMap_nil, List.nil_append, List.singleton_append, stringTail]
  | cons c cs ih =>
    rw [List.flatMap_cons, List.append_assoc, stringTail_escaped, ih]
    rfl

end Strings

section Sequences

variable {α : Type} {item : Scan α} {spellings : List (List Char)} {xs : List α}

lemma skip_of_head {c : Char} {cs : List Char} (h : isSpace c = false) :
    skip (c :: cs) = c :: cs := by
  rw [skip, List.dropWhile_cons_of_neg (by simp [h])]

/-- There are enough characters for the commas between the items. -/
lemma length_le_intercalate (spellings : List (List Char)) (rest : List Char) :
    spellings.length ≤ ([','].intercalate spellings ++ rest).length + 1 := by
  induction spellings with
  | nil => simp
  | cons spelling others ih =>
    cases others with
    | nil => simp
    | cons other others =>
      rw [List.intercalate_cons_cons]
      simp only [List.length_append, List.length_cons, List.length_nil] at ih ⊢
      omega

/-- How a reader of items between commas goes on after one of them. -/
structure IsSeries (item : Scan α) (close : Char) (scan : Nat → Scan (List α)) : Prop where
  last {fuel cs x rest} (h : item cs = .ok (x, close :: rest)) :
    scan (fuel + 1) cs = .ok ([x], rest)
  more {fuel cs x rest xs rest'} (h : item cs = .ok (x, ',' :: rest))
    (hrest : scan fuel rest = .ok (xs, rest')) : scan (fuel + 1) cs = .ok (x :: xs, rest')

lemma isSeries_items (item : Scan α) : IsSeries item ']' (items item) where
  last h := by
    rw [items, h]
    rfl
  more h hrest := by
    rw [items, h]
    simp only [bind, Except.bind, skip_of_head (by decide : isSpace ',' = false), hrest]

lemma isSeries_members (strict : Bool) (item : Scan α) :
    IsSeries (member strict item) '}' (members strict item) where
  last h := by
    rw [members, h]
    rfl
  more h hrest := by
    rw [members, h]
    simp only [bind, Except.bind, skip_of_head (by decide : isSpace ',' = false), hrest]

lemma IsSeries.intercalate {close : Char} {scan : Nat → Scan (List α)}
    (hscan : IsSeries item close scan) (h : List.Forall₂ (Takes item) spellings xs)
    (hne : spellings ≠ []) {fuel : Nat} (hfuel : spellings.length ≤ fuel) (rest : List Char) :
    scan fuel ([','].intercalate spellings ++ close :: rest) = .ok (xs, rest) := by
  induction h generalizing fuel with
  | nil => exact absurd rfl hne
  | @cons spelling x others xs hx hrest ih =>
    obtain ⟨fuel, rfl⟩ := Nat.exists_eq_add_one.2 (Nat.lt_of_lt_of_le (Nat.succ_pos _) hfuel)
    rw [List.length_cons, Nat.add_le_add_iff_right] at hfuel
    cases hrest with
    | nil =>
      rw [List.intercalate_singleton]
      exact hscan.last (hx _)
    | cons hy hrest =>
      rw [List.intercalate_cons_cons, List.append_assoc, List.append_assoc]
      exact hscan.more (hx _) (ih (by simp) hfuel)

/-- A spelling that starts neither with a blank nor with a closing bracket. -/
def IsOpened (spelling : List Char) : Prop :=
  ∃ c cs, spelling = c :: cs ∧ isSpace c = false ∧ c ≠ ']' ∧ c ≠ '}'

lemma IsOpened.intercalate {spelling : List Char} (h : IsOpened spelling)
    (others : List (List Char)) (rest : List Char) :
    IsOpened ([','].intercalate (spelling :: others) ++ rest) := by
  obtain ⟨c, cs, rfl, hopened⟩ := h
  rw [List.intercalate_cons_cons_left]
  exact ⟨c, _, rfl, hopened⟩

theorem takes_arrayTail (h : List.Forall₂ (Takes item) spellings xs)
    (hopened : ∀ spelling ∈ spellings, IsOpened spelling) :
    Takes (arrayTail item) ([','].intercalate spellings ++ [']']) xs := by
  intro rest
  rw [List.append_assoc, List.singleton_append]
  cases h with
  | nil => rfl
  | @cons spelling x others xs hx hrest =>
    have hlength := length_le_intercalate (spelling :: others) (']' :: rest)
    have hitems := (isSeries_items item).intercalate (.cons hx hrest) (by simp) hlength rest
    obtain ⟨c, cs, hcs, hspace, hclose, -⟩ :=
      (hopened spelling (by simp)).intercalate others (']' :: rest)
    rw [hcs] at hitems ⊢
    rw [arrayTail, skip_of_head hspace]
    split
    · rename_i heq
      exact absurd (List.cons.inj heq).1 hclose
    · exact hitems

theorem takes_objectTail {strict : Bool} {xs : List (Spelled × α)}
    (h : List.Forall₂ (Takes (member strict item)) spellings xs)
    (hopened : ∀ spelling ∈ spellings, IsOpened spelling) :
    Takes (objectTail strict item) ([','].intercalate spellings ++ ['}']) xs := by
  intro rest
  rw [List.append_assoc, List.singleton_append]
  cases h with
  | nil => rfl
  | @cons spelling x others xs hx hrest =>
    have hlength := length_le_intercalate (spelling :: others) ('}' :: rest)
    have hmembers :=
      (isSeries_members strict item).intercalate (.cons hx hrest) (by simp) hlength rest
    obtain ⟨c, cs, hcs, hspace, -, hclose⟩ :=
      (hopened spelling (by simp)).intercalate others ('}' :: rest)
    rw [hcs] at hmembers ⊢
    rw [objectTail, skip_of_head hspace]
    split
    · rename_i heq
      exact absurd (List.cons.inj heq).1 hclose
    · exact hmembers

lemma takes_member {strict : Bool} {key spelling : List Char} {x : α} (hx : Takes item spelling x) :
    Takes (member strict item)
      ('"' :: (key.flatMap escaped ++ ['"'] ++ ':' :: spelling)) (some key, x) := by
  intro rest
  have hkey := takes_stringTail strict key (':' :: spelling ++ rest)
  rw [List.cons_append, List.append_assoc, member, skip_of_head (by decide : isSpace '"' = false)]
  simp only [bind, Except.bind, hkey]
  rw [List.cons_append, skip_of_head (by decide : isSpace ':' = false)]
  simp only [hx rest]

end Sequences

/-- The reader of one value at a depth. -/
lemma exists_value_eq {α : Type} (b : Builder α) (depth : Nat) :
    ∃ nested, value b depth = valueWith b nested := by
  cases depth with
  | zero => exact ⟨none, rfl⟩
  | succ depth => exact ⟨some (value b depth), rfl⟩

lemma toList_quoted (s : String) :
    (quoted s).toList = '"' :: (s.toList.flatMap escaped ++ ['"']) := by
  rw [quoted, String.toList_ofList, List.cons_append]

lemma itemTexts_eq (items : List Json) : itemTexts items = items.map text := by
  induction items with
  | nil => rfl
  | cons v rest ih => rw [itemTexts, ih, List.map_cons]

lemma fieldTexts_eq (fields : List (String × Json)) :
    fieldTexts fields = fields.map fun e => quoted e.1 ++ ":" ++ text e.2 := by
  induction fields with
  | nil => rfl
  | cons e rest ih =>
    obtain ⟨key, v⟩ := e
    rw [fieldTexts, ih, List.map_cons]

lemma toList_text_array (items : List Json) :
    (text (.array items)).toList =
      '[' :: ([','].intercalate (items.map fun v => (text v).toList) ++ [']']) := by
  rw [text, itemTexts_eq]
  simp only [String.toList_append, String.toList_intercalate, List.map_map]
  rfl

lemma toList_text_object (fields : List (String × Json)) :
    (text (.object fields)).toList =
      '{' :: ([','].intercalate (fields.map fun e =>
        '"' :: (e.1.toList.flatMap escaped ++ ['"'] ++ ':' :: (text e.2).toList)) ++ ['}']) := by
  have hfield (e : String × Json) : (quoted e.1 ++ ":" ++ text e.2).toList =
      '"' :: (e.1.toList.flatMap escaped ++ ['"'] ++ ':' :: (text e.2).toList) := by
    simp only [String.toList_append, toList_quoted, List.append_assoc, List.cons_append]
    rfl
  rw [text, fieldTexts_eq]
  simp only [String.toList_append, String.toList_intercalate, List.map_map, Function.comp_def, hfield]
  rfl

lemma Nested.isOpened {depth : Nat} {v : Json} (h : Nested depth v) : IsOpened (text v).toList := by
  cases h with
  | string s =>
    rw [text, toList_quoted]
    exact ⟨_, _, rfl, by decide, by decide, by decide⟩
  | array h =>
    rw [toList_text_array]
    exact ⟨_, _, rfl, by decide, by decide, by decide⟩
  | object h =>
    rw [toList_text_object]
    exact ⟨_, _, rfl, by decide, by decide, by decide⟩

/-- The keys of an object that has been read are all known. -/
lemma fields_known (fields : List (String × Json)) :
    builder.fields (fields.map fun e => (some e.1.toList, e.2)) = .object fields := by
  have hknown : (fields.map fun e => (some e.1.toList, e.2)).mapM
      (fun (k, x) => k.map fun k => (String.ofList k, x)) = some fields := by
    induction fields with
    | nil => rfl
    | cons e rest ih =>
      rw [List.map_cons, List.mapM_cons, ih]
      simp only [Option.map_some, String.ofList_toList]
      rfl
  rw [Builder.fields, hknown]
  rfl

/-- A value is taken off the head of any text that starts with its own. -/
theorem takes_text {depth : Nat} {v : Json} (h : Nested depth v) :
    Takes (value builder depth) (text v).toList v := by
  induction h with
  | string depth s =>
    intro rest
    obtain ⟨nested, hvalue⟩ := exists_value_eq builder depth
    rw [hvalue, text, toList_quoted, List.cons_append, valueWith,
      skip_of_head (by decide : isSpace '"' = false)]
    simp only [builder, takes_stringTail true s.toList rest]
    rw [Except.map, Option.elim_some, String.ofList_toList]
  | @array depth items h ih =>
    intro rest
    have hitems : List.Forall₂ (Takes (value builder depth))
        (items.map fun v => (text v).toList) items := by
      rw [List.forall₂_map_left_iff, List.forall₂_same]
      exact ih
    have htail := takes_arrayTail hitems (by
      intro spelling hspelling
      obtain ⟨v, hv, rfl⟩ := List.mem_map.1 hspelling
      exact (h v hv).isOpened) rest
    rw [toList_text_array, List.cons_append, value, valueWith,
      skip_of_head (by decide : isSpace '[' = false)]
    simp only [htail]
    rfl
  | @object depth fields h ih =>
    intro rest
    have hmembers : List.Forall₂ (Takes (member true (value builder depth)))
        (fields.map fun e => '"' :: (e.1.toList.flatMap escaped ++ ['"'] ++ ':' :: (text e.2).toList))
        (fields.map fun e => (some e.1.toList, e.2)) := by
      rw [List.forall₂_map_left_iff, List.forall₂_map_right_iff, List.forall₂_same]
      exact fun e he => takes_member (ih e he)
    have htail := takes_objectTail hmembers (by
      intro spelling hspelling
      obtain ⟨e, he, rfl⟩ := List.mem_map.1 hspelling
      exact ⟨_, _, rfl, by decide, by decide, by decide⟩) rest
    rw [toList_text_object, List.cons_append, value, valueWith,
      skip_of_head (by decide : isSpace '{' = false)]
    have hstrict : builder.strict = true := rfl
    simp only [hstrict, htail, Except.map, fields_known]

/-- The whole text of a value is that value. -/
theorem parse_text {v : Json} (h : Nested maxDepth v) : parse (text v) = .ok v := by
  have hvalue := takes_text h []
  rw [List.append_nil] at hvalue
  rw [parse, whole, hvalue]
  rfl

section Ends
open Decimal

lemma isBlank_of_isDigit {c : Char} (h : c.isDigit = true) : isBlank c = false := by
  have hrange : 48 ≤ c.toNat ∧ c.toNat ≤ 57 := by
    simpa [Char.isDigit, UInt32.le_iff_toNat_le] using h
  unfold isBlank
  grind

lemma isSolid_toDigits (n : Nat) : IsSolid (Nat.toDigits 10 n) := fun _ hc =>
  isBlank_of_isDigit (Nat.isDigit_of_mem_toDigits (by decide) (by decide) hc)

lemma isSolid_zeros (n : Nat) : IsSolid (zeros n) := by
  intro c hc
  rw [List.eq_of_mem_replicate hc]
  decide

lemma isSolid_ite {p : Prop} [Decidable p] {cs ds : List Char} (hcs : IsSolid cs)
    (hds : IsSolid ds) : IsSolid (if p then cs else ds) := by
  split
  · exact hcs
  · exact hds

lemma isSolid_layout (s : Style) (x : Digits) : IsSolid (s.layout x) := by
  have hdigits := isSolid_toDigits x.digits
  have htake (n : Nat) : IsSolid ((Nat.toDigits 10 x.digits).take n) :=
    fun c hc => hdigits c (List.mem_of_mem_take hc)
  have hpoint (n : Nat) : IsSolid ('.' :: (Nat.toDigits 10 x.digits).drop n) :=
    isSolid_cons_iff.2 ⟨by decide, fun c hc => hdigits c (List.mem_of_mem_drop hc)⟩
  have hwhole : IsSolid ['0', '.'] := by decide
  have hmark : IsSolid ['e'] := by decide
  simp only [Style.layout]
  refine isSolid_ite (isSolid_ite ?_ (isSolid_ite ?_ ?_)) ?_
  · exact (hdigits.append (isSolid_zeros _)).append (isSolid_ite (by decide) isSolid_nil)
  · exact (htake _).append (hpoint _)
  · exact hwhole.append ((isSolid_zeros _).append hdigits)
  · have hsign : IsSolid ['-'] ∧ IsSolid ['+'] := by decide
    refine (((htake 1).append (isSolid_ite isSolid_nil (hpoint 1))).append (hmark.append ?_)).append
      (isSolid_toDigits _)
    exact isSolid_ite hsign.1 (isSolid_ite hsign.2 isSolid_nil)

lemma layout_ne_nil (s : Style) (x : Digits) : s.layout x ≠ [] := by
  simp only [Style.layout]
  split
  · split
    · simp [Nat.toDigits_ne_nil]
    · split <;> simp
  · simp

lemma isSolid_toString (i : Int) : IsSolid (toString i).toList ∧ (toString i).toList ≠ [] := by
  cases i with
  | ofNat n =>
    have hdigits : (toString (Int.ofNat n)).toList = Nat.toDigits 10 n := Nat.toList_repr
    rw [hdigits]
    exact ⟨isSolid_toDigits n, Nat.toDigits_ne_nil⟩
  | negSucc n =>
    have hdigits : (toString (Int.negSucc n)).toList = '-' :: Nat.toDigits 10 (n + 1) := by
      show ("-" ++ (n + 1).repr).toList = _
      rw [String.toList_append, Nat.toList_repr]
      rfl
    rw [hdigits]
    exact ⟨isSolid_cons_iff.2 ⟨by decide, isSolid_toDigits _⟩, List.cons_ne_nil _ _⟩

lemma isSolid_numberText (x : Double) :
    IsSolid (numberStyle.text x).toList ∧ (numberStyle.text x).toList ≠ [] := by
  cases x with
  | nan => exact ⟨by decide, by decide⟩
  | infinite negative => cases negative <;> exact ⟨by decide, by decide⟩
  | finite negative m e =>
    have hbody := isSolid_layout numberStyle (shortest double numberStyle.halfUp m e)
    have hne := layout_ne_nil numberStyle (shortest double numberStyle.halfUp m e)
    rw [Style.text, String.toList_ofList]
    cases negative with
    | false => exact ⟨hbody, hne⟩
    | true => exact ⟨isSolid_cons_iff.2 ⟨by decide, hbody⟩, List.cons_ne_nil _ _⟩

/-- What stands between two marks has no blanks around it. -/
lemma isTrimmed_marked {a b : Char} (ha : isBlank a = false) (hb : isBlank b = false)
    (cs : List Char) : IsTrimmed (a :: (cs ++ [b])) := by
  refine ⟨by simpa using ha, ?_⟩
  rw [← List.cons_append, List.getLast?_append]
  simpa using hb

lemma isTrimmed_text (v : Json) : IsTrimmed (text v).toList ∧ (text v).toList ≠ [] := by
  cases v with
  | null => exact ⟨IsSolid.isTrimmed (by decide), by decide⟩
  | bool b => cases b <;> exact ⟨IsSolid.isTrimmed (by decide), by decide⟩
  | int i =>
    obtain ⟨hsolid, hne⟩ := isSolid_toString i
    rw [text]
    exact ⟨hsolid.isTrimmed, hne⟩
  | float x =>
    obtain ⟨hsolid, hne⟩ := isSolid_numberText x
    rw [text]
    exact ⟨hsolid.isTrimmed, hne⟩
  | string s =>
    rw [text, toList_quoted]
    exact ⟨isTrimmed_marked (by decide) (by decide) _, List.cons_ne_nil _ _⟩
  | array items =>
    rw [toList_text_array]
    exact ⟨isTrimmed_marked (by decide) (by decide) _, List.cons_ne_nil _ _⟩
  | object fields =>
    rw [toList_text_object]
    exact ⟨isTrimmed_marked (by decide) (by decide) _, List.cons_ne_nil _ _⟩

end Ends

end Phrasebook.Json
