import Mathlib.Data.List.Forall2
import Phrasebook.Data.Scalar
import Phrasebook.Proofs.Dict

/-! What a document may leave open: in which scalars, in which order and with which blanks a format
spells data, and which fields of a record are left out or added by hand. A field is read all the same. -/
namespace Phrasebook

/-- How data is made up of records: the fields of each with their standard values, if they have one,
and their own shapes. -/
inductive Shape where
  /-- Kept as it is. -/
  | plain
  | list (item : Shape)
  | record (fields : List (String × Option Data × Shape))

namespace Data

/-- A text that has no other sense as an unquoted scalar. -/
def isPlainText (s : String) : Bool :=
  s != "" && !isBareNull s && (bareBool? s).isNone && (bareNumber? s).isNone

/-- Fields as they are read on the left, and as they are written on the right. One without a value may
be omitted. -/
inductive SpelledFields (spells : Data → Data → Prop) :
    List (String × Data) → List (String × Data) → Prop
  | nil : SpelledFields spells [] []
  | cons {name d d' fields fields'} (value : spells d d')
      (rest : SpelledFields spells fields fields') :
      SpelledFields spells ((name, d) :: fields) ((name, d') :: fields')
  | omitted {name fields fields'} (rest : SpelledFields spells fields fields') :
      SpelledFields spells fields ((name, .null) :: fields')

/-- What is read is a spelling of what was written. An unquoted scalar is a text unless it has another
sense, numbers are the same if they are when rounded to binary32, and the fields of a record have no
order. -/
inductive Spells : Data → Data → Prop
  | same (d) : Spells d d
  | text {s} (h : isPlainText s) : Spells (.bare s) (.string s)
  | null {s} (h : s = "" ∨ isBareNull s) : Spells (.bare s) .null
  | bool {s b} (h : bareBool? s = some b) : Spells (.bare s) (.bool b)
  | number {d d' x} (h : d.single? = some x) (h' : d'.single? = some x) : Spells d d'
  | list {items items'} (h : List.Forall₂ Spells items items') : Spells (.list items) (.list items')
  | record {fields fields' written} (h : SpelledFields Spells fields fields')
      (order : fields'.Perm written) : Spells (.record fields) (.record written)

/-- What may be done to a field under a known name: with its standard value it may be left out, and it
may be kept with an elided value. -/
def FieldElided (elided : Data → Data → Prop) (name : String) (standard : Option Data)
    (fields fields' : List (String × Data)) : Prop :=
  ∀ d, under name fields = [d] →
    (under name fields' = [] ∧ standard = some d) ∨ ∃ d', under name fields' = [d'] ∧ elided d d'

mutual

/-- The same data, in which fields with their standard values may be left out and fields of unknown
names may stand, at any level. -/
def Elided : Shape → Data → Data → Prop
  | .list item, .list ds, .list ds' => List.Forall₂ (Elided item) ds ds'
  | .record shapes, .record fields, .record fields' => ElidedFields shapes fields fields'
  | _, d, d' => d' = d

def ElidedFields : List (String × Option Data × Shape) →
    List (String × Data) → List (String × Data) → Prop
  | [], _, _ => True
  | (name, standard, shape) :: rest, fields, fields' =>
    FieldElided (Elided shape) name standard fields fields' ∧ ElidedFields rest fields fields'

end

mutual

theorem elided_refl (shape : Shape) (d : Data) : Elided shape d d := by
  cases shape with
  | plain => simp only [Elided]
  | list item =>
    cases d with
    | list ds =>
      simp only [Elided]
      exact List.forall₂_same.2 fun d _ => elided_refl item d
    | _ => simp only [Elided]
  | record shapes =>
    cases d with
    | record fields =>
      simp only [Elided]
      exact elidedFields_refl shapes fields
    | _ => simp only [Elided]

lemma elidedFields_refl (shapes : List (String × Option Data × Shape))
    (fields : List (String × Data)) : ElidedFields shapes fields fields := by
  match shapes with
  | [] => trivial
  | (name, standard, shape) :: rest =>
    exact ⟨fun d hone => .inr ⟨d, hone, elided_refl shape d⟩, elidedFields_refl rest fields⟩

end

section FieldElided

variable {elided : Data → Data → Prop} {name : String} {standard : Option Data}
  {fields fields' : List (String × Data)} {d d' : Data}

lemma FieldElided.leftOut (hone : under name fields = [d]) (hnone : under name fields' = [])
    (hstandard : standard = some d) : FieldElided elided name standard fields fields' := by
  intro d₀ hone₀
  rw [hone] at hone₀
  cases hone₀
  exact .inl ⟨hnone, hstandard⟩

lemma FieldElided.kept (hone : under name fields = [d]) (hone' : under name fields' = [d'])
    (h : elided d d') : FieldElided elided name standard fields fields' := by
  intro d₀ hone₀
  rw [hone] at hone₀
  cases hone₀
  exact .inr ⟨d', hone', h⟩

end FieldElided

lemma Elided.eq_null {shape : Shape} {d : Data} (h : Elided shape d .null) : d = .null := by
  cases shape <;> cases d <;> simp_all [Elided]

section Scalars

variable {d : Data}

lemma Spells.text? {s : String} (h : Spells d (.string s)) : d.text? = some s := by
  cases h with
  | same => rfl
  | text h => rfl
  | number _ h => cases h

lemma Spells.bool? {b : Bool} (h : Spells d (.bool b)) : d.bool? = some b := by
  cases h with
  | same => rfl
  | bool h => exact h
  | number _ h => cases h

lemma Spells.single? {x : Decimal.Single} (h : Spells d (.single x)) : d.single? = some x := by
  cases h with
  | same => rfl
  | number h h' => exact h.trans h'.symm

lemma Spells.optionalText?_null (h : Spells d .null) : d.optionalText? = some none := by
  cases h with
  | same => rfl
  | null h =>
    rcases h with h | h
    · simp [optionalText?, h]
    · simp [optionalText?, h]
  | number _ h => cases h

lemma Spells.optionalText?_string {s : String} (h : Spells d (.string s)) :
    d.optionalText? = some (some s) := by
  cases h with
  | same => rfl
  | text h =>
    simp only [isPlainText, Bool.and_eq_true, bne_iff_ne, Bool.not_eq_true'] at h
    simp [optionalText?, h]
  | number _ h => cases h

end Scalars

lemma Spells.items {d : Data} {items' : List Data} (h : Spells d (.list items')) :
    ∃ items, d = .list items ∧ List.Forall₂ Spells items items' := by
  cases h with
  | same => exact ⟨items', rfl, List.forall₂_same.2 fun d _ => .same d⟩
  | list h => exact ⟨_, rfl, h⟩
  | number _ h => cases h

lemma spelledFields_same (fields : List (String × Data)) : SpelledFields Spells fields fields := by
  induction fields with
  | nil => exact .nil
  | cons e rest ih => exact .cons (.same e.2) ih

lemma Spells.fields {d : Data} {written : List (String × Data)} (h : Spells d (.record written)) :
    ∃ fields fields', d = .record fields ∧ SpelledFields Spells fields fields' ∧
      fields'.Perm written := by
  cases h with
  | same => exact ⟨written, written, rfl, spelledFields_same written, .refl _⟩
  | record h order => exact ⟨_, _, rfl, h, order⟩
  | number _ h => cases h

section Under

variable {name : String}

lemma SpelledFields.under_eq_nil {spells : Data → Data → Prop} {fields fields'}
    (h : SpelledFields spells fields fields') (hnone : under name fields' = []) :
    under name fields = [] := by
  induction h with
  | nil => rfl
  | @cons name' d d' fields fields' value rest ih =>
    rw [under_cons] at hnone ⊢
    split at hnone
    · cases hnone
    · rename_i hname
      rw [if_neg hname]
      exact ih hnone
  | @omitted name' fields fields' rest ih =>
    rw [under_cons] at hnone
    split at hnone
    · cases hnone
    · exact ih hnone

/-- A field that was written once is read once, unless it has no value and is omitted. -/
theorem SpelledFields.under_eq {spells : Data → Data → Prop} {fields fields'} {d : Data}
    (h : SpelledFields spells fields fields') (hone : under name fields' = [d]) :
    (under name fields = [] ∧ d = .null) ∨ ∃ d', under name fields = [d'] ∧ spells d' d := by
  induction h with
  | nil => cases hone
  | @cons name' d' d'' fields fields' value rest ih =>
    rw [under_cons] at hone ⊢
    split at hone
    · rename_i hname
      obtain ⟨rfl, hnone⟩ := List.cons.inj hone
      rw [if_pos hname, rest.under_eq_nil hnone]
      exact .inr ⟨d', rfl, value⟩
    · rename_i hname
      rw [if_neg hname]
      exact ih hone
  | @omitted name' fields fields' rest ih =>
    rw [under_cons] at hone
    split at hone
    · obtain ⟨rfl, hnone⟩ := List.cons.inj hone
      exact .inl ⟨rest.under_eq_nil hnone, rfl⟩
    · exact ih hone

lemma SpelledFields.mapM_textField? {fields fields' : List (String × Data)}
    (h : SpelledFields Spells fields fields') (hall : ∀ e ∈ fields', ∃ s, e.2 = .string s) :
    fields.mapM textField? = some (fields'.filterMap textField?) := by
  induction h with
  | nil => rfl
  | @cons name d d' fields fields' value rest ih =>
    obtain ⟨⟨s, rfl⟩, hrest⟩ := List.forall_mem_cons.1 hall
    have hfirst : textField? (name, d) = some (name, s) := by rw [textField?, value.text?]; rfl
    rw [List.mapM_cons, hfirst, ih hrest]
    rfl
  | omitted rest ih =>
    obtain ⟨⟨s, hs⟩, -⟩ := List.forall_mem_cons.1 hall
    cases hs

end Under

/-- What became of a field with the value `d`: it is left out, as it may be, or it stands once. -/
inductive Fate (fields : List (String × Data)) (name : String) (standard : Option Data)
    (shape : Shape) (d : Data) : Prop
  | out (none : under name fields = []) (free : standard = some d ∨ d = .null)
  | stays {d' d''} (one : under name fields = [d'']) (value : Elided shape d d')
      (spelling : Spells d'' d')

lemma FieldElided.fate {name : String} {standard : Option Data} {shape : Shape}
    {fields fields' fields'' ordered : List (String × Data)} {d : Data}
    (h : FieldElided (Elided shape) name standard fields fields')
    (hs : SpelledFields Spells fields'' ordered) (order : ordered.Perm fields')
    (hone : under name fields = [d]) : Fate fields'' name standard shape d := by
  have hunder : (under name ordered).Perm (under name fields') := (order.filter _).map _
  rcases h d hone with ⟨hnone, hstandard⟩ | ⟨d', hone', hvalue⟩
  · rw [hnone, List.perm_nil] at hunder
    exact .out (hs.under_eq_nil hunder) (.inl hstandard)
  · rw [hone', List.perm_singleton] at hunder
    rcases hs.under_eq hunder with ⟨hnone, rfl⟩ | ⟨d'', hone'', hspelling⟩
    · exact .out hnone (.inr hvalue.eq_null)
    · exact .stays hone'' hvalue hspelling

lemma ElidedFields.of_mem {shapes : List (String × Option Data × Shape)}
    {fields fields' : List (String × Data)} (h : ElidedFields shapes fields fields') :
    ∀ e ∈ shapes, FieldElided (Elided e.2.2) e.1 e.2.1 fields fields' := by
  induction shapes with
  | nil => nofun
  | cons e rest ih =>
    obtain ⟨hfirst, hrest⟩ := h
    exact List.forall_mem_cons.2 ⟨hfirst, ih hrest⟩

/-- A record is read as a record, and something became of each of its fields. -/
theorem Elided.fates {shapes : List (String × Option Data × Shape)} {fields : List (String × Data)}
    {d' d'' : Data} (h : Elided (.record shapes) (.record fields) d') (hs : Spells d'' d') :
    ∃ fields'', d'' = .record fields'' ∧
      ∀ e ∈ shapes, ∀ d, under e.1 fields = [d] → Fate fields'' e.1 e.2.1 e.2.2 d := by
  cases d' with
  | record fields' =>
    obtain ⟨fields'', ordered, rfl, hspelled, order⟩ := hs.fields
    exact ⟨fields'', rfl, fun e he d hone => (h.of_mem e he).fate hspelled order hone⟩
  | _ => simp [Elided] at h

lemma Elided.items {item : Shape} {ds : List Data} {d' d'' : Data}
    (h : Elided (.list item) (.list ds) d') (hs : Spells d'' d') :
    ∃ ds' ds'', d'' = .list ds'' ∧ List.Forall₂ (Elided item) ds ds' ∧
      List.Forall₂ Spells ds'' ds' := by
  cases d' with
  | list ds' =>
    obtain ⟨ds'', rfl, hspelled⟩ := hs.items
    exact ⟨ds', ds'', rfl, h, hspelled⟩
  | _ => simp [Elided] at h

/-- The data `d` is read as `x`, whatever is elided and however it is spelled. -/
def ReadAs {α : Type} (read : Data → Option α) (shape : Shape) (d : Data) (x : α) : Prop :=
  ∀ d' d'', Elided shape d d' → Spells d'' d' → read d'' = some x

section ReadAs

variable {α : Type} {read : Data → Option α}

lemma readAs_plain {d : Data} {x : α} (h : ∀ d'', Spells d'' d → read d'' = some x) :
    ReadAs read .plain d x := by
  intro d' d'' helided hs
  simp only [Elided] at helided
  exact h d'' (helided ▸ hs)

lemma readAs_text (s : String) : ReadAs text? .plain (.string s) s :=
  readAs_plain fun _ h => h.text?

lemma readAs_single (x : Decimal.Single) : ReadAs single? .plain (.single x) x :=
  readAs_plain fun _ h => h.single?

lemma readAs_bool (b : Bool) : ReadAs bool? .plain (.bool b) b :=
  readAs_plain fun _ h => h.bool?

lemma mapM_of_readAs {item : Shape} {write : α → Data} {xs : List α} {ds' ds'' : List Data}
    (h : ∀ x ∈ xs, ReadAs read item (write x) x)
    (helided : List.Forall₂ (Elided item) (xs.map write) ds')
    (hs : List.Forall₂ Spells ds'' ds') : ds''.mapM read = some xs := by
  induction xs generalizing ds' ds'' with
  | nil =>
    cases helided
    cases hs
    rfl
  | cons x rest ih =>
    cases helided with
    | cons first helided =>
      cases hs with
      | cons spelling hs =>
        obtain ⟨hfirst, hrest⟩ := List.forall_mem_cons.1 h
        rw [List.mapM_cons, hfirst _ _ first spelling, ih hrest helided hs]
        rfl

theorem readAs_list {item : Shape} {write : α → Data} {xs : List α}
    (h : ∀ x ∈ xs, ReadAs read item (write x) x) :
    ReadAs (fun d => d.items?.bind (·.mapM read)) (.list item) (.list (xs.map write)) xs := by
  intro d' d'' helided hs
  obtain ⟨ds', ds'', rfl, hitems, hspelled⟩ := helided.items hs
  exact mapM_of_readAs h hitems hspelled

lemma readAs_texts (texts : List String) :
    ReadAs texts? (.list .plain) (.list (texts.map .string)) texts :=
  readAs_list fun text _ => readAs_text text

lemma readAs_optionalText (text : Option String) :
    ReadAs optionalText? .plain (match text with
      | some s => .string s
      | none => .null) text := by
  cases text with
  | none => exact readAs_plain fun _ h => h.optionalText?_null
  | some s => exact readAs_plain fun _ h => h.optionalText?_string

/-- No text of a table is omitted, and only their order can change. -/
theorem readAs_table (t : Dict String) :
    ReadAs table? .plain (.record (t.entries.map fun (k, v) => (k, .string v))) t := by
  refine readAs_plain fun d h => ?_
  obtain ⟨fields, ordered, rfl, hspelled, order⟩ := h.fields
  have hall : ∀ e ∈ ordered, ∃ s, e.2 = .string s := by
    intro e he
    obtain ⟨⟨k, v⟩, -, rfl⟩ := List.mem_map.1 (order.subset he)
    exact ⟨v, rfl⟩
  have hentries : (ordered.filterMap textField?).Perm t.entries := by
    have hperm := order.filterMap textField?
    rw [List.filterMap_map] at hperm
    simpa [Function.comp_def, textField?, text?] using hperm
  rw [table?, hspelled.mapM_textField? hall, Option.map_some, Dict.ofList_of_perm hentries]

lemma ReadAs.map {β : Type} {shape : Shape} {d : Data} {x : α} (h : ReadAs read shape d x) (f : α → β) :
    ReadAs (fun d => (read d).map f) shape d (f x) := by
  intro d' d'' helided hs
  exact congrArg (Option.map f) (h d' d'' helided hs)

lemma ReadAs.self {shape : Shape} {d : Data} {x : α} (h : ReadAs read shape d x) :
    read d = some x :=
  h d d (elided_refl shape d) (.same d)

variable {fields : List (String × Data)} {name : String} {shape : Shape} {d : Data} {x : α}

/-- A field without a standard value stands there. -/
theorem Fate.required_eq (h : Fate fields name none shape d) (hread : ReadAs read shape d x)
    (hnull : d ≠ .null) : field name read none fields = some x := by
  cases h with
  | out none free => exact absurd (free.resolve_left nofun) hnull
  | stays one value spelling =>
    rw [field, one]
    exact hread _ _ value spelling

/-- Where a field is left out its value is the standard one. -/
theorem Fate.standard_eq {d₀ : Data} {x₀ : α} (h : Fate fields name (some d₀) shape d)
    (hread : ReadAs read shape d x) (hstandard : ReadAs read shape d₀ x₀)
    (hnull : d = .null → d₀ = .null) : field name read (some x₀) fields = some x := by
  cases h with
  | out none free =>
    have hd : d₀ = d := by
      rcases free with heq | hd
      · exact Option.some.inj heq
      · exact (hnull hd).trans hd.symm
    have hx : some x₀ = some x := hstandard.self.symm.trans (hd ▸ hread.self)
    rw [field, none]
    exact hx
  | stays one value spelling =>
    rw [field, one]
    exact hread _ _ value spelling

end ReadAs

end Data
end Phrasebook
