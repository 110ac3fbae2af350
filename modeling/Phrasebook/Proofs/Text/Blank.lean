import Mathlib.Data.List.Basic
import Mathlib.Data.List.TakeWhile
import Phrasebook.Text.Blank

/-! What trimming takes away, and where a text is cut at its first blank. -/
namespace Phrasebook.Text

lemma trimStart_eq_nil_iff (cs : List Char) : trimStart cs = [] ↔ ∀ c ∈ cs, isBlank c = true :=
  List.dropWhile_eq_nil_iff

/-- Only a text of blanks is trimmed away whole. -/
theorem trim_eq_nil_iff (cs : List Char) : trim cs = [] ↔ ∀ c ∈ cs, isBlank c = true := by
  rw [trim, trimEnd, List.reverse_eq_nil_iff, List.dropWhile_eq_nil_iff]
  constructor
  · intro h
    rw [← trimStart_eq_nil_iff]
    by_contra hne
    have hhead : isBlank ((trimStart cs).head hne) = false := List.head_dropWhile_not isBlank hne
    have hmem : (trimStart cs).head hne ∈ (trimStart cs).reverse := by simp
    rw [h _ hmem] at hhead
    cases hhead
  · intro h c hc
    rw [(trimStart_eq_nil_iff cs).2 h] at hc
    cases hc

/-- Blanks, or nothing at all. -/
def IsGap (cs : List Char) : Prop := ∀ c ∈ cs, isBlank c = true

/-- No blank anywhere. -/
def IsSolid (cs : List Char) : Prop := ∀ c ∈ cs, isBlank c = false

instance (cs : List Char) : Decidable (IsGap cs) := List.decidableBAll (isBlank · = true) cs

instance (cs : List Char) : Decidable (IsSolid cs) := List.decidableBAll (isBlank · = false) cs

/-- No blank at either end. -/
structure IsTrimmed (cs : List Char) : Prop where
  head : ∀ c ∈ cs.head?, isBlank c = false
  last : ∀ c ∈ cs.getLast?, isBlank c = false

section Ends

variable {cs gap gap' word rest : List Char}

lemma isSolid_nil : IsSolid [] := by simp [IsSolid]

lemma isSolid_cons_iff {c : Char} : IsSolid (c :: cs) ↔ isBlank c = false ∧ IsSolid cs :=
  List.forall_mem_cons

lemma IsSolid.append (hcs : IsSolid cs) (hrest : IsSolid rest) : IsSolid (cs ++ rest) :=
  List.forall_mem_append.2 ⟨hcs, hrest⟩

lemma isTrimmed_nil : IsTrimmed [] := ⟨by simp, by simp⟩

lemma IsSolid.isTrimmed (h : IsSolid cs) : IsTrimmed cs :=
  ⟨fun c hc => h c (List.mem_of_head? hc), fun c hc => h c (List.mem_of_getLast? hc)⟩

/-- The ends of a text that is made up of two are those of its parts. -/
theorem IsTrimmed.append (hhead : ∀ c ∈ cs.head?, isBlank c = false) (hne : cs ≠ [])
    (hlast : ∀ c ∈ rest.getLast?, isBlank c = false) (hne' : rest ≠ []) :
    IsTrimmed (cs ++ rest) where
  head := by rwa [List.head?_append_of_ne_nil _ hne]
  last := by rwa [List.getLast?_append_of_ne_nil _ hne']

lemma trimStart_of_head (h : ∀ c ∈ cs.head?, isBlank c = false) : trimStart cs = cs := by
  cases cs with
  | nil => rfl
  | cons c rest => exact List.dropWhile_cons_of_neg (by simp [h c rfl])

lemma trimStart_append (h : IsGap gap) (cs : List Char) : trimStart (gap ++ cs) = trimStart cs :=
  List.dropWhile_append_of_pos h

lemma head?_trimStart (cs : List Char) : ∀ c ∈ (trimStart cs).head?, isBlank c = false := by
  intro c hc
  have hhead := List.head?_dropWhile_not isBlank cs
  rw [trimStart, Option.mem_def] at hc
  rwa [hc] at hhead

lemma exists_trimStart (cs : List Char) : ∃ gap, IsGap gap ∧ cs = gap ++ trimStart cs :=
  ⟨cs.takeWhile isBlank, fun _ => List.mem_takeWhile_imp, List.takeWhile_append_dropWhile.symm⟩

lemma trimEnd_eq (cs : List Char) : trimEnd cs = (trimStart cs.reverse).reverse := rfl

lemma getLast?_trimEnd (cs : List Char) : ∀ c ∈ (trimEnd cs).getLast?, isBlank c = false := by
  rw [trimEnd_eq, List.getLast?_reverse]
  exact head?_trimStart _

lemma exists_trimEnd (cs : List Char) : ∃ gap, IsGap gap ∧ cs = trimEnd cs ++ gap := by
  obtain ⟨back, hback, hcs⟩ := exists_trimStart cs.reverse
  refine ⟨back.reverse, fun c hc => hback c (List.mem_reverse.1 hc), ?_⟩
  rw [trimEnd_eq, ← List.reverse_append, ← hcs, List.reverse_reverse]

/-- Blanks around a text without blanks at its ends are all that trimming takes away. -/
theorem trim_eq (h : IsGap gap) (h' : IsGap gap') (hcs : IsTrimmed cs) :
    trim (gap ++ (cs ++ gap')) = cs := by
  rw [trim, trimStart_append h]
  by_cases hne : cs = []
  · subst hne
    rw [List.nil_append, (trimStart_eq_nil_iff gap').2 h']
    rfl
  · have hhead : ∀ c ∈ (cs ++ gap').head?, isBlank c = false := by
      rw [List.head?_append_of_ne_nil _ hne]
      exact hcs.head
    have hgap : IsGap gap'.reverse := fun c hc => h' c (List.mem_reverse.1 hc)
    have hlast : ∀ c ∈ cs.reverse.head?, isBlank c = false := by
      rw [List.head?_reverse]
      exact hcs.last
    rw [trimStart_of_head hhead, trimEnd_eq, List.reverse_append, trimStart_append hgap,
      trimStart_of_head hlast, List.reverse_reverse]

theorem exists_trim (cs : List Char) :
    ∃ gap gap', IsGap gap ∧ IsGap gap' ∧ IsTrimmed (trim cs) ∧ cs = gap ++ (trim cs ++ gap') := by
  obtain ⟨gap, hgap, hcs⟩ := exists_trimStart cs
  obtain ⟨gap', hgap', hsplit⟩ := exists_trimEnd (trimStart cs)
  refine ⟨gap, gap', hgap, hgap', ⟨fun c hc => ?_, getLast?_trimEnd _⟩, ?_⟩
  · apply head?_trimStart cs
    rw [hsplit, List.head?_append, show (trimEnd (trimStart cs)).head? = some c from hc]
    rfl
  · rw [trim, ← hsplit]
    exact hcs

lemma isTrimmed_trim (cs : List Char) : IsTrimmed (trim cs) := by
  obtain ⟨-, -, -, -, htrim, -⟩ := exists_trim cs
  exact htrim

lemma mem_of_mem_trim {c : Char} (h : c ∈ trim cs) : c ∈ cs := by
  obtain ⟨gap, gap', -, -, -, hcs⟩ := exists_trim cs
  rw [hcs]
  exact List.mem_append_right _ (List.mem_append_left _ h)

/-- Trimming leaves exactly those texts alone that have no blank at either end. -/
theorem trim_eq_self_iff : trim cs = cs ↔ IsTrimmed cs := by
  constructor
  · intro h
    rw [← h]
    exact isTrimmed_trim cs
  · intro h
    have hnil : IsGap [] := fun _ hc => absurd hc List.not_mem_nil
    simpa using trim_eq hnil hnil h

theorem splitBlank_eq_some_iff {after : List Char} : splitBlank cs = some (word, after) ↔
    ∃ c, isBlank c = true ∧ IsSolid word ∧ cs = word ++ c :: after := by
  induction cs generalizing word with
  | nil => simp [splitBlank]
  | cons x rest ih =>
    by_cases hx : isBlank x = true
    · rw [splitBlank, if_pos hx]
      constructor
      · intro h
        cases h
        exact ⟨x, hx, isSolid_nil, rfl⟩
      · rintro ⟨c, hc, hword, hcs⟩
        cases word with
        | nil =>
          cases hcs
          rfl
        | cons y word =>
          obtain ⟨rfl, -⟩ := List.cons.inj hcs
          rw [hword x (List.mem_cons_self ..)] at hx
          cases hx
    · have hx' : isBlank x = false := (Bool.not_eq_true _).mp hx
      rw [splitBlank, if_neg hx, Option.map_eq_some_iff]
      constructor
      · rintro ⟨⟨word, after⟩, hsplit, heq⟩
        cases heq
        obtain ⟨c, hc, hword, rfl⟩ := ih.1 hsplit
        exact ⟨c, hc, isSolid_cons_iff.2 ⟨hx', hword⟩, rfl⟩
      · rintro ⟨c, hc, hword, hcs⟩
        cases word with
        | nil =>
          obtain ⟨rfl, -⟩ := List.cons.inj hcs
          rw [hc] at hx'
          cases hx'
        | cons y word =>
          obtain ⟨rfl, hrest⟩ := List.cons.inj hcs
          exact ⟨(word, after), ih.2 ⟨c, hc, (isSolid_cons_iff.1 hword).2, hrest⟩, rfl⟩

theorem splitBlank_eq_none_iff : splitBlank cs = none ↔ IsSolid cs := by
  induction cs with
  | nil => simp [splitBlank, IsSolid]
  | cons x rest ih =>
    by_cases hx : isBlank x = true
    · simp [splitBlank, IsSolid, hx]
    · rw [splitBlank, if_neg hx, Option.map_eq_none_iff, ih, isSolid_cons_iff]
      simp [hx]

/-- A text without blanks at its ends that is more than one word is a word, blanks and the rest of it. -/
lemma IsTrimmed.exists_gap {after : List Char} (h : IsTrimmed cs)
    (hsplit : splitBlank cs = some (word, after)) :
    IsSolid word ∧ word ≠ [] ∧ IsTrimmed (trimStart after) ∧ trimStart after ≠ [] ∧
      ∃ gap, IsGap gap ∧ gap ≠ [] ∧ cs = word ++ (gap ++ trimStart after) := by
  obtain ⟨c, hc, hword, hcs⟩ := splitBlank_eq_some_iff.1 hsplit
  obtain ⟨gap, hgap, hafter⟩ := exists_trimStart after
  have hgap' : IsGap (c :: gap) := List.forall_mem_cons.2 ⟨hc, hgap⟩
  have hwords : cs = word ++ (c :: gap ++ trimStart after) := by
    rw [List.cons_append, ← hafter, hcs]
  have hword' : word ≠ [] := by
    rintro rfl
    have hblank := h.head c (by rw [hcs]; rfl)
    rw [hc] at hblank
    cases hblank
  have hlast : ∀ x ∈ (c :: gap ++ trimStart after).getLast?, isBlank x = false := by
    intro x hx
    apply h.last x
    rw [hwords]
    exact List.mem_getLast?_append_of_mem_getLast? hx
  have hrest : trimStart after ≠ [] := by
    intro hempty
    rw [hempty, List.append_nil] at hlast
    have hmem := List.getLast_mem (List.cons_ne_nil c gap)
    have hblank := hlast _ (List.getLast?_eq_getLast_of_ne_nil (List.cons_ne_nil c gap))
    rw [hgap' _ hmem] at hblank
    cases hblank
  have htrimmed : IsTrimmed (trimStart after) :=
    ⟨head?_trimStart after, fun x hx => hlast x (List.mem_getLast?_append_of_mem_getLast? hx)⟩
  exact ⟨hword, hword', htrimmed, hrest, c :: gap, hgap', List.cons_ne_nil c gap, hwords⟩

/-- A word, at least one blank, and what follows. -/
lemma splitBlank_append (hword : IsSolid word) (hgap : IsGap gap) (hne : gap ≠ [])
    (rest : List Char) : ∃ gap', IsGap gap' ∧
      splitBlank (word ++ (gap ++ rest)) = some (word, gap' ++ rest) := by
  obtain ⟨c, gap', rfl⟩ := List.exists_cons_of_ne_nil hne
  obtain ⟨hc, hgap'⟩ := List.forall_mem_cons.1 hgap
  exact ⟨gap', hgap', splitBlank_eq_some_iff.2 ⟨c, hc, hword, rfl⟩⟩

end Ends

end Phrasebook.Text
