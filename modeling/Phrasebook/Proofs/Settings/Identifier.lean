import Mathlib.Tactic.Lemma
import Phrasebook.Settings.Identifier

/-! The grammar of identifiers. The parts after the language are tried one by one, as a script, a region
and variants; this accepts exactly the names that can be divided so at all. -/
namespace Phrasebook.Identifier

/-- A language, then at most one script, at most one region, and any number of variants. -/
def IsIdentifier (name : String) : Prop :=
  ∃ language script region variants,
    parts name = language :: (Option.toList script ++ (Option.toList region ++ variants)) ∧
    isLanguage language = true ∧ (∀ part ∈ script, isScript part = true) ∧
    (∀ part ∈ region, isRegion part = true) ∧ ∀ part ∈ variants, isVariant part = true

section Parts

variable {ps : List (List Char)}

lemma areVariants_iff : areVariants ps = true ↔ ∀ part ∈ ps, isVariant part = true :=
  List.all_eq_true

lemma afterScript_iff : afterScript ps = true ↔ ∃ region variants,
    ps = Option.toList region ++ variants ∧ (∀ part ∈ region, isRegion part = true) ∧
      ∀ part ∈ variants, isVariant part = true := by
  constructor
  · intro h
    cases ps with
    | nil => exact ⟨none, [], rfl, by simp, by simp⟩
    | cons part rest =>
      rw [afterScript, Bool.and_eq_true, Bool.or_eq_true, areVariants_iff] at h
      obtain ⟨hregion | hvariant, hrest⟩ := h
      · exact ⟨some part, rest, rfl, by simpa using hregion, hrest⟩
      · exact ⟨none, part :: rest, rfl, by simp, List.forall_mem_cons.2 ⟨hvariant, hrest⟩⟩
  · rintro ⟨region, variants, rfl, hregion, hvariants⟩
    cases region with
    | some part =>
      rw [Option.toList_some, List.singleton_append, afterScript, hregion part rfl, Bool.true_or,
        Bool.true_and, areVariants_iff]
      exact hvariants
    | none =>
      cases variants with
      | nil => rfl
      | cons part rest =>
        obtain ⟨hvariant, hrest⟩ := List.forall_mem_cons.1 hvariants
        rw [Option.toList_none, List.nil_append, afterScript, hvariant, Bool.or_true,
          Bool.true_and, areVariants_iff]
        exact hrest

/-- Without a script the parts are read as they are after one. -/
lemma afterLanguage_cons (part : List Char) (rest : List (List Char)) :
    afterLanguage (part :: rest) =
      if isScript part then afterScript rest else afterScript (part :: rest) := rfl

/-- A part of four letters is taken for a script, though it could be a variant as well. -/
lemma afterLanguage_of_afterScript (h : afterScript ps = true) : afterLanguage ps = true := by
  cases ps with
  | nil => rfl
  | cons part rest =>
    rw [afterLanguage_cons]
    split
    · next hscript =>
      rw [afterScript, Bool.and_eq_true, areVariants_iff] at h
      exact afterScript_iff.2 ⟨none, rest, rfl, by simp, h.2⟩
    · exact h

lemma afterLanguage_iff : afterLanguage ps = true ↔ ∃ script region variants,
    ps = Option.toList script ++ (Option.toList region ++ variants) ∧
      (∀ part ∈ script, isScript part = true) ∧ (∀ part ∈ region, isRegion part = true) ∧
      ∀ part ∈ variants, isVariant part = true := by
  constructor
  · intro h
    cases ps with
    | nil => exact ⟨none, none, [], rfl, by simp, by simp, by simp⟩
    | cons part rest =>
      rw [afterLanguage_cons] at h
      split at h
      · next hscript =>
        obtain ⟨region, variants, rfl, hregion, hvariants⟩ := afterScript_iff.1 h
        exact ⟨some part, region, variants, rfl, by simpa using hscript, hregion, hvariants⟩
      · obtain ⟨region, variants, hparts, hregion, hvariants⟩ := afterScript_iff.1 h
        exact ⟨none, region, variants, hparts, by simp, hregion, hvariants⟩
  · rintro ⟨script, region, variants, rfl, hscript, hregion, hvariants⟩
    have hrest := afterScript_iff.2 ⟨region, variants, rfl, hregion, hvariants⟩
    cases script with
    | none => exact afterLanguage_of_afterScript hrest
    | some part =>
      rw [Option.toList_some, List.singleton_append, afterLanguage_cons, if_pos (hscript part rfl)]
      exact hrest

end Parts

theorem isValid_iff (name : String) : isValid name = true ↔ IsIdentifier name := by
  unfold isValid IsIdentifier
  cases parts name with
  | nil => simp
  | cons language rest =>
    rw [Bool.and_eq_true, afterLanguage_iff]
    constructor
    · rintro ⟨hlanguage, script, region, variants, rfl, hrest⟩
      exact ⟨language, script, region, variants, rfl, hlanguage, hrest⟩
    · rintro ⟨language', script, region, variants, hparts, hlanguage, hrest⟩
      obtain ⟨rfl, rfl⟩ := List.cons.inj hparts
      exact ⟨hlanguage, script, region, variants, rfl, hrest⟩

instance : DecidablePred IsIdentifier := fun name => decidable_of_iff _ (isValid_iff name)

end Phrasebook.Identifier
