import Mathlib.Tactic.Lemma
import Phrasebook.Settings.Validity

/-! What valid settings have in common: there is a language, no two languages share a name, every
name is an identifier and every scale is positive. -/
namespace Phrasebook.Settings

lemma fault?_eq_none_iff (seen : List String) (l : Language) :
    fault? seen l = none ↔
      l.name ∉ seen ∧ Identifier.isValid l.name = true ∧ l.scale.isPositive = true := by
  unfold fault?
  split
  · simp_all
  · split
    · simp_all
    · split <;> simp_all

/-- The names seen so far only forbid themselves. -/
theorem checkFrom_eq_ok_iff (seen : List String) (ls : List Language) :
    checkFrom seen ls = .ok () ↔
      (∀ l ∈ ls, l.name ∉ seen ∧ Identifier.isValid l.name = true ∧ l.scale.isPositive = true) ∧
        (ls.map Language.name).Nodup := by
  induction ls generalizing seen with
  | nil => simp [checkFrom]
  | cons l rest ih =>
    cases hf : fault? seen l with
    | some p =>
      have hl : ¬ (l.name ∉ seen ∧ Identifier.isValid l.name = true ∧
          l.scale.isPositive = true) := by
        rw [← fault?_eq_none_iff, hf]
        simp
      simp only [checkFrom, hf]
      constructor
      · intro h
        cases h
      · intro h
        exact absurd (h.1 l (by simp)) hl
    | none =>
      have hl := (fault?_eq_none_iff seen l).1 hf
      simp only [checkFrom, hf, ih, List.map_cons, List.nodup_cons, List.mem_cons,
        forall_eq_or_imp, List.mem_map]
      constructor
      · rintro ⟨hrest, hnodup⟩
        refine ⟨⟨hl, fun x hx => ?_⟩, ?_, hnodup⟩
        · obtain ⟨hseen, hx⟩ := hrest x hx
          exact ⟨fun h => hseen (.inr h), hx⟩
        · rintro ⟨x, hx, hname⟩
          exact (hrest x hx).1 (.inl hname)
      · rintro ⟨⟨-, hrest⟩, hfresh, hnodup⟩
        refine ⟨fun x hx => ⟨?_, (hrest x hx).2⟩, hnodup⟩
        rintro (hname | hseen)
        · exact hfresh ⟨x, hx, hname⟩
        · exact (hrest x hx).1 hseen

theorem check_eq_ok_iff (s : Settings) :
    s.check = .ok () ↔ s.localization.languages ≠ [] ∧
      (∀ l ∈ s.localization.languages,
        Identifier.isValid l.name = true ∧ l.scale.isPositive = true) ∧
      (s.localization.languages.map Language.name).Nodup := by
  unfold check
  cases hls : s.localization.languages with
  | nil => simp [checkLanguages]
  | cons l rest =>
    rw [checkLanguages, checkFrom_eq_ok_iff]
    · simp
    · simp

/-- The word for an automatic choice is no identifier: no language has four letters. -/
lemma not_isValid_auto : Identifier.isValid "auto" = false := by decide +kernel

end Phrasebook.Settings
