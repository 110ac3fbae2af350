import Mathlib.Data.List.TakeWhile
import Phrasebook.Proofs.Console.History
import Phrasebook.Proofs.Negotiation
import Phrasebook.Proofs.Settings.Validity

/-! The two ways to cut a name. An identifier has parts between hyphens and underscores, a locale has
subtags between hyphens alone, and an automatic choice goes by the latter: it meets a locale by its first
part as long as no underscore comes before the first hyphen. -/
namespace Phrasebook
open Phrasebook.Locale Text

namespace Identifier

/-- The part of a name that stands for the language. -/
def first (name : String) : String := String.ofList ((parts name).headD [])

/-- No underscore comes before the first hyphen. -/
def IsHyphenated (name : String) : Prop := '_' ∉ (primary name).toList

instance : DecidablePred IsHyphenated := fun name =>
  inferInstanceAs (Decidable ('_' ∉ (primary name).toList))

lemma toList_primary (name : String) :
    (primary name).toList = name.toList.takeWhile fun c => !(c == '-') := by
  have hprimary : primary name = String.ofList ((splitAll (· == '-') name.toList).headD []) := by
    rw [primary_eq, subtags]
    cases splitAll (· == '-') name.toList <;> rfl
  rw [hprimary, String.toList_ofList, headD_splitAll]

/-- The first part is what stands before the first underscore of the first subtag. -/
lemma first_eq (name : String) :
    first name = String.ofList ((primary name).toList.takeWhile fun c => !(c == '_')) := by
  rw [first, parts, headD_splitAll, toList_primary, List.takeWhile_takeWhile]
  congr 2
  funext c
  rw [Bool.not_or, Bool.and_comm, Bool.decide_and, Bool.decide_eq_true, Bool.decide_eq_true]

lemma IsHyphenated.first_eq {name : String} (h : IsHyphenated name) : first name = primary name := by
  have hall : (primary name).toList.takeWhile (fun c => !(c == '_')) = (primary name).toList := by
    rw [List.takeWhile_eq_self_iff]
    intro c hc
    have hne : c ≠ '_' := by
      rintro rfl
      exact h hc
    simpa using hne
  rw [Identifier.first_eq, hall, String.ofList_toList]

end Identifier

namespace Settings
open Identifier

/-- The locale that languages are compared with. -/
def localeFor (s : Settings) (locale : String) : String :=
  (s.localization.remap.get? locale).getD locale

variable {s : Settings} {locale : String}

theorem languageFor_auto_of_primary
    (h : ∃ l ∈ s.localization.languages, primary l.name = primary (s.localeFor locale)) :
    let chosen := s.languageFor locale .auto
    chosen ∈ s.localization.languages ∧ primary chosen.name = primary (s.localeFor locale) := by
  obtain ⟨l, hl, hprimary⟩ := h
  cases hbest : Offer.bestMatch (s.localeFor locale) s.localization.languages with
  | none => exact absurd hprimary (Offer.bestMatch_eq_none_iff.1 hbest l hl)
  | some best =>
    have hchosen : s.languageFor locale .auto = best := by
      show (Offer.bestMatch (s.localeFor locale) s.localization.languages).getD _ = best
      rw [hbest]
      rfl
    rw [hchosen]
    exact ⟨Offer.bestMatch_mem hbest, Offer.primary_of_bestMatch hbest⟩

theorem languageFor_auto_of_no_primary (hne : s.localization.languages ≠ [])
    (h : ∀ l ∈ s.localization.languages, primary l.name ≠ primary (s.localeFor locale)) :
    s.localization.languages.head? = some (s.languageFor locale .auto) := by
  have hbest := Offer.bestMatch_eq_none_iff.2 h
  obtain ⟨l, rest, hls⟩ := List.exists_cons_of_ne_nil hne
  have hchosen : s.languageFor locale .auto = l := by
    show (Offer.bestMatch (s.localeFor locale) s.localization.languages).getD _ = l
    rw [hbest]
    simp only [Option.getD_none, Offer.lastResort, hls]
  rw [hchosen, hls]
  rfl

/-- On valid settings an automatic choice is a language with the first part of the locale, if there is
one and neither name has an underscore before its first hyphen. What counts is all that stands before
the first hyphen: a language that has the same there is met, and without one the first language is. -/
theorem languageFor_auto (hs : s.check = .ok ()) (locale : String) :
    let wanted := s.localeFor locale
    let chosen := s.languageFor locale .auto
    (∀ l ∈ s.localization.languages, first l.name = first wanted →
      IsHyphenated l.name → IsHyphenated wanted →
      chosen ∈ s.localization.languages ∧ first chosen.name = first wanted) ∧
    ((∃ l ∈ s.localization.languages, primary l.name = primary wanted) →
      chosen ∈ s.localization.languages ∧ first chosen.name = first wanted ∧
        primary chosen.name = primary wanted) ∧
    ((∀ l ∈ s.localization.languages, primary l.name ≠ primary wanted) →
      s.localization.languages.head? = some chosen) := by
  intro wanted chosen
  have hmet : (∃ l ∈ s.localization.languages, primary l.name = primary wanted) →
      chosen ∈ s.localization.languages ∧ first chosen.name = first wanted ∧
        primary chosen.name = primary wanted := by
    intro h
    obtain ⟨hmem, hprimary⟩ := languageFor_auto_of_primary h
    refine ⟨hmem, ?_, hprimary⟩
    rw [first_eq, first_eq, hprimary]
  refine ⟨?_, hmet, languageFor_auto_of_no_primary ((check_eq_ok_iff s).1 hs).1⟩
  intro l hl hfirst hplain hwanted
  rw [hplain.first_eq, hwanted.first_eq] at hfirst
  obtain ⟨hmem, hsame, -⟩ := hmet ⟨l, hl, hfirst⟩
  exact ⟨hmem, hsame⟩

/-- Two languages after French: one with a script before its region, one for the region alone. -/
def scripted : Settings :=
  Settings.standard.withLanguages
    [⟨"fr", "Noto Sans", .one⟩, ⟨"zh-Hans_CN", "Noto Sans SC", .one⟩, ⟨"zh-TW", "Noto Sans TC", .one⟩]

/-- The locale is another name of the last language. -/
theorem languageFor_auto_scripted :
    scripted.check = .ok () ∧
    (⟨"zh-Hans_CN", "Noto Sans SC", .one⟩ : Language) ∈ scripted.localization.languages ∧
    first "zh-Hans_CN" = first (scripted.localeFor "zh-HK") ∧ IsHyphenated "zh-Hans_CN" ∧
    IsHyphenated (scripted.localeFor "zh-HK") ∧
    scripted.languageFor "zh-HK" .auto ∈ scripted.localization.languages ∧
    first (scripted.languageFor "zh-HK" .auto).name = "zh" ∧
    (∀ l ∈ scripted.localization.languages, primary l.name ≠ primary (scripted.localeFor "ja-JP")) ∧
    scripted.localization.languages.head? = some (scripted.languageFor "ja-JP" .auto) := by
  have valid : scripted.check = .ok () := by decide +kernel
  have configured : (⟨"zh-Hans_CN", "Noto Sans SC", .one⟩ : Language) ∈
      scripted.localization.languages := by decide +kernel
  have same : first "zh-Hans_CN" = first (scripted.localeFor "zh-HK") := by decide +kernel
  have plain : IsHyphenated "zh-Hans_CN" := by decide +kernel
  have plain' : IsHyphenated (scripted.localeFor "zh-HK") := by decide +kernel
  have unmet : ∀ l ∈ scripted.localization.languages,
      primary l.name ≠ primary (scripted.localeFor "ja-JP") := by decide +kernel
  have chinese : first (scripted.localeFor "zh-HK") = "zh" := by decide +kernel
  obtain ⟨met, -, -⟩ := languageFor_auto valid "zh-HK"
  obtain ⟨-, -, fallback⟩ := languageFor_auto valid "ja-JP"
  obtain ⟨mem, found⟩ := met _ configured same plain plain'
  exact ⟨valid, configured, same, plain, plain', mem, found.trans chinese, unmet, fallback unmet⟩

/-- French, and the English of a region with an underscore. -/
def underscored : Settings :=
  Settings.standard.withLanguages [⟨"fr", "Noto Sans", .one⟩, ⟨"en_US", "Noto Serif", .one⟩]

/-- A valid name with an underscore before its first hyphen is not met by a locale with the same first
part: French is chosen for English. -/
theorem languageFor_auto_underscored :
    underscored.check = .ok () ∧
    (∃ l ∈ underscored.localization.languages,
      first l.name = first (underscored.localeFor "en-US")) ∧
    first (underscored.localeFor "en-US") = "en" ∧
    underscored.languageFor "en-US" .auto = ⟨"fr", "Noto Sans", .one⟩ ∧
    first (underscored.languageFor "en-US" .auto).name ≠
      first (underscored.localeFor "en-US") := by
  refine ⟨by decide +kernel, ⟨⟨"en_US", "Noto Serif", .one⟩, by decide +kernel, by decide +kernel⟩,
    by decide +kernel, by decide +kernel, by decide +kernel⟩

end Settings
end Phrasebook
