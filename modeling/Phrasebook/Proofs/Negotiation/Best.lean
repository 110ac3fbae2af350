import Phrasebook.Proofs.Locale
import Phrasebook.Proofs.Negotiation

/-! An automatic choice is the earliest of the heaviest languages. Names are cut at hyphens alone, and a
locale is looked up among the aliases just once before names are compared with it. -/
namespace Phrasebook

namespace Offer
open Phrasebook.Locale

/-- The first best language is chosen, or else the first one. -/
theorem choose_auto_eq_iff {o : Offer} (ho : o.languages ≠ []) {locale : String} {l : Language} :
    o.choose locale .auto = l ↔
      (∃ i, IsFirstBest (o.aliased locale) o.languages i l) ∨
      ((∀ m ∈ o.languages, primary m.name ≠ primary (o.aliased locale)) ∧
        o.languages.head? = some l) := by
  have hlast : o.languages.head? = some (o.lastResort (o.aliased locale)) := by
    obtain ⟨first, rest, hls⟩ := List.exists_cons_of_ne_nil ho
    rw [lastResort, hls]
    rfl
  rw [choose, hlast, Option.some.injEq]
  rcases bestMatch_cases (o.aliased locale) o.languages with ⟨hnone, h⟩ | ⟨i, best, hsome, h⟩
  · rw [hnone, Option.getD_none]
    constructor
    · exact fun heq => .inr ⟨h, heq⟩
    · rintro (⟨i, hl⟩ | ⟨-, heq⟩)
      · exact absurd hl.shares (h l hl.mem)
      · exact heq
  · rw [hsome, Option.getD_some]
    constructor
    · rintro rfl
      exact .inl ⟨i, h⟩
    · rintro (⟨j, hl⟩ | ⟨hnone, -⟩)
      · exact h.unique hl
      · exact absurd h.shares (hnone best h.mem)

/-- The search finds the earliest of the heaviest languages among those with the first subtag of the
locale, and nothing just if there are none. An automatic choice is what the search finds for the one
alias of the locale, if it has one, and the first language if it finds nothing. -/
theorem bestMatch_earliest :
    (∀ locale ls,
      (bestMatch locale ls = none ↔ ∀ l ∈ ls, primary l.name ≠ primary locale) ∧
      ∀ l, bestMatch locale ls = some l ↔ ∃ i, IsFirstBest locale ls i l) ∧
    (∀ (o : Offer) locale, o.languages ≠ [] →
      let wanted := (o.aliases.get? locale).getD locale
      ∀ l, o.choose locale .auto = l ↔
        (∃ i, IsFirstBest wanted o.languages i l) ∨
        ((∀ m ∈ o.languages, primary m.name ≠ primary wanted) ∧ o.languages.head? = some l)) ∧
    ∀ tag parts, subtags tag = parts ↔
      parts ≠ [] ∧ (∀ part ∈ parts, '-' ∉ part.toList) ∧ "-".intercalate parts = tag := by
  refine ⟨?_, ?_, fun _ _ => subtags_eq_iff⟩
  · intro locale ls
    exact ⟨bestMatch_eq_none_iff, fun l => bestMatch_eq_some_iff⟩
  · intro o locale ho wanted l
    exact choose_auto_eq_iff ho

/-- Two languages after French and Chinese weigh the same for Taiwan, which is an alias for Hong Kong
and has an alias of its own. -/
def taiwanese : Offer where
  languages := [⟨"fr", "Noto Sans", .one⟩, ⟨"zh-CN", "Noto Sans SC", .one⟩,
    ⟨"zh-TW", "Noto Sans TC", .one⟩, ⟨"zh--TW-TW", "Noto Serif TC", .one⟩]
  aliases := .ofList [("zh-HK", "zh-TW"), ("zh-TW", "fr")]

/-- The earlier of the two is chosen for Hong Kong, and not French. -/
theorem bestMatch_earliest_taiwanese :
    taiwanese.languages ≠ [] ∧
    IsFirstBest "zh-TW" taiwanese.languages 2 ⟨"zh-TW", "Noto Sans TC", .one⟩ ∧
    taiwanese.choose "zh-HK" .auto = ⟨"zh-TW", "Noto Sans TC", .one⟩ ∧
    taiwanese.choose "ja-JP" .auto = ⟨"fr", "Noto Sans", .one⟩ := by
  have hne : taiwanese.languages ≠ [] := List.cons_ne_nil _ _
  have best : IsFirstBest "zh-TW" taiwanese.languages 2 ⟨"zh-TW", "Noto Sans TC", .one⟩ := by
    refine ⟨rfl, by decide +kernel, by decide +kernel, ?_⟩
    intro j hj m hm hshares
    match j, hj with
    | 0, _ =>
      cases hm
      exact absurd hshares (by decide +kernel)
    | 1, _ =>
      cases hm
      decide +kernel
  have renamed : (taiwanese.aliases.get? "zh-HK").getD "zh-HK" = "zh-TW" := by decide +kernel
  refine ⟨hne, best, ?_, ?_⟩
  · exact (bestMatch_earliest.2.1 taiwanese "zh-HK" hne _).2 (.inl ⟨2, renamed ▸ best⟩)
  · exact (bestMatch_earliest.2.1 taiwanese "ja-JP" hne _).2 (.inr ⟨by decide +kernel, rfl⟩)

end Offer
end Phrasebook
