import Mathlib.Data.List.Induction
import Phrasebook.Negotiation

/-! The choice of a language stays among the configured ones, unless there are none. For a locale the
search holds the first of the heaviest languages so far, among those with the locale's first subtag. -/
namespace Phrasebook

lemma Locale.primary_mem_subtags (tag : String) : Locale.primary tag ∈ Locale.subtags tag := by
  have hne : Locale.subtags tag ≠ [] := by
    simpa [Locale.subtags] using Text.splitAll_ne_nil _ tag.toList
  obtain ⟨first, rest, hsplit⟩ := List.exists_cons_of_ne_nil hne
  rw [Locale.primary_eq, hsplit]
  exact List.mem_cons_self ..

namespace Offer
open Phrasebook.Locale

/-- A language with the first subtag of the locale weighs at least that subtag. -/
lemma weight_pos {locale name : String} (h : primary name = primary locale) :
    0 < weight locale name := by
  rw [weight, List.countP_pos_iff]
  refine ⟨primary locale, primary_mem_subtags locale, ?_⟩
  rw [List.contains_iff_mem, ← h]
  exact primary_mem_subtags name

/-- The first place of those languages with the first subtag of the locale that weigh the most. -/
structure IsFirstBest (locale : String) (ls : List Language) (i : Nat) (l : Language) : Prop where
  place : ls[i]? = some l
  shares : primary l.name = primary locale
  most : ∀ m ∈ ls, primary m.name = primary locale → weight locale m.name ≤ weight locale l.name
  first : ∀ j < i, ∀ m, ls[j]? = some m → primary m.name = primary locale →
    weight locale m.name < weight locale l.name

/-- What a search holds after some languages: none while none of them has the first subtag of the
locale, and from then on the first best one and its weight. -/
inductive Holds (locale : String) (ls : List Language) : Option Language × Nat → Prop
  | nothing (h : ∀ l ∈ ls, primary l.name ≠ primary locale) : Holds locale ls (none, 0)
  | best {i l} (h : IsFirstBest locale ls i l) : Holds locale ls (some l, weight locale l.name)

section Search

variable {locale : String} {ls : List Language} {i j : Nat} {l m : Language}

lemma IsFirstBest.lt_length (h : IsFirstBest locale ls i l) : i < ls.length :=
  (List.getElem?_eq_some_iff.1 h.place).1

lemma IsFirstBest.mem (h : IsFirstBest locale ls i l) : l ∈ ls := List.mem_of_getElem? h.place

/-- A language that does not weigh more than the best one leaves it in its place. -/
lemma IsFirstBest.append (h : IsFirstBest locale ls i l)
    (hm : primary m.name = primary locale → weight locale m.name ≤ weight locale l.name) :
    IsFirstBest locale (ls ++ [m]) i l where
  place := by rw [List.getElem?_append_left h.lt_length, h.place]
  shares := h.shares
  most := by
    intro x hx hshares
    rcases List.mem_append.1 hx with hx | hx
    · exact h.most x hx hshares
    · obtain rfl := List.mem_singleton.1 hx
      exact hm hshares
  first := by
    intro j hj x hx
    rw [List.getElem?_append_left (Nat.lt_trans hj h.lt_length)] at hx
    exact h.first j hj x hx

/-- A language that weighs more than all before it is the first best one. -/
lemma isFirstBest_append_self (hshares : primary m.name = primary locale)
    (hmore : ∀ x ∈ ls, primary x.name = primary locale →
      weight locale x.name < weight locale m.name) :
    IsFirstBest locale (ls ++ [m]) ls.length m where
  place := List.getElem?_concat_length
  shares := hshares
  most := by
    intro x hx hx'
    rcases List.mem_append.1 hx with hx | hx
    · exact Nat.le_of_lt (hmore x hx hx')
    · obtain rfl := List.mem_singleton.1 hx
      exact Nat.le_refl _
  first := by
    intro j hj x hx
    rw [List.getElem?_append_left hj] at hx
    exact hmore x (List.mem_of_getElem? hx)

lemma IsFirstBest.le (h : IsFirstBest locale ls i l) (h' : IsFirstBest locale ls j m) :
    i ≤ j := by
  refine Nat.not_lt.1 fun hlt => ?_
  have hless := h.first j hlt m h'.place h'.shares
  have hmost := h'.most l h.mem h.shares
  omega

/-- There is at most one first best place. -/
theorem IsFirstBest.unique (h : IsFirstBest locale ls i l) (h' : IsFirstBest locale ls j m) :
    l = m := by
  obtain rfl := Nat.le_antisymm (h.le h') (h'.le h)
  exact Option.some.inj (h.place.symm.trans h'.place)

lemma Holds.better {best : Option Language × Nat} (h : Holds locale ls best) (m : Language) :
    Holds locale (ls ++ [m]) (better locale best m) := by
  unfold Offer.better
  cases h with
  | nothing h =>
    by_cases hm : primary m.name = primary locale
    · rw [if_pos ⟨hm, weight_pos hm⟩]
      exact .best (isFirstBest_append_self hm fun x hx hx' => absurd hx' (h x hx))
    · rw [if_neg fun hboth => hm hboth.1]
      refine .nothing fun x hx => ?_
      rcases List.mem_append.1 hx with hx | hx
      · exact h x hx
      · obtain rfl := List.mem_singleton.1 hx
        exact hm
  | best h =>
    split
    · rename_i hm
      exact .best (isFirstBest_append_self hm.1 fun x hx hx' =>
        Nat.lt_of_le_of_lt (h.most x hx hx') hm.2)
    · rename_i hm
      exact .best (h.append fun hshares => Nat.not_lt.1 fun hlt => hm ⟨hshares, hlt⟩)

lemma holds_foldl_better (locale : String) (ls : List Language) :
    Holds locale ls (ls.foldl (better locale) (none, 0)) := by
  induction ls using List.reverseRecOn with
  | nil => exact .nothing (by simp)
  | append_singleton ls m ih =>
    rw [List.foldl_append]
    exact ih.better m

/-- The search finds the first best language, unless none has the first subtag of the locale. -/
theorem bestMatch_cases (locale : String) (ls : List Language) :
    (bestMatch locale ls = none ∧ ∀ l ∈ ls, primary l.name ≠ primary locale) ∨
      ∃ i l, bestMatch locale ls = some l ∧ IsFirstBest locale ls i l := by
  have h := holds_foldl_better locale ls
  unfold bestMatch
  generalize ls.foldl (better locale) (none, 0) = best at h
  cases h with
  | nothing h => exact .inl ⟨rfl, h⟩
  | best h => exact .inr ⟨_, _, rfl, h⟩

theorem bestMatch_eq_some_iff :
    bestMatch locale ls = some l ↔ ∃ i, IsFirstBest locale ls i l := by
  rcases bestMatch_cases locale ls with ⟨hnone, h⟩ | ⟨i, m, hsome, h⟩
  · rw [hnone]
    constructor
    · intro heq
      cases heq
    · rintro ⟨i, hl⟩
      exact absurd hl.shares (h l hl.mem)
  · rw [hsome, Option.some.injEq]
    constructor
    · rintro rfl
      exact ⟨i, h⟩
    · rintro ⟨j, hl⟩
      exact h.unique hl

theorem bestMatch_eq_none_iff :
    bestMatch locale ls = none ↔ ∀ l ∈ ls, primary l.name ≠ primary locale := by
  rcases bestMatch_cases locale ls with ⟨hnone, h⟩ | ⟨i, m, hsome, h⟩
  · exact ⟨fun _ => h, fun _ => hnone⟩
  · rw [hsome]
    constructor
    · intro heq
      cases heq
    · intro hnone
      exact absurd h.shares (hnone m h.mem)

lemma bestMatch_mem (h : bestMatch locale ls = some l) : l ∈ ls := by
  obtain ⟨i, hl⟩ := bestMatch_eq_some_iff.1 h
  exact hl.mem

lemma primary_of_bestMatch (h : bestMatch locale ls = some l) :
    primary l.name = primary locale := by
  obtain ⟨i, hl⟩ := bestMatch_eq_some_iff.1 h
  exact hl.shares

end Search

lemma lastResort_mem {o : Offer} (h : o.languages ≠ []) (wanted : String) :
    o.lastResort wanted ∈ o.languages := by
  unfold lastResort
  cases hls : o.languages with
  | nil => exact absurd hls h
  | cons l rest => simp

/-- Every request is met by a configured language. -/
theorem choose_mem {o : Offer} (h : o.languages ≠ []) (locale : String) (r : Request) :
    o.choose locale r ∈ o.languages := by
  cases r with
  | explicit code =>
    simp only [choose]
    cases hf : o.languages.find? fun l => l.name == code with
    | some l => exact List.mem_of_find?_eq_some hf
    | none => exact lastResort_mem h code
  | auto =>
    simp only [choose]
    cases hb : bestMatch (o.aliased locale) o.languages with
    | some l => exact bestMatch_mem hb
    | none => exact lastResort_mem h _

end Offer
end Phrasebook
