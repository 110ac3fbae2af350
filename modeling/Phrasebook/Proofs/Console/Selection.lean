import Mathlib.Data.List.Nodup
import Phrasebook.Files.Directory
import Phrasebook.Proofs.Console.History
import Phrasebook.Proofs.Negotiation
import Phrasebook.Proofs.Settings.Validity

/-! The selected language is kept in three places: in the translator, in the settings and in the
listing of languages. Whatever lines are run, they say the same. -/
namespace Phrasebook

lemma Language.split_of_nodup {ls : List Language} (h : (ls.map Language.name).Nodup)
    {l : Language} (hl : l ∈ ls) : ∃ before after,
      ls = before ++ l :: after ∧ ∀ x ∈ before ++ after, x.name ≠ l.name := by
  obtain ⟨before, after, rfl⟩ := List.append_of_mem hl
  refine ⟨before, after, rfl, ?_⟩
  rw [List.map_append, List.map_cons, List.nodup_middle, List.nodup_cons, ← List.map_append] at h
  intro x hx heq
  exact h.1 (heq ▸ List.mem_map_of_mem hx)

namespace Console
open Command

/-- A line of the listing, after its mark. -/
def languageEntry (mark : String) (l : Language) : String :=
  mark ++ l.name ++ " (" ++ l.font ++ ", x" ++ l.scale.text ++ ")"

/-- A console that was opened on settings `s` agrees with itself about the selected language. -/
structure InStep (s : Settings) (locale : String) (c : Console) : Prop where
  configured : c.translator.active ∈ s.localization.languages
  not_auto : c.translator.active.name ≠ "auto"
  resolved : c.translator.active = s.languageFor locale c.translator.requested
  /-- One language has the active name, and the listing stars it in its place among the others. -/
  listed : ∃ before after,
    s.localization.languages = before ++ c.translator.active :: after ∧
    (∀ l ∈ before ++ after, l.name ≠ c.translator.active.name) ∧
    c.languageLines = "\n".intercalate (before.map (languageEntry "  ") ++
      languageEntry "* " c.translator.active :: after.map (languageEntry "  "))
  recorded : c.settings.localization.language = c.translator.requested
  kept : c.settings.withLanguage s.localization.language = s

lemma languageLine_self (l : Language) : languageLine l.name l = languageEntry "* " l := by
  simp only [languageLine, languageEntry, if_true]

lemma map_languageLine_of_ne {active : String} {ls : List Language}
    (h : ∀ l ∈ ls, l.name ≠ active) :
    ls.map (languageLine active) = ls.map (languageEntry "  ") := by
  apply List.map_congr_left
  intro l hl
  simp only [languageLine, languageEntry, h l hl, if_false]

/-- Validity makes the language that meets a request a configured one of its own name. -/
theorem Follows.inStep {s : Settings} {forest : List Node} {locale : String}
    {file : Option Path} {r : Request} {c : Console} (h : Follows s forest locale file r c)
    (hs : s.check = .ok ()) : InStep s locale c := by
  obtain ⟨hne, hvalid, hnodup⟩ := (Settings.check_eq_ok_iff s).1 hs
  have hmem : c.translator.active ∈ s.localization.languages := by
    rw [h.active]
    exact Offer.choose_mem hne locale r
  refine ⟨hmem, ?_, ?_, ?_, ?_, ?_⟩
  · intro hauto
    have hname := (hvalid _ hmem).1
    rw [hauto, Settings.not_isValid_auto] at hname
    cases hname
  · rw [h.requested, h.active]
  · obtain ⟨before, after, hsplit, hother⟩ := Language.split_of_nodup hnodup hmem
    refine ⟨before, after, hsplit, hother, ?_⟩
    have hoffer : c.translator.offer.languages = s.localization.languages := by
      rw [h.translator]
      rfl
    simp only [languageLines, hoffer]
    rw [hsplit, List.map_append, List.map_cons, languageLine_self,
      map_languageLine_of_ne fun l hl => hother l (List.mem_append_left _ hl),
      map_languageLine_of_ne fun l hl => hother l (List.mem_append_right _ hl)]
  · rw [h.settings, h.requested]
    rfl
  · rw [h.settings]
    rfl

/-- Wherever a session gets to from valid settings, its console is in step, and a listing of the
languages is printed as it stands. -/
theorem handleAll_inStep {σ : Type} (files : Files (StateM σ)) (w : σ) {s : Settings}
    (hs : s.check = .ok ()) (forest : List Node) (locale : String) (file : Option Path)
    (lines : List String) :
    let c := (((opened s forest locale file).handleAll files lines).run w).1.1
    InStep s locale c ∧ ∀ line w', parse line = .ok .languages →
      (c.handle files line).run w' = ((c, .ok (some (.output c.languageLines))), w') := by
  intro c
  have hc : c = (opened s forest locale file).afterAll lines := handleAll_console files _ w lines
  refine ⟨?_, ?_⟩
  · rw [hc]
    exact ((follows_opened s forest locale file).afterAll lines).inStep hs
  · intro line w' hline
    rw [handle_of_parse files c w' hline]
    rfl

/-- A switch, a fallback to the first language and the way back to the reported locale. -/
theorem handleAll_inStep_standard :
    Settings.standard.check = .ok () ∧
    InStep Settings.standard "zh-HK" (((opened Settings.standard [.group []] "zh-HK" none).handleAll
      Directory.files ["lang fr", "lang nowhere", "lang", "save", "lang auto"]).run .empty).1.1 :=
  have valid : Settings.standard.check = .ok () := by decide +kernel
  ⟨valid, (handleAll_inStep Directory.files .empty valid [.group []] "zh-HK" none
    ["lang fr", "lang nowhere", "lang", "save", "lang auto"]).1⟩

end Console
end Phrasebook
