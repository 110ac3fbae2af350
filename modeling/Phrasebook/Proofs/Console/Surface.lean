import Phrasebook.Proofs.Console.Screen
import Phrasebook.Proofs.Console.Selection

/-! The font, scale and wrap of the screen always belong to one language: the last one made active
that has a font. Valid settings leave a missing font as the only cause of a degraded change. -/
namespace Phrasebook

namespace History
open Command

/-- The requests for something else than is selected, after the selection of `current`. -/
def switches (current : Request) : List String → List Request
  | [] => []
  | line :: rest =>
    match request? line with
    | none => switches current rest
    | some r => if r = current then switches current rest else r :: switches r rest

lemma switches_append (current : Request) (before after : List String) :
    switches current (before ++ after) =
      switches current before ++ switches (lastRequest current before) after := by
  induction before generalizing current with
  | nil => rfl
  | cons line rest ih =>
    rw [List.cons_append, switches, switches, lastRequest_cons]
    cases request? line with
    | none => exact ih current
    | some r =>
      by_cases h : r = current
      · simp only [h, if_true]
        exact ih current
      · simp only [h, if_false, List.cons_append, ih]
        rfl

/-- The languages made active, one at the start and one by each switch. -/
def activated (s : Settings) (locale : String) (lines : List String) : List Language :=
  (s.localization.language :: switches s.localization.language lines).map (s.languageFor locale)

/-- The last of some languages that has a font. -/
def lastWithFont? (ls : List Language) : Option Language :=
  (ls.filter fun l => !l.isFontless).getLast?

lemma lastWithFont?_cons (l : Language) (ls : List Language) :
    lastWithFont? (l :: ls) =
      (lastWithFont? ls).or (if l.isFontless then none else some l) := by
  unfold lastWithFont?
  cases hl : l.isFontless with
  | true => simp [hl]
  | false =>
    rw [List.filter_cons_of_pos (by simp [hl]), List.getLast?_cons]
    cases (ls.filter fun l => !l.isFontless).getLast? <;> rfl

end History

namespace Screen

/-- What a surface shows that was brought to a language, or to none yet. -/
def appearance (breakAnywhere : List String) : Option Language → String × Decimal.Single × Wrap
  | some l =>
    (l.font, l.scale, if l.name ∈ breakAnywhere then .breakAnywhere else .keepTogether)
  | none => ("", .one, .keepTogether)

/-- The surface looks as the language makes it, if there is one, or as a new one. -/
def Looks (s : Screen) (breakAnywhere : List String) (l : Option Language) : Prop :=
  (s.font, s.scale, s.wrap) = appearance breakAnywhere l

lemma looks_new (breakAnywhere : List String) : new.Looks breakAnywhere none := rfl

theorem Looks.applied {breakAnywhere : List String} {s s' : Screen} {best : Option Language}
    (h : s.Looks breakAnywhere best) (l : Language) (hfont : s'.font = s.font)
    (hscale : s'.scale = s.scale) (hwrap : s'.wrap = s.wrap) :
    (applied breakAnywhere l s').Looks breakAnywhere
      ((if l.isFontless then none else some l).or best) := by
  unfold Looks at h ⊢
  unfold Screen.applied
  cases hl : l.isFontless with
  | true =>
    simp only [if_true, hfont, hscale, hwrap]
    exact h
  | false => rfl

end Screen

namespace Console
open Command History

/-- The screen with all labels refreshed. -/
def refreshedScreen (c : Console) : Screen :=
  let texts := Screen.refreshed c.values c.translator c.panel.labels c.screen.texts
  { c.screen with texts := texts }

variable {s : Settings} {forest : List Node} {locale : String} {file : Option Path}
  {r : Request} {c : Console}

/-- The scale of whatever is active is positive. -/
lemma Follows.isPositive (h : Follows s forest locale file r c) (hs : s.check = .ok ()) :
    c.translator.active.scale.isPositive = true :=
  (((Settings.check_eq_ok_iff s).1 hs).2.1 _ (h.inStep hs).configured).2

lemma Follows.announce (h : Follows s forest locale file r c) (hs : s.check = .ok ()) :
    c.announce =
      let l := c.translator.active
      ({ c with screen := Screen.applied s.localization.breakAnywhere l c.refreshedScreen },
        Screen.report l) := by
  have hbreak : c.settings.localization.breakAnywhere = s.localization.breakAnywhere := by
    rw [h.settings]
    rfl
  simp only [Console.announce, tree]
  rw [Screen.announce_elements _ _ _ (h.isPositive hs), hbreak]
  rfl

lemma Follows.select_of_ne (h : Follows s forest locale file r c) (hs : s.check = .ok ())
    {r' : Request} (hne : r ≠ r') :
    (c.select r').2 = Screen.report (s.languageFor locale r') ∧
      ∃ texts, (c.select r').1.screen = Screen.applied s.localization.breakAnywhere
        (s.languageFor locale r') { c.screen with texts := texts } := by
  have hreq : c.translator.requested ≠ r' := by
    rw [h.requested]
    exact hne
  have hactive : (c.keep r').translator.active = s.languageFor locale r' := (h.keep r').active
  rw [Console.select_of_ne hreq, (h.keep r').announce hs]
  simp only [hactive]
  exact ⟨trivial, _, rfl⟩

theorem Follows.looks_afterAll (h : Follows s forest locale file r c) (hs : s.check = .ok ())
    {best : Option Language} (hlooks : c.screen.Looks s.localization.breakAnywhere best)
    (lines : List String) :
    (c.afterAll lines).screen.Looks s.localization.breakAnywhere
      ((lastWithFont? ((switches r lines).map (s.languageFor locale))).or best) := by
  -- `best` is what the lines so far have left; languages still to come take precedence over it.
  induction lines generalizing r c best with
  | nil => exact hlooks
  | cons line rest ih =>
    rw [afterAll_cons, switches]
    have hafter := h.after line
    cases hr : request? line with
    | none =>
      rw [hr] at hafter
      refine ih hafter ?_
      rw [after_of_no_request hr]
      exact hlooks
    | some r' =>
      rw [hr] at hafter
      by_cases heq : r' = r
      · have hsame : c.after line = c := by
          rw [after_eq_of_request hr, select_of_eq (h.requested.trans heq.symm)]
        simp only [heq, if_true]
        rw [hsame]
        exact ih h hlooks
      · obtain ⟨-, texts, hscreen⟩ := h.select_of_ne hs (Ne.symm heq)
        simp only [heq, if_false, List.map_cons]
        rw [lastWithFont?_cons, Option.or_assoc]
        refine ih hafter ?_
        rw [after_eq_of_request hr, hscreen]
        exact hlooks.applied _ rfl rfl rfl

theorem looks_opened (hs : s.check = .ok ()) (forest : List Node) (locale : String)
    (file : Option Path) :
    let l := s.languageFor locale s.localization.language
    (opened s forest locale file).screen.Looks s.localization.breakAnywhere
      (if l.isFontless then none else some l) := by
  intro l
  have hscreen : (opened s forest locale file).screen =
      Screen.applied s.localization.breakAnywhere l (prepare s forest locale).refreshedScreen := by
    change (prepare s forest locale).announce.1.screen = _
    rw [(follows_prepare s forest locale).announce hs]
    rfl
  rw [hscreen, ← Option.or_none (o := if l.isFontless then none else some l)]
  exact (Screen.looks_new _).applied l rfl rfl rfl

/-- After any run from valid settings the surface looks as the last activated language with a font
makes it. The first language and every switch are reported degraded just for want of a font. -/
theorem handleAll_looks {σ : Type} (files : Files (StateM σ)) (w : σ) (hs : s.check = .ok ())
    (forest : List Node) (locale : String) (file : Option Path) (lines : List String) :
    let c := (((opened s forest locale file).handleAll files lines).run w).1.1
    c.screen.Looks s.localization.breakAnywhere (lastWithFont? (activated s locale lines)) ∧
    (prepare s forest locale).announce.2 =
      Screen.report (s.languageFor locale s.localization.language) ∧
    ∀ line r w', parse line = .ok (.lang r) → c.translator.requested ≠ r →
      (c.select r).2 = Screen.report (s.languageFor locale r) ∧
      (c.handle files line).run w' =
        (((c.select r).1, .ok (some (.output ((c.select r).1.changeText (c.select r).2)))), w') := by
  intro c
  have hc : c = (opened s forest locale file).afterAll lines := handleAll_console files _ w lines
  refine ⟨?_, ?_, ?_⟩
  · rw [hc, activated, List.map_cons, lastWithFont?_cons]
    exact (follows_opened s forest locale file).looks_afterAll hs
      (looks_opened hs forest locale file) lines
  · rw [(follows_prepare s forest locale).announce hs]
    rfl
  · intro line r w' hline hne
    have h := (follows_opened s forest locale file).afterAll lines
    rw [← hc] at h
    rw [h.requested] at hne
    refine ⟨(h.select_of_ne hs hne).1, ?_⟩
    rw [handle_of_parse files c w' hline]
    rfl

/-- English and French, of which only English has a font. -/
def halfFurnished : Settings :=
  Settings.standard.withLanguages [⟨"en", "Noto Sans", .one⟩, ⟨"fr", " ", .one⟩]

/-- A switch to a language without a font is degraded, and the surface stays with the other one. -/
theorem handleAll_looks_halfFurnished :
    halfFurnished.check = .ok () ∧
    (let c := (((opened halfFurnished [] "en-GB" none).handleAll Directory.files
      ["lang auto", "lang fr"]).run .empty).1.1
    c.screen.Looks halfFurnished.localization.breakAnywhere
      (lastWithFont? (activated halfFurnished "en-GB" ["lang auto", "lang fr"]))) ∧
    activated halfFurnished "en-GB" ["lang auto", "lang fr"] =
      [⟨"en", "Noto Sans", .one⟩, ⟨"fr", " ", .one⟩] ∧
    lastWithFont? (activated halfFurnished "en-GB" ["lang auto", "lang fr"]) =
      some ⟨"en", "Noto Sans", .one⟩ :=
  have valid : halfFurnished.check = .ok () := by decide +kernel
  ⟨valid, (handleAll_looks Directory.files .empty valid [] "en-GB" none ["lang auto", "lang fr"]).1,
    by decide +kernel, by decide +kernel⟩

end Console
end Phrasebook
