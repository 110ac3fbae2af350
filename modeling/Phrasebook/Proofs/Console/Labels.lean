import Mathlib.Data.List.Induction
import Phrasebook.Proofs.Catalog.Leaves
import Phrasebook.Proofs.Console.Surface

/-! The labels are a snapshot: each shows the text its id had when the language was last switched, with
the variables of that moment, whatever has been set since and whatever the surface made of the switch. -/
namespace Phrasebook

namespace Widget

@[simp] lemma labelsAll_map_label (ids : List String) : labelsAll (ids.map label) = ids := by
  induction ids with
  | nil => rfl
  | cons id rest ih =>
    rw [List.map_cons, labelsAll, ih]
    rfl

end Widget

namespace History
open Command

/-- After the lines `before`, the line asks for something else than is selected. -/
def IsSwitch (first : Request) (before : List String) (line : String) : Prop :=
  ∃ r, request? line = some r ∧ r ≠ lastRequest first before

/-- The lines end with a switch, or there are none. -/
def EndsAtSwitch (first : Request) (lines : List String) : Prop :=
  lines = [] ∨ ∃ before line, lines = before ++ [line] ∧ IsSwitch first before line

lemma switches_singleton_eq_nil_iff (first : Request) (before : List String) (line : String) :
    switches (lastRequest first before) [line] = [] ↔ ¬ IsSwitch first before line := by
  unfold IsSwitch
  cases h : request? line with
  | none => simp [switches, h]
  | some r =>
    by_cases hr : r = lastRequest first before
    · simp [switches, h, hr]
    · simp [switches, h, hr]

/-- Every history is cut after its last switch. -/
lemma exists_last_switch (first : Request) (lines : List String) :
    ∃ before after, lines = before ++ after ∧ EndsAtSwitch first before ∧
      switches (lastRequest first before) after = [] := by
  -- From the end: a line that is no switch belongs to what follows the last one.
  induction lines using List.reverseRecOn with
  | nil => exact ⟨[], [], rfl, .inl rfl, rfl⟩
  | append_singleton lines line ih =>
    by_cases hline : IsSwitch first lines line
    · exact ⟨lines ++ [line], [], (List.append_nil _).symm, .inr ⟨lines, line, rfl, hline⟩, rfl⟩
    · obtain ⟨before, after, rfl, hends, hquiet⟩ := ih
      refine ⟨before, after ++ [line], List.append_assoc .., hends, ?_⟩
      rw [switches_append, hquiet, ← lastRequest_append,
        (switches_singleton_eq_nil_iff ..).2 hline]
      rfl

end History

namespace Console
open Command History

/-- Each label shows what its id reads now; an id without text shows itself. -/
def IsFresh (c : Console) : Prop :=
  ∀ id ∈ c.panel.labels,
    c.screen.shown id = (c.translator.text c.values id).getD ("[" ++ id ++ "]")

lemma isFresh_announce (c : Console) : c.announce.1.IsFresh := by
  intro id (hid : id ∈ c.panel.labels)
  have htexts : c.announce.1.screen.texts =
      Screen.refreshed c.values c.translator c.panel.labels c.screen.texts :=
    Screen.texts_announce_elements _ _ _ _ _
  rw [Screen.shown, htexts, Screen.get?_refreshed, if_pos hid]
  rfl

lemma isFresh_opened (s : Settings) (forest : List Node) (locale : String)
    (file : Option Path) : (opened s forest locale file).IsFresh :=
  isFresh_announce (prepare s forest locale)

variable {s : Settings} {forest : List Node} {locale : String} {file : Option Path}
  {r : Request} {c : Console}

/-- A switch refreshes all labels, also one that the surface degrades. -/
lemma isFresh_after_switch {line : String} {r' : Request} (hline : request? line = some r')
    (hne : c.translator.requested ≠ r') : (c.after line).IsFresh := by
  rw [after_eq_of_request hline, select_of_ne hne]
  exact isFresh_announce _

/-- Without a switch nothing on the screen changes. -/
theorem Follows.screen_after (h : Follows s forest locale file r c) {line : String}
    (hline : switches r [line] = []) : (c.after line).screen = c.screen := by
  cases hr : request? line with
  | none => rw [after_of_no_request hr]
  | some r' =>
    have hsame : r' = r := by
      by_contra hne
      simp [switches, hr, hne] at hline
    rw [after_eq_of_request hr, select_of_eq (h.requested.trans hsame.symm)]

lemma Follows.screen_afterAll (h : Follows s forest locale file r c) {lines : List String}
    (hlines : switches r lines = []) : (c.afterAll lines).screen = c.screen := by
  induction lines generalizing r c with
  | nil => rfl
  | cons line rest ih =>
    have hcut := switches_append r [line] rest
    have hlast : lastRequest r [line] = (request? line).getD r := lastRequest_cons r line []
    rw [List.singleton_append, hlines, hlast] at hcut
    obtain ⟨hline, hrest⟩ := List.append_eq_nil_iff.1 hcut.symm
    rw [afterAll_cons, ih (h.after line) hrest, h.screen_after hline]

theorem Follows.isFresh_afterAll (h : Follows s forest locale file r c) (hfresh : c.IsFresh)
    {lines : List String} (hends : EndsAtSwitch r lines) : (c.afterAll lines).IsFresh := by
  rcases hends with rfl | ⟨before, line, rfl, r', hline, hne⟩
  · exact hfresh
  · have hbefore := h.afterAll before
    have hlast : c.afterAll (before ++ [line]) = (c.afterAll before).after line :=
      List.foldl_append ..
    rw [hlast]
    refine isFresh_after_switch hline ?_
    rw [hbefore.requested]
    exact hne.symm

/-- The panel stays the one that was built from the ids of the leaves. -/
theorem Follows.panel_eq (h : Follows s forest locale file r c) :
    c.panel = panelOf (Catalog.ofForest forest).ids := by
  rw [h.panel, h.translator]
  exact congrArg panelOf (Catalog.ids_compileAll _ _)

/-- There is one label for each id of the catalog, in order, and it shows what the id read in the
console `past`. -/
structure LabelledAt (forest : List Node) (past c : Console) : Prop where
  panel : c.panel = .panel "catalog" (c.translator.catalog.ids.map .label)
  ordered : c.panel.labels.Pairwise (· < ·)
  complete : ∀ id, id ∈ c.panel.labels ↔ id ∈ (Node.leavesAll forest).map Prod.fst
  texts : ∀ id ∈ c.panel.labels,
    c.screen.shown id = (past.translator.text past.values id).getD ("[" ++ id ++ "]")

/-- Labels stay as they were when they were fresh. -/
theorem Follows.labelledAt {past : Console} {r' : Request}
    (hpast : Follows s forest locale file r past) (hfresh : past.IsFresh)
    (h : Follows s forest locale file r' c) (hscreen : c.screen = past.screen) :
    LabelledAt forest past c := by
  have hlabels : c.panel.labels = (Catalog.ofForest forest).ids := by
    rw [h.panel_eq]
    exact Widget.labelsAll_map_label _
  refine ⟨h.panel, ?_, ?_, ?_⟩
  · rw [hlabels]
    exact (Catalog.ofForest forest).entries.increasing
  · intro id
    rw [hlabels]
    exact Catalog.mem_ids_ofForest forest id
  · intro id hid
    rw [hscreen]
    refine hfresh id ?_
    rwa [hpast.panel_eq, ← h.panel_eq]

/-- Wherever a session gets to, the labels show the texts of the console that the last switch left,
or of the first one. A line that is no switch leaves the screen alone, and between two listings of the
labels without a switch there is no difference. -/
theorem handleAll_labels {σ : Type} (files : Files (StateM σ)) (w : σ) (s : Settings)
    (forest : List Node) (locale : String) (file : Option Path) (lines : List String) :
    let reached := fun lines => (((opened s forest locale file).handleAll files lines).run w).1.1
    let c := reached lines
    let first := s.localization.language
    (∃ before after, lines = before ++ after ∧ EndsAtSwitch first before ∧
      switches (lastRequest first before) after = [] ∧ LabelledAt forest (reached before) c) ∧
    (∀ line w', ¬ IsSwitch first lines line →
      ((c.handle files line).run w').1.1.screen = c.screen) ∧
    ∀ showing between again w' w'', parse showing = .ok .display → parse again = .ok .display →
      switches (lastRequest first lines) between = [] →
      let later := ((c.handleAll files (showing :: between)).run w').1.1
      ((later.handle files again).run w'').1.2 = ((c.handle files showing).run w').1.2 := by
  intro reached c first
  have hreached : ∀ lines, reached lines = (opened s forest locale file).afterAll lines :=
    fun lines => handleAll_console files _ w lines
  have hfollows : ∀ lines, Follows s forest locale file (lastRequest first lines) (reached lines) := by
    intro lines
    rw [hreached]
    exact (follows_opened s forest locale file).afterAll lines
  refine ⟨?_, ?_, ?_⟩
  · obtain ⟨before, after, hcut, hends, hquiet⟩ := exists_last_switch first lines
    refine ⟨before, after, hcut, hends, hquiet, ?_⟩
    have hfresh : (reached before).IsFresh := by
      rw [hreached]
      exact (follows_opened s forest locale file).isFresh_afterAll
        (isFresh_opened s forest locale file) hends
    have hlater : c = (reached before).afterAll after := by
      rw [hreached, ← show reached lines = c from rfl, hreached, hcut]
      exact List.foldl_append ..
    refine (hfollows before).labelledAt hfresh (hfollows lines) ?_
    rw [hlater]
    exact (hfollows before).screen_afterAll hquiet
  · intro line w' hline
    rw [handle_console]
    exact (hfollows lines).screen_after ((switches_singleton_eq_nil_iff ..).2 hline)
  · intro showing between again w' w'' hshowing hagain hquiet later
    have hafter : c.after showing = c := after_of_parse hshowing
    have hlater : later = c.afterAll between := by
      show ((c.handleAll files (showing :: between)).run w').1.1 = _
      rw [handleAll_console, afterAll_cons, hafter]
    have hscreen : later.screen = c.screen := by
      rw [hlater]
      exact (hfollows lines).screen_afterAll hquiet
    have hpanel : later.panel = c.panel := by
      rw [hlater, ((hfollows lines).afterAll between).panel_eq]
      exact (hfollows lines).panel_eq.symm
    rw [handle_of_parse files later w'' hagain, handle_of_parse files c w' hshowing]
    simp only [execute, hscreen, hpanel]
    rfl

/-- An entry with a variable, which has no text in French. -/
def playerForest : List Node :=
  [.group [.entry "player" (.ofList [("en", "Player <global:00000000000000a1>")])],
    .entry "menu" (.ofList [("fr", "Menu")])]

/-- The switch to French is degraded, the way back to English refreshes the labels with the name of
that moment, and a name set later waits for the next switch. -/
theorem handleAll_labels_playerForest :
    let lines := ["lang fr", "set 00000000000000a1 Ada", "lang en", "set 00000000000000a1 Bob"]
    let first := halfFurnished.localization.language
    let reached := fun lines =>
      (((opened halfFurnished playerForest "en-GB" none).handleAll Directory.files lines).run
        .empty).1.1
    let c := reached lines
    (¬ IsSwitch first lines "lang en" ∧ parse "show" = .ok .display ∧
      switches (lastRequest first lines) ["get player"] = []) ∧
    (∃ before after, lines = before ++ after ∧ EndsAtSwitch first before ∧
      switches (lastRequest first before) after = [] ∧
      LabelledAt playerForest (reached before) c) ∧
    ((c.handle Directory.files "lang en").run .empty).1.1.screen = c.screen ∧
    ((((c.handleAll Directory.files ["show", "get player"]).run .empty).1.1.handle Directory.files
      "show").run .empty).1.2 = ((c.handle Directory.files "show").run .empty).1.2 ∧
    c.panel.labels.map c.screen.shown = ["[menu]", "Player Ada"] := by
  intro lines first reached c
  have same : ¬ IsSwitch first lines "lang en" :=
    (switches_singleton_eq_nil_iff ..).1 (by decide +kernel)
  have quiet : switches (lastRequest first lines) ["get player"] = [] := by decide +kernel
  have listing : parse "show" = .ok .display := rfl
  obtain ⟨snapshot, frame, show_show⟩ :=
    handleAll_labels Directory.files .empty halfFurnished playerForest "en-GB" none lines
  exact ⟨⟨same, listing, quiet⟩, snapshot, frame "lang en" .empty same,
    show_show "show" ["get player"] "show" .empty .empty listing listing quiet, by decide +kernel⟩

end Console
end Phrasebook
