import Phrasebook.Proofs.Console.Run

/-! What the lines of a session asked for, read off their text alone. All of a console but its screen
follows from the last request and the assignments so far. -/
namespace Phrasebook

/-- The language that a line asks for. -/
def Command.request? (line : String) : Option Request :=
  match parse line with
  | .ok (.lang r) => some r
  | _ => none

/-- The variable that a line sets, and its value. -/
def Command.assignment? (line : String) : Option (String × Json) :=
  match parse line with
  | .ok (.set key value) => some (key, value)
  | _ => none

namespace History
open Command

/-- What the last line that asks for a language asks for. -/
def lastRequest (first : Request) (lines : List String) : Request :=
  (lines.filterMap request?).getLast?.getD first

/-- The value in the last line that sets a variable. -/
def lastValue? (lines : List String) (key : String) : Option Json :=
  (lines.filterMap assignment?).reverse.lookup key

lemma lastRequest_cons (first : Request) (line : String) (rest : List String) :
    lastRequest first (line :: rest) = lastRequest ((request? line).getD first) rest := by
  unfold lastRequest
  cases h : request? line with
  | none => simp [h]
  | some r =>
    rw [List.filterMap_cons_some h, List.getLast?_cons]
    rfl

lemma lastRequest_append (first : Request) (before after : List String) :
    lastRequest first (before ++ after) = lastRequest (lastRequest first before) after := by
  induction before generalizing first with
  | nil => rfl
  | cons line rest ih => rw [List.cons_append, lastRequest_cons, lastRequest_cons, ih]

end History

/-- The configured language that meets a request. -/
def Settings.languageFor (s : Settings) (locale : String) (r : Request) : Language :=
  Offer.choose ⟨s.localization.languages, s.localization.remap⟩ locale r

namespace Console
open Command History

/-- A console at the start of a session, with the file that `save` writes to. -/
def opened (s : Settings) (forest : List Node) (locale : String) (file : Option Path) : Console :=
  { start s forest locale with file := file }

lemma select_of_eq {c : Console} {r : Request} (h : c.translator.requested = r) :
    c.select r = (c, .unchanged) := by
  simp only [select, Display.setLanguage_of_eq _ _ _ h]
  rfl

/-- The console with another request, before the language for it is presented. -/
def keep (c : Console) (r : Request) : Console :=
  { c with
    translator := { c.translator with
      selection := ⟨r, c.translator.offer.choose c.translator.locale r⟩ }
    settings := c.settings.withLanguage r }

/-- A new request is kept by the translator and the settings, and then presented. -/
lemma select_of_ne {c : Console} {r : Request} (h : c.translator.requested ≠ r) :
    c.select r = (c.keep r).announce := by
  simp only [select, Display.setLanguage_of_ne _ _ _ h, Display.announce_isSwitched, if_true]
  rfl

lemma after_eq_of_request {c : Console} {line : String} {r : Request}
    (h : request? line = some r) : c.after line = (c.select r).1 := by
  unfold request? at h
  split at h
  · rename_i hp
    cases h
    exact after_of_parse hp
  · cases h

theorem after_of_no_request {c : Console} {line : String} (h : request? line = none) :
    c.after line = { c with vars := (c.after line).vars } := by
  unfold request? at h
  unfold after
  cases hp : parse line with
  | error problem => rfl
  | ok command =>
    cases command with
    | lang r => simp [hp] at h
    | _ => rfl

/-- Only a line that sets a variable touches the variables. -/
theorem after_vars (c : Console) (line : String) :
    (c.after line).vars =
      match assignment? line with
      | some (key, value) => c.vars.set key value
      | none => c.vars := by
  unfold assignment? after
  cases hp : parse line with
  | error problem => rfl
  | ok command =>
    cases command with
    | lang r =>
      by_cases h : c.translator.requested = r
      · simp only [afterCommand, select_of_eq h]
      · simp only [afterCommand, select_of_ne h]
        rfl
    | _ => rfl

lemma afterAll_vars (c : Console) (lines : List String) :
    (c.afterAll lines).vars =
      (lines.filterMap assignment?).foldl (fun vars a => vars.set a.1 a.2) c.vars := by
  induction lines generalizing c with
  | nil => rfl
  | cons line rest ih =>
    rw [afterAll_cons, ih, after_vars]
    cases h : assignment? line with
    | none => rw [List.filterMap_cons_none h]
    | some a => rw [List.filterMap_cons_some h, List.foldl_cons]

/-- The state of a session after a request `r` but for its variables and its screen. -/
structure Follows (s : Settings) (forest : List Node) (locale : String) (file : Option Path)
    (r : Request) (c : Console) : Prop where
  translator : c.translator =
    Translator.start forest ⟨s.localization.languages, s.localization.remap⟩ locale r
  settings : c.settings = s.withLanguage r
  file : c.file = file
  panel : c.panel = panelOf c.translator.catalog.ids

theorem follows_opened (s : Settings) (forest : List Node) (locale : String)
    (file : Option Path) :
    Follows s forest locale file s.localization.language (opened s forest locale file) :=
  ⟨rfl, rfl, rfl, rfl⟩

lemma follows_prepare (s : Settings) (forest : List Node) (locale : String) :
    Follows s forest locale none s.localization.language (prepare s forest locale) :=
  ⟨rfl, rfl, rfl, rfl⟩

variable {s : Settings} {forest : List Node} {locale : String} {file : Option Path}

lemma Follows.requested {r : Request} {c : Console} (h : Follows s forest locale file r c) :
    c.translator.requested = r := by
  rw [h.translator]
  rfl

lemma Follows.active {r : Request} {c : Console} (h : Follows s forest locale file r c) :
    c.translator.active = s.languageFor locale r := by
  rw [h.translator]
  rfl

/-- A request takes a session to the state it would have from the start on. -/
lemma Follows.keep {r : Request} {c : Console} (h : Follows s forest locale file r c)
    (r' : Request) : Follows s forest locale file r' (c.keep r') := by
  refine ⟨?_, ?_, h.file, h.panel⟩
  · simp only [Console.keep, h.translator]
    rfl
  · simp only [Console.keep, h.settings]
    rfl

theorem Follows.select {r : Request} {c : Console} (h : Follows s forest locale file r c)
    (r' : Request) : Follows s forest locale file r' (c.select r').1 := by
  by_cases heq : c.translator.requested = r'
  · rw [select_of_eq heq]
    rw [h.requested] at heq
    exact heq ▸ h
  · rw [select_of_ne heq]
    have hkept := h.keep r'
    exact ⟨hkept.translator, hkept.settings, hkept.file, hkept.panel⟩

theorem Follows.after {r : Request} {c : Console} (h : Follows s forest locale file r c)
    (line : String) : Follows s forest locale file ((request? line).getD r) (c.after line) := by
  cases hr : request? line with
  | some r' =>
    rw [after_eq_of_request hr]
    exact h.select r'
  | none =>
    rw [after_of_no_request hr]
    exact ⟨h.translator, h.settings, h.file, h.panel⟩

theorem Follows.afterAll {r : Request} {c : Console} (h : Follows s forest locale file r c)
    (lines : List String) :
    Follows s forest locale file (lastRequest r lines) (c.afterAll lines) := by
  induction lines generalizing r c with
  | nil => exact h
  | cons line rest ih =>
    rw [afterAll_cons, lastRequest_cons]
    exact ih (h.after line)

end Console
end Phrasebook
