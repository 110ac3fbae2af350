import Phrasebook.Proofs.Console.History
import Phrasebook.Proofs.Files.Directory
import Phrasebook.Proofs.Json.Canonical

/-! The end of a session and the start of the next one on what `save` wrote. All but the variables
comes back with the settings, and the variables come back with the lines that set them. -/
namespace Phrasebook

namespace Command

/-- A line that prints an entry or a text of its own. -/
def IsReading (line : String) : Prop :=
  (∃ id, parse line = .ok (.get id)) ∨ ∃ text, parse line = .ok (.replace text)

lemma exists_ofText_of_request? {line : String} {r : Request} (h : request? line = some r) :
    ∃ code, r = .ofText code := by
  unfold request? at h
  split at h
  · rename_i hparse
    cases h
    exact isSpelled_of_parse hparse
  · cases h

/-- A line does one thing. -/
lemma request?_of_assignment? {line : String} (h : (assignment? line).isSome) :
    request? line = none := by
  unfold assignment? at h
  unfold request?
  split at h
  · rename_i hparse
    rw [hparse]
  · cases h

end Command

namespace History
open Command

/-- The lines that set variables. -/
def assignments (lines : List String) : List String :=
  lines.filter fun line => (assignment? line).isSome

lemma filterMap_assignments (lines : List String) :
    (assignments lines).filterMap assignment? = lines.filterMap assignment? := by
  unfold assignments
  induction lines with
  | nil => rfl
  | cons line rest ih =>
    cases h : assignment? line with
    | none => simp [h, ih]
    | some a => simp [h, ih]

lemma lastRequest_assignments (first : Request) (lines : List String) :
    lastRequest first (assignments lines) = first := by
  have hnone : (assignments lines).filterMap request? = [] := by
    rw [List.filterMap_eq_nil_iff]
    intro line hline
    exact request?_of_assignment? (List.mem_filter.1 hline).2
  rw [lastRequest, hnone]
  rfl

/-- What was asked for last was asked for by a text. -/
lemma exists_ofText_lastRequest (code : String) (lines : List String) :
    ∃ code', lastRequest (.ofText code) lines = .ofText code' := by
  induction lines generalizing code with
  | nil => exact ⟨code, rfl⟩
  | cons line rest ih =>
    rw [lastRequest_cons]
    cases h : request? line with
    | none => exact ih code
    | some r =>
      obtain ⟨code', rfl⟩ := exists_ofText_of_request? h
      exact ih code'

end History

namespace Console
open Command History

section Opening

variable {σ : Type} {files : Files (StateM σ)} {s : Settings} {locale : String} {w : σ}

theorem open?_eq_ok_iff {c : Console} :
    ((open? files s locale).run w).1 = .ok c ↔
      ∃ text forest, ((files.read s.localization.catalog).run w).1 = .ok text ∧
        Node.parseForest text = .ok forest ∧ c = start s forest locale := by
  rcases hread : (files.read s.localization.catalog).run w with ⟨r, w'⟩
  rw [open?, run_bind_of_run hread]
  cases r with
  | error fault => simp
  | ok text =>
    cases hparse : Node.parseForest text with
    | error fault => simp [hparse]
    | ok forest =>
      simp only [hparse]
      show Except.ok (start s forest locale) = .ok c ↔ _
      simp [hparse, eq_comm]

variable {forest : List Node} {file : Option Path} {c : Console}

/-- The settings of a session name the catalog that it was opened on. -/
lemma Follows.open?_settings {r : Request} (h : Follows s forest locale file r c) {text : String}
    (htext : ((files.read s.localization.catalog).run w).1 = .ok text)
    (hforest : Node.parseForest text = .ok forest) :
    ((open? files c.settings locale).run w).1 = .ok (start c.settings forest locale) := by
  have hsame : c.settings.localization.catalog = s.localization.catalog := by
    rw [h.settings]
    rfl
  exact open?_eq_ok_iff.2 ⟨text, forest, hsame ▸ htext, hforest, rfl⟩

lemma Follows.exists_ofText {code : String} {lines : List String}
    (h : Follows s forest locale file (lastRequest s.localization.language lines) c)
    (hlanguage : s.localization.language = .ofText code) :
    ∃ code', c.settings.localization.language = .ofText code' := by
  obtain ⟨code', hlast⟩ := exists_ofText_lastRequest code lines
  refine ⟨code', ?_⟩
  rw [h.settings, ← hlast, ← hlanguage]
  rfl

end Opening

/-- A console that goes on where another one was after some lines, once the lines among them that
set variables are run. -/
structure Resumes {σ : Type} (files : Files (StateM σ)) (lines : List String) (c c' : Console) :
    Prop where
  requested : c'.translator.requested = c.translator.requested
  active : c'.translator.active = c.translator.active
  languageLines : c'.languageLines = c.languageLines
  reply (w w' : σ) {line : String} (h : IsReading line) :
    let replayed := ((c'.handleAll files (assignments lines)).run w).1.1
    ((replayed.handle files line).run w').1.2 = ((c.handle files line).run w').1.2

section Resuming

variable {σ : Type} (files : Files (StateM σ))

/-- What is printed of an entry or a text depends on the translator and the variables alone. -/
theorem reply_of_isReading {c c' : Console} (htranslator : c'.translator = c.translator)
    (hvars : c'.vars = c.vars) {line : String} (h : IsReading line) (w : σ) :
    ((c'.handle files line).run w).1.2 = ((c.handle files line).run w).1.2 := by
  have hvalues : c'.values = c.values := by rw [values, values, hvars]
  rcases h with ⟨id, hparse⟩ | ⟨text, hparse⟩
  · rw [handle_of_parse files c' w hparse, handle_of_parse files c w hparse]
    simp only [execute, htranslator, hvalues]
    rfl
  · rw [handle_of_parse files c' w hparse, handle_of_parse files c w hparse]
    simp only [execute, htranslator, hvalues]
    rfl

variable (s : Settings) (forest : List Node) (locale : String) (file : Option Path)

theorem resumes_start (lines : List String) :
    let c := (opened s forest locale file).afterAll lines
    Resumes files lines c (start c.settings forest locale) := by
  intro c
  have hfollows : Follows s forest locale file (lastRequest s.localization.language lines) c :=
    (follows_opened s forest locale file).afterAll lines
  have hstart := follows_opened c.settings forest locale none
  -- Only the request has changed in the settings, and it is the one that the session ended with.
  have hstarted : (start c.settings forest locale).translator = c.translator := by
    rw [hfollows.translator, hfollows.settings]
    rfl
  have hreplayed : ((start c.settings forest locale).afterAll (assignments lines)).translator =
      c.translator := by
    have hfollowed := hstart.afterAll (assignments lines)
    rw [lastRequest_assignments] at hfollowed
    exact (hfollowed.translator.trans hstart.translator.symm).trans hstarted
  have hvars : ((start c.settings forest locale).afterAll (assignments lines)).vars = c.vars := by
    rw [afterAll_vars, afterAll_vars, filterMap_assignments]
    rfl
  refine ⟨congrArg _ hstarted, congrArg _ hstarted, ?_, ?_⟩
  · rw [languageLines, languageLines, hstarted]
  · intro w w' line hline
    simp only [handleAll_console]
    exact reply_of_isReading files hreplayed hvars hline w'

end Resuming

lemma eq_afterAll_of_handleAll {σ : Type} {files : Files (StateM σ)} {c c' : Console}
    {lines : List String} {replies : List Reply} {w w' : σ}
    (h : (c.handleAll files lines).run w = ((c', replies), w')) : c' = c.afterAll lines := by
  rw [← handleAll_console files c w lines, h]

/-- What a line that saves the settings is answered with. -/
def saveReply (path : Path) : Except Settings.StoreError Unit → Reply
  | .ok _ => .ok (some (.output ("saved " ++ path.display)))
  | .error e => .error (.store e)

section Save

variable {σ : Type} {files : Files (StateM σ)} {bytes : σ → Path → Option ByteArray}
  {path : Path} {line : String} (hline : parse line = .ok .save)
include hline

lemma handle_of_save {c : Console} (hfile : c.file = some path) {w w' : σ}
    {r : Except Settings.StoreError Unit}
    (hsave : (Settings.save files path c.settings).run w = (r, w')) :
    (c.handle files line).run w = ((c, saveReply path r), w') := by
  have hexecute : (c.execute files .save).run w =
      ((c, ((c.save files).run w).1.map .output), ((c.save files).run w).2) := rfl
  rw [handle_of_parse files c w hline, hexecute]
  simp only [save, hfile]
  rw [run_bind_of_run hsave]
  cases r <;> rfl

/-- A line that saves the settings is answered with what became of that. -/
theorem handle_save_cases (hfiles : files.Atomic bytes path) {c c' : Console}
    (hfile : c.file = some path) {w w' : σ} {reply : Reply}
    (h : (c.handle files line).run w = ((c', reply), w')) :
    (∃ e, Settings.formatOf path = .error e ∧ reply = .error (.store e) ∧ w' = w) ∨
      (∃ f, Settings.formatOf path = .ok f ∧ f.render? c.settings = none ∧
        reply = .error (.store .unwritable) ∧ w' = w) ∨
      ∃ f text, Settings.formatOf path = .ok f ∧ f.render? c.settings = some text ∧
        ((∃ e, reply = .error e ∧ bytes w' path = bytes w path) ∨
          (reply = .ok (some (.output ("saved " ++ path.display))) ∧
            bytes w' path = some text.toUTF8)) := by
  rcases hsave : (Settings.save files path c.settings).run w with ⟨r, w₁⟩
  rw [handle_of_save hline hfile hsave] at h
  cases h
  rcases Settings.save_cases hfiles c.settings hsave with ⟨e, hformat, rfl, hw⟩ |
    ⟨f, hformat, hrender, rfl, hw⟩ | ⟨f, text, hformat, hrender, hwritten⟩
  · exact .inl ⟨e, hformat, rfl, hw⟩
  · exact .inr (.inl ⟨f, hformat, hrender, rfl, hw⟩)
  · refine .inr (.inr ⟨f, text, hformat, hrender, ?_⟩)
    rcases hwritten with ⟨e, rfl, hold⟩ | ⟨rfl, hnew⟩
    · exact .inl ⟨.store e, rfl, hold⟩
    · exact .inr ⟨rfl, hnew⟩

/-- In a session on valid settings `save` leaves the console as it is. If the format of the file is
unknown, or the settings cannot be rendered, no file is touched; if it fails for whatever other reason,
the bytes of the file are what they were. If it succeeds, then as long as they stay there the file loads
as the present settings, and a console that is opened on them while the catalog reads as it did goes on
where this one is. -/
theorem handleAll_save (hfiles : files.Atomic bytes path) {s : Settings} (hs : s.check = .ok ())
    {code : String} (hlanguage : s.localization.language = .ofText code) {locale : String}
    {w₀ w w₁ w₂ : σ} {c₀ c c₁ : Console} {lines : List String} {replies : List Reply} {reply : Reply}
    (hopen : ((open? files s locale).run w₀).1 = .ok c₀)
    (hlines : ({ c₀ with file := some path }.handleAll files lines).run w = ((c, replies), w₁))
    (hsave : (c.handle files line).run w₁ = ((c₁, reply), w₂)) :
    c₁ = c ∧
      (∀ e, Settings.formatOf path = .error e → reply = .error (.store e) ∧ w₂ = w₁) ∧
      (∀ f, Settings.formatOf path = .ok f → f.render? c.settings = none →
        reply = .error (.store .unwritable) ∧ w₂ = w₁) ∧
      ((∃ e, reply = .error e ∧ bytes w₂ path = bytes w₁ path) ∨
        (reply = .ok (some (.output ("saved " ++ path.display))) ∧
          ∃ f text written, Settings.formatOf path = .ok f ∧ f.render? c.settings = some text ∧
            c.settings.toData? = some written ∧
            (f.Reads text written →
              ∀ w', bytes w' path = bytes w₂ path →
                ((Settings.load files path).run w').1 = .ok c.settings ∧
                (((files.read s.localization.catalog).run w').1 =
                    ((files.read s.localization.catalog).run w₀).1 →
                  ∃ c', ((open? files c.settings locale).run w').1 = .ok c' ∧
                    Resumes files lines c c')))) := by
  obtain ⟨text, forest, htext, hforest, rfl⟩ := open?_eq_ok_iff.1 hopen
  have hc : c = (opened s forest locale (some path)).afterAll lines := eq_afterAll_of_handleAll hlines
  have hfollows : Follows s forest locale (some path) (lastRequest s.localization.language lines) c :=
    hc ▸ (follows_opened s forest locale (some path)).afterAll lines
  have hafter : c₁ = c := by
    have hconsole := handle_console files c w₁ line
    rw [hsave, after_of_parse hline] at hconsole
    exact hconsole
  refine ⟨hafter, ?_⟩
  rcases handle_save_cases hline hfiles hfollows.file hsave with ⟨e, hformat, rfl, rfl⟩ |
    ⟨f, hformat, hrender, rfl, rfl⟩ | ⟨f, rendered, hformat, hrender, hwritten⟩
  case inl =>
    refine ⟨fun e' h => ?_, fun f h => absurd (hformat.symm.trans h) nofun, .inl ⟨_, rfl, rfl⟩⟩
    cases hformat.symm.trans h
    exact ⟨rfl, rfl⟩
  case inr.inl =>
    exact ⟨fun e h => absurd (hformat.symm.trans h) nofun, fun _ _ _ => ⟨rfl, rfl⟩, .inl ⟨_, rfl, rfl⟩⟩
  case inr.inr =>
    refine ⟨fun e h => absurd (hformat.symm.trans h) nofun, fun f' h hnone => ?_,
      hwritten.imp id ?_⟩
    · cases hformat.symm.trans h
      cases hrender.symm.trans hnone
    · rintro ⟨hreply, hbytes⟩
      obtain ⟨written, hdata, -⟩ := Option.map_eq_some_iff.1 hrender
      refine ⟨hreply, f, rendered, written, hformat, hrender, hdata,
        fun hreads w' hw' => ⟨?_, fun hcatalog => ?_⟩⟩
      · have hcheck : c.settings.check = .ok () := by
          rw [hfollows.settings, Settings.check_withLanguage, hs]
        obtain ⟨code', hlanguage'⟩ := hfollows.exists_ofText hlanguage
        exact Settings.load_of_render hfiles hcheck hlanguage' hformat hdata hreads
          (hw'.trans hbytes)
      · have hresumes := resumes_start files s forest locale (some path) lines
        rw [← hc] at hresumes
        exact ⟨_, hfollows.open?_settings (hcatalog.trans htext) hforest, hresumes⟩

end Save

section Courier

open Settings Directory

/-- A source with one entry. -/
def courierText : String :=
  "[\x7b\"id\":\"greeting\",\"contents\":\x7b\"de\":\"Hallo <global:00000000000000a1>\"\x7d\x7d]"

lemma exists_parseForest_courierText : ∃ forest, Node.parseForest courierText = .ok forest := by
  have hok : (Node.parseForest courierText).isOk = true := by decide +kernel
  cases hparse : Node.parseForest courierText with
  | error fault =>
    rw [hparse] at hok
    cases hok
  | ok forest => exact ⟨forest, rfl⟩

/-- A path that is no text. -/
def strayPath : Path := ⟨[0x66, 0xFF]⟩

lemma isPlainName_catalog : IsPlainName "catalog.json" := by
  constructor <;> decide +kernel

lemma isPlainName_stray : IsPlainName strayPath := by
  constructor <;> decide +kernel

lemma isPlainName_settings : IsPlainName "glossa.toml" := by
  constructor <;> decide +kernel

/-- A folder with the source alone. -/
def lobby : Directory := Directory.empty.put [Text.bytes "catalog.json"] (.file courierText.toUTF8)

/-- The folder after settings were saved. -/
def servedLobby : Directory :=
  lobby.put [Text.bytes "glossa.toml"] (.file (Format.toml.print Format.courierData).toUTF8)

/-- That folder with the source under another name as well. -/
def strayLobby : Directory := servedLobby.put [strayPath.bytes] (.file courierText.toUTF8)

lemma read_source {name : Path} (hname : IsPlainName name) {d : Directory}
    (h : d.entries.lookup [name.bytes] = some (.file courierText.toUTF8)) :
    ((files.read name).run d).1 = .ok courierText :=
  (files_atomic hname).read (hname.bytesAt_of_lookup h)

lemma open?_of_source {s : Settings} (hname : IsPlainName s.localization.catalog) {d : Directory}
    (h : d.entries.lookup [s.localization.catalog.bytes] = some (.file courierText.toUTF8)) :
    ∃ forest, ((open? files s "en-US").run d).1 = .ok (start s forest "en-US") := by
  obtain ⟨forest, hforest⟩ := exists_parseForest_courierText
  exact ⟨forest, open?_eq_ok_iff.2 ⟨courierText, forest, read_source hname h, hforest, rfl⟩⟩

/-- Settings without a language of their own. -/
def undecided : Settings := Format.courier.withLanguage (.ofText "auto")

/-- The same settings with the source under a name that is no text. -/
def stray : Settings :=
  { undecided with localization := { undecided.localization with catalog := strayPath } }

def courierLines : List String := ["lang de", "set 00000000000000a1 Welt"]

/-- No line of the session touches files, and its settings ask for the courier's language in the end. -/
lemma handleAll_courierLines (s : Settings) (forest : List Node) (d : Directory) :
    ∃ c replies, ((opened s forest "en-US" (some "glossa.toml")).handleAll files
        courierLines).run d = ((c, replies), d) ∧
      c.settings = s.withLanguage (.ofText "de") ∧ c.file = some "glossa.toml" := by
  rcases session : ((opened s forest "en-US" (some "glossa.toml")).handleAll files
    courierLines).run d with ⟨⟨c, replies⟩, d'⟩
  have hfollows := (follows_opened s forest "en-US" (some "glossa.toml")).afterAll courierLines
  rw [← eq_afterAll_of_handleAll session] at hfollows
  have untouched : d' = d := by
    have hlang : parse "lang de" = .ok (.lang (.ofText "de")) := rfl
    obtain ⟨value, hset⟩ : ∃ value, parse "set 00000000000000a1 Welt" =
      .ok (.set "00000000000000a1" value) := ⟨_, rfl⟩
    simp only [courierLines, handleAll_cons, handle_of_parse files _ _ hlang,
      handle_of_parse files _ _ hset] at session
    exact congrArg Prod.snd session.symm
  have hlast : lastRequest s.localization.language courierLines = .ofText "de" := rfl
  exact ⟨c, replies, by rw [untouched], hlast ▸ hfollows.settings, hfollows.file⟩

lemma formatOf_settings : formatOf "glossa.toml" = .ok .toml := by decide +kernel

lemma save_courier :
    ∃ d, (Settings.save files "glossa.toml" Format.courier).run lobby = (.ok (), d) ∧
      servedLobby.bytesAt "glossa.toml" = d.bytesAt "glossa.toml" := by
  rcases hsave : (Settings.save files "glossa.toml" Format.courier).run lobby with ⟨r, d⟩
  have hr : ((Settings.save files "glossa.toml" Format.courier).run lobby).1 = .ok () := by
    decide +kernel
  rw [hsave] at hr
  obtain rfl : r = .ok () := hr
  have hcases := save_cases (files_atomic isPlainName_settings) Format.courier hsave
  obtain ⟨f, text, hformat, hrender, hwritten⟩ :=
    (hcases.resolve_left nofun).resolve_left nofun
  cases formatOf_settings.symm.trans hformat
  cases (Format.render?_eq_some Format.toData?_courier).symm.trans hrender
  refine ⟨d, rfl, ?_⟩
  rw [(hwritten.resolve_left nofun).2]
  exact isPlainName_settings.bytesAt_of_lookup (lookup_put_self lobby _)

lemma render?_stray : Format.toml.render? (stray.withLanguage (.ofText "de")) = none :=
  Format.render?_eq_none_iff.2 ⟨strayPath, List.mem_cons_self, by decide +kernel⟩

/-- In one session the language is asked for and comes back from the file. In the other one the
settings cannot be rendered, and the file that an earlier session saved stays. -/
theorem handleAll_save_courier :
    (∃ c₀ c replies d c', undecided.check = .ok () ∧
      undecided.localization.language = .ofText "auto" ∧ parse "save" = .ok .save ∧
      ((open? files undecided "en-US").run lobby).1 = .ok c₀ ∧
      ({ c₀ with file := some "glossa.toml" }.handleAll files courierLines).run lobby =
        ((c, replies), lobby) ∧
      (c.handle files "save").run lobby = ((c, .ok (some (.output "saved glossa.toml"))), d) ∧
      ((Settings.load files "glossa.toml").run servedLobby).1 = .ok Format.courier ∧
      ((open? files Format.courier "en-US").run servedLobby).1 = .ok c' ∧
      Resumes files courierLines c c') ∧
    ∃ c₀ c replies, stray.check = .ok () ∧ stray.localization.language = .ofText "auto" ∧
      ((open? files stray "en-US").run strayLobby).1 = .ok c₀ ∧
      ({ c₀ with file := some "glossa.toml" }.handleAll files courierLines).run strayLobby =
        ((c, replies), strayLobby) ∧
      (c.handle files "save").run strayLobby = ((c, .error (.store .unwritable)), strayLobby) := by
  have command : parse "save" = .ok .save := rfl
  constructor
  · have valid : undecided.check = .ok () := by decide +kernel
    have request : undecided.localization.language = .ofText "auto" := rfl
    have source : lobby.entries.lookup [Text.bytes "catalog.json"] =
        some (.file courierText.toUTF8) := lookup_put_self _ _
    have source' : servedLobby.entries.lookup [Text.bytes "catalog.json"] =
        some (.file courierText.toUTF8) :=
      (lookup_put_of_ne lobby (by decide +kernel) _).trans source
    obtain ⟨forest, opening⟩ := open?_of_source (s := undecided) isPlainName_catalog source
    obtain ⟨c, replies, session, settled, hfile⟩ := handleAll_courierLines undecided forest lobby
    obtain ⟨d, stored, served⟩ := save_courier
    have settled' : c.settings = Format.courier := settled
    rw [← settled'] at stored
    have saved := handle_of_save command hfile stored
    have told : saveReply "glossa.toml" (.ok ()) = .ok (some (.output "saved glossa.toml")) := by
      rw [saveReply, Path.display_ofText]
      rfl
    rw [told] at saved
    obtain ⟨-, -, -, outcome⟩ := handleAll_save command (files_atomic isPlainName_settings) valid
      request opening session saved
    obtain ⟨-, f, text, written, hformat, hrender, hwritten, restart⟩ := outcome.resolve_left nofun
    rw [settled'] at hrender hwritten restart
    cases formatOf_settings.symm.trans hformat
    cases Format.toData?_courier.symm.trans hwritten
    cases (Format.render?_eq_some Format.toData?_courier).symm.trans hrender
    obtain ⟨loaded, reopened⟩ := restart Format.reads_courierData servedLobby served
    obtain ⟨c', opening', resumed⟩ := reopened
      ((read_source isPlainName_catalog source').trans (read_source isPlainName_catalog source).symm)
    exact ⟨_, c, replies, d, c', valid, request, command, opening, session, saved, loaded, opening',
      resumed⟩
  · have valid : stray.check = .ok () := by decide +kernel
    have request : stray.localization.language = .ofText "auto" := rfl
    obtain ⟨forest, opening⟩ := open?_of_source (s := stray) isPlainName_stray
      (lookup_put_self servedLobby _)
    obtain ⟨c, replies, session, settled, -⟩ := handleAll_courierLines stray forest strayLobby
    rcases saved : (c.handle files "save").run strayLobby with ⟨⟨c₁, reply⟩, d⟩
    obtain ⟨rfl, -, refused, -⟩ := handleAll_save command (files_atomic isPlainName_settings) valid
      request opening session saved
    obtain ⟨rfl, rfl⟩ := refused .toml formatOf_settings (settled ▸ render?_stray)
    exact ⟨_, c₁, replies, valid, request, opening, session, saved⟩

end Courier

end Console
end Phrasebook
