import Phrasebook.Files.Directory
import Phrasebook.Proofs.Console.History
import Phrasebook.Proofs.Json.Canonical
import Phrasebook.Proofs.Settings.Validity
import Phrasebook.Proofs.Translator

/-! What `get` prints, told from the authored texts and the lines before it alone: no catalog, no
template and no store of variables. -/
namespace Phrasebook

namespace History
open Command Tag

/-- The text of a variable: none if it was never set, a string as it is, all else as JSON. -/
def variableText (lines : List String) (key : String) : String :=
  match lastValue? lines key with
  | none | some .null => ""
  | some (.string text) => text
  | some value => value.text

variable (s : Settings) (forest : List Node) (locale : String) (lines : List String)

/-- The language after some lines. -/
def language : Language :=
  s.languageFor locale (lastRequest s.localization.language lines)

/-- The authored text of an id with its variables in place. -/
def filled? (id : String) : Option String :=
  (Node.authored? forest (language s locale lines).name id).map
    (replaceAll "<global:" (variableText lines))

/-- The text of an id: its entries are put in place once, and a tag of an id without text stays. -/
def reading? (id : String) : Option String :=
  (filled? s forest locale lines id).map <| replaceAll "<ref:" fun key =>
    (filled? s forest locale lines key).getD ("<ref:" ++ key ++ ">")

lemma canonical_of_lastValue? {lines : List String} {key : String} {value : Json}
    (h : lastValue? lines key = some value) : value.canonical = value := by
  obtain ⟨later, earlier, hsplit, -⟩ := List.lookup_eq_some_iff.1 h
  have hmem : (key, value) ∈ (lines.filterMap assignment?).reverse := by
    rw [hsplit]
    exact List.mem_append_right _ (List.mem_cons_self ..)
  obtain ⟨line, -, hline⟩ := List.mem_filterMap.1 (List.mem_reverse.1 hmem)
  unfold assignment? at hline
  split at hline
  · rename_i key' value' hparse
    cases hline
    exact isSpelled_of_parse hparse
  · cases hline

lemma variableText_eq (lines : List String) (key : String) :
    variableText lines key = ((lastValue? lines key).bind Variables.embedded).getD "" := by
  unfold variableText
  cases lastValue? lines key with
  | none => rfl
  | some value => cases value <;> rfl

end History

namespace Console
open Command History Tag

/-- The store of variables holds what the lines have set. -/
theorem afterAll_get? {c : Console} (hc : c.vars = .empty) (lines : List String) (key : String) :
    (c.afterAll lines).vars.get? key = lastValue? lines key := by
  rw [afterAll_vars, hc]
  have hget := Dict.get?_foldl_insert (fun _ value => Json.canonical value)
    (lines.filterMap assignment?) .empty key
  refine hget.trans ?_
  rw [Dict.get?_empty, Option.or_none]
  show (lastValue? lines key).map Json.canonical = lastValue? lines key
  cases h : lastValue? lines key with
  | none => rfl
  | some value => rw [Option.map_some, canonical_of_lastValue? h]

theorem textOf_afterAll {c : Console} (hc : c.vars = .empty) (lines : List String) :
    (c.afterAll lines).values.textOf = variableText lines := by
  funext key
  rw [variableText_eq, ← afterAll_get? hc lines key]
  rfl

variable {s : Settings} {forest : List Node} {locale : String} {file : Option Path}

theorem get_afterAll_opened (hs : s.localization.languages ≠ []) (lines : List String)
    (id : String) :
    let c := (opened s forest locale file).afterAll lines
    c.translator.get c.values id = filled? s forest locale lines id := by
  intro c
  have hfollows := (follows_opened s forest locale file).afterAll lines
  have hvars : (opened s forest locale file).vars = .empty := rfl
  rw [hfollows.translator, Translator.get_start hs, textOf_afterAll hvars]
  rfl

theorem text_afterAll_opened (hs : s.localization.languages ≠ []) (lines : List String)
    (id : String) :
    let c := (opened s forest locale file).afterAll lines
    c.translator.text c.values id = reading? s forest locale lines id := by
  intro c
  have hexpand : c.translator.expand c.values = replaceAll "<ref:" fun key =>
      (filled? s forest locale lines key).getD ("<ref:" ++ key ++ ">") := by
    funext text
    rw [Translator.expand_eq_replaceAll]
    simp only [c, get_afterAll_opened hs]
  rw [Translator.text, get_afterAll_opened hs, hexpand]
  rfl

/-- Wherever `get` stands in a session on valid settings, it prints the reading of its id after the
lines before it, whatever the files are and whatever follows. -/
theorem handleAll_get {σ : Type} (files : Files (StateM σ)) (w : σ) {s : Settings}
    (hs : s.check = .ok ()) (forest : List Node) (locale : String) (file : Option Path)
    (before : List String) {line id : String} (hline : parse line = .ok (.get id))
    (rest : List String) :
    let lines := before ++ line :: rest
    (((opened s forest locale file).handleAll files lines).run w).1.2[before.length]? =
      some (.ok (some (.output ((reading? s forest locale before id).getD "(missing)")))) := by
  intro lines
  obtain ⟨hne, -, -⟩ := (Settings.check_eq_ok_iff s).1 hs
  obtain ⟨w', hreply⟩ := handleAll_reply files (opened s forest locale file) w before line rest
  rw [handle_of_parse files _ w' hline] at hreply
  rw [← text_afterAll_opened hne before id]
  exact hreply

/-- Two entries, one of them written twice. -/
def greetings : List Node :=
  [.entry "greeting" (.ofList [("de", "Hallo <ref:00000000000000b2>!"), ("en", "Hello")]),
    .group [.entry "00000000000000b2" (.ofList [("de", "Mond"), ("en", "moon")]),
      .entry "00000000000000b2" (.ofList [("de", "<global:00000000000000a1> Welt")])]]

/-- The later leaf and the later value count, and a line that is no command does not. -/
theorem handleAll_get_greetings :
    Settings.standard.check = .ok () ∧ parse "get greeting" = .ok (.get "greeting") ∧
    (((opened Settings.standard greetings "en-US" none).handleAll Directory.files
      ["lang de", "set 00000000000000a1 [1]", "set 00000000000000a1 neue", "reset", "get greeting",
        "lang en"]).run .empty).1.2[4]? = some (.ok (some (.output "Hallo neue Welt!"))) := by
  have valid : Settings.standard.check = .ok () := rfl
  have command : parse "get greeting" = .ok (.get "greeting") := rfl
  have reading : reading? Settings.standard greetings "en-US"
      ["lang de", "set 00000000000000a1 [1]", "set 00000000000000a1 neue", "reset"] "greeting" =
      some "Hallo neue Welt!" := by decide +kernel
  have printed := handleAll_get Directory.files .empty valid greetings "en-US" none
    ["lang de", "set 00000000000000a1 [1]", "set 00000000000000a1 neue", "reset"] command
    ["lang en"]
  rw [reading] at printed
  exact ⟨valid, command, printed⟩

end Console
end Phrasebook
