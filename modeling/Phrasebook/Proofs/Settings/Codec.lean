import Phrasebook.Proofs.Data.Shape
import Phrasebook.Proofs.Files.Path
import Phrasebook.Settings.Format

/-! Settings whose paths are texts have a document, and they come back from it, even if fields with
standard values are left out and fields of other names are added. -/
namespace Phrasebook
open Data

namespace Path

lemma toData?_eq_some_iff {path : Path} {d : Data} :
    path.toData? = some d ↔ ∃ text, path = ofText text ∧ .string text = d := by
  simp only [toData?, Option.map_eq_some_iff, text?_eq_some_iff]

lemma ne_null_of_toData? {path : Path} {d : Data} (h : path.toData? = some d) : d ≠ .null := by
  obtain ⟨text, -, rfl⟩ := toData?_eq_some_iff.1 h
  exact nofun

lemma readAs_toData? {path : Path} {d : Data} (h : path.toData? = some d) :
    ReadAs ofData? .plain d path := by
  obtain ⟨text, rfl, rfl⟩ := toData?_eq_some_iff.1 h
  exact (readAs_text text).map ofText

lemma readAs_optionalToData? {path : Option Path} {d : Data} (h : optionalToData? path = some d) :
    ReadAs optional? .plain d path := by
  cases path with
  | none =>
    cases h
    exact (readAs_optionalText none).map _
  | some path =>
    obtain ⟨text, rfl, rfl⟩ := toData?_eq_some_iff.1 h
    exact (readAs_optionalText (some text)).map _

end Path

namespace Language

def shape : Shape :=
  .record [("name", none, .plain), ("font", some (.string ""), .plain),
    ("scale", some (.single .one), .plain)]

theorem readAs_toData (positional : Bool) (l : Language) :
    ReadAs (ofData? positional) shape l.toData l := by
  intro d' d'' helided hs
  obtain ⟨fields, rfl, hfates⟩ := helided.fates hs
  simp only [List.forall_mem_cons] at hfates
  obtain ⟨hname, hfont, hscale, -⟩ := hfates
  have name := (hname _ rfl).required_eq (readAs_text l.name) nofun
  have font := (hfont _ rfl).standard_eq (readAs_text l.font) (readAs_text "") nofun
  have scale := (hscale _ rfl).standard_eq (readAs_single l.scale) (readAs_single .one) nofun
  simp only [ofData?, fields?, name, font, scale, Option.bind_eq_bind, Option.bind_some]
  rfl

end Language

lemma Request.readAs_text (code : String) :
    ReadAs Request.ofData? .plain (.string (Request.ofText code).text) (.ofText code) := by
  refine readAs_plain fun d h => ?_
  rw [Request.ofData?, h.text?, Option.map_some, Request.ofText_text_ofText]

namespace Localization

def shape : Shape :=
  .record [("language", some (.string standard.language.text), .plain),
    ("languages", some (.list (standard.languages.map Language.toData)), .list Language.shape),
    ("remap", some (.record (standard.remap.entries.map fun (k, v) => (k, .string v))), .plain),
    ("break_anywhere", some (.list (standard.breakAnywhere.map .string)), .list .plain),
    ("catalog", standard.catalog.toData?, .plain)]

lemma toData?_eq_some_iff {l : Localization} {d : Data} :
    l.toData? = some d ↔ ∃ catalog, l.catalog.toData? = some catalog ∧
      .record [("language", .string l.language.text),
        ("languages", .list (l.languages.map Language.toData)),
        ("remap", .record (l.remap.entries.map fun (k, v) => (k, .string v))),
        ("break_anywhere", .list (l.breakAnywhere.map .string)), ("catalog", catalog)] = d := by
  simp only [toData?, Option.bind_eq_bind, Option.bind_eq_some_iff, Option.pure_def,
    Option.some.injEq]

lemma toData?_eq_none_iff {l : Localization} : l.toData? = none ↔ l.catalog.text? = none := by
  cases h : l.catalog.text? <;> simp [toData?, Path.toData?, h]

lemma ne_null_of_toData? {l : Localization} {d : Data} (h : l.toData? = some d) : d ≠ .null := by
  obtain ⟨path, -, rfl⟩ := toData?_eq_some_iff.1 h
  exact nofun

lemma toData?_catalog_standard : standard.catalog.toData? = some (.string "catalog.json") :=
  Path.toData?_eq_some_iff.2 ⟨"catalog.json", rfl, rfl⟩

theorem readAs_toData? (positional : Bool) {l : Localization} {code : String}
    (hlanguage : l.language = .ofText code) {d : Data} (hd : l.toData? = some d) :
    ReadAs (ofData? positional) shape d l := by
  obtain ⟨path, hpath, rfl⟩ := toData?_eq_some_iff.1 hd
  intro d' d'' helided hs
  obtain ⟨fields, rfl, hfates⟩ := helided.fates hs
  simp only [List.forall_mem_cons] at hfates
  obtain ⟨hrequest, hlist, htable, htexts, hcatalog, -⟩ := hfates
  have readsLanguages (ls : List Language) :=
    readAs_list fun l (_ : l ∈ ls) => Language.readAs_toData positional l
  have readsRequest := hlanguage ▸ Request.readAs_text code
  have language := (hrequest _ rfl).standard_eq readsRequest (Request.readAs_text "auto") nofun
  have languages := (hlist _ rfl).standard_eq (readsLanguages l.languages)
    (readsLanguages standard.languages) nofun
  have remap := (htable _ rfl).standard_eq (readAs_table l.remap) (readAs_table standard.remap) nofun
  have breakAnywhere := (htexts _ rfl).standard_eq (readAs_texts l.breakAnywhere)
    (readAs_texts standard.breakAnywhere) nofun
  rw [toData?_catalog_standard] at hcatalog
  have catalog := (hcatalog _ rfl).standard_eq (Path.readAs_toData? hpath)
    (Path.readAs_toData? toData?_catalog_standard)
    fun hnull => absurd hnull (Path.ne_null_of_toData? hpath)
  have standardRequest : Request.ofText "auto" = standard.language := rfl
  rw [standardRequest] at language
  simp only [ofData?, fields?, language, languages, remap, breakAnywhere, catalog,
    Option.bind_eq_bind, Option.bind_some]
  rfl

end Localization

namespace Logging

def shape : Shape :=
  .record [("level", some (.string standard.level), .plain),
    ("json", some (.bool standard.json), .plain), ("directory", some .null, .plain)]

lemma toData?_eq_some_iff {l : Logging} {d : Data} :
    l.toData? = some d ↔ ∃ directory, Path.optionalToData? l.directory = some directory ∧
      .record [("level", .string l.level), ("json", .bool l.json), ("directory", directory)] = d := by
  simp only [toData?, Option.bind_eq_bind, Option.bind_eq_some_iff, Option.pure_def,
    Option.some.injEq]

lemma toData?_eq_none_iff {l : Logging} :
    l.toData? = none ↔ ∃ path ∈ l.directory, path.text? = none := by
  cases h : l.directory with
  | none => simp [toData?, Path.optionalToData?, h]
  | some path =>
    cases htext : path.text? <;> simp [toData?, Path.optionalToData?, Path.toData?, h, htext]

lemma toData?_directory_standard : Path.optionalToData? standard.directory = some .null := rfl

lemma ne_null_of_toData? {l : Logging} {d : Data} (h : l.toData? = some d) : d ≠ .null := by
  obtain ⟨path, -, rfl⟩ := toData?_eq_some_iff.1 h
  exact nofun

theorem readAs_toData? (positional : Bool) {l : Logging} {d : Data} (hd : l.toData? = some d) :
    ReadAs (ofData? positional) shape d l := by
  obtain ⟨path, hpath, rfl⟩ := toData?_eq_some_iff.1 hd
  intro d' d'' helided hs
  obtain ⟨fields, rfl, hfates⟩ := helided.fates hs
  simp only [List.forall_mem_cons] at hfates
  obtain ⟨hlevel, hjson, hdirectory, -⟩ := hfates
  have level := (hlevel _ rfl).standard_eq (readAs_text l.level) (readAs_text standard.level) nofun
  have json := (hjson _ rfl).standard_eq (readAs_bool l.json) (readAs_bool standard.json) nofun
  have directory := (hdirectory _ rfl).standard_eq (Path.readAs_optionalToData? hpath)
    (Path.readAs_optionalToData? toData?_directory_standard) fun _ => rfl
  simp only [ofData?, fields?, level, json, Option.bind_eq_bind, Option.bind_some]
  exact directory ▸ rfl

end Logging

namespace Settings

/-- What may be left out of settings: both sections, each of their fields, and the font and the scale
of each language. -/
def shape : Shape :=
  .record [("localization", Localization.standard.toData?, Localization.shape),
    ("logging", Logging.standard.toData?, Logging.shape)]

lemma toData?_eq_some_iff {s : Settings} {d : Data} :
    s.toData? = some d ↔ ∃ localization, s.localization.toData? = some localization ∧
      ∃ logging, s.logging.toData? = some logging ∧
        .record [("localization", localization), ("logging", logging)] = d := by
  simp only [toData?, Option.bind_eq_bind, Option.bind_eq_some_iff, Option.pure_def,
    Option.some.injEq]

/-- The paths that settings name. -/
def paths (s : Settings) : List Path := s.localization.catalog :: s.logging.directory.toList

/-- Nothing but a path keeps settings from being written. -/
theorem toData?_eq_none_iff {s : Settings} :
    s.toData? = none ↔ ∃ path ∈ s.paths, path.text? = none := by
  have heither : s.toData? = none ↔ s.localization.toData? = none ∨ s.logging.toData? = none := by
    cases h : s.localization.toData? <;> cases h' : s.logging.toData? <;> simp [toData?, h, h']
  rw [heither, Localization.toData?_eq_none_iff, Logging.toData?_eq_none_iff]
  simp [paths]

lemma exists_toData?_standard : ∃ localization logging,
    Localization.standard.toData? = some localization ∧ Logging.standard.toData? = some logging :=
  ⟨_, _, Localization.toData?_eq_some_iff.2 ⟨_, Localization.toData?_catalog_standard, rfl⟩, rfl⟩

theorem readAs_toData? (positional : Bool) {s : Settings} {code : String}
    (hlanguage : s.localization.language = .ofText code) {d : Data} (hd : s.toData? = some d) :
    ReadAs (ofData? positional) shape d s := by
  obtain ⟨first, hfirst, second, hsecond, rfl⟩ := toData?_eq_some_iff.1 hd
  obtain ⟨first₀, second₀, hfirst₀, hsecond₀⟩ := exists_toData?_standard
  intro d' d'' helided hs
  obtain ⟨fields, rfl, hfates⟩ := helided.fates hs
  simp only [List.forall_mem_cons] at hfates
  rw [hfirst₀, hsecond₀] at hfates
  obtain ⟨hlocalization, hlogging, -⟩ := hfates
  have hauto : Localization.standard.language = .ofText "auto" := rfl
  have localization := (hlocalization _ rfl).standard_eq
    (Localization.readAs_toData? positional hlanguage hfirst)
    (Localization.readAs_toData? positional hauto hfirst₀)
    fun hnull => absurd hnull (Localization.ne_null_of_toData? hfirst)
  have logging := (hlogging _ rfl).standard_eq (Logging.readAs_toData? positional hsecond)
    (Logging.readAs_toData? positional hsecond₀)
    fun hnull => absurd hnull (Logging.ne_null_of_toData? hsecond)
  simp only [ofData?, fields?, localization, logging, Option.bind_eq_bind, Option.bind_some]
  rfl

namespace Format

/-- The text spells the data, as far as a format preserves it. -/
def Reads (f : Format) (text : String) (d : Data) : Prop :=
  ∃ d', f.document? text = some d' ∧ d'.Spells d

lemma render?_eq_some {f : Format} {s : Settings} {written : Data} (h : s.toData? = some written) :
    f.render? s = some (f.print written) := by
  rw [render?, h, Option.map_some]

theorem render?_eq_none_iff {f : Format} {s : Settings} :
    f.render? s = none ↔ ∃ path ∈ s.paths, path.text? = none := by
  rw [render?, Option.map_eq_none_iff, toData?_eq_none_iff]

section Reading

variable {s : Settings} {code : String} (hlanguage : s.localization.language = .ofText code)
  {written : Data} (hwritten : s.toData? = some written)
include hlanguage hwritten

lemma parse?_of_reads (f : Format) {d : Data} {text : String} (helided : Elided shape written d)
    (hreads : f.Reads text d) : f.parse? text = some s := by
  obtain ⟨d', hdocument, hspells⟩ := hreads
  rw [parse?, hdocument, Option.bind_some]
  exact readAs_toData? f.positional hlanguage hwritten d d' helided hspells

lemma parse?_of_written (f : Format) {text : String} (hreads : f.Reads text written) :
    f.parse? text = some s :=
  parse?_of_reads hlanguage hwritten f (elided_refl shape written) hreads

end Reading

/-- Settings whose paths are texts have data. Whatever is left out of it, and whatever is added to it,
the settings are read from a text that spells the rest; so they are read from the text they are
rendered to. -/
theorem parse?_of_elided (f : Format) {s : Settings} {code : String}
    (hlanguage : s.localization.language = .ofText code) :
    (f.render? s = none ↔ ∃ path ∈ s.paths, path.text? = none) ∧
      ∀ written, s.toData? = some written →
        (∀ d text, Elided shape written d → f.Reads text d → f.parse? text = some s) ∧
          ∃ text, f.render? s = some text ∧ (f.Reads text written → f.parse? text = some s) :=
  ⟨render?_eq_none_iff, fun _ hwritten =>
    ⟨fun _ _ helided hreads => parse?_of_reads hlanguage hwritten f helided hreads,
      _, render?_eq_some hwritten, parse?_of_written hlanguage hwritten f⟩⟩

/-- Settings with a few values of their own. -/
def courier : Settings where
  localization := ⟨.ofText "de", [⟨"de", "Serif", .one⟩], .ofList [("de-AT", "de")], [],
    "catalog.json"⟩
  logging := .standard

/-- What they are written as. -/
def courierData : Data :=
  .record [
    ("localization", .record [("language", .string "de"),
      ("languages", .list [Language.toData ⟨"de", "Serif", .one⟩]),
      ("remap", .record [("de-AT", .string "de")]), ("break_anywhere", .list []),
      ("catalog", .string "catalog.json")]),
    ("logging", .record [("level", .string "info"), ("json", .bool false), ("directory", .null)])]

lemma toData?_courier : courier.toData? = some courierData := by decide +kernel

/-- The second section is left out, and so are the catalog and a scale; two fields are added. -/
def sparse : Data :=
  .record [("localization", .record [("language", .string "de"), ("theme", .string "dark"),
    ("languages", .list [.record [("font", .string "Serif"), ("since", .int 3),
      ("name", .string "de")]]),
    ("remap", .record [("de-AT", .string "de")]), ("break_anywhere", .list [])])]

/-- A text of that data. -/
def sparseText : String :=
  "[localization]\nlanguage = 'de'\ntheme = 'dark'\nbreak_anywhere = []\n" ++
    "languages = [\x7bfont = 'Serif', since = 3, name = 'de'\x7d]\nremap = \x7bde-AT = 'de'\x7d\n"

lemma elided_sparse : Elided shape courierData sparse := by
  have language : Elided Language.shape (Language.toData ⟨"de", "Serif", .one⟩)
      (.record [("font", .string "Serif"), ("since", .int 3), ("name", .string "de")]) :=
    ⟨.kept rfl rfl (elided_refl ..), .kept rfl rfl (elided_refl ..), .leftOut rfl rfl rfl, trivial⟩
  exact ⟨.kept rfl rfl ⟨.kept rfl rfl (elided_refl ..), .kept rfl rfl (.cons language .nil),
    .kept rfl rfl (elided_refl ..), .kept rfl rfl (elided_refl ..),
    .leftOut rfl rfl Localization.toData?_catalog_standard, trivial⟩, .leftOut rfl rfl rfl, trivial⟩

/-- The fields of a record may stand in any order. -/
lemma reads_sparse : Format.toml.Reads sparseText sparse := by
  have languages := Spells.same (.list [.record [("font", .string "Serif"), ("since", .int 3),
    ("name", .string "de")]])
  have remap := Spells.same (.record [("de-AT", .string "de")])
  have localization : SpelledFields Spells [("language", _), ("theme", _), ("break_anywhere", _),
      ("languages", _), ("remap", _)] [("language", _), ("theme", _), ("break_anywhere", _),
      ("languages", _), ("remap", _)] :=
    .cons (.same (.string "de")) (.cons (.same (.string "dark")) (.cons (.same (.list []))
      (.cons languages (.cons remap .nil))))
  exact ⟨_, by decide +kernel,
    .record (.cons (.record localization (by decide)) .nil) (.refl [("localization", _)])⟩

/-- Numbers are read in binary64, and what has no value is omitted. -/
lemma reads_courierData : Format.toml.Reads (Format.toml.print courierData) courierData := by
  have number : Spells (.double (.ofInt 1)) (.single .one) := .number (x := .one) (by decide) rfl
  have language : Spells (.record [("name", .string "de"), ("font", .string "Serif"),
      ("scale", .double (.ofInt 1))]) (Language.toData ⟨"de", "Serif", .one⟩) :=
    .record (.cons (.same _) (.cons (.same _) (.cons number .nil))) (.refl _)
  have languages := Spells.list (.cons language .nil)
  have remap := Spells.same (.record [("de-AT", .string "de")])
  have localization : SpelledFields Spells [("language", _), ("break_anywhere", _), ("catalog", _),
      ("languages", _), ("remap", _)] [("language", _), ("break_anywhere", _), ("catalog", _),
      ("languages", _), ("remap", _)] :=
    .cons (.same (.string "de")) (.cons (.same (.list [])) (.cons (.same (.string "catalog.json"))
      (.cons languages (.cons remap .nil))))
  have logging : SpelledFields Spells [("level", _), ("json", _)]
      [("level", _), ("json", _), ("directory", _)] :=
    .cons (.same (.string "info")) (.cons (.same (.bool false)) (.omitted .nil))
  exact ⟨_, by decide +kernel, .record (.cons (.record localization (by decide +kernel))
    (.cons (.record logging (.refl _)) .nil)) (.refl _)⟩

theorem parse?_of_elided_courier :
    courier.localization.language = .ofText "de" ∧ courier.toData? = some courierData ∧
      Elided shape courierData sparse ∧ Format.toml.Reads sparseText sparse ∧
      Format.toml.parse? sparseText = some courier ∧
      ∃ text, Format.toml.render? courier = some text ∧ Format.toml.Reads text courierData ∧
        Format.toml.parse? text = some courier := by
  have request : courier.localization.language = .ofText "de" := rfl
  obtain ⟨-, written⟩ := Format.toml.parse?_of_elided request
  obtain ⟨elided, text, rendered, whole⟩ := written courierData toData?_courier
  have reads : Format.toml.Reads text courierData := by
    cases (render?_eq_some toData?_courier).symm.trans rendered
    exact reads_courierData
  exact ⟨request, toData?_courier, elided_sparse, reads_sparse,
    elided sparse sparseText elided_sparse reads_sparse, text, rendered, reads, whole reads⟩

end Format
end Settings
end Phrasebook
