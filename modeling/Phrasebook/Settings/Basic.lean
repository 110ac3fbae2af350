import Phrasebook.Files.Path
import Phrasebook.Language

/-! The settings of the program and their defaults. -/
namespace Phrasebook
open Decimal

structure Localization where
  language : Request
  /-- In order of preference; the first is the last resort. -/
  languages : List Language
  /-- Other names of locales. -/
  remap : Dict String
  breakAnywhere : List String
  /-- The path of the phrasebook's source. -/
  catalog : Path
  deriving DecidableEq

structure Logging where
  level : String
  json : Bool
  directory : Option Path
  deriving DecidableEq

structure Settings where
  localization : Localization
  logging : Logging
  deriving DecidableEq

def Localization.language? (l : Localization) (name : String) : Option Language :=
  l.languages.find? fun x => x.name == name

def Localization.standard : Localization where
  language := .auto
  languages := [⟨"en", "Noto Sans", .one⟩, ⟨"fr", "Noto Sans", .one⟩, ⟨"de", "Noto Sans", .one⟩,
    ⟨"ja", "Noto Sans JP", .one⟩, ⟨"zh-CN", "Noto Sans SC", .one⟩, ⟨"zh-TW", "Noto Sans TC", .one⟩]
  remap := .ofList [("zh-HK", "zh-TW"), ("zh-MO", "zh-TW"), ("zh-Hant", "zh-TW"),
    ("zh-Hant-TW", "zh-TW"), ("zh-Hant-HK", "zh-TW"), ("zh-Hant-MO", "zh-TW"),
    ("zh-SG", "zh-CN"), ("zh-Hans", "zh-CN"), ("zh-Hans-CN", "zh-CN"), ("zh-Hans-SG", "zh-CN")]
  breakAnywhere := ["zh", "zh-CN", "zh-TW", "ja"]
  catalog := "catalog.json"

def Logging.standard : Logging := ⟨"info", false, none⟩

namespace Settings

def standard : Settings := ⟨.standard, .standard⟩

instance : Inhabited Settings := ⟨standard⟩

def withLanguage (s : Settings) (r : Request) : Settings :=
  { s with localization := { s.localization with language := r } }

def languages (s : Settings) : List Language := s.localization.languages

def withLanguages (s : Settings) (ls : List Language) : Settings :=
  { s with localization := { s.localization with languages := ls } }

/-- The same values, where a scale that is no number equals none. -/
def agrees (a b : Settings) : Bool :=
  a.withLanguages [] == b.withLanguages [] && a.languages.length == b.languages.length &&
    (a.languages.zip b.languages).all fun (x, y) => x.agrees y

end Settings
end Phrasebook
