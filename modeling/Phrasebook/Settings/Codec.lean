import Phrasebook.Data.Scalar
import Phrasebook.Settings.Basic

/-! Settings as data. A field that is left out has its standard value and a field of another name is
skipped, so data written for other settings can be read. Settings are written only if their paths are
texts. -/
namespace Phrasebook
open Decimal Data

namespace Path

def ofData? (d : Data) : Option Path := d.text?.map ofText

/-- A path that may be left out. -/
def optional? (d : Data) : Option (Option Path) := d.optionalText?.map fun text => text.map ofText

def toData? (path : Path) : Option Data := path.text?.map .string

def optionalToData? : Option Path → Option Data
  | none => some .null
  | some path => path.toData?

end Path

namespace Language

def fieldNames : List String := ["name", "font", "scale"]

/-- A language has a name; its font and its scale may be left out. -/
def ofData? (positional : Bool) (d : Data) : Option Language := do
  let fields ← d.fields? positional fieldNames
  return {
    name := ← field "name" text? none fields
    font := ← field "font" text? (some "") fields
    scale := ← field "scale" single? (some .one) fields }

def toData (l : Language) : Data :=
  .record [("name", .string l.name), ("font", .string l.font), ("scale", .single l.scale)]

end Language

def Request.ofData? (d : Data) : Option Request := d.text?.map Request.ofText

namespace Localization

def fieldNames : List String := ["language", "languages", "remap", "break_anywhere", "catalog"]

def ofData? (positional : Bool) (d : Data) : Option Localization := do
  let fields ← d.fields? positional fieldNames
  return {
    language := ← field "language" Request.ofData? (some standard.language) fields
    languages := ← field "languages"
      (fun d => d.items?.bind (·.mapM (Language.ofData? positional))) (some standard.languages) fields
    remap := ← field "remap" table? (some standard.remap) fields
    breakAnywhere := ← field "break_anywhere" texts? (some standard.breakAnywhere) fields
    catalog := ← field "catalog" Path.ofData? (some standard.catalog) fields }

def toData? (l : Localization) : Option Data := do
  let catalog ← l.catalog.toData?
  return .record [("language", .string l.language.text),
    ("languages", .list (l.languages.map Language.toData)),
    ("remap", .record (l.remap.entries.map fun (k, v) => (k, .string v))),
    ("break_anywhere", .list (l.breakAnywhere.map .string)),
    ("catalog", catalog)]

end Localization

namespace Logging

def fieldNames : List String := ["level", "json", "directory"]

def ofData? (positional : Bool) (d : Data) : Option Logging := do
  let fields ← d.fields? positional fieldNames
  return {
    level := ← field "level" text? (some standard.level) fields
    json := ← field "json" bool? (some standard.json) fields
    directory := ← field "directory" Path.optional? (some standard.directory) fields }

def toData? (l : Logging) : Option Data := do
  let directory ← Path.optionalToData? l.directory
  return .record [("level", .string l.level), ("json", .bool l.json), ("directory", directory)]

end Logging

namespace Settings

def fieldNames : List String := ["localization", "logging"]

def ofData? (positional : Bool) (d : Data) : Option Settings := do
  let fields ← d.fields? positional fieldNames
  return {
    localization := ← field "localization" (Localization.ofData? positional) (some .standard) fields
    logging := ← field "logging" (Logging.ofData? positional) (some .standard) fields }

def toData? (s : Settings) : Option Data := do
  let localization ← s.localization.toData?
  let logging ← s.logging.toData?
  return .record [("localization", localization), ("logging", logging)]

end Settings
end Phrasebook
