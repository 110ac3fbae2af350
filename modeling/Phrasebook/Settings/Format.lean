import Phrasebook.Json.Document
import Phrasebook.Settings.Codec
import Phrasebook.Toml.Document
import Phrasebook.Toml.Printer
import Phrasebook.Yaml.Document
import Phrasebook.Yaml.Printer

/-! The formats in which settings are kept. The extension of a file's name tells its format. -/
namespace Phrasebook.Settings

inductive Format where
  | yaml
  | toml
  | json
  deriving DecidableEq, Repr

namespace Format

def name : Format → String
  | .yaml => "yaml"
  | .toml => "toml"
  | .json => "json"

def ofExtension? (e : String) : Option Format :=
  if e = "yaml" || e = "yml" then some .yaml
  else if e = "toml" then some .toml
  else if e = "json" then some .json
  else none

def ofPath? (path : Path) : Option Format := do
  ofExtension? (← Text.ofBytes? (← path.extension?))

/-- Whether a list may stand for a record. -/
def positional : Format → Bool
  | .yaml => false
  | _ => true

/-- The data that a text spells. -/
def document? : Format → String → Option Data
  | .json, text => Json.document? text
  | .yaml, text => Yaml.document? text
  | .toml, text => Toml.document? text

def print : Format → Data → String
  | .json, d => Json.pretty 0 d
  | .yaml, d => Yaml.print d
  | .toml, d => Toml.print d

def parse? (f : Format) (text : String) : Option Settings :=
  (f.document? text).bind (Settings.ofData? f.positional)

/-- The text of settings; those with a path that is no text have none. -/
def render? (f : Format) (s : Settings) : Option String := s.toData?.map f.print

end Format
end Phrasebook.Settings
