import Phrasebook.Json.Basic

/-! Live variables. Each read of a text looks up the current value behind every key in it; a variable
holds a JSON value, and `null` counts as no value. -/
namespace Phrasebook

/-- Where the current value behind a key is found, and the text that stands for a missing one. -/
structure Values (m : Type → Type) where
  lookup : String → m (Option String)
  undefined : String

namespace Values

def ofDict (d : Dict String) (undefined : String) : Values Id := ⟨fun key => d.get? key, undefined⟩

/-- The same values, noting each key that is looked up. -/
def recorded {m : Type → Type} [Monad m] (v : Values m) : Values (StateT (List String) m) :=
  ⟨fun key asked => do return (← v.lookup key, asked ++ [key]), v.undefined⟩

end Values

abbrev Variables := Dict Json

namespace Variables

/-- The text of a value inside another text: a string as it is, all else in its JSON form. -/
def embedded : Json → Option String
  | .null => none
  | .string s => some s
  | v => some v.text

def set (d : Variables) (key : String) (value : Json) : Variables := d.insert key value.canonical

def lookup (d : Variables) (key : String) : Option String := (d.get? key).bind embedded

def values (d : Variables) (undefined : String) : Values Id := ⟨d.lookup, undefined⟩

end Variables
end Phrasebook
