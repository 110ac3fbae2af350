import Phrasebook.Language
import Phrasebook.Locale

/-! The choice of a configured language for a request. -/
namespace Phrasebook

/-- The configured languages, the first of which is the last resort, and other names of locales. -/
structure Offer where
  languages : List Language
  aliases : Dict String
  deriving DecidableEq

namespace Offer
open Phrasebook.Locale

/-- How many subtags of the locale occur in the name, wherever they stand. -/
def weight (locale name : String) : Nat :=
  (subtags locale).countP fun s => (subtags name).contains s

/-- A later language has to weigh more to take the place of an earlier one. -/
def better (locale : String) (best : Option Language × Nat) (l : Language) :
    Option Language × Nat :=
  if primary l.name = primary locale ∧ best.2 < weight locale l.name then
    (some l, weight locale l.name)
  else best

/-- Of the languages with the locale's first subtag, the earliest one of the greatest weight. -/
def bestMatch (locale : String) (languages : List Language) : Option Language :=
  (languages.foldl (better locale) (none, 0)).1

/-- Without any language one is made up under the wanted name. -/
def lastResort (o : Offer) (wanted : String) : Language :=
  match o.languages with
  | first :: _ => first
  | [] => .named wanted

/-- The locale after one look into the table of aliases. -/
def aliased (o : Offer) (locale : String) : String := (o.aliases.get? locale).getD locale

/-- The language for a request; the locale counts only for an automatic one. -/
def choose (o : Offer) (locale : String) : Request → Language
  | .explicit code => (o.languages.find? fun l => l.name == code).getD (o.lastResort code)
  | .auto => (bestMatch (o.aliased locale) o.languages).getD (o.lastResort (o.aliased locale))

end Offer
end Phrasebook
