import Phrasebook.Dict
import Phrasebook.Text.Blank

/-! Locale tags: subtags between hyphens, the normal form of a locale name, and the locale that the
environment reports. -/
namespace Phrasebook.Locale
open Text

def subtags (tag : String) : List String :=
  (splitAll (· == '-') tag.toList).map String.ofList

def primary (tag : String) : String := (subtags tag).headD ""

/-- The text before the encoding or the modifier. -/
def base (cs : List Char) : List Char := cs.takeWhile fun c => c != '.' && c != '@'

def hyphenated (cs : List Char) : List Char := cs.map fun c => if c = '_' then '-' else c

def isUsable (tag : String) : Bool := tag != "" && tag != "C" && tag != "POSIX"

/-- A name without its encoding and modifier and with hyphens between its parts; the names of no
locale have none. -/
def normalize? (raw : String) : Option String :=
  let tag := String.ofList (hyphenated (base (trim raw.toList)))
  if isUsable tag then some tag else none

def fallback : String := "en"

/-- Environment variables by name. -/
abbrev Environment := Dict String

/-- The first usable one of the platform's report, `LC_ALL` and `LANG`. -/
def resolve (platform : Option String) (env : Environment) : String :=
  (platform.bind normalize?).getD
    (((["LC_ALL", "LANG"].filterMap env.get?).findSome? normalize?).getD fallback)

/-- The environment variables that name the platform's locale, most important first. -/
def platformVariables : List String := ["LC_ALL", "LC_MESSAGES", "LANG"]

/-- What the platform reports: the first of the preferred languages, or else the first variable
that is not empty. -/
def platform? (env : Environment) : Option String :=
  let preferred := (env.get? "LANGUAGE").bind fun s =>
    if s = "" then none else (splitAll (· == ':') s.toList).head?
  let others := platformVariables.filterMap fun name => (env.get? name).map String.toList
  let first := match preferred with
    | some cs => some cs
    | none => others.find? fun cs => !cs.isEmpty
  first.map fun cs => String.ofList (hyphenated (base cs))

def system (env : Environment) : String := resolve (platform? env) env

theorem primary_eq (tag : String) : primary tag = (subtags tag).headD "" := rfl

end Phrasebook.Locale
