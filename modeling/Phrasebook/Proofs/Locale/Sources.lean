import Mathlib.Data.List.ReduceOption
import Phrasebook.Proofs.Locale

/-! The locale that is reported. Its sources are looked at in turn, and one whose name has no normal form
is passed over like one that holds no name. Whatever they hold, the tag has nothing but hyphens between
its parts. -/
namespace Phrasebook.Locale
open Text

/-- The names that are held for the locale, most important first. -/
def sources (platform : Option String) (env : Environment) : List String :=
  [platform, env.get? "LC_ALL", env.get? "LANG"].reduceOption

section Resolution

variable {platform : Option String} {env : Environment}

/-- The platform's report and the variables are looked through as one list. -/
theorem resolve_eq_findSome? (platform : Option String) (env : Environment) :
    resolve platform env = ((sources platform env).findSome? normalize?).getD fallback := by
  cases platform with
  | none => rfl
  | some raw =>
    rw [resolve, sources, List.reduceOption_cons_of_some, List.findSome?_cons, Option.bind_some]
    cases normalize? raw with
    | none => rfl
    | some tag => rfl

theorem resolve_eq_iff {tag : String} : resolve platform env = tag ↔
    (∃ before raw after, sources platform env = before ++ raw :: after ∧
      normalize? raw = some tag ∧ ∀ skipped ∈ before, normalize? skipped = none) ∨
    (∀ raw ∈ sources platform env, normalize? raw = none) ∧ tag = fallback := by
  rw [resolve_eq_findSome?, Option.getD_eq_iff, List.findSome?_eq_some_iff,
    List.findSome?_eq_none_iff, eq_comm (a := fallback)]

/-- What holds of all normal forms and of the fallback holds of the reported tag. -/
theorem resolve_induction {motive : String → Prop}
    (hform : ∀ raw tag, normalize? raw = some tag → motive tag) (hfallback : motive fallback) :
    motive (resolve platform env) := by
  rcases resolve_eq_iff.1 (rfl : resolve platform env = _) with ⟨-, raw, -, -, hraw, -⟩ | ⟨-, heq⟩
  · exact hform raw _ hraw
  · rw [heq]
    exact hfallback

lemma resolve_usable : resolve platform env ≠ "" ∧ resolve platform env ≠ "C" ∧
    resolve platform env ≠ "POSIX" := by
  refine resolve_induction (motive := fun tag => tag ≠ "" ∧ tag ≠ "C" ∧ tag ≠ "POSIX") ?_ (by decide)
  intro raw tag h
  exact (normalize?_eq_some_iff_isWritten.1 h).1

theorem isPlain_resolve : IsPlain (resolve platform env).toList := by
  refine resolve_induction (motive := fun tag => IsPlain tag.toList) ?_ (by decide)
  intro raw tag h
  exact isPlain_of_normalize? h

end Resolution

/-- The reported tag is the normal form of the earliest name that has one, among the platform's report,
`LC_ALL` and `LANG`, and English if none of them has. The normal form is what is written of a name before
an encoding or a modifier, with hyphens for underscores, unless that is nothing or the name of no locale.
So the reported tag is neither, and the subtags between its hyphens hold no encoding, no modifier and no
underscore. -/
theorem resolve_earliest (platform : Option String) (env : Environment) :
    let names := [platform, env.get? "LC_ALL", env.get? "LANG"].reduceOption
    let reported := resolve platform env
    (∀ tag, reported = tag ↔
      (∃ before raw after, names = before ++ raw :: after ∧
        normalize? raw = some tag ∧ ∀ skipped ∈ before, normalize? skipped = none) ∨
      (∀ raw ∈ names, normalize? raw = none) ∧ tag = "en") ∧
    (∀ raw tag, normalize? raw = some tag ↔
      (tag ≠ "" ∧ tag ≠ "C" ∧ tag ≠ "POSIX") ∧
      ∃ name, IsUnmarked name ∧ IsWritten name raw.toList ∧ tag.toList = hyphenated name) ∧
    (reported ≠ "" ∧ reported ≠ "C" ∧ reported ≠ "POSIX") ∧
    IsPlain reported.toList ∧
    (subtags reported ≠ [] ∧ (∀ part ∈ subtags reported, '-' ∉ part.toList) ∧
      "-".intercalate (subtags reported) = reported) ∧
    ∀ part ∈ subtags reported, IsPlain part.toList := by
  intro names reported
  have hplain : IsPlain reported.toList := isPlain_resolve
  exact ⟨fun _ => resolve_eq_iff, fun _ _ => normalize?_eq_some_iff_isWritten, resolve_usable, hplain,
    subtags_eq_iff.1 rfl, hplain.subtags⟩

/-- A variable that names no locale before one that names Portuguese. -/
def brazilian : Environment := .ofList [("LANG", " pt_BR.UTF-8\n"), ("LC_ALL", "C.UTF-8")]

/-- The platform's report and the first variable are passed over. Where no name is held the tag is the
fallback. -/
theorem resolve_earliest_brazilian :
    resolve (some "POSIX ") brazilian = "pt-BR" ∧
    (∀ part ∈ subtags (resolve (some "POSIX ") brazilian), IsPlain part.toList) ∧
    resolve none ∅ = "en" := by
  have held : sources (some "POSIX ") brazilian =
      ["POSIX ", "C.UTF-8"] ++ " pt_BR.UTF-8\n" :: [] := by decide +kernel
  have usable : normalize? " pt_BR.UTF-8\n" = some "pt-BR" := by decide +kernel
  have passed : ∀ skipped ∈ ["POSIX ", "C.UTF-8"], normalize? skipped = none := by decide +kernel
  obtain ⟨decided, -, -, -, -, parts⟩ := resolve_earliest (some "POSIX ") brazilian
  obtain ⟨undecided, -⟩ := resolve_earliest none ∅
  exact ⟨(decided _).2 (.inl ⟨_, _, _, held, usable, passed⟩), parts,
    (undecided _).2 (.inr ⟨List.forall_mem_nil _, rfl⟩)⟩

end Phrasebook.Locale
