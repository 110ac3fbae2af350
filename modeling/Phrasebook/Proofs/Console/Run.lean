import Mathlib.Tactic.Lemma
import Phrasebook.Console

/-! Runs of the console over any number of lines. Only `save` touches files, and it leaves the console
as it is, so the console after a line is a function of the line and the console before it. -/
namespace Phrasebook.Console
open Text

/-- What a line is answered with. -/
abbrev Reply := Except LineError (Option Outcome)

/-- Runs lines one after the other, those after a `quit` too. -/
def handleAll {m : Type → Type} [Monad m] (files : Files m) (c : Console) :
    List String → m (Console × List Reply)
  | [] => pure (c, [])
  | line :: rest => do
    let (c, reply) ← c.handle files line
    let (c, replies) ← handleAll files c rest
    return (c, reply :: replies)

def afterCommand (c : Console) : Command → Console
  | .lang r => (c.select r).1
  | .set key value => { c with vars := c.vars.set key value }
  | _ => c

/-- The console after a line; one that is no command changes nothing. -/
def after (c : Console) (line : String) : Console :=
  match Command.parse line with
  | .ok command => c.afterCommand command
  | .error _ => c

def afterAll (c : Console) (lines : List String) : Console := lines.foldl after c

@[simp] lemma afterAll_cons (c : Console) (line : String) (rest : List String) :
    c.afterAll (line :: rest) = (c.after line).afterAll rest := rfl

lemma after_of_parse {c : Console} {line : String} {command : Command}
    (h : Command.parse line = .ok command) : c.after line = c.afterCommand command := by
  simp only [after, h]

/-- A blank line has the empty verb. -/
lemma parse_of_blank {line : String} (h : (trim line.toList).isEmpty) :
    Command.parse line = .error (.unknown "") := by
  have hempty : trim line.toList = [] := List.isEmpty_iff.1 h
  simp only [Command.parse, hempty, Command.splitVerb, splitBlank]
  rfl

section World

variable {σ : Type} (files : Files (StateM σ)) (c : Console) (w : σ)

theorem handle_of_parse {line : String} {command : Command}
    (h : Command.parse line = .ok command) :
    (c.handle files line).run w =
      (((((c.execute files command).run w).1.1, ((c.execute files command).run w).1.2.map some) :
        Console × Reply), ((c.execute files command).run w).2) := by
  have hblank : ¬ (trim line.toList).isEmpty := by
    intro hb
    rw [parse_of_blank hb] at h
    cases h
  simp only [handle, hblank, h]
  rfl

theorem execute_console (command : Command) :
    ((c.execute files command).run w).1.1 = c.afterCommand command := by
  cases command <;> rfl

/-- Whatever the files are and do, a line leaves the same console. -/
theorem handle_console (line : String) :
    ((c.handle files line).run w).1.1 = c.after line := by
  cases hp : Command.parse line with
  | ok command =>
    rw [handle_of_parse files c w hp, after_of_parse hp]
    exact execute_console files c w command
  | error problem =>
    have hafter : c.after line = c := by simp only [after, hp]
    rw [hafter]
    by_cases hb : (trim line.toList).isEmpty
    · simp only [handle, hb, if_true]
      rfl
    · simp only [handle, hb, hp]
      rfl

theorem handleAll_cons (line : String) (rest : List String) :
    (c.handleAll files (line :: rest)).run w =
      let first := (c.handle files line).run w
      let others := (first.1.1.handleAll files rest).run first.2
      ((others.1.1, first.1.2 :: others.1.2), others.2) := rfl

theorem handleAll_console (lines : List String) :
    ((c.handleAll files lines).run w).1.1 = c.afterAll lines := by
  induction lines generalizing c w with
  | nil => rfl
  | cons line rest ih =>
    rw [handleAll_cons, afterAll_cons, ← handle_console files c w line]
    exact ih _ _

/-- The answer to a line among others is the one it gets from the console that the lines before it
leave, in some state of the files. -/
theorem handleAll_reply (before : List String) (line : String) (rest : List String) :
    ∃ w', ((c.handleAll files (before ++ line :: rest)).run w).1.2[before.length]? =
      some (((c.afterAll before).handle files line).run w').1.2 := by
  -- The files may answer differently after each `save`, so their state is only known to exist.
  induction before generalizing c w with
  | nil => exact ⟨w, rfl⟩
  | cons first before ih =>
    obtain ⟨w', hw⟩ := ih ((c.handle files first).run w).1.1 ((c.handle files first).run w).2
    refine ⟨w', hw.trans ?_⟩
    rw [handle_console, afterAll_cons]

end World

end Phrasebook.Console
