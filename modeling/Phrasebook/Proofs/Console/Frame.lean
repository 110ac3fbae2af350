import Mathlib.Data.List.Forall2
import Phrasebook.Files.Directory
import Phrasebook.Proofs.Console.History
import Phrasebook.Proofs.Json.Canonical
import Phrasebook.Session

/-! What a line leaves alone. Most lines only read, so that putting them into a session or taking them out
changes nothing about the other lines, and nothing of what is printed for these. -/
namespace Phrasebook
namespace Console
open Command

/-- A line that only reads: a blank one, one that is no command, or a command that looks something up. -/
inductive IsIdle (line : String) : Prop
  | blank (h : (Text.trim line.toList).isEmpty)
  | malformed {problem} (h : parse line = .error problem)
  | get {id} (h : parse line = .ok (.get id))
  | replace {text} (h : parse line = .ok (.replace text))
  | display (h : parse line = .ok .display)
  | languages (h : parse line = .ok .languages)

/-- A line after which the console is the same: an idle one, one that asks for the selection that is kept
already, or a save. -/
inductive Spares (c : Console) (line : String) : Prop
  | idle (h : IsIdle line)
  | kept (h : parse line = .ok (.lang c.translator.requested))
  | save (h : parse line = .ok .save)

theorem IsIdle.after_eq {line : String} (h : IsIdle line) (c : Console) : c.after line = c := by
  cases h with
  | blank h => simp only [after, parse_of_blank h]
  | malformed h => simp only [after, h]
  | get h | replace h | display h | languages h => exact after_of_parse h

theorem Spares.after_eq {c : Console} {line : String} (h : Spares c line) : c.after line = c := by
  cases h with
  | idle h => exact h.after_eq c
  | kept h => rw [after_of_parse h, afterCommand, select_of_eq rfl]
  | save h => exact after_of_parse h

section Commands

variable {c : Console} {line : String}

/-- A variable that is set has the value from then on, and nothing else changes. -/
theorem after_of_set {key : String} {value : Json} (h : parse line = .ok (.set key value)) :
    c.after line = { c with vars := (c.after line).vars } ∧
    (c.after line).vars.get? key = some value ∧
    ∀ k, k ≠ key → (c.after line).vars.get? k = c.vars.get? k := by
  have hcanonical : value.canonical = value := isSpelled_of_parse h
  rw [after_of_parse h, afterCommand]
  refine ⟨rfl, ?_, fun k hk => ?_⟩
  · rw [Variables.set, Dict.get?_insert, if_pos rfl, hcanonical]
  · rw [Variables.set, Dict.get?_insert, if_neg hk]

/-- A new selection is kept in the settings, which are the same otherwise, and so are the variables. -/
theorem after_of_switch {r : Request} (h : parse line = .ok (.lang r))
    (hne : c.translator.requested ≠ r) :
    (c.after line).vars = c.vars ∧ (c.after line).settings = c.settings.withLanguage r := by
  rw [after_of_parse h, afterCommand, select_of_ne hne]
  exact ⟨rfl, rfl⟩

end Commands

section Sessions

variable {σ : Type} (files : Files (StateM σ)) (c : Console) (w : σ)

lemma handle_of_output {line text : String} {command : Command} (h : parse line = .ok command)
    (htext : (c.execute files command).run w = ((c, .ok (.output text)), w)) :
    (c.handle files line).run w = ((c, .ok (some (.output text))), w) := by
  rw [handle_of_parse files c w h, htext]
  rfl

/-- An idle line is answered without a look at the files, and does not end the session. -/
theorem IsIdle.handle {line : String} (h : IsIdle line) : ∃ reply : Reply,
    Session.replyTo reply ≠ .stop ∧ ∀ w : σ, (c.handle files line).run w = ((c, reply), w) := by
  by_cases hblank : (Text.trim line.toList).isEmpty
  · refine ⟨.ok none, ?_, fun w => ?_⟩
    · simp [Session.replyTo]
    · simp only [Console.handle, hblank, if_true]
      rfl
  · cases h with
    | blank h => exact absurd h hblank
    | @malformed problem h =>
      refine ⟨.error (.command problem), ?_, fun w => ?_⟩
      · simp [Session.replyTo]
      · simp only [Console.handle, hblank, h]
        rfl
    | get h | replace h | display h | languages h =>
      refine ⟨_, ?_, fun w => handle_of_output files c w h rfl⟩
      simp [Session.replyTo]

theorem run_cons (line : String) (rest : List String) :
    (Session.run files c (line :: rest)).run w =
      let first := (c.handle files line).run w
      let others := (Session.run files first.1.1 rest).run first.2
      match Session.replyTo first.1.2 with
      | .none => others
      | .line text => (text :: others.1, others.2)
      | .stop => ([], first.2) := by
  -- The first line and its answer are taken out of the monad, which leaves the rest to the answer.
  have hfirst : (Session.run files c (line :: rest)).run w =
      (match Session.replyTo ((c.handle files line).run w).1.2 with
      | .none => Session.run files ((c.handle files line).run w).1.1 rest
      | .line text => do return text :: (← Session.run files ((c.handle files line).run w).1.1 rest)
      | .stop => pure []).run ((c.handle files line).run w).2 := rfl
  rw [hfirst]
  dsimp only
  cases Session.replyTo ((c.handle files line).run w).1.2 <;> rfl

/-- The entries that are marked. -/
def pick {α : Type} (marks : List Bool) (xs : List α) : List α :=
  ((marks.zip xs).filter Prod.fst).map Prod.snd

@[simp] lemma pick_true {α : Type} (marks : List Bool) (x : α) (xs : List α) :
    pick (true :: marks) (x :: xs) = x :: pick marks xs := rfl

@[simp] lemma pick_false {α : Type} (marks : List Bool) (x : α) (xs : List α) :
    pick (false :: marks) (x :: xs) = pick marks xs := rfl

lemma pick_map {α β : Type} (f : α → β) (marks : List Bool) (xs : List α) :
    pick marks (xs.map f) = (pick marks xs).map f := by
  unfold pick
  rw [List.zip_map_right, List.filter_map, List.map_map, List.map_map]
  rfl

/-- A session whose lines are idle where they are not marked. -/
def IsPadded (marks : List Bool) (lines : List String) : Prop :=
  List.Forall₂ (fun mark line => mark = true ∨ IsIdle line) marks lines

variable {marks : List Bool} {lines : List String}

/-- Without idle lines a session leaves the same console and the same files, and the other lines are
answered as before. -/
theorem handleAll_pick (h : IsPadded marks lines) : (c.handleAll files (pick marks lines)).run w =
    let long := (c.handleAll files lines).run w
    ((long.1.1, pick marks long.1.2), long.2) := by
  induction h generalizing c w with
  | nil => rfl
  | @cons mark line marks lines hline _ ih =>
    cases mark with
    | true =>
      simp only [pick_true, handleAll_cons, ih]
    | false =>
      obtain hmark | hidle := hline
      · cases hmark
      · obtain ⟨reply, -, hreply⟩ := hidle.handle files c
        simp only [handleAll_cons, hreply, pick_false, ih]

/-- What the answers print, one after the other; nothing is printed once the session has ended. -/
def printed : List Reply → List (List String)
  | [] => []
  | reply :: rest =>
    match Session.replyTo reply with
    | .none => [] :: printed rest
    | .line text => [text] :: printed rest
    | .stop => [] :: rest.map fun _ => []

/-- A session prints what the answers to its lines print. -/
theorem run_eq_printed (lines : List String) :
    ((Session.run files c lines).run w).1 =
      (printed ((c.handleAll files lines).run w).1.2).flatten := by
  induction lines generalizing c w with
  | nil => rfl
  | cons line rest ih =>
    rw [run_cons, handleAll_cons]
    simp only [printed]
    split
    · rw [ih, List.flatten_cons, List.nil_append]
    · rw [ih, List.flatten_cons, List.singleton_append]
    · simp

lemma forall₂_replies (h : IsPadded marks lines) :
    List.Forall₂ (fun mark reply => mark = true ∨ Session.replyTo reply ≠ .stop) marks
      ((c.handleAll files lines).run w).1.2 := by
  induction h generalizing c w with
  | nil => exact .nil
  | cons hline _ ih =>
    rw [handleAll_cons]
    refine .cons ?_ (ih _ _)
    obtain hmark | hidle := hline
    · exact .inl hmark
    · obtain ⟨reply, hgoes, hreply⟩ := hidle.handle files c
      rw [hreply]
      exact .inr hgoes

/-- Answers that do not end the session can be left out of what is printed. -/
lemma printed_pick {replies : List Reply} (h : List.Forall₂
    (fun mark reply => mark = true ∨ Session.replyTo reply ≠ .stop) marks replies) :
    printed (pick marks replies) = pick marks (printed replies) := by
  induction h with
  | nil => rfl
  | @cons mark reply marks replies hreply _ ih =>
    cases mark with
    | true =>
      rw [pick_true, printed, printed]
      split
      · rw [pick_true, ih]
      · rw [pick_true, ih]
      · rw [pick_true, pick_map]
    | false =>
      rw [pick_false, printed, ih]
      split
      · rw [pick_false]
      · rw [pick_false]
      · rename_i hstop
        obtain hmark | hgoes := hreply
        · cases hmark
        · exact absurd hstop hgoes

/-- Without idle lines a session prints the same but for what these lines print. -/
theorem run_pick (h : IsPadded marks lines) :
    ((Session.run files c (pick marks lines)).run w).1 =
      (pick marks (printed ((c.handleAll files lines).run w).1.2)).flatten := by
  rw [run_eq_printed, handleAll_pick files c w h, printed_pick (forall₂_replies files c w h)]

/-- A session changes the files as it does without its idle lines. -/
theorem run_pick_files (h : IsPadded marks lines) :
    ((Session.run files c (pick marks lines)).run w).2 = ((Session.run files c lines).run w).2 := by
  induction h generalizing c w with
  | nil => rfl
  | @cons mark line marks lines hline _ ih =>
    cases mark with
    | true =>
      simp only [pick_true, run_cons]
      split
      · exact ih _ _
      · exact ih _ _
      · rfl
    | false =>
      obtain hmark | hidle := hline
      · cases hmark
      · obtain ⟨reply, hgoes, hreply⟩ := hidle.handle files c
        simp only [pick_false, ih, run_cons, hreply]
        split
        · rfl
        · rfl
        · exact absurd ‹_› hgoes

end Sessions

/-- A line spares the console, or it sets one variable, or it makes one selection. To put idle lines into
a session, wherever that may be, or to take them out changes neither the answers to its other lines nor
what is printed for them, and it leaves the console and the files as they would be. -/
theorem handle_frame {σ : Type} (files : Files (StateM σ)) (c : Console) (w : σ) :
    (∀ line, Spares c line → ((c.handle files line).run w).1.1 = c) ∧
    (∀ line key value, parse line = .ok (.set key value) →
      let c' := ((c.handle files line).run w).1.1
      c' = { c with vars := c'.vars } ∧ c'.vars.get? key = some value ∧
        ∀ k, k ≠ key → c'.vars.get? k = c.vars.get? k) ∧
    (∀ line r, parse line = .ok (.lang r) → c.translator.requested ≠ r →
      let c' := ((c.handle files line).run w).1.1
      c'.vars = c.vars ∧ c'.settings = c.settings.withLanguage r) ∧
    (∀ marks lines, IsPadded marks lines →
      let long := (c.handleAll files lines).run w
      (c.handleAll files (pick marks lines)).run w = ((long.1.1, pick marks long.1.2), long.2) ∧
      ((Session.run files c lines).run w).1 = (printed long.1.2).flatten ∧
      (Session.run files c (pick marks lines)).run w =
        ((pick marks (printed long.1.2)).flatten, ((Session.run files c lines).run w).2)) ∧
    ∀ marks lines marks' lines', IsPadded marks lines → IsPadded marks' lines' →
      pick marks lines = pick marks' lines' →
      let one := (c.handleAll files lines).run w
      let other := (c.handleAll files lines').run w
      pick marks one.1.2 = pick marks' other.1.2 ∧ one.1.1 = other.1.1 ∧ one.2 = other.2 ∧
        pick marks (printed one.1.2) = pick marks' (printed other.1.2) := by
  refine ⟨?_, ?_, ?_, ?_, ?_⟩
  · intro line h
    rw [handle_console, h.after_eq]
  · intro line key value h
    rw [handle_console]
    exact after_of_set h
  · intro line r h hne
    rw [handle_console]
    exact after_of_switch h hne
  · intro marks lines h
    refine ⟨handleAll_pick files c w h, run_eq_printed files c w lines, Prod.ext ?_ ?_⟩
    · exact run_pick files c w h
    · exact run_pick_files files c w h
  · intro marks lines marks' lines' h h' hpick one other
    have hone := handleAll_pick files c w h
    have hother := handleAll_pick files c w h'
    rw [hpick, hother] at hone
    have hconsole : other.1.1 = one.1.1 := congrArg (fun e => e.1.1) hone
    have hreplies : pick marks' other.1.2 = pick marks one.1.2 := congrArg (fun e => e.1.2) hone
    have hfiles : other.2 = one.2 := congrArg (fun e => e.2) hone
    refine ⟨hreplies.symm, hconsole.symm, hfiles.symm, ?_⟩
    rw [← printed_pick (forall₂_replies files c w h), ← printed_pick (forall₂_replies files c w h')]
    exact congrArg printed hreplies.symm

section Visit

/-- A session of three lines with four idle ones between them. -/
def visit : List String := ["", "lang de", "get hello", "set name Bob", "bogus", "show", "quit"]

def visitMarks : List Bool := [false, true, false, true, false, false, true]

/-- The same session with a list of the languages for its only idle line. -/
def listingVisit : List String := ["lang de", "langs", "set name Bob", "quit"]

def listingMarks : List Bool := [true, false, true, true]

lemma isPadded_visit : IsPadded visitMarks visit := by
  have hget : parse "get hello" = .ok (.get "hello") := rfl
  have hbogus : parse "bogus" = .error (.unknown "bogus") := rfl
  refine .cons (.inr (.blank rfl)) (.cons (.inl rfl) (.cons (.inr (.get hget)) (.cons (.inl rfl) ?_)))
  exact .cons (.inr (.malformed hbogus)) (.cons (.inr (.display rfl)) (.cons (.inl rfl) .nil))

lemma isPadded_listingVisit : IsPadded listingMarks listingVisit :=
  .cons (.inl rfl) (.cons (.inr (.languages rfl)) (.cons (.inl rfl) (.cons (.inl rfl) .nil)))

/-- What the three lines print is all that is left of the visit. -/
theorem handle_frame_visit :
    let c := opened Settings.standard [] "en-US" none
    let after (line : String) := ((c.handle Directory.files line).run .empty).1.1
    let printedBy (lines : List String) :=
      printed ((c.handleAll Directory.files lines).run .empty).1.2
    Spares c "lang auto" ∧ after "lang auto" = c ∧
    (∃ value, parse "set name Bob" = .ok (.set "name" value) ∧
      (after "set name Bob").vars.get? "name" = some value) ∧
    parse "lang de" = .ok (.lang (.explicit "de")) ∧ c.translator.requested ≠ .explicit "de" ∧
    (after "lang de").settings = c.settings.withLanguage (.explicit "de") ∧
    IsPadded visitMarks visit ∧ IsPadded listingMarks listingVisit ∧
    pick visitMarks visit = pick listingMarks listingVisit ∧
    ((Session.run Directory.files c (pick visitMarks visit)).run .empty).1 =
      (pick visitMarks (printedBy visit)).flatten ∧
    pick visitMarks (printedBy visit) = pick listingMarks (printedBy listingVisit) := by
  intro c after printedBy
  obtain ⟨spares, sets, switches, prints, agrees⟩ := handle_frame Directory.files c .empty
  have kept : parse "lang auto" = .ok (.lang c.translator.requested) := rfl
  have switch : parse "lang de" = .ok (.lang (.explicit "de")) := rfl
  have new : c.translator.requested ≠ .explicit "de" := nofun
  obtain ⟨value, assignment⟩ : ∃ value, parse "set name Bob" = .ok (.set "name" value) := ⟨_, rfl⟩
  obtain ⟨-, -, run⟩ := prints _ _ isPadded_visit
  obtain ⟨-, -, -, same⟩ := agrees _ _ _ _ isPadded_visit isPadded_listingVisit rfl
  exact ⟨.kept kept, spares _ (.kept kept), ⟨value, assignment, (sets _ _ _ assignment).2.1⟩, switch,
    new, (switches _ _ switch new).2, isPadded_visit, isPadded_listingVisit, rfl,
    congrArg Prod.fst run, same⟩

end Visit

end Console
end Phrasebook
