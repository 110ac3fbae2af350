import Phrasebook.Proofs.Console.Run
import Phrasebook.Proofs.Json.Canonical
import Phrasebook.Proofs.Json.Text
import Phrasebook.Proofs.Text.Blank

/-! The grammar of the console. A line has one verb and one argument, whatever blanks stand around them;
which command they spell, or what is wrong with them, follows from the two alone. -/
namespace Phrasebook.Command
open Text

/-- A line of a verb and its argument, with blanks before, between and after them. Only an argument that
is empty can do without the blanks before it, or without a verb. -/
def IsLine (line verb argument : String) : Prop :=
  ∃ before gap after : List Char,
    line.toList = before ++ (verb.toList ++ (gap ++ (argument.toList ++ after))) ∧
    IsGap before ∧ IsGap gap ∧ IsGap after ∧ IsSolid verb.toList ∧ IsTrimmed argument.toList ∧
    (argument ≠ "" → verb ≠ "" ∧ gap ≠ [])

/-- The value that a text spells: the one it has as JSON, or itself if it is no JSON. -/
inductive IsValue : String → Json → Prop
  | json {text : String} {v : Json} (h : Json.parse text = .ok v) : IsValue text v.canonical
  | plain {text : String} (h : ∀ v, Json.parse text ≠ .ok v) : IsValue text (.string text)

/-- The command that a verb and an argument spell. -/
inductive Means : String → String → Command → Prop
  | get {id} (h : id ≠ "") : Means "get" id (.get id)
  | replace (text) : Means "replace" text (.replace text)
  | auto : Means "lang" "auto" (.lang .auto)
  | explicit {code} (h : code ≠ "") (h' : code ≠ "auto") :
    Means "lang" code (.lang (.explicit code))
  | set {key gap text : String} {value : Json} (hkey : IsSolid key.toList) (hkey' : key ≠ "")
    (hgap : IsGap gap.toList) (hgap' : gap ≠ "") (htext : IsTrimmed text.toList) (htext' : text ≠ "")
    (hvalue : IsValue text value) : Means "set" (key ++ gap ++ text) (.set key value)
  | display (argument) : Means "show" argument .display
  | languages (argument) : Means "langs" argument .languages
  | save (argument) : Means "save" argument .save
  | quit (argument) : Means "quit" argument .quit
  | exit (argument) : Means "exit" argument .quit

def verbs : List String :=
  ["get", "replace", "lang", "set", "show", "langs", "save", "quit", "exit"]

/-- What is wrong with a verb and an argument that spell no command. -/
inductive Fails : String → String → Problem → Prop
  | unknown {verb} (argument) (h : verb ∉ verbs) : Fails verb argument (.unknown verb)
  | needsArgument {verb} (h : verb ∈ ["get", "lang", "set"]) : Fails verb "" (.needsArgument verb)
  | needsValue {key : String} (hkey : IsSolid key.toList) (hkey' : key ≠ "") :
    Fails "set" key .needsValue

section Line

variable {line verb argument : String}

/-- The verb and the argument are what a line is split into. -/
lemma isLine_of_splitVerb (h : splitVerb (trim line.toList) = (verb, argument.toList)) :
    IsLine line verb argument := by
  obtain ⟨before, after, hbefore, hafter, htrimmed, hline⟩ := exists_trim line.toList
  cases hsplit : splitBlank (trim line.toList) with
  | none =>
    rw [splitVerb, hsplit] at h
    obtain ⟨rfl, hargument⟩ := Prod.mk.inj h
    obtain rfl : argument = "" := String.toList_injective hargument.symm
    refine ⟨before, [], after, ?_, hbefore, by simp [IsGap], hafter, ?_, isTrimmed_nil, ?_⟩
    · simpa using hline
    · rw [String.toList_ofList]
      exact splitBlank_eq_none_iff.1 hsplit
    · exact fun hne => absurd rfl hne
  | some words =>
    obtain ⟨word, rest⟩ := words
    rw [splitVerb, hsplit] at h
    obtain ⟨rfl, hargument⟩ := Prod.mk.inj h
    obtain ⟨hword, hword', hrest, -, gap, hgap, hgap', hwords⟩ := htrimmed.exists_gap hsplit
    rw [hargument] at hrest hwords
    refine ⟨before, gap, after, ?_, hbefore, hgap, hafter, ?_, hrest, fun _ => ⟨?_, hgap'⟩⟩
    · rw [hline, hwords, String.toList_ofList]
      simp only [List.append_assoc]
    · rwa [String.toList_ofList]
    · simpa using hword'

lemma splitVerb_of_isLine (h : IsLine line verb argument) :
    splitVerb (trim line.toList) = (verb, argument.toList) := by
  obtain ⟨before, gap, after, hline, hbefore, hgap, hafter, hverb, hargument, hne⟩ := h
  by_cases hempty : argument = ""
  · subst hempty
    have htrim : trim line.toList = verb.toList := by
      rw [hline]
      refine trim_eq hbefore ?_ hverb.isTrimmed
      exact List.forall_mem_append.2 ⟨hgap, hafter⟩
    rw [htrim, splitVerb, splitBlank_eq_none_iff.2 hverb, String.ofList_toList]
    rfl
  · obtain ⟨hverb', hgap'⟩ := hne hempty
    have hverb' : verb.toList ≠ [] := by simpa using hverb'
    have hargument' : argument.toList ≠ [] := by simpa using hempty
    have hmiddle : IsTrimmed (verb.toList ++ (gap ++ argument.toList)) := by
      refine .append hverb.isTrimmed.head hverb' ?_ (by simp [hgap'])
      rw [List.getLast?_append_of_ne_nil _ hargument']
      exact hargument.last
    have htrim : trim line.toList = verb.toList ++ (gap ++ argument.toList) := by
      rw [hline, ← trim_eq hbefore hafter hmiddle]
      simp only [List.append_assoc]
    obtain ⟨gap', hgap'', hsplit⟩ := splitBlank_append hverb hgap hgap' argument.toList
    rw [htrim, splitVerb, hsplit]
    simp only [String.ofList_toList, trimStart_append hgap'', trimStart_of_head hargument.head]

theorem existsUnique_isLine (line : String) : ∃! p : String × String, IsLine line p.1 p.2 := by
  refine ⟨((splitVerb (trim line.toList)).1, String.ofList (splitVerb (trim line.toList)).2), ?_, ?_⟩
  · refine isLine_of_splitVerb ?_
    rw [String.toList_ofList]
  · rintro ⟨verb, argument⟩ h
    rw [splitVerb_of_isLine h, String.ofList_toList]

end Line

section Words

variable {line verb argument : String}

lemma valueOf_of_isValue {text : String} {value : Json} (h : IsValue text value) :
    valueOf text.toList = value := by
  unfold valueOf
  rw [String.ofList_toList]
  cases h with
  | json hparse => rw [hparse]
  | plain hparse =>
    cases hp : Json.parse text with
    | ok v => exact absurd hp (hparse v)
    | error e => rfl

lemma exists_isValue (text : String) : ∃ value, IsValue text value := by
  cases hp : Json.parse text with
  | ok v => exact ⟨_, .json hp⟩
  | error e =>
    refine ⟨_, .plain fun v hv => ?_⟩
    rw [hv] at hp
    cases hp

lemma required_of_ne (h : argument ≠ "") :
    required verb argument.toList = .ok argument.toList := by
  have hne : argument.toList ≠ [] := by simpa using h
  rw [required, if_neg (by simpa using hne)]

/-- The command of the verb and the argument is that of the line. -/
theorem parse_of_means {command : Command} (hline : IsLine line verb argument)
    (h : Means verb argument command) : parse line = .ok command := by
  rw [parse, splitVerb_of_isLine hline]
  cases h with
  | get hne =>
    simp only [required_of_ne hne, Except.map, String.ofList_toList]
  | replace => simp only [String.ofList_toList]
  | auto => rfl
  | explicit hne hauto =>
    simp only [required_of_ne hne, Except.map, String.ofList_toList, Request.ofText, hauto, if_false]
  | @set key gap text value hkey hkey' hgap hgap' htext htext' hvalue =>
    have hne : key ++ gap ++ text ≠ "" := by simp [hkey']
    have hgap' : gap.toList ≠ [] := by simpa using hgap'
    obtain ⟨gap', hblanks, hsplit⟩ := splitBlank_append hkey hgap hgap' text.toList
    have htrim : trim (gap' ++ text.toList) = text.toList := by
      have := trim_eq hblanks (by simp [IsGap] : IsGap []) htext
      rwa [List.append_nil] at this
    have hargument : (key ++ gap ++ text).toList = key.toList ++ (gap.toList ++ text.toList) := by
      simp only [String.toList_append, List.append_assoc]
    rw [← hargument] at hsplit
    simp only [required_of_ne hne, bind, Except.bind, hsplit, htrim, valueOf_of_isValue hvalue,
      String.ofList_toList]
  | display | languages | save | quit | exit => rfl

lemma parse_of_fails {problem : Problem} (hline : IsLine line verb argument)
    (h : Fails verb argument problem) : parse line = .error problem := by
  rw [parse, splitVerb_of_isLine hline]
  cases h with
  | unknown _ hverb =>
    simp only [verbs, List.mem_cons, List.not_mem_nil, or_false, not_or] at hverb
    split
    all_goals simp_all
  | needsArgument hverb =>
    simp only [List.mem_cons, List.not_mem_nil, or_false] at hverb
    rcases hverb with rfl | rfl | rfl <;> rfl
  | needsValue hkey hkey' =>
    simp only [required_of_ne hkey', bind, Except.bind, splitBlank_eq_none_iff.2 hkey]

/-- An argument of at least two words is a key and a value. -/
lemma exists_means_set (hargument : IsTrimmed argument.toList) {key rest : List Char}
    (hsplit : splitBlank argument.toList = some (key, rest)) :
    ∃ command, Means "set" argument command := by
  obtain ⟨hkey, hkey', htext, htext', gap, hgap, hgap', hwords⟩ := hargument.exists_gap hsplit
  obtain ⟨value, hvalue⟩ := exists_isValue (String.ofList (trimStart rest))
  have hsame : argument =
      String.ofList key ++ String.ofList gap ++ String.ofList (trimStart rest) := by
    apply String.toList_injective
    rw [hwords]
    simp
  rw [hsame]
  refine ⟨_, .set ?_ ?_ ?_ ?_ ?_ ?_ hvalue⟩
  · rwa [String.toList_ofList]
  · simpa using hkey'
  · rwa [String.toList_ofList]
  · simpa using hgap'
  · rwa [String.toList_ofList]
  · simpa using htext'

/-- A verb and an argument spell a command, or else something is wrong with them. -/
theorem means_or_fails (verb : String) (hargument : IsTrimmed argument.toList) :
    (∃ command, Means verb argument command) ∨ ∃ problem, Fails verb argument problem := by
  by_cases hverb : verb ∈ verbs
  · have hneeds (verb : String) (h : verb ∈ ["get", "lang", "set"]) (hempty : argument = "") :
        ∃ problem, Fails verb argument problem := by
      subst hempty
      exact ⟨_, .needsArgument h⟩
    simp only [verbs, List.mem_cons, List.not_mem_nil, or_false] at hverb
    rcases hverb with rfl | rfl | rfl | rfl | rfl | rfl | rfl | rfl | rfl
    · by_cases hempty : argument = ""
      · exact .inr (hneeds "get" (by decide) hempty)
      · exact .inl ⟨_, .get hempty⟩
    · exact .inl ⟨_, .replace argument⟩
    · by_cases hempty : argument = ""
      · exact .inr (hneeds "lang" (by decide) hempty)
      · by_cases hauto : argument = "auto"
        · subst hauto
          exact .inl ⟨_, .auto⟩
        · exact .inl ⟨_, .explicit hempty hauto⟩
    · by_cases hempty : argument = ""
      · exact .inr (hneeds "set" (by decide) hempty)
      · cases hsplit : splitBlank argument.toList with
        | none => exact .inr ⟨_, .needsValue (splitBlank_eq_none_iff.1 hsplit) hempty⟩
        | some words => exact .inl (exists_means_set hargument hsplit)
    · exact .inl ⟨_, .display argument⟩
    · exact .inl ⟨_, .languages argument⟩
    · exact .inl ⟨_, .save argument⟩
    · exact .inl ⟨_, .quit argument⟩
    · exact .inl ⟨_, .exit argument⟩
  · exact .inr ⟨_, .unknown argument hverb⟩

end Words

lemma IsLine.isTrimmed {line verb argument : String} (h : IsLine line verb argument) :
    IsTrimmed argument.toList := by
  obtain ⟨-, -, -, -, -, -, -, -, hargument, -⟩ := h
  exact hargument

/-- The answer to a line is told from its verb and its argument. -/
lemma exists_answer (line : String) : ∃ verb argument, IsLine line verb argument ∧
    ((∃ command, Means verb argument command ∧ parse line = .ok command) ∨
      ∃ problem, Fails verb argument problem ∧ parse line = .error problem) := by
  obtain ⟨⟨verb, argument⟩, hline, -⟩ := existsUnique_isLine line
  refine ⟨verb, argument, hline, ?_⟩
  rcases means_or_fails verb hline.isTrimmed with ⟨command, hmeans⟩ | ⟨problem, hfails⟩
  · exact .inl ⟨command, hmeans, parse_of_means hline hmeans⟩
  · exact .inr ⟨problem, hfails, parse_of_fails hline hfails⟩

theorem parse_eq_ok_iff (line : String) (command : Command) : parse line = .ok command ↔
    ∃ verb argument, IsLine line verb argument ∧ Means verb argument command := by
  constructor
  · intro h
    obtain ⟨verb, argument, hline, ⟨command', hmeans, hparse⟩ | ⟨problem, -, hparse⟩⟩ :=
      exists_answer line
    · rw [hparse] at h
      cases h
      exact ⟨verb, argument, hline, hmeans⟩
    · rw [hparse] at h
      cases h
  · rintro ⟨verb, argument, hline, hmeans⟩
    exact parse_of_means hline hmeans

theorem parse_eq_error_iff (line : String) (problem : Problem) : parse line = .error problem ↔
    ∃ verb argument, IsLine line verb argument ∧ Fails verb argument problem := by
  constructor
  · intro h
    obtain ⟨verb, argument, hline, ⟨command, -, hparse⟩ | ⟨problem', hfails, hparse⟩⟩ :=
      exists_answer line
    · rw [hparse] at h
      cases h
    · rw [hparse] at h
      cases h
      exact ⟨verb, argument, hline, hfails⟩
  · rintro ⟨verb, argument, hline, hfails⟩
    exact parse_of_fails hline hfails

lemma key_of_parse {line key : String} {value : Json} (h : parse line = .ok (.set key value)) :
    IsSolid key.toList ∧ key ≠ "" := by
  obtain ⟨verb, argument, -, hmeans⟩ := (parse_eq_ok_iff line _).1 h
  cases hmeans with
  | set hkey hkey' => exact ⟨hkey, hkey'⟩

/-- A variable reads as the value that the line has set it to. -/
lemma lookup_after {line key : String} {value : Json} (h : parse line = .ok (.set key value))
    (c : Console) : (c.after line).vars.lookup key = Variables.embedded value := by
  have hcanonical : value.canonical = value := isSpelled_of_parse h
  rw [Console.after_of_parse h]
  simp only [Console.afterCommand, Variables.lookup, Variables.set, hcanonical]
  rw [Dict.get?_insert, if_pos rfl, Option.bind_some]

/-- Lines are those of the grammar: a line has one verb and one argument, whatever the blanks around
them; it is the command they spell, or has what is wrong with them. A key that is set is a word. A value
is set by its text, if that is read back as the value, and reads as it from then on. -/
theorem parse_grammatical :
    (∀ line, ∃! p : String × String, IsLine line p.1 p.2) ∧
    (∀ line command, parse line = .ok command ↔
      ∃ verb argument, IsLine line verb argument ∧ Means verb argument command) ∧
    (∀ line problem, parse line = .error problem ↔
      ∃ verb argument, IsLine line verb argument ∧ Fails verb argument problem) ∧
    (∀ line key value, parse line = .ok (.set key value) → IsSolid key.toList ∧ key ≠ "" ∧
      ∀ c : Console, (c.after line).vars.lookup key = Variables.embedded value) ∧
    ∀ (line key gap : String) (value v : Json), IsSolid key.toList → key ≠ "" → IsGap gap.toList →
      gap ≠ "" → IsLine line "set" (key ++ gap ++ value.text) → Json.parse value.text = .ok v →
      v.canonical = value → parse line = .ok (.set key value) := by
  refine ⟨existsUnique_isLine, parse_eq_ok_iff, parse_eq_error_iff, ?_, ?_⟩
  · intro line key value h
    obtain ⟨hkey, hkey'⟩ := key_of_parse h
    exact ⟨hkey, hkey', lookup_after h⟩
  · intro line key gap value v hkey hkey' hgap hgap' hline hparse hvalue
    obtain ⟨htrimmed, hne⟩ := Json.isTrimmed_text value
    have htext : value.text ≠ "" := fun hempty => hne (by rw [hempty]; rfl)
    subst hvalue
    exact parse_of_means hline (.set hkey hkey' hgap hgap' htrimmed htext (.json hparse))

/-- Wide blanks, blanks inside the value, and a value that is a list. -/
theorem parse_grammatical_wide :
    let line := "\u3000set\tname \u00a0[\"a b\",\"c\"] \n"
    let value : Json := .array [.string "a b", .string "c"]
    IsLine line "set" ("name" ++ " \u00a0" ++ value.text) ∧ Json.parse value.text = .ok value ∧
    value.canonical = value ∧ parse line = .ok (.set "name" value) ∧
    ((Console.start .standard [] "en-US").after line).vars.lookup "name" =
      some "[\"a b\",\"c\"]" := by
  intro line value
  obtain ⟨-, -, -, lookup, printed⟩ := parse_grammatical
  have isLine : IsLine line "set" ("name" ++ " \u00a0" ++ value.text) :=
    isLine_of_splitVerb (by decide +kernel)
  have reads : Json.parse value.text = .ok value := by
    refine Json.parse_text (.array fun v hv => ?_)
    simp only [List.mem_cons, List.not_mem_nil, or_false] at hv
    rcases hv with rfl | rfl <;> exact .string _ _
  have parses := printed line "name" " \u00a0" value value (by decide) (by decide) (by decide)
    (by decide) isLine reads rfl
  obtain ⟨-, -, reading⟩ := lookup line "name" value parses
  exact ⟨isLine, reads, rfl, parses, reading _⟩

end Phrasebook.Command
