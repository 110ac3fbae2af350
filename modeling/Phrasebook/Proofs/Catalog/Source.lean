import Mathlib.Data.List.DropRight
import Phrasebook.Proofs.Catalog.Decoding
import Phrasebook.Proofs.Json.Canonical
import Phrasebook.Proofs.Json.Text

/-! The text of a phrasebook. Each node is decoded as soon as it is read, which finds the same forest as
to read the whole text first; and what is written is read back. -/
namespace Phrasebook
namespace Node
open Json Command

section Reading

variable {cs rest : List Char}

/-- How a reader that decodes goes about a text that another one reads whole: it gives up on what does
not decode, and fails if the other one does. -/
def Decodes {α β : Type} (decode : α → Option β) : Except Fault (α × List Char) →
    Except Fault (β × List Char) → Prop
  | .ok (x, rest), decoded => decoded = (decode x).elim (.error .unfit) fun y => .ok (y, rest)
  | .error _, decoded => ∃ fault, decoded = .error fault

section Decodes

variable {α β : Type} {decode : α → Option β} {plain : Except Fault (α × List Char)}
  {decoded : Except Fault (β × List Char)}

lemma decodes_unfit (h : ∀ x rest, plain = .ok (x, rest) → decode x = none) :
    Decodes decode plain (.error .unfit) := by
  cases plain with
  | error fault => exact ⟨.unfit, rfl⟩
  | ok read =>
    rw [Decodes, h read.1 read.2 rfl]
    rfl

lemma Decodes.map {α' β' : Type} {decode' : α' → Option β'} {f : α → α'} {g : β → β'}
    (h : Decodes decode plain decoded) (hf : ∀ x, decode' (f x) = (decode x).map g) :
    Decodes decode' (plain.map fun (x, rest) => (f x, rest)) (decoded.map fun (y, rest) => (g y, rest)) := by
  cases plain with
  | error fault =>
    obtain ⟨fault', rfl⟩ := h
    exact ⟨fault', rfl⟩
  | ok read =>
    rw [Decodes] at h
    rw [h, Except.map, Decodes, hf]
    cases decode read.1 <;> rfl

lemma whole_decodes {plain : Scan α} {scan : Scan β} {cs : List Char}
    (h : Decodes decode (plain cs) (scan cs)) :
    (∀ x, whole plain cs = .ok x → whole scan cs = (decode x).elim (.error .unfit) .ok) ∧
    ∀ fault, whole plain cs = .error fault → ∃ fault', whole scan cs = .error fault' := by
  unfold whole
  cases hplain : plain cs with
  | error fault =>
    rw [hplain] at h
    obtain ⟨fault', hfault'⟩ := h
    rw [hfault']
    constructor
    · intro x hx
      cases hx
    · intro fault hfault
      exact ⟨fault', rfl⟩
  | ok read =>
    obtain ⟨x, rest⟩ := read
    rw [hplain] at h
    change scan cs = _ at h
    rw [h]
    simp only [bind, Except.bind]
    cases hrest : skip rest with
    | nil =>
      constructor
      · intro x' hx'
        cases hx'
        cases decode x <;> simp [hrest]
      · intro fault hfault
        cases hfault
    | cons c after =>
      constructor
      · intro x' hx'
        cases hx'
      · intro fault hfault
        cases decode x <;> simp [hrest]

end Decodes

lemma allOfJson?_cons (v : Json) (rest : List Json) :
    allOfJson? (v :: rest) = (ofJson? v).bind fun n => (allOfJson? rest).map (n :: ·) := by
  rw [allOfJson?]
  cases ofJson? v <;> cases allOfJson? rest <;> rfl

lemma scan_decodes (cs : List Char) :
    Decodes ofJson? (value builder (maxDepth - 1) cs) (scan cs) := by
  unfold scan
  cases value builder (maxDepth - 1) cs with
  | error fault => exact ⟨fault, rfl⟩
  | ok read =>
    simp only [bind, Except.bind, Decodes]
    cases ofJson? read.1 <;> rfl

lemma exists_cons_of_items {item : Scan Json} {fuel : Nat} {v : Json} {after : List Char}
    {vs : List Json} (hitem : item cs = .ok (v, after))
    (h : items item (fuel + 1) cs = .ok (vs, rest)) : ∃ more, vs = v :: more := by
  rw [items, hitem] at h
  simp only [bind, Except.bind] at h
  split at h
  · cases h
    exact ⟨[], rfl⟩
  · rename_i after' _
    cases hmore : items item fuel after' with
    | error fault =>
      rw [hmore] at h
      cases h
    | ok read =>
      rw [hmore] at h
      cases h
      exact ⟨read.1, rfl⟩
  · cases h

lemma items_decodes {plain : Scan Json} {scan : Scan Node}
    (hscan : ∀ cs, Decodes ofJson? (plain cs) (scan cs)) (fuel : Nat) (cs : List Char) :
    Decodes allOfJson? (items plain fuel cs) (items scan fuel cs) := by
  induction fuel generalizing cs with
  | zero => exact ⟨.malformed, rfl⟩
  | succ fuel ih =>
    have hitem := hscan cs
    cases hplain : plain cs with
    | error fault =>
      rw [hplain] at hitem
      obtain ⟨fault', hfault'⟩ := hitem
      rw [items, items, hplain, hfault']
      exact ⟨fault', rfl⟩
    | ok read =>
      obtain ⟨v, after⟩ := read
      rw [hplain] at hitem
      change scan cs = _ at hitem
      cases hv : ofJson? v with
      | none =>
        -- The scan stops here, while the plain one goes on to items that no longer matter.
        have hstop : items scan (fuel + 1) cs = .error .unfit := by
          rw [items, hitem, hv]
          rfl
        rw [hstop]
        refine decodes_unfit fun vs rest hvs => ?_
        obtain ⟨more, rfl⟩ := exists_cons_of_items hplain hvs
        rw [allOfJson?_cons, hv, Option.bind_none]
      | some n =>
        rw [items, items, hplain, hitem, hv]
        simp only [bind, Except.bind, Option.elim_some]
        split
        · rw [Decodes, allOfJson?_cons, hv]
          rfl
        · rename_i rest _
          refine (ih rest).map fun vs => ?_
          rw [allOfJson?_cons, hv]
          rfl
        · exact ⟨_, rfl⟩

lemma arrayTail_decodes (cs : List Char) :
    Decodes allOfJson? (arrayTail (value builder (maxDepth - 1)) cs) (arrayTail scan cs) := by
  unfold arrayTail
  split
  · rfl
  · exact items_decodes scan_decodes _ _

/-- The forest that a value spells. -/
def forest? : Json → Option (List Node)
  | .array items => allOfJson? items
  | _ => none

lemma Decodes.array {plain : Except Fault (List Json × List Char)}
    {decoded : Except Fault (List Node × List Char)} (h : Decodes allOfJson? plain decoded) :
    Decodes forest? (plain.map fun (vs, rest) => (.array vs, rest)) decoded := by
  cases plain with
  | error fault => exact h
  | ok read => exact h

lemma forest?_fields (l : List (Spelled × Json)) : forest? (builder.fields l) = none := by
  unfold Builder.fields
  split <;> rfl

lemma forest?_of_number {v : Json} (h : number builder cs = .ok (v, rest)) : forest? v = none := by
  unfold number at h
  cases hnumeral : numeral cs with
  | error fault =>
    rw [hnumeral] at h
    cases h
  | ok read =>
    rw [hnumeral] at h
    simp only [bind, Except.bind] at h
    split at h
    · cases h
      rfl
    · cases h
      rfl
    · cases h

/-- Without a bracket at its head a text is at most a scalar. -/
lemma forest?_of_scalar {v : Json} (h : valueWith builder none cs = .ok (v, rest)) :
    forest? v = none := by
  unfold valueWith at h
  split at h
  case h_5 =>
    obtain ⟨⟨spelled, after⟩, heq⟩ := exists_of_map_eq_ok h
    cases heq
    cases spelled <;> rfl
  case h_8 =>
    split at h
    · exact forest?_of_number h
    · cases h
  all_goals first
    | cases h
    | obtain ⟨after, heq⟩ := exists_of_map_eq_ok h
      cases heq
      rfl

lemma valueWith_of_no_bracket (nested : Option (Scan Json))
    (harray : ∀ rest, skip cs ≠ '[' :: rest) (hobject : ∀ rest, skip cs ≠ '{' :: rest) :
    valueWith builder nested cs = valueWith builder none (skip cs) := by
  have hskip : skip (skip cs) = skip cs := List.dropWhile_idempotent isSpace cs
  unfold valueWith
  rw [hskip]
  split
  case h_6 => exact absurd ‹_› (harray _)
  case h_7 => exact absurd ‹_› (hobject _)
  all_goals rfl

theorem scanForest_decodes (cs : List Char) :
    Decodes forest? (value builder maxDepth cs) (scanForest cs) := by
  have hvalue : value builder maxDepth cs =
      valueWith builder (some (value builder (maxDepth - 1))) cs := rfl
  rw [hvalue]
  unfold scanForest
  split
  · rename_i after hskip
    have harray : valueWith builder (some (value builder (maxDepth - 1))) cs =
        (arrayTail (value builder (maxDepth - 1)) after).map fun (vs, rest) => (.array vs, rest) := by
      unfold valueWith
      rw [hskip]
      rfl
    rw [harray]
    exact (arrayTail_decodes after).array
  · rename_i after hskip
    refine decodes_unfit fun v rest hv => ?_
    unfold valueWith at hv
    rw [hskip] at hv
    obtain ⟨⟨l, after'⟩, heq⟩ := exists_of_map_eq_ok hv
    cases heq
    exact forest?_fields l
  · rename_i harray hobject
    rw [valueWith_of_no_bracket _ harray hobject]
    cases hscalar : valueWith builder none (skip cs) with
    | error fault => exact ⟨fault, rfl⟩
    | ok read => exact decodes_unfit fun v rest hv => by cases hv; exact forest?_of_scalar hscalar

theorem parseForest_of_parse {text : String} {v : Json} (h : Json.parse text = .ok v) :
    parseForest text = (forest? v).elim (.error .unfit) .ok :=
  (whole_decodes (scanForest_decodes text.toList)).1 v h

lemma exists_error_of_parse {text : String} {fault : Fault} (h : Json.parse text = .error fault) :
    ∃ fault', parseForest text = .error fault' :=
  (whole_decodes (scanForest_decodes text.toList)).2 fault h

/-- A text spells a forest if it is the text of an array whose items spell the nodes. -/
theorem parseForest_eq_ok_iff {text : String} {forest : List Node} :
    parseForest text = .ok forest ↔
      ∃ items, Json.parse text = .ok (.array items) ∧ List.Forall₂ Fits items forest := by
  constructor
  · intro h
    cases hparse : Json.parse text with
    | error fault =>
      obtain ⟨fault', hfault'⟩ := exists_error_of_parse hparse
      rw [hfault'] at h
      cases h
    | ok v =>
      rw [parseForest_of_parse hparse] at h
      cases hv : forest? v with
      | none => rw [hv] at h; cases h
      | some forest' =>
        rw [hv] at h
        cases h
        cases v with
        | array items => exact ⟨items, rfl, allOfJson?_eq_some_iff_fits.1 hv⟩
        | _ => cases hv
  · rintro ⟨items, hparse, hitems⟩
    have hforest : forest? (.array items) = some forest := allOfJson?_eq_some_iff_fits.2 hitems
    rw [parseForest_of_parse hparse, hforest]
    rfl

end Reading

section Writing

/-- How a node may be written: the texts of an entry have no order. -/
inductive Written : Node → Json → Prop
  | group {children items} (h : List.Forall₂ Written children items) :
      Written (.group children) (.object [("children", .array items)])
  | entry {id texts fields} (h : fields.Perm (spelled texts.entries)) :
      Written (.entry id texts) (.object [("id", .string id), ("contents", .object fields)])

mutual

lemma written_toJson : (n : Node) → Written n n.toJson
  | .group children => by
    rw [toJson]
    exact .group (written_allToJson children)
  | .entry id texts => by
    rw [toJson]
    exact .entry (.refl _)

lemma written_allToJson : (nodes : List Node) → List.Forall₂ Written nodes (allToJson nodes)
  | [] => by
    rw [allToJson]
    exact .nil
  | n :: rest => by
    rw [allToJson]
    exact .cons (written_toJson n) (written_allToJson rest)

end

mutual

/-- How deep the arrays and objects of a node stand inside each other. -/
def levels : Node → Nat
  | .group children => levelsAll children + 2
  | .entry .. => 2

def levelsAll : List Node → Nat
  | [] => 0
  | n :: rest => max (levels n) (levelsAll rest)

end

lemma texts?_of_perm {texts : Dict String} {fields : List (String × Json)}
    (h : fields.Perm (spelled texts.entries)) : texts? (.object fields) = some texts := by
  have htexts : ∀ e ∈ fields, ∃ text, e.2 = .string text :=
    fun e he => exists_spelled_iff.2 ⟨texts.entries, rfl⟩ e (h.mem_iff.1 he)
  obtain ⟨l, rfl⟩ := exists_spelled_iff.1 htexts
  have hperm : l.Perm texts.entries := by
    simpa only [filterMap_spelled] using h.filterMap textField?
  rw [texts?, mapM_textField?_eq_some_iff.2 rfl, Option.map_some, Dict.ofList_of_perm hperm]

mutual

theorem ofJson?_of_written : (n : Node) → ∀ v, Written n v → ofJson? v = some n
  | .group children, _, .group h => by
    have hchildren := allOfJson?_of_written children _ h
    exact ofJson?_of_group rfl hchildren
  | .entry id texts, _, .entry h => by
    rw [ofJson?_of_no_group (by simp [fieldsNamed]), entry?]
    simp [fieldsNamed, texts?_of_perm h]

theorem allOfJson?_of_written :
    (nodes : List Node) → ∀ items, List.Forall₂ Written nodes items → allOfJson? items = some nodes
  | [], _, .nil => by rw [allOfJson?]
  | n :: rest, _, .cons hn hrest => by
    rw [allOfJson?_cons, ofJson?_of_written n _ hn, allOfJson?_of_written rest _ hrest]
    rfl

end

mutual

lemma nested_of_written : (n : Node) → ∀ v, Written n v → Nested n.levels v
  | .group children, _, .group h => by
    rw [levels]
    refine .object fun e he => ?_
    rw [List.mem_singleton.1 he]
    exact .array (nestedAll_of_written children _ h)
  | .entry id texts, _, .entry h => by
    rw [levels]
    refine .object fun e he => ?_
    rcases List.mem_cons.1 he with rfl | he
    · exact .string ..
    · rw [List.mem_singleton.1 he]
      refine .object fun e he => ?_
      obtain ⟨text, htext⟩ := exists_spelled_iff.2 ⟨texts.entries, rfl⟩ e (h.mem_iff.1 he)
      rw [htext]
      exact .string ..

lemma nestedAll_of_written : (nodes : List Node) → ∀ items, List.Forall₂ Written nodes items →
    ∀ v ∈ items, Nested (levelsAll nodes) v
  | [], _, .nil => by simp
  | n :: rest, _, .cons hn hrest => by
    intro v hv
    rw [levelsAll]
    rcases List.mem_cons.1 hv with rfl | hv
    · exact (nested_of_written n v hn).mono (Nat.le_max_left ..)
    · exact (nestedAll_of_written rest _ hrest v hv).mono (Nat.le_max_right ..)

end

/-- However its entries are written, a forest is read back. -/
theorem parseForest_of_written {forest : List Node} {items : List Json}
    (h : List.Forall₂ Written forest items) {text : String}
    (htext : Json.parse text = .ok (.array items)) : parseForest text = .ok forest := by
  have hforest : forest? (.array items) = some forest := allOfJson?_of_written forest items h
  rw [parseForest_of_parse htext, hforest]
  rfl

theorem parse_text_of_written {forest : List Node} {items : List Json}
    (h : List.Forall₂ Written forest items) (hlevels : levelsAll forest < maxDepth) :
    Json.parse (Json.text (.array items)) = .ok (.array items) := by
  have hnested : Nested (levelsAll forest + 1) (.array items) :=
    .array (nestedAll_of_written forest items h)
  exact parse_text (hnested.mono hlevels)

end Writing

/-- The format of a phrasebook. A value is decoded to the node that it spells, and an array to the nodes
of its items, unless one of them spells none; a text is read as the array that it is the text of. What
is written is read back, from its values and from any text of them, of which there is one unless they
are nested too deep. -/
theorem parseForest_exact :
    (∀ v n, ofJson? v = some n ↔ Fits v n) ∧
    (∀ v, ofJson? v = none ↔ Unfit v) ∧
    (∀ items, allOfJson? items = none ↔ ∃ item ∈ items, Unfit item) ∧
    (∀ text forest, parseForest text = .ok forest ↔
      ∃ items, Json.parse text = .ok (.array items) ∧ List.Forall₂ Fits items forest) ∧
    (∀ text items, Json.parse text = .ok (.array items) → (∃ item ∈ items, Unfit item) →
      parseForest text = .error .unfit) ∧
    ∀ forest, List.Forall₂ Written forest (allToJson forest) ∧
      ∀ items, List.Forall₂ Written forest items →
        allOfJson? items = some forest ∧
        (∀ text, Json.parse text = .ok (.array items) → parseForest text = .ok forest) ∧
        (levelsAll forest < maxDepth → parseForest (Json.text (.array items)) = .ok forest) := by
  refine ⟨ofJson?_eq_some_iff, fun _ => ofJson?_eq_none_iff, fun _ => allOfJson?_eq_none_iff_unfit,
    fun _ _ => parseForest_eq_ok_iff, ?_, fun forest => ⟨written_allToJson forest, ?_⟩⟩
  · intro text items htext hunfit
    have hforest : forest? (.array items) = none := allOfJson?_eq_none_iff_unfit.2 hunfit
    rw [parseForest_of_parse htext, hforest]
    rfl
  · intro items h
    refine ⟨allOfJson?_of_written forest items h, fun text => parseForest_of_written h, ?_⟩
    intro hlevels
    exact parseForest_of_written h (parse_text_of_written h hlevels)

/-- An empty group and a greeting in a group. -/
def greetings : List Node :=
  [.group [.group [], .entry "hello" (.ofList [("en", "Hello"), ("fr", "Bonjour")])]]

/-- The greeting with its languages out of order. -/
def greetingItems : List Json :=
  [.object [("children", .array [.object [("children", .array [])],
    .object [("id", .string "hello"),
      ("contents", .object [("fr", .string "Bonjour"), ("en", .string "Hello")])]])]]

def greetingText : String :=
  "[\x7b\"children\":[\x7b\"children\":[]\x7d,\x7b\"id\":\"hello\",\"contents\":" ++
  "\x7b\"fr\":\"Bonjour\",\"en\":\"Hello\"\x7d\x7d]\x7d]"

/-- A group within a group that is spoiled by a text. -/
def spoiledItem : Json := .object [("children", .array [.object [("children", .array [.string "?"])]])]

lemma nested_spoiledItem : Nested 4 spoiledItem := by
  refine .object (List.forall_mem_singleton.2 (.array (List.forall_mem_singleton.2 ?_)))
  refine .object (List.forall_mem_singleton.2 (.array (List.forall_mem_singleton.2 ?_)))
  exact .string ..

lemma unfit_spoiledItem : Unfit spoiledItem := by
  have hentry (items : List Json) : ∀ id texts, ¬ IsEntry [("children", .array items)] id texts :=
    fun id texts h => by cases h.id_once
  exact .spoiled rfl (List.mem_singleton_self _)
    (.spoiled rfl (List.mem_singleton_self _) (.scalar fun _ h => by cases h) (hentry _)) (hentry _)

theorem parseForest_exact_greetings :
    List.Forall₂ Written greetings greetingItems ∧ levelsAll greetings < maxDepth ∧
    Json.text (.array greetingItems) = greetingText ∧
    Json.parse greetingText = .ok (.array greetingItems) ∧
    parseForest greetingText = .ok greetings ∧
    parseForest (Json.text (.array greetingItems)) = .ok greetings ∧
    Json.parse (Json.text (.array [spoiledItem])) = .ok (.array [spoiledItem]) ∧
    (∃ item ∈ [spoiledItem], Unfit item) ∧
    parseForest (Json.text (.array [spoiledItem])) = .error .unfit := by
  have hwritten : List.Forall₂ Written greetings greetingItems :=
    .cons (.group (.cons (.group .nil) (.cons (.entry (.swap ..)) .nil))) .nil
  have hlevels : levelsAll greetings < maxDepth := by decide +kernel
  have htext : Json.text (.array greetingItems) = greetingText := by decide +kernel
  have hparse : Json.parse greetingText = .ok (.array greetingItems) :=
    htext ▸ parse_text_of_written hwritten hlevels
  have hspoiled : Json.parse (Json.text (.array [spoiledItem])) = .ok (.array [spoiledItem]) :=
    parse_text ((Nested.array (List.forall_mem_singleton.2 nested_spoiledItem)).mono (by decide))
  have hunfit : ∃ item ∈ [spoiledItem], Unfit item :=
    ⟨spoiledItem, List.mem_singleton_self _, unfit_spoiledItem⟩
  obtain ⟨-, -, -, -, spoils, reads⟩ := parseForest_exact
  obtain ⟨-, back, printed⟩ := (reads greetings).2 greetingItems hwritten
  exact ⟨hwritten, hlevels, htext, hparse, back greetingText hparse, printed hlevels, hspoiled, hunfit,
    spoils _ _ hspoiled hunfit⟩

end Node
end Phrasebook
