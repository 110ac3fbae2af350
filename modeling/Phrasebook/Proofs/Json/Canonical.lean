import Phrasebook.Console.Command
import Phrasebook.Proofs.Dict

/-! The canonical form of a JSON value is its own canonical form, and each value that a command sets
is in it. -/
namespace Phrasebook
namespace Json

lemma canonicalFields_eq_self {fields : List (String × Json)}
    (h : ∀ e ∈ fields, e.2.canonical = e.2) : canonicalFields fields = fields := by
  induction fields with
  | nil => rfl
  | cons e rest ih =>
    obtain ⟨key, value⟩ := e
    have hvalue : value.canonical = value := h (key, value) (List.mem_cons_self ..)
    rw [canonicalFields, hvalue, ih fun e he => h e (List.mem_cons_of_mem _ he)]

mutual

@[simp] theorem canonical_canonical : (v : Json) → v.canonical.canonical = v.canonical
  | .null | .bool _ | .int _ | .float _ | .string _ => by simp only [canonical]
  | .array items => by simp only [canonical, canonicalItems_canonicalItems items]
  | .object fields => by
    have hfields : ∀ e ∈ (Dict.ofList (canonicalFields fields)).entries, e.2.canonical = e.2 :=
      fun e he => canonical_of_mem_canonicalFields fields e (Dict.mem_of_mem_ofList he)
    simp only [canonical, canonicalFields_eq_self hfields, Dict.ofList_entries]

lemma canonicalItems_canonicalItems :
    (items : List Json) → canonicalItems (canonicalItems items) = canonicalItems items
  | [] => rfl
  | v :: rest => by
    simp only [canonicalItems, canonical_canonical v, canonicalItems_canonicalItems rest]

lemma canonical_of_mem_canonicalFields :
    (fields : List (String × Json)) → ∀ e ∈ canonicalFields fields, e.2.canonical = e.2
  | [], _, he => by cases he
  | (key, v) :: rest, e, he => by
    rw [canonicalFields] at he
    rcases List.mem_cons.1 he with rfl | hrest
    · exact canonical_canonical v
    · exact canonical_of_mem_canonicalFields rest e hrest

end

end Json

namespace Command

lemma canonical_valueOf (raw : List Char) : (valueOf raw).canonical = valueOf raw := by
  unfold valueOf
  split
  · exact Json.canonical_canonical _
  · simp only [Json.canonical]

lemma exists_of_map_eq_ok {ε α β : Type} {f : α → β} {x : Except ε α} {b : β}
    (h : x.map f = .ok b) : ∃ a, f a = b := by
  cases x with
  | error e => cases h
  | ok a => exact ⟨a, Except.ok.inj h⟩

/-- What the arguments of a command have in common if a line spells it: a language is asked for by a
text, and a variable is set to a canonical value. -/
def IsSpelled : Command → Prop
  | .lang r => ∃ code, r = .ofText code
  | .set _ value => value.canonical = value
  | _ => True

theorem isSpelled_of_parse {line : String} {command : Command} (h : parse line = .ok command) :
    command.IsSpelled := by
  unfold parse at h
  generalize splitVerb (Text.trim line.toList) = words at h
  obtain ⟨verb, argument⟩ := words
  dsimp only at h
  -- The verbs in order: `get` and `lang` map their argument, `set` alone reads a value.
  split at h
  case h_1 =>
    obtain ⟨a, rfl⟩ := exists_of_map_eq_ok h
    trivial
  case h_3 =>
    obtain ⟨a, rfl⟩ := exists_of_map_eq_ok h
    exact ⟨_, rfl⟩
  case h_4 =>
    unfold required at h
    split at h
    · cases h
    · simp only [bind, Except.bind] at h
      split at h
      · cases h
        exact canonical_valueOf _
      · cases h
  all_goals
    cases h
    try trivial

end Command
end Phrasebook
