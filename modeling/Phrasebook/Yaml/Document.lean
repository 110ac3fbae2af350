import Phrasebook.Data.Basic
import Phrasebook.Yaml.Token

/-! YAML documents as data, without anchors, tags and directives. An unquoted scalar stays
bare. What is read from the head of a list of tokens comes with the tokens after it. -/
namespace Phrasebook.Yaml

def absent : Data := .bare ""

/-- A scalar as the name of a field. -/
def name? : Data → Option String
  | .bare s => some s
  | .string s => some s
  | _ => none

/-- A table, one of whose names cannot be read, cannot be read either. -/
def tableOf (pairs : List (Data × Data)) : Data :=
  match pairs.mapM fun (k, v) => (name? k).map (·, v) with
  | some fields => .record fields
  | none => .unreadable

def endsBlockEntry : List Token → Bool
  | .blockItem :: _ | .key :: _ | .value :: _ | .blockEnd :: _ => true
  | _ => false

mutual

/-- A node. Block collections stand only where blocks may, and a list that is not indented only as
the value of a key. -/
def node : Nat → (block unindented : Bool) → List Token → Option (Data × List Token)
  | 0, _, _, _ => none
  | fuel + 1, block, unindented, ts =>
    match ts with
    | .scalar plain text :: rest => some (if plain then .bare text else .string text, rest)
    | .flowList :: rest => (flowItems fuel true rest).map fun (xs, rest) => (.list xs, rest)
    | .flowTable :: rest => (flowPairs fuel true rest).map fun (xs, rest) => (tableOf xs, rest)
    | .blockItem :: _ =>
      if unindented then (unindentedItems fuel ts).map fun (xs, rest) => (.list xs, rest) else none
    | .blockList :: rest =>
      if block then (blockItems fuel rest).map fun (xs, rest) => (.list xs, rest) else none
    | .blockTable :: rest =>
      if block then (blockPairs fuel rest).map fun (xs, rest) => (tableOf xs, rest) else none
    | _ => none

def blockItems : Nat → List Token → Option (List Data × List Token)
  | 0, _ => none
  | fuel + 1, ts =>
    match ts with
    | .blockEnd :: rest => some ([], rest)
    | .blockItem :: rest => do
      let (x, rest) ← match rest with
        | .blockItem :: _ | .blockEnd :: _ => some (absent, rest)
        | _ => node fuel true false rest
      let (xs, rest) ← blockItems fuel rest
      some (x :: xs, rest)
    | _ => none

def unindentedItems : Nat → List Token → Option (List Data × List Token)
  | 0, _ => none
  | fuel + 1, ts =>
    match ts with
    | .blockItem :: rest => do
      let (x, rest) ← if endsBlockEntry rest then some (absent, rest) else node fuel true false rest
      let (xs, rest) ← unindentedItems fuel rest
      some (x :: xs, rest)
    | _ => some ([], ts)

/-- The key or the value that follows its sign in a block, which may be left out. -/
def blockPart : Nat → List Token → Option (Data × List Token)
  | 0, _ => none
  | fuel + 1, ts =>
    match ts with
    | .key :: _ | .value :: _ | .blockEnd :: _ => some (absent, ts)
    | _ => node fuel true true ts

def blockPairs : Nat → List Token → Option (List (Data × Data) × List Token)
  | 0, _ => none
  | fuel + 1, ts =>
    match ts with
    | .blockEnd :: rest => some ([], rest)
    | .key :: rest => do
      let (k, rest) ← blockPart fuel rest
      let (v, rest) ← match rest with
        | .value :: rest => blockPart fuel rest
        | _ => some (absent, rest)
      let (xs, rest) ← blockPairs fuel rest
      some ((k, v) :: xs, rest)
    | _ => none

/-- The items of a flow list; a comma may follow the last one. -/
def flowItems : Nat → (first : Bool) → List Token → Option (List Data × List Token)
  | 0, _, _ => none
  | fuel + 1, first, ts =>
    match ts with
    | .flowListEnd :: rest => some ([], rest)
    | _ => do
      let ts ← if first then some ts else match ts with
        | .flowItem :: rest => some rest
        | _ => none
      match ts with
      | .flowListEnd :: rest => some ([], rest)
      | _ => do
        let (x, rest) ← match ts with
          | .key :: rest => (flowPair fuel rest).map fun (p, rest) => (tableOf [p], rest)
          | _ => node fuel false false ts
        let (xs, rest) ← flowItems fuel false rest
        some (x :: xs, rest)

/-- A single pair in a flow list, after the sign of its key. -/
def flowPair : Nat → List Token → Option ((Data × Data) × List Token)
  | 0, _ => none
  | fuel + 1, ts => do
    let (k, rest) ← match ts with
      | .value :: rest | .flowItem :: rest | .flowListEnd :: rest => some (absent, rest)
      | _ => node fuel false false ts
    let (v, rest) ← match rest with
      | .value :: rest =>
        match rest with
        | .flowItem :: _ | .flowListEnd :: _ => some (absent, rest)
        | _ => node fuel false false rest
      | _ => some (absent, rest)
    some ((k, v), rest)

/-- The key of a pair in a flow table; the flag tells that a value may follow. -/
def flowKey : Nat → List Token → Option ((Data × Bool) × List Token)
  | 0, _ => none
  | fuel + 1, ts =>
    match ts with
    | .key :: rest =>
      match rest with
      | .value :: _ | .flowItem :: _ | .flowTableEnd :: _ => some ((absent, true), rest)
      | _ => (node fuel false false rest).map fun (k, rest) => ((k, true), rest)
    | _ => (node fuel false false ts).map fun (k, rest) => ((k, false), rest)

def flowPairs : Nat → (first : Bool) → List Token → Option (List (Data × Data) × List Token)
  | 0, _, _ => none
  | fuel + 1, first, ts =>
    match ts with
    | .flowTableEnd :: rest => some ([], rest)
    | _ => do
      let ts ← if first then some ts else match ts with
        | .flowItem :: rest => some rest
        | _ => none
      match ts with
      | .flowTableEnd :: rest => some ([], rest)
      | _ => do
        let ((k, valued), rest) ← flowKey fuel ts
        let (v, rest) ← match rest with
          | .value :: rest =>
            if !valued then none
            else match rest with
              | .flowItem :: _ | .flowTableEnd :: _ => some (absent, rest)
              | _ => node fuel false false rest
          | _ => some (absent, rest)
        let (xs, rest) ← flowPairs fuel false rest
        some ((k, v) :: xs, rest)

end

/-- The content of a document; without any it is absent. -/
def content (fuel : Nat) (ts : List Token) : Option (Data × List Token) :=
  match ts with
  | [] | .documentStart :: _ | .documentEnd :: _ => some (absent, ts)
  | _ => node fuel true false ts

/-- The one document of a text. Nothing may follow it but marks of its end. -/
def document? (text : String) : Option Data := do
  let ts ← tokens? text
  let fuel := 4 * ts.length + 8
  match ts with
  | [] => some absent
  | _ =>
    let (d, rest) ← match ts with
      | .documentStart :: rest => content fuel rest
      | _ => node fuel true false ts
    if rest.all (· == .documentEnd) then some d else none

end Phrasebook.Yaml
