import Phrasebook.Decimal.Shortest
import Phrasebook.Dict

/-! Data as a document spells it, before a field gives it a type. -/
namespace Phrasebook
open Decimal

inductive Data where
  | null
  | bool (value : Bool)
  | int (value : Int)
  | double (value : Double)
  | single (value : Single)
  | string (value : String)
  /-- An unquoted scalar, which the field that reads it gives a type. -/
  | bare (text : String)
  /-- A value that can be skipped but not read. -/
  | unreadable
  | list (items : List Data)
  /-- Fields in order; a name may be repeated. -/
  | record (fields : List (String × Data))
  deriving Repr, Inhabited

namespace Data

mutual

def same : Data → Data → Bool
  | .null, .null => true
  | .bool b, .bool b' => b == b'
  | .int i, .int i' => i == i'
  | .double x, .double x' => x == x'
  | .single x, .single x' => x == x'
  | .string s, .string s' => s == s'
  | .bare s, .bare s' => s == s'
  | .unreadable, .unreadable => true
  | .list ds, .list ds' => sameItems ds ds'
  | .record fields, .record fields' => sameFields fields fields'
  | _, _ => false

def sameItems : List Data → List Data → Bool
  | [], [] => true
  | d :: rest, d' :: rest' => same d d' && sameItems rest rest'
  | _, _ => false

def sameFields : List (String × Data) → List (String × Data) → Bool
  | [], [] => true
  | (name, d) :: rest, (name', d') :: rest' => name == name' && same d d' && sameFields rest rest'
  | _, _ => false

end

mutual

theorem same_iff (d d' : Data) : same d d' = true ↔ d = d' := by
  cases d with
  | list ds => cases d' <;> simp [same, sameItems_iff ds]
  | record fields => cases d' <;> simp [same, sameFields_iff fields]
  | _ => cases d' <;> simp [same]

theorem sameItems_iff (ds ds' : List Data) : sameItems ds ds' = true ↔ ds = ds' := by
  match ds with
  | [] => cases ds' <;> simp [sameItems]
  | d :: rest => cases ds' <;> simp [sameItems, same_iff d, sameItems_iff rest]

theorem sameFields_iff (fields fields' : List (String × Data)) :
    sameFields fields fields' = true ↔ fields = fields' := by
  match fields with
  | [] => cases fields' <;> simp [sameFields]
  | (name, d) :: rest =>
    cases fields' <;> simp [sameFields, same_iff d, sameFields_iff rest, Prod.ext_iff]

end

instance : DecidableEq Data := fun d d' => decidable_of_iff _ (same_iff d d')

/-- The values under a name, in order. -/
def under (name : String) (fields : List (String × Data)) : List Data :=
  (fields.filter fun e => e.1 == name).map Prod.snd

theorem under_cons (name : String) (e : String × Data) (fields : List (String × Data)) :
    under name (e :: fields) = if e.1 = name then e.2 :: under name fields else under name fields := by
  by_cases h : e.1 = name <;> simp [under, h]

end Data
end Phrasebook
