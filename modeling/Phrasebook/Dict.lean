/-! A finite map with text keys is the list of its entries in increasing key order, so that two maps
with the same look-ups are equal. Text is ordered by code point. -/
namespace Phrasebook

structure Dict (α : Type) where
  entries : List (String × α)
  increasing : (entries.map Prod.fst).Pairwise (· < ·) := by decide

namespace Dict

variable {α β : Type}

def empty : Dict α := ⟨[], .nil⟩

instance : EmptyCollection (Dict α) := ⟨empty⟩
instance : Inhabited (Dict α) := ⟨empty⟩

def keys (d : Dict α) : List String := d.entries.map Prod.fst

def size (d : Dict α) : Nat := d.entries.length

def get? (d : Dict α) (key : String) : Option α := d.entries.lookup key

def contains (d : Dict α) (key : String) : Bool := (d.get? key).isSome

/-- Puts an entry in its place, over an older one with the same key. -/
def place (key : String) (value : α) : List (String × α) → List (String × α)
  | [] => [(key, value)]
  | (k, v) :: rest =>
    if key < k then (key, value) :: (k, v) :: rest
    else if k < key then (k, v) :: place key value rest
    else (key, value) :: rest

theorem mem_place {key : String} {value : α} {l : List (String × α)} {e : String × α}
    (h : e ∈ place key value l) : e = (key, value) ∨ e ∈ l := by
  induction l with
  | nil => simp_all [place]
  | cons e' rest ih =>
    obtain ⟨k, v⟩ := e'
    unfold place at h
    split at h
    · simp at h ⊢; rcases h with h | h | h <;> simp [h]
    · split at h
      · simp at h ⊢
        rcases h with h | h
        · simp [h]
        · rcases ih h with h | h <;> simp [h]
      · simp at h ⊢; rcases h with h | h <;> simp [h]

theorem place_increasing (key : String) (value : α) (l : List (String × α))
    (h : (l.map Prod.fst).Pairwise (· < ·)) :
    ((place key value l).map Prod.fst).Pairwise (· < ·) := by
  induction l with
  | nil => simp [place]
  | cons e rest ih =>
    obtain ⟨k, v⟩ := e
    rw [List.map_cons, List.pairwise_cons] at h
    unfold place
    split
    · rename_i hk
      simp only [List.map_cons, List.pairwise_cons]
      refine ⟨fun x hx => ?_, h⟩
      rcases List.mem_cons.1 hx with rfl | hx
      · exact hk
      · exact String.lt_trans hk (h.1 x hx)
    · split
      · rename_i _ hk
        simp only [List.map_cons, List.pairwise_cons]
        refine ⟨fun x hx => ?_, ih h.2⟩
        obtain ⟨e, he, rfl⟩ := List.mem_map.1 hx
        rcases mem_place he with h' | h'
        · rw [h']
          exact hk
        · exact h.1 _ (List.mem_map.2 ⟨e, h', rfl⟩)
      · rename_i h₁ h₂
        have hk : key = k := String.le_antisymm (String.not_lt.1 h₂) (String.not_lt.1 h₁)
        subst hk
        simpa only [List.map_cons, List.pairwise_cons] using h

/-- The new value replaces an older one. -/
def insert (d : Dict α) (key : String) (value : α) : Dict α :=
  ⟨place key value d.entries, place_increasing key value d.entries d.increasing⟩

def erase (d : Dict α) (key : String) : Dict α :=
  ⟨d.entries.filter (fun e => e.1 != key), by
    have h : (d.entries.filter fun e => e.1 != key).map Prod.fst =
        (d.entries.map Prod.fst).filter (· != key) := by
      rw [List.filter_map]; rfl
    rw [h]
    exact d.increasing.filter _⟩

/-- Of entries with one key the last stays. -/
def ofList (l : List (String × α)) : Dict α :=
  l.foldl (fun d e => d.insert e.1 e.2) empty

def map (f : String → α → β) (d : Dict α) : Dict β :=
  ⟨d.entries.map fun e => (e.1, f e.1 e.2), by
    have h : (d.entries.map fun e => (e.1, f e.1 e.2)).map Prod.fst = d.entries.map Prod.fst := by
      simp
    rw [h]
    exact d.increasing⟩

def modify (d : Dict α) (key : String) (f : α → α) : Dict α :=
  d.map fun k v => if k == key then f v else v

instance [BEq α] : BEq (Dict α) := ⟨fun a b => a.entries == b.entries⟩

instance [DecidableEq α] : DecidableEq (Dict α) := fun a b =>
  decidable_of_iff (a.entries = b.entries) ⟨fun h => by cases a; cases b; simp_all, fun h => h ▸ rfl⟩

end Dict
end Phrasebook
