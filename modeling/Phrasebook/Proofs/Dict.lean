import Mathlib.Tactic.Lemma
import Phrasebook.Dict

/-! What a map holds after each of its operations. A map is known by its look-ups, so the order in which
entries are put in does not matter as long as their keys differ. -/
namespace Phrasebook.Dict

variable {α β : Type}

@[simp] theorem get?_empty (key : String) : (empty : Dict α).get? key = none := rfl

theorem mem_keys_iff (d : Dict α) (key : String) : key ∈ d.keys ↔ (d.get? key).isSome := by
  rw [get?, List.lookup_isSome_iff, keys, List.mem_map]
  constructor
  · rintro ⟨e, he, rfl⟩
    exact ⟨e, he, BEq.rfl⟩
  · rintro ⟨e, he, hkey⟩
    exact ⟨e, he, (eq_of_beq hkey).symm⟩

theorem keys_map (f : String → α → β) (d : Dict α) : (d.map f).keys = d.keys := by
  simp [keys, map]

lemma lookup_place (key k : String) (value : α) (l : List (String × α))
    (h : (l.map Prod.fst).Pairwise (· < ·)) :
    (place key value l).lookup k = if k = key then some value else l.lookup k := by
  induction l with
  | nil =>
    by_cases hk : k = key
    · simp [place, hk]
    · simp [place, List.lookup_cons, beq_eq_false_iff_ne.2 hk, hk]
  | cons e rest ih =>
    obtain ⟨k', v⟩ := e
    rw [List.map_cons, List.pairwise_cons] at h
    unfold place
    split
    · by_cases hk : k = key
      · simp [hk]
      · simp only [List.lookup_cons, beq_eq_false_iff_ne.2 hk, hk, if_false]
    · split
      · rename_i _ hlt
        rw [List.lookup_cons, ih h.2, List.lookup_cons]
        by_cases hk : k = key
        · subst hk
          have hne : k ≠ k' := fun e => String.lt_irrefl k' (e ▸ hlt)
          simp only [beq_eq_false_iff_ne.2 hne, if_true]
        · simp only [hk, if_false]
      · rename_i h₁ h₂
        have hk : key = k' := String.le_antisymm (String.not_lt.1 h₂) (String.not_lt.1 h₁)
        subst hk
        by_cases hk : k = key
        · simp [hk]
        · simp only [List.lookup_cons, beq_eq_false_iff_ne.2 hk, hk, if_false]

theorem get?_insert (d : Dict α) (key k : String) (value : α) :
    (d.insert key value).get? k = if k = key then some value else d.get? k :=
  lookup_place key k value d.entries d.increasing

/-- Of values put in under one key the last stays. -/
theorem get?_foldl_insert (f : String → β → α) (l : List (String × β)) (d : Dict α) (k : String) :
    (l.foldl (fun d e => d.insert e.1 (f e.1 e.2)) d).get? k =
      ((l.reverse.lookup k).map (f k)).or (d.get? k) := by
  induction l generalizing d with
  | nil => rfl
  | cons e rest ih =>
    obtain ⟨key, value⟩ := e
    rw [List.foldl_cons, ih, get?_insert, List.reverse_cons, List.lookup_append]
    cases hr : rest.reverse.lookup k with
    | some v => rfl
    | none =>
      by_cases hk : k = key
      · simp [hk]
      · simp [List.lookup_cons, hk, beq_eq_false_iff_ne.2 hk]

lemma lookup_filter_ne {κ : Type} [BEq κ] [LawfulBEq κ] [DecidableEq κ] (key k : κ)
    (l : List (κ × α)) :
    (l.filter fun e => e.1 != key).lookup k = if k = key then none else l.lookup k := by
  induction l with
  | nil => simp
  | cons e rest ih =>
    obtain ⟨k', v⟩ := e
    by_cases hkey : k' = key
    · subst hkey
      rw [List.filter_cons_of_neg (by simp), ih]
      by_cases hk : k = k'
      · simp [hk]
      · simp [List.lookup_cons, hk, beq_eq_false_iff_ne.2 hk]
    · rw [List.filter_cons_of_pos (by simpa using hkey), List.lookup_cons, ih, List.lookup_cons]
      by_cases hk : k = k'
      · subst hk
        simp [hkey]
      · simp [beq_eq_false_iff_ne.2 hk]

/-- An erased key has no value, and the other ones keep theirs. -/
theorem get?_erase (d : Dict α) (key k : String) :
    (d.erase key).get? k = if k = key then none else d.get? k :=
  lookup_filter_ne key k d.entries

lemma lookup_map_value (f : String → α → β) (l : List (String × α)) (k : String) :
    (l.map fun e => (e.1, f e.1 e.2)).lookup k = (l.lookup k).map (f k) := by
  induction l with
  | nil => rfl
  | cons e rest ih =>
    obtain ⟨key, value⟩ := e
    by_cases hk : k = key
    · simp [hk]
    · simp only [List.map_cons, List.lookup_cons, beq_eq_false_iff_ne.2 hk]
      exact ih

theorem get?_map (f : String → α → β) (d : Dict α) (k : String) :
    (d.map f).get? k = (d.get? k).map (f k) :=
  lookup_map_value f d.entries k

theorem get?_modify (d : Dict α) (key k : String) (f : α → α) :
    (d.modify key f).get? k = if k = key then (d.get? k).map f else d.get? k := by
  unfold modify
  rw [get?_map]
  by_cases hk : k = key
  · simp [hk]
  · simp [hk]

lemma place_of_lt {key : String} (value : α) {l : List (String × α)} (h : ∀ e ∈ l, e.1 < key) :
    place key value l = l ++ [(key, value)] := by
  induction l with
  | nil => rfl
  | cons e rest ih =>
    obtain ⟨k, v⟩ := e
    have hk : k < key := h (k, v) (List.mem_cons_self ..)
    have hne : ¬ key < k := fun h' => String.lt_irrefl k (String.lt_trans hk h')
    unfold place
    rw [if_neg hne, if_pos hk, ih fun e he => h e (List.mem_cons_of_mem _ he)]
    rfl

/-- Entries in order are put in one after the other. -/
lemma entries_foldl_insert (l : List (String × α)) (d : Dict α)
    (h : ((d.entries ++ l).map Prod.fst).Pairwise (· < ·)) :
    (l.foldl (fun d e => d.insert e.1 e.2) d).entries = d.entries ++ l := by
  induction l generalizing d with
  | nil => simp
  | cons e rest ih =>
    obtain ⟨key, value⟩ := e
    have hlt : ∀ e ∈ d.entries, e.1 < key := by
      intro e he
      rw [List.map_append, List.pairwise_append] at h
      exact h.2.2 _ (List.mem_map_of_mem he) _ (List.mem_cons_self ..)
    have hentries : (d.insert key value).entries = d.entries ++ [(key, value)] :=
      place_of_lt value hlt
    rw [List.foldl_cons, ih, hentries, List.append_assoc]
    · rfl
    · rw [hentries, List.append_assoc]
      exact h

@[simp] theorem ofList_entries (d : Dict α) : (ofList d.entries).entries = d.entries :=
  entries_foldl_insert d.entries empty d.increasing

lemma nodup_keys (d : Dict α) : (d.entries.map Prod.fst).Nodup := by
  refine d.increasing.imp ?_
  rintro k _ hlt rfl
  exact String.lt_irrefl k hlt

lemma eq_of_entries {d d' : Dict α} (h : d.entries = d'.entries) : d = d' := by
  cases d
  cases d'
  cases h
  rfl

lemma eq_of_perm {d d' : Dict α} (h : d.entries.Perm d'.entries) : d = d' := by
  refine eq_of_entries (h.eq_of_pairwise ?_ (List.pairwise_map.1 d.increasing)
    (List.pairwise_map.1 d'.increasing))
  exact fun _ _ _ _ hlt hgt => absurd hgt (String.lt_asymm hlt)

lemma mem_iff_lookup {l : List (String × α)} (h : (l.map Prod.fst).Nodup) (e : String × α) :
    e ∈ l ↔ l.lookup e.1 = some e.2 := by
  induction l with
  | nil => simp
  | cons e' rest ih =>
    rw [List.map_cons, List.nodup_cons] at h
    by_cases hkey : e.1 = e'.1
    · have hrest : e ∉ rest := fun hmem => h.1 (hkey ▸ List.mem_map_of_mem hmem)
      rw [List.lookup_cons, hkey, beq_self_eq_true]
      simp only [List.mem_cons, hrest, or_false, Prod.ext_iff, hkey, true_and, Option.some.injEq,
        eq_comm]
    · have hne : e ≠ e' := fun heq => hkey (heq ▸ rfl)
      rw [List.lookup_cons, beq_eq_false_iff_ne.2 hkey]
      simp only [List.mem_cons, hne, false_or, ih h.2]

/-- Maps with the same look-ups are equal. -/
theorem ext_get? {d d' : Dict α} (h : ∀ key, d.get? key = d'.get? key) : d = d' := by
  have nodup (d : Dict α) : d.entries.Nodup :=
    (List.pairwise_map.1 d.nodup_keys).imp fun hne heq => hne (congrArg Prod.fst heq)
  refine eq_of_perm ((List.perm_ext_iff_of_nodup (nodup d) (nodup d')).2 fun e => ?_)
  rw [mem_iff_lookup d.nodup_keys, mem_iff_lookup d'.nodup_keys]
  exact iff_of_eq (congrArg (· = some e.2) (h e.1))

lemma place_perm {key : String} (value : α) {l : List (String × α)}
    (h : key ∉ l.map Prod.fst) : (place key value l).Perm ((key, value) :: l) := by
  induction l with
  | nil => exact .refl _
  | cons e rest ih =>
    obtain ⟨k, v⟩ := e
    rw [List.map_cons, List.mem_cons, not_or] at h
    unfold place
    split
    · exact .refl _
    · split
      · exact ((ih h.2).cons (k, v)).trans (.swap ..)
      · rename_i h₁ h₂
        exact absurd (String.le_antisymm (String.not_lt.1 h₂) (String.not_lt.1 h₁)) h.1

/-- Entries under different keys are all put in. -/
lemma foldl_insert_perm (l : List (String × α)) (d : Dict α)
    (h : ((d.entries ++ l).map Prod.fst).Nodup) :
    (l.foldl (fun d e => d.insert e.1 e.2) d).entries.Perm (d.entries ++ l) := by
  induction l generalizing d with
  | nil => simp
  | cons e rest ih =>
    have hmove : (d.entries ++ e :: rest).Perm (e :: (d.entries ++ rest)) := List.perm_middle
    have hnodup := (hmove.map Prod.fst).nodup_iff.1 h
    have hplace : (d.insert e.1 e.2).entries.Perm (e :: d.entries) := by
      refine place_perm e.2 fun hmem => ?_
      rw [List.map_cons, List.nodup_cons, List.map_append, List.mem_append] at hnodup
      exact hnodup.1 (.inl hmem)
    have hrest := hplace.append_right rest
    exact (ih _ ((hrest.map Prod.fst).nodup_iff.2 hnodup)).trans (hrest.trans hmove.symm)

/-- The entries of a map make it up again in any order. -/
theorem ofList_of_perm {l : List (String × α)} {d : Dict α} (h : l.Perm d.entries) :
    ofList l = d := by
  have hnodup : (l.map Prod.fst).Nodup := (h.map Prod.fst).nodup_iff.2 d.nodup_keys
  exact eq_of_perm ((foldl_insert_perm l empty hnodup).trans h)

lemma mem_foldl_insert {l : List (String × α)} {d : Dict α} {e : String × α}
    (h : e ∈ (l.foldl (fun d e => d.insert e.1 e.2) d).entries) : e ∈ d.entries ∨ e ∈ l := by
  induction l generalizing d with
  | nil => exact .inl h
  | cons e' rest ih =>
    rcases ih h with hd | hrest
    · rcases mem_place hd with rfl | hmem
      · exact .inr (List.mem_cons_self ..)
      · exact .inl hmem
    · exact .inr (List.mem_cons_of_mem _ hrest)

lemma mem_of_mem_ofList {l : List (String × α)} {e : String × α}
    (h : e ∈ (ofList l).entries) : e ∈ l := by
  rcases mem_foldl_insert h with hempty | hl
  · cases hempty
  · exact hl

end Phrasebook.Dict
