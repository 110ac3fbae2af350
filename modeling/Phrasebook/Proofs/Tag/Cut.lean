import Mathlib.Data.List.Chain
import Phrasebook.Proofs.Tag.Substitution

/-! A text and its pieces determine each other. The first character of an opener stands nowhere else in
a tag, so no tag arises where plain text meets a tag. -/
namespace Phrasebook.Tag

/-- A tag is written somewhere in the text. -/
def HasTag (opener cs : List Char) : Prop :=
  ∃ before key after, IsKey key ∧ cs = before ++ (written opener key ++ after)

lemma written_ne_nil (opener key : List Char) : written opener key ≠ [] := by
  simp [written]

lemma not_hasTag_nil (opener : List Char) : ¬ HasTag opener [] := by
  rintro ⟨before, key, after, -, h⟩
  have hwritten := (List.append_eq_nil_iff.1 (List.append_eq_nil_iff.1 h.symm).2).1
  exact written_ne_nil opener key hwritten

lemma hasTag_cons_iff {opener : List Char} {c : Char} {rest : List Char} :
    HasTag opener (c :: rest) ↔ (head? opener (c :: rest)).isSome ∨ HasTag opener rest := by
  constructor
  · rintro ⟨before, key, after, hkey, h⟩
    cases before with
    | nil => exact .inl (Option.isSome_iff_exists.2 ⟨_, head?_eq_some_iff.2 ⟨hkey, h⟩⟩)
    | cons b before => exact .inr ⟨before, key, after, hkey, (List.cons.inj h).2⟩
  · rintro (h | ⟨before, key, after, hkey, rfl⟩)
    · obtain ⟨⟨key, after⟩, h⟩ := Option.isSome_iff_exists.1 h
      obtain ⟨hkey, h⟩ := head?_eq_some_iff.1 h
      exact ⟨[], key, after, hkey, h⟩
    · exact ⟨c :: before, key, after, hkey, rfl⟩

/-- A tag at the head of a text stays there, whatever follows the text. -/
lemma isSome_head?_append {opener cs : List Char} (h : (head? opener cs).isSome)
    (more : List Char) : (head? opener (cs ++ more)).isSome := by
  obtain ⟨⟨key, after⟩, h⟩ := Option.isSome_iff_exists.1 h
  obtain ⟨hkey, rfl⟩ := head?_eq_some_iff.1 h
  refine Option.isSome_iff_exists.2 ⟨(key, after ++ more), head?_eq_some_iff.2 ⟨hkey, ?_⟩⟩
  rw [List.append_assoc]

section Search

variable {opener : List Char} (hascii : startsAscii opener)
include hascii

theorem find?_eq_none_iff (cs : List Char) : find? opener cs = none ↔ ¬ HasTag opener cs := by
  induction cs with
  | nil => exact ⟨fun _ => not_hasTag_nil opener, fun _ => rfl⟩
  | cons c rest ih =>
    rw [hasTag_cons_iff]
    cases hhead : head? opener (c :: rest) with
    | some tag => simp [find?_of_tag hhead]
    | none => simp [find?_of_no_tag hascii hhead, ih]

theorem occurs_iff (cs : List Char) : occurs opener cs = true ↔ HasTag opener cs := by
  rw [occurs, Option.isSome_iff_ne_none, ne_eq, find?_eq_none_iff hascii, not_not]

/-- What is found is a tag, and none stands before it. -/
theorem find?_eq_some {cs : List Char} {t : Found} (h : find? opener cs = some t) :
    IsKey t.key ∧ cs = t.before ++ (written opener t.key ++ t.after) ∧
      ¬ HasTag opener t.before := by
  replace h := finds_of_find? hascii h
  induction h with
  | here hhead =>
    obtain ⟨hkey, hcs⟩ := head?_eq_some_iff.1 hhead
    exact ⟨hkey, hcs, not_hasTag_nil opener⟩
  | @later c rest t hhead ht ih =>
    obtain ⟨hkey, rfl, hbefore⟩ := ih
    refine ⟨hkey, rfl, ?_⟩
    rw [hasTag_cons_iff]
    rintro (hsome | hlater)
    · have hlonger := isSome_head?_append hsome (written opener t.key ++ t.after)
      rw [List.cons_append, hhead] at hlonger
      cases hlonger
    · exact hbefore hlater

end Search

/-- The first character of the opener is no other character of a tag. -/
def StandsOut (opener : List Char) : Prop :=
  ∃ x rest, opener = x :: rest ∧ x ∉ rest ∧ x.isHexDigit = false ∧ x ≠ '>'

lemma standsOut_variableOpener : StandsOut variableOpener :=
  ⟨'<', "global:".toList, rfl, by decide, by decide, by decide⟩

lemma standsOut_entryOpener : StandsOut entryOpener :=
  ⟨'<', "ref:".toList, rfl, by decide, by decide, by decide⟩

lemma StandsOut.written_eq {opener : List Char} (h : StandsOut opener) :
    ∃ x, ∀ key, IsKey key → ∃ rest, written opener key = x :: rest ∧ x ∉ rest := by
  obtain ⟨x, rest, rfl, hrest, hhex, hclose⟩ := h
  refine ⟨x, fun key hkey => ⟨rest ++ key ++ ['>'], rfl, ?_⟩⟩
  have hnot : x ∉ key := fun hmem => by
    rw [List.all_eq_true.1 hkey.2 x hmem] at hhex
    cases hhex
  simp [hrest, hnot, hclose]

/-- What goes on without a character ends before that character. -/
lemma prefix_of_prefix_append_cons {x : Char} {w text rest : List Char} (hx : x ∉ w)
    (h : w <+: text ++ x :: rest) : w <+: text := by
  induction text generalizing w with
  | nil =>
    cases w with
    | nil => exact List.nil_prefix
    | cons y w =>
      obtain ⟨rfl, -⟩ := List.cons_prefix_cons.1 h
      exact absurd (List.mem_cons_self ..) hx
  | cons c text ih =>
    cases w with
    | nil => exact List.nil_prefix
    | cons y w =>
      obtain ⟨rfl, htail⟩ := List.cons_prefix_cons.1 h
      have hw : w <+: text := ih (fun hmem => hx (List.mem_cons_of_mem _ hmem)) htail
      exact List.cons_prefix_cons.2 ⟨rfl, hw⟩

section Cut

variable {opener : List Char}

/-- A tag at the head of plain text with a tag after it ends before that tag. -/
lemma StandsOut.head?_append (hout : StandsOut opener) {c : Char} {text key after : List Char}
    (hkey : IsKey key) (h : (head? opener (c :: text ++ (written opener key ++ after))).isSome) :
    (head? opener (c :: text)).isSome := by
  obtain ⟨⟨key', after'⟩, h⟩ := Option.isSome_iff_exists.1 h
  obtain ⟨hkey', h⟩ := head?_eq_some_iff.1 h
  obtain ⟨x, hwritten⟩ := hout.written_eq
  obtain ⟨w, hw, -⟩ := hwritten key hkey
  obtain ⟨w', hw', hx⟩ := hwritten key' hkey'
  rw [hw, hw'] at h
  obtain ⟨rfl, h⟩ := List.cons.inj h
  obtain ⟨rest, hrest⟩ := prefix_of_prefix_append_cons hx ⟨after', h.symm⟩
  refine Option.isSome_iff_exists.2 ⟨(key', rest), head?_eq_some_iff.2 ⟨hkey', ?_⟩⟩
  rw [hw', ← hrest]
  rfl

lemma find?_append_written (hascii : startsAscii opener) (hout : StandsOut opener)
    {text key : List Char} (htext : ¬ HasTag opener text) (hkey : IsKey key) (after : List Char) :
    find? opener (text ++ (written opener key ++ after)) = some ⟨text, key, after⟩ := by
  induction text with
  | nil =>
    obtain ⟨x, hwritten⟩ := hout.written_eq
    obtain ⟨w, hw, -⟩ := hwritten key hkey
    rw [List.nil_append, hw]
    refine find?_of_tag (head?_eq_some_iff.2 ⟨hkey, ?_⟩)
    rw [hw]
    rfl
  | cons c text ih =>
    rw [hasTag_cons_iff, not_or] at htext
    have hhead : head? opener (c :: text ++ (written opener key ++ after)) = none := by
      rw [← Option.not_isSome_iff_eq_none]
      exact fun h => htext.1 (hout.head?_append hkey h)
    rw [List.cons_append] at hhead ⊢
    rw [find?_of_no_tag hascii hhead, ih htext.2]
    rfl

def Piece.isPlain : Piece → Bool
  | .plain _ => true
  | .tag _ => false

/-- Pieces as a text is cut into: plain ones are not empty, hold no tag and stand apart from each
other, and the others hold keys. -/
structure IsCut (opener : List Char) (ps : List Piece) : Prop where
  plains : ∀ text, .plain text ∈ ps → text ≠ [] ∧ ¬ HasTag opener text
  apart : ps.IsChain fun p q => ¬ (p.isPlain ∧ q.isPlain)
  keys : ∀ key, .tag key ∈ ps → IsKey key

lemma isCut_nil : IsCut opener [] := ⟨by simp, .nil, by simp⟩

lemma isCut_plain {text : List Char} (hne : text ≠ []) (htext : ¬ HasTag opener text) :
    IsCut opener [.plain text] := ⟨by simp_all, .singleton _, by simp⟩

lemma isCut_tag_cons {key : List Char} {ps : List Piece} (hkey : IsKey key)
    (h : IsCut opener ps) : IsCut opener (.tag key :: ps) := by
  refine ⟨?_, ?_, ?_⟩
  · simpa using h.plains
  · cases ps with
    | nil => exact .singleton _
    | cons p ps => exact .cons_cons (fun hp => by cases hp.1) h.apart
  · intro key' hmem
    rcases List.mem_cons.1 hmem with heq | hmem
    · cases heq
      exact hkey
    · exact h.keys key' hmem

lemma isCut_plain_cons {text key : List Char} {ps : List Piece} (hne : text ≠ [])
    (htext : ¬ HasTag opener text) (h : IsCut opener (.tag key :: ps)) :
    IsCut opener (.plain text :: .tag key :: ps) := by
  refine ⟨?_, .cons_cons (fun hp => by cases hp.2) h.apart, ?_⟩
  · intro text' hmem
    rcases List.mem_cons.1 hmem with heq | hmem
    · cases heq
      exact ⟨hne, htext⟩
    · exact h.plains text' hmem
  · intro key' hmem
    rcases List.mem_cons.1 hmem with heq | hmem
    · cases heq
    · exact h.keys key' hmem

lemma IsCut.tail {p : Piece} {ps : List Piece} (h : IsCut opener (p :: ps)) :
    IsCut opener ps :=
  ⟨fun text hmem => h.plains text (List.mem_cons_of_mem _ hmem), h.apart.tail,
    fun key hmem => h.keys key (List.mem_cons_of_mem _ hmem)⟩

theorem isCut_pieces (hascii : startsAscii opener) (cs : List Char) :
    IsCut opener (pieces opener cs) := by
  induction cs using find?_induction opener with
  | untagged cs hfind =>
    rw [pieces_of_find?_none hfind]
    cases cs with
    | nil => exact isCut_nil
    | cons c rest =>
      exact isCut_plain (List.cons_ne_nil c rest) ((find?_eq_none_iff hascii _).1 hfind)
  | tagged cs t hfind ih =>
    obtain ⟨hkey, -, hbefore⟩ := find?_eq_some hascii hfind
    have hafter : IsCut opener (.tag t.key :: pieces opener t.after) := isCut_tag_cons hkey ih
    rw [pieces_of_find?_some hfind]
    split
    · exact hafter
    · rename_i hne
      exact isCut_plain_cons (fun h => hne (List.isEmpty_iff.2 h)) hbefore hafter

/-- The text that is cut into the given pieces. -/
def joined (opener : List Char) (ps : List Piece) : List Char :=
  ps.flatMap (Piece.filled (written opener))

/-- A tag replaced by itself stays. -/
theorem substitute_written (cs : List Char) : substitute opener (written opener) cs = cs := by
  induction hn : cs.length using Nat.strongRecOn generalizing cs with
  | ind n ih =>
    cases cs with
    | nil => exact substitute_nil _
    | cons c rest =>
      cases hhead : head? opener (c :: rest) with
      | some tag =>
        obtain ⟨key, after⟩ := tag
        have hafter := ih after.length (hn ▸ head?_length hhead) after rfl
        rw [substitute_of_tag _ hhead, hafter]
        exact (head?_eq_some_iff.1 hhead).2.symm
      | none =>
        have hrest := ih rest.length (hn ▸ Nat.lt_succ_self _) rest rfl
        rw [substitute_of_no_tag _ hhead, hrest]

theorem joined_pieces (hascii : startsAscii opener) (cs : List Char) :
    joined opener (pieces opener cs) = cs := by
  rw [joined, flatMap_pieces _ hascii, substitute_written]

/-- Pieces that are cut as a text is are those of the text they make up. -/
theorem pieces_joined (hascii : startsAscii opener) (hout : StandsOut opener) :
    {ps : List Piece} → IsCut opener ps → pieces opener (joined opener ps) = ps
  | [], _ => by
    have hfind : find? opener (joined opener []) = none := rfl
    rw [pieces_of_find?_none hfind]
    rfl
  | .tag key :: ps, h => by
    have hkey := h.keys key (List.mem_cons_self ..)
    have hfind : find? opener (joined opener (.tag key :: ps)) =
        some ⟨[], key, joined opener ps⟩ :=
      find?_append_written hascii hout (not_hasTag_nil opener) hkey _
    rw [pieces_of_find?_some hfind, pieces_joined hascii hout h.tail]
    rfl
  | [.plain text], h => by
    obtain ⟨hne, htext⟩ := h.plains text (List.mem_cons_self ..)
    have hjoined : joined opener [.plain text] = text := List.append_nil text
    rw [hjoined, pieces_of_find?_none ((find?_eq_none_iff hascii _).2 htext),
      if_neg fun h => hne (List.isEmpty_iff.1 h)]
  | .plain text :: .plain text' :: ps, h => by
    cases h.apart with
    | cons_cons hfirst _ => exact absurd ⟨rfl, rfl⟩ hfirst
  | .plain text :: .tag key :: ps, h => by
    obtain ⟨hne, htext⟩ := h.plains text (List.mem_cons_self ..)
    have hkey := h.keys key (List.mem_cons_of_mem _ (List.mem_cons_self ..))
    have hfind : find? opener (joined opener (.plain text :: .tag key :: ps)) =
        some ⟨text, key, joined opener ps⟩ :=
      find?_append_written hascii hout htext hkey _
    rw [pieces_of_find?_some hfind, pieces_joined hascii hout h.tail.tail,
      if_neg fun h => hne (List.isEmpty_iff.1 h)]

end Cut

end Phrasebook.Tag
