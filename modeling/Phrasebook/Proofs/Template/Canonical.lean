import Mathlib.Algebra.GroupWithZero.Nat
import Phrasebook.Proofs.Tag.Cut
import Phrasebook.Proofs.Template
import Phrasebook.Proofs.Text.Bytes

/-! A raw text and its template determine each other: the segments of a template are the pieces of one
text only, and all lists of pieces that can come about are templates of the texts they make up. -/
namespace Phrasebook
open Tag

namespace Segment

/-- The piece that a segment stands for among some keys; a slot without a key stands for none. -/
def piece? (keys : List String) : Segment → Option Piece
  | .literal text => some (.plain text.toList)
  | .filler slot => (keys[slot]?).map fun key => .tag key.toList

def slot? : Segment → Option Nat
  | .literal _ => none
  | .filler slot => some slot

/-- The bytes that a segment has before it is filled. -/
def bytes : Segment → Nat
  | .literal text => text.utf8ByteSize
  | .filler _ => 0

end Segment

namespace Template

/-- The pieces that the segments stand for, if each slot has a key. -/
def pieces? (t : Template) : Option (List Piece) := t.segments.mapM (Segment.piece? t.keys)

/-- Pieces of a text that is worth a template: literals without tags, which are not empty and stand
apart from each other, and fillers with keys, one at least. -/
structure IsCanonical (ps : List Piece) : Prop extends IsCut variableOpener ps where
  filled : ∃ key, .tag key ∈ ps

/-- Literals are written as they are and fillers as tags of their keys. -/
def print (ps : List Piece) : String := String.ofList (joined variableOpener ps)

/-- What holds of the numbers in a template: the fillers have the slots of the keys in order, and the
literals have the bytes that are counted. -/
structure IsNumbered (t : Template) : Prop where
  slots : t.segments.filterMap Segment.slot? = List.range t.keys.length
  literalBytes : t.literalBytes = (t.segments.map Segment.bytes).sum

lemma pieces?_ofPieces (ps : List Piece) : (ofPieces ps).pieces? = some ps := by
  have hmap : (segmentsFrom 0 ps).map (Segment.piece? (keysOf ps)) = ps.map some := by
    refine map_segmentsFrom (keysOf ps) _ _ ?_ ?_ [] rfl
    · intro text
      rw [Segment.piece?, String.toList_ofList]
    · intro slot key hslot
      rw [Segment.piece?, hslot, Option.map_some, String.toList_ofList]
  have hsome : ps.mapM some = some (ps.map id) := List.mapM_pure
  have hview : (ofPieces ps).pieces? =
      ((segmentsFrom 0 ps).map (Segment.piece? (keysOf ps))).mapM id := by
    rw [List.mapM_map]
    rfl
  rw [hview, hmap, List.mapM_map]
  exact hsome.trans (congrArg some (List.map_id ps))

lemma filterMap_slot? (slot : Nat) (ps : List Piece) :
    (segmentsFrom slot ps).filterMap Segment.slot? = List.range' slot (keysOf ps).length := by
  induction ps generalizing slot with
  | nil => rfl
  | cons p rest ih =>
    cases p with
    | plain text => exact ih slot
    | tag key =>
      rw [segmentsFrom, keysOf, List.length_cons, List.range'_succ, ← ih (slot + 1)]
      rfl

lemma sum_bytes (slot : Nat) (ps : List Piece) :
    ((segmentsFrom slot ps).map Segment.bytes).sum = plainBytes ps := by
  induction ps generalizing slot with
  | nil => rfl
  | cons p rest ih =>
    cases p with
    | plain text =>
      rw [segmentsFrom, List.map_cons, List.sum_cons, ih, plainBytes, Segment.bytes,
        Text.utf8ByteSize_ofList]
    | tag key =>
      rw [segmentsFrom, List.map_cons, List.sum_cons, ih, plainBytes, Segment.bytes, Nat.zero_add]

theorem isNumbered_ofPieces (ps : List Piece) : (ofPieces ps).IsNumbered where
  slots := by
    rw [List.range_eq_range']
    exact filterMap_slot? 0 ps
  literalBytes := (sum_bytes 0 ps).symm

lemma hasTag_joined {ps : List Piece} (h : IsCanonical ps) :
    HasTag variableOpener (joined variableOpener ps) := by
  obtain ⟨key, hkey⟩ := h.filled
  obtain ⟨before, after, rfl⟩ := List.append_of_mem hkey
  refine ⟨joined variableOpener before, key, joined variableOpener after, h.keys key hkey, ?_⟩
  rw [joined, List.flatMap_append, List.flatMap_cons]
  rfl

/-- Without a tag there is nothing but literals, and these have no tag either. -/
theorem isCanonical_pieces {cs : List Char} (h : HasTag variableOpener cs) :
    IsCanonical (pieces variableOpener cs) := by
  refine ⟨isCut_pieces startsAscii_variableOpener cs, ?_⟩
  cases hfind : find? variableOpener cs with
  | none => exact absurd h ((find?_eq_none_iff startsAscii_variableOpener cs).1 hfind)
  | some t =>
    refine ⟨t.key, ?_⟩
    rw [pieces_of_find?_some hfind]
    split <;> simp

end Template

namespace Content
open Template

theorem compile_of_hasTag {raw : String} (h : HasTag variableOpener raw.toList) :
    compile raw = .live (ofPieces (pieces variableOpener raw.toList)) :=
  if_pos ((occurs_iff startsAscii_variableOpener _).2 h)

theorem compile_of_not_hasTag {raw : String} (h : ¬ HasTag variableOpener raw.toList) :
    compile raw = .fixed raw :=
  if_neg fun hoccurs => h ((occurs_iff startsAscii_variableOpener _).1 hoccurs)

lemma print_pieces (raw : String) : print (pieces variableOpener raw.toList) = raw := by
  rw [print, joined_pieces startsAscii_variableOpener, String.ofList_toList]

theorem compile_injective {a b : String} (h : compile a = compile b) : a = b := by
  by_cases ha : HasTag variableOpener a.toList
  · by_cases hb : HasTag variableOpener b.toList
    · rw [compile_of_hasTag ha, compile_of_hasTag hb] at h
      have hpieces := congrArg pieces? (Content.live.inj h)
      rw [pieces?_ofPieces, pieces?_ofPieces, Option.some.injEq] at hpieces
      rw [← print_pieces a, hpieces, print_pieces]
    · rw [compile_of_hasTag ha, compile_of_not_hasTag hb] at h
      cases h
  · by_cases hb : HasTag variableOpener b.toList
    · rw [compile_of_not_hasTag ha, compile_of_hasTag hb] at h
      cases h
    · rw [compile_of_not_hasTag ha, compile_of_not_hasTag hb] at h
      exact Content.fixed.inj h

/-- A text with a tag compiles to the template of canonical pieces, which print as the text; canonical
pieces are those of the template of what they print; and no two texts compile to the same. -/
theorem compile_canonical :
    (∀ raw : String, HasTag variableOpener raw.toList → ∃ t ps, compile raw = .live t ∧
      t.pieces? = some ps ∧ IsCanonical ps ∧ t.IsNumbered ∧ print ps = raw) ∧
    (∀ ps, IsCanonical ps → ∃ t, compile (print ps) = .live t ∧ t.pieces? = some ps ∧
      t.IsNumbered) ∧
    ∀ a b, compile a = compile b ↔ a = b := by
  refine ⟨?_, ?_, ?_⟩
  · intro raw h
    exact ⟨_, _, compile_of_hasTag h, pieces?_ofPieces _, isCanonical_pieces h,
      isNumbered_ofPieces _, print_pieces raw⟩
  · intro ps h
    have htag : HasTag variableOpener (print ps).toList := by
      rw [print, String.toList_ofList]
      exact hasTag_joined h
    have hpieces : pieces variableOpener (print ps).toList = ps := by
      rw [print, String.toList_ofList]
      exact pieces_joined startsAscii_variableOpener standsOut_variableOpener h.toIsCut
    refine ⟨_, compile_of_hasTag htag, ?_, isNumbered_ofPieces _⟩
    rw [pieces?_ofPieces, hpieces]
  · exact fun a b => ⟨compile_injective, congrArg compile⟩

/-- A literal that ends like an opener, two tags side by side and a literal like the end of a tag. -/
theorem compile_canonical_halfTags :
    let raw := "<global:<global:00000000000000A1><global:00000000000000a1>0>é"
    let ps := [.plain "<global:".toList, .tag "00000000000000A1".toList,
      .tag "00000000000000a1".toList, .plain "0>é".toList]
    HasTag variableOpener raw.toList ∧ IsCanonical ps ∧ print ps = raw ∧
    (∃ t ps, compile raw = .live t ∧ t.pieces? = some ps ∧ IsCanonical ps ∧ t.IsNumbered ∧
      print ps = raw) ∧
    ∃ t, compile (print ps) = .live t ∧ t.pieces? = some ps ∧ t.IsNumbered := by
  intro raw ps
  have tagged : HasTag variableOpener raw.toList :=
    (occurs_iff startsAscii_variableOpener _).1 (by decide +kernel)
  have canonical : IsCanonical ps := by
    refine ⟨⟨?_, ?_, ?_⟩, "00000000000000A1".toList, by simp [ps]⟩
    · intro text htext
      have hplain : text = "<global:".toList ∨ text = "0>é".toList := by simpa [ps] using htext
      rcases hplain with rfl | rfl
      · exact ⟨by decide, (find?_eq_none_iff startsAscii_variableOpener _).1 (by decide +kernel)⟩
      · exact ⟨by decide, (find?_eq_none_iff startsAscii_variableOpener _).1 (by decide +kernel)⟩
    · simp [ps, Piece.isPlain]
    · intro key hkey
      have htag : key = "00000000000000A1".toList ∨ key = "00000000000000a1".toList := by
        simpa [ps] using hkey
      rcases htag with rfl | rfl <;> decide
  exact ⟨tagged, canonical, by decide +kernel, compile_canonical.1 raw tagged,
    compile_canonical.2.1 ps canonical⟩

end Content
end Phrasebook
