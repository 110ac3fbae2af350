import Phrasebook.Proofs.Tag.Substitution
import Phrasebook.Template

/-! Reading compiled text gives the raw text with the current values in the place of its variable
tags, whatever the values are at the time. -/
namespace Phrasebook
open Tag

/-- The text that stands for a variable. -/
def Values.textOf (v : Values Id) (key : String) : String := (v.lookup key).run.getD v.undefined

section Reading

variable {m : Type → Type} [Monad m]

/-- The same where a look-up may do something. -/
def Values.fetch (v : Values m) (key : String) : m String := do
  return (← v.lookup key).getD v.undefined

namespace Template

/-- What a piece of a cut text reads. -/
def pieceText (v : Values m) : Piece → m String
  | .plain text => pure (String.ofList text)
  | .tag key => v.fetch (String.ofList key)

/-- The segments from a slot on are the pieces they were numbered from, in whatever view: a literal
is a plain piece, and a filler whose slot has a key is the tag of that key. -/
theorem map_segmentsFrom {α : Type} (keys : List String) (f : Segment → α) (g : Piece → α)
    (hliteral : ∀ text, f (.literal (String.ofList text)) = g (.plain text))
    (hfiller : ∀ slot key, keys[slot]? = some (String.ofList key) → f (.filler slot) = g (.tag key))
    (before : List String) {ps : List Piece} (h : keys = before ++ keysOf ps) :
    (segmentsFrom before.length ps).map f = ps.map g := by
  -- Whatever keys stand before the slot: the slots of the rest are counted from there.
  induction ps generalizing before with
  | nil => rfl
  | cons p rest ih =>
    cases p with
    | plain text =>
      rw [segmentsFrom, List.map_cons, List.map_cons, ih before h, hliteral]
    | tag key =>
      rw [keysOf] at h
      have hslot : keys[before.length]? = some (String.ofList key) := by
        rw [h, List.getElem?_append_right (Nat.le_refl _), Nat.sub_self]
        rfl
      have hkeys : keys = (before ++ [String.ofList key]) ++ keysOf rest := by
        rw [h, List.append_assoc]
        rfl
      have hrest := ih (before ++ [String.ofList key]) hkeys
      rw [List.length_append, List.length_singleton] at hrest
      rw [segmentsFrom, List.map_cons, List.map_cons, hrest, hfiller _ _ hslot]

lemma map_segmentText (v : Values m) (ps : List Piece) :
    (segmentsFrom 0 ps).map ((ofPieces ps).segmentText v) = ps.map (pieceText v) := by
  refine map_segmentsFrom (keysOf ps) _ _ (fun text => rfl) ?_ [] rfl
  intro slot key hslot
  have hkeys : (ofPieces ps).keys = keysOf ps := rfl
  simp only [segmentText, hkeys, hslot]
  rfl

/-- Slots are filled in the order of the tags. -/
theorem read_ofPieces [LawfulMonad m] (v : Values m) (ps : List Piece) :
    (ofPieces ps).read v = String.join <$> ps.mapM (pieceText v) := by
  have hmap := congrArg (List.mapM id) (map_segmentText v ps)
  rw [List.mapM_map, List.mapM_map] at hmap
  rw [← bind_pure_comp]
  exact congrArg (· >>= fun texts => pure (String.join texts)) hmap

end Template
end Reading

namespace Content
open Template

theorem read_compile (v : Values Id) (raw : String) :
    (compile raw).read v = replaceAll "<global:" v.textOf raw := by
  apply String.toList_injective
  unfold replaceAll
  rw [String.toList_ofList]
  change _ = substitute variableOpener _ raw.toList
  unfold compile
  split
  · have hpieces : (fun p => (pieceText v p).run.toList) =
        Piece.filled fun key => (v.textOf (String.ofList key)).toList := by
      funext p
      cases p with
      | plain text => exact String.toList_ofList
      | tag key => rfl
    rw [← flatMap_pieces _ startsAscii_variableOpener, ← hpieces]
    show ((ofPieces (pieces variableOpener raw.toList)).read v).run.toList = _
    rw [read_ofPieces, Id.run_map, List.idRun_mapM, String.toList_join, List.flatMap_map]
  · rename_i hoccurs
    have hnone : find? variableOpener raw.toList = none := by
      simpa [occurs] using hoccurs
    rw [substitute_of_find?_none _ startsAscii_variableOpener hnone]
    rfl

/-- Text that was cut once stays as it is. -/
@[simp] theorem compiled_compile (raw : String) : (compile raw).compiled = compile raw := by
  by_cases h : occurs variableOpener raw.toList
  · have hlive : compile raw = .live (.ofPieces (pieces variableOpener raw.toList)) := if_pos h
    rw [hlive, compiled]
  · have hfixed : compile raw = .fixed raw := if_neg h
    rw [hfixed, compiled, hfixed]

@[simp] lemma compiled_compiled (c : Content) : c.compiled.compiled = c.compiled := by
  cases c with
  | fixed raw => exact compiled_compile raw
  | live t => rfl

end Content
end Phrasebook
