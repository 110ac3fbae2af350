import Phrasebook.Proofs.Tag.Pass
import Phrasebook.Proofs.Tag.Splice
import Phrasebook.Proofs.Template.Canonical

/-! Reading a compiled text comes to one pass over the bytes of the raw text, whatever a look-up does on
the way. It looks up the keys of the tags, one after the other, and nothing else. -/
namespace Phrasebook
open Tag Text

lemma Tag.Cursor.map_key_tags (o : List Char) (c : Cursor) :
    (c.tags o).map Tag.key = Template.keysOf (pieces o c.rest) := by
  induction c using tags_induction o with
  | untagged c hfind =>
    rw [tags_of_find?_none hfind, pieces_of_find?_none hfind]
    split <;> rfl
  | tagged c found hfind ih =>
    rw [tags_of_find?_some hfind, pieces_of_find?_some hfind, List.map_cons, ih]
    split <;> rfl

section Look

variable {m : Type → Type} [Monad m] [LawfulMonad m]

lemma Values.run_fetch_recorded (v : Values m) (key : String) (asked : List String) :
    (v.recorded.fetch key).run asked = (fun text => (text, asked ++ [key])) <$> v.fetch key := by
  simp only [fetch, recorded, bind_pure_comp, StateT.run_map, Functor.map_map]
  exact Functor.map_map _ _ (v.lookup key)

namespace Template

/-- The keys are noted in the order of the pieces. -/
theorem run_mapM_recorded (v : Values m) (ps : List Piece) (asked : List String) :
    (ps.mapM (pieceText v.recorded)).run asked =
      (fun texts => (texts, asked ++ keysOf ps)) <$> ps.mapM (pieceText v) := by
  induction ps generalizing asked with
  | nil => simp [keysOf]
  | cons p rest ih =>
    rw [List.mapM_cons, List.mapM_cons]
    cases p with
    | plain text => simp [pieceText, keysOf, ih]
    | tag key => simp [pieceText, keysOf, ih, Values.run_fetch_recorded]

/-- The pieces of a text, read one by one, are what a pass over its bytes puts out. -/
theorem bytes_mapM_pieceText (v : Values m) (cs : List Char) :
    (fun texts => bytes (String.join texts)) <$> (pieces variableOpener cs).mapM (pieceText v) =
      substituteBytes "<global:" v.fetch (bytes (String.ofList cs)) := by
  have hascii : startsAscii "<global:".toList := startsAscii_variableOpener
  induction cs using find?_induction variableOpener with
  | untagged cs hfind =>
    rw [pieces_of_find?_none hfind, substituteBytes_of_find?_none _ hascii hfind]
    cases cs with
    | nil => simp
    | cons c rest => simp [pieceText]
  | tagged cs t hfind ih =>
    rw [pieces_of_find?_some hfind, substituteBytes_of_find?_some _ hascii hfind, ← ih]
    cases hbefore : t.before with
    | nil =>
      have hempty : bytes "" = [] := rfl
      simp [pieceText, bytes_append, hempty]
    | cons c before => simp [pieceText, bytes_append]

end Template
end Look

namespace Content
open Template

variable {m : Type → Type} [Monad m] [LawfulMonad m]

lemma hasTag_iff_occursAt (raw : String) :
    HasTag variableOpener raw.toList ↔ ∃ place, OccursAt "<global:" raw place :=
  (occurs_iff startsAscii_variableOpener _).symm.trans
    (occurs_iff_occursAt startsAscii_variableOpener raw)

theorem compile_eq_fixed_iff {raw s : String} :
    compile raw = .fixed s ↔ s = raw ∧ ∀ place, ¬ OccursAt "<global:" raw place := by
  rw [← not_exists, ← hasTag_iff_occursAt]
  by_cases h : HasTag variableOpener raw.toList
  · rw [compile_of_hasTag h]
    constructor
    · intro heq
      cases heq
    · rintro ⟨-, hnone⟩
      exact absurd h hnone
  · rw [compile_of_not_hasTag h, Content.fixed.injEq, eq_comm]
    exact ⟨fun heq => ⟨heq, h⟩, And.left⟩

theorem bytes_readM_compile (v : Values m) (raw : String) :
    bytes <$> (compile raw).readM v = substituteBytes "<global:" v.fetch (bytes raw) := by
  have hascii : startsAscii "<global:".toList := startsAscii_variableOpener
  by_cases h : HasTag variableOpener raw.toList
  · have hpieces := bytes_mapM_pieceText v raw.toList
    rw [String.ofList_toList] at hpieces
    rw [compile_of_hasTag h, readM, read_ofPieces, Functor.map_map, hpieces]
  · have hnone : find? "<global:".toList raw.toList = none := (find?_eq_none_iff hascii _).2 h
    have hraw := substituteBytes_of_find?_none v.fetch hascii hnone
    rw [String.ofList_toList] at hraw
    rw [compile_of_not_hasTag h, readM, map_pure, hraw]

theorem run_readM_recorded (v : Values m) (raw : String) (asked : List String) :
    ((compile raw).readM v.recorded).run asked =
      (fun text => (text, asked ++ (all "<global:" raw).map Tag.key)) <$>
        (compile raw).readM v := by
  have hkeys : (all "<global:" raw).map Tag.key = keysOf (pieces variableOpener raw.toList) :=
    Cursor.map_key_tags _ _
  rw [hkeys]
  by_cases h : HasTag variableOpener raw.toList
  · rw [compile_of_hasTag h, readM, readM, read_ofPieces, read_ofPieces, StateT.run_map,
      run_mapM_recorded, Functor.map_map, Functor.map_map]
  · rw [compile_of_not_hasTag h,
      pieces_of_find?_none ((find?_eq_none_iff startsAscii_variableOpener _).2 h)]
    split <;> simp [readM, keysOf]

/-- A compiled text reads as its raw text does in one pass over the bytes, in which each tag is replaced
by what a look-up of its key brings, whatever else a look-up does. The keys looked up are those of the
tags in order. A text stays as it is just if it has no tag. -/
theorem readM_onePass :
    (∀ (m : Type → Type) [Monad m] [LawfulMonad m] (v : Values m) (raw : String),
      bytes <$> (compile raw).readM v = substituteBytes "<global:" v.fetch (bytes raw) ∧
      ∀ asked, ((compile raw).readM v.recorded).run asked =
        (fun text => (text, asked ++ (all "<global:" raw).map Tag.key)) <$>
          (compile raw).readM v) ∧
    ∀ raw, AreTags "<global:" raw (all "<global:" raw) ∧
      ∀ s, compile raw = .fixed s ↔ s = raw ∧ ∀ place, ¬ OccursAt "<global:" raw place := by
  refine ⟨?_, ?_⟩
  · intro m _ _ v raw
    exact ⟨bytes_readM_compile v raw, run_readM_recorded v raw⟩
  · intro raw
    exact ⟨areTags_all (by decide) raw, fun s => compile_eq_fixed_iff⟩

/-- Values that count the look-ups; one key has none. -/
def counting : Values (StateM Nat) where
  lookup key count :=
    (if key = "00000000000000b2" then none else some s!"<global:{count}>", count + 1)
  undefined := "?"

/-- One key is looked up twice and brings two values. -/
theorem readM_onePass_counting :
    let raw := "é<global:<global:00000000000000a1><global:00000000000000b2>0>ß<global:00000000000000a1>"
    LawfulMonad (StateM Nat) ∧
    ((bytes <$> (compile raw).readM counting).run 0).run =
      (bytes "é<global:<global:0>?0>ß<global:2>", 3) ∧
    ((((compile raw).readM counting.recorded).run []).run 0).run =
      (("é<global:<global:0>?0>ß<global:2>",
        ["00000000000000a1", "00000000000000b2", "00000000000000a1"]), 3) := by
  intro raw
  have lawful : LawfulMonad (StateM Nat) := inferInstance
  obtain ⟨pass, looks⟩ := readM_onePass.1 (StateM Nat) counting raw
  refine ⟨lawful, ?_, ?_⟩
  · rw [pass]
    decide +kernel
  · rw [looks]
    decide +kernel

end Content
end Phrasebook
