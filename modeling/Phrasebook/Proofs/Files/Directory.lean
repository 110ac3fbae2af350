import Phrasebook.Proofs.Dict
import Phrasebook.Proofs.Settings.Store
import Phrasebook.Files.Directory

/-! A directory keeps what is relied on of files: whatever temporary files are made, filled, renamed
and removed, a file in the present folder changes only by a renaming to it. -/
namespace Phrasebook

namespace Directory
open Phrasebook.Path (slash isIdle isUp ofText)

variable {d d' : Directory}

theorem walk_append (d : Directory) (place : Place) (before after : List (List UInt8)) :
    d.walk place (before ++ after) = (d.walk place before).bind (d.walk · after) := by
  induction before generalizing place with
  | nil => rfl
  | cons piece rest ih =>
    simp only [List.cons_append, walk]
    split
    · rfl
    · rfl
    · split
      · exact ih place
      · split
        · exact ih _
        · split
          · rfl
          · exact ih _

/-- Where the last piece is a name, a path leads to it in some folder. -/
lemma walk_append_singleton {place place' : Place} {before : List (List UInt8)} {last : List UInt8}
    (h : d.walk place (before ++ [last]) = .ok place') (hidle : isIdle last = false)
    (hup : isUp last = false) : ∃ folder, place' = folder ++ [last] := by
  rw [walk_append] at h
  cases hbefore : d.walk place before with
  | error e =>
    rw [hbefore] at h
    cases h
  | ok folder =>
    rw [hbefore] at h
    simp only [Except.bind, walk, hidle, hup, Bool.false_eq_true, if_false] at h
    split at h
    · cases h
    · cases h
    · split at h
      · cases h
      · cases h
        exact ⟨folder, rfl⟩

/-- What no other file than a temporary one is called. -/
def IsTemporaryName (name : Path) : Prop := Text.bytes ".tmp" <+: name.bytes ∧ slash ∉ name.bytes

lemma slash_not_mem_digits (n : Nat) : slash ∉ Text.bytes (toString n) := by
  have hdigit : ∀ c ∈ (toString n).toList, c.isDigit = true := fun c hc =>
    Nat.isDigit_of_mem_toDigits (by decide) (by decide) (Nat.toList_repr ▸ hc)
  have hascii : ∀ c ∈ (toString n).toList, c.utf8Size = 1 := by
    intro c hc
    have h := hdigit c hc
    simp only [Char.isDigit, Bool.and_eq_true, decide_eq_true_eq] at h
    exact Char.utf8Size_eq_one_iff.2 (UInt32.le_trans h.2 (by decide))
  rw [← (toString n).ofList_toList, Text.bytes_of_ascii hascii, List.mem_map]
  rintro ⟨c, hc, hslash⟩
  have hc' : c = '/' := by
    have hnat := congrArg UInt8.toNat hslash
    rw [(Text.toNat_toUInt8_of_ascii (hascii c hc)).1] at hnat
    exact Char.toNat_inj.1 hnat
  exact absurd (hc' ▸ hdigit c hc) (by decide)

theorem isTemporaryName_freshName (d : Directory) (folder : Place) :
    IsTemporaryName (d.freshName folder) := by
  have hcandidate (n : Nat) : IsTemporaryName (ofText (".tmp" ++ toString n)) := by
    refine ⟨⟨Text.bytes (toString n), (Text.bytes_append ..).symm⟩, ?_⟩
    rw [ofText, Text.bytes_append, List.mem_append]
    exact not_or_intro (by decide +kernel) (slash_not_mem_digits n)
  have hplain : IsTemporaryName ".tmp" := ⟨List.prefix_rfl, by decide +kernel⟩
  unfold freshName
  dsimp only
  cases hfind : List.find? _ _ with
  | none => exact hplain
  | some name =>
    obtain ⟨n, -, rfl⟩ := List.mem_map.1 (List.mem_of_find?_eq_some hfind)
    exact hcandidate n

lemma IsTemporaryName.exists_eq {name : Path} (h : IsTemporaryName name) :
    ∃ rest, name.bytes = [0x2E, 0x74, 0x6D, 0x70] ++ rest := by
  obtain ⟨⟨rest, hrest⟩, -⟩ := h
  have htmp : Text.bytes ".tmp" = [0x2E, 0x74, 0x6D, 0x70] := by decide +kernel
  exact ⟨rest, by rw [← hrest, htmp]⟩

lemma IsTemporaryName.not_isIdle {name : Path} (h : IsTemporaryName name) :
    isIdle name.bytes = false := by
  obtain ⟨rest, hrest⟩ := h.exists_eq
  rw [hrest]
  rfl

lemma IsTemporaryName.not_isUp {name : Path} (h : IsTemporaryName name) :
    isUp name.bytes = false := by
  obtain ⟨rest, hrest⟩ := h.exists_eq
  rw [hrest]
  rfl

section Steps

variable {path : Path}

lemma resolve_eq_ok {place : Place} (h : d.resolve path = .ok place) :
    d.walk (origin path) path.pieces = .ok place := by
  unfold resolve at h
  cases hcheck : checkPath path with
  | error e =>
    rw [hcheck] at h
    cases h
  | ok _ =>
    rw [hcheck] at h
    exact h

lemma run_attempt {α : Type} {step : Directory → Except FileFault (α × Directory)}
    {r : Except FileFault α} (h : (attempt step).run d = (r, d')) :
    (∃ x, r = .ok x ∧ step d = .ok (x, d')) ∨ ∃ e, r = .error e ∧ d' = d := by
  have hrun : (attempt step).run d = attempt step d := rfl
  rw [hrun, attempt] at h
  split at h
  · rename_i hstep
    cases h
    exact .inl ⟨_, rfl, hstep⟩
  · cases h
    exact .inr ⟨_, rfl, rfl⟩

lemma run_attempt_map {step : Directory → Except FileFault Directory}
    {r : Except FileFault Unit} (h : (attempt fun d => (step d).map ((), ·)).run d = (r, d')) :
    (r = .ok () ∧ step d = .ok d') ∨ ∃ e, r = .error e ∧ d' = d := by
  rcases run_attempt h with ⟨x, rfl, hstep⟩ | hfault
  · cases hd : step d with
    | error e =>
      rw [hd] at hstep
      cases hstep
    | ok d₁ =>
      rw [hd] at hstep
      cases hstep
      exact .inl ⟨rfl, rfl⟩
  · exact .inr hfault

lemma createTemporary_eq_ok {t : Path} (h : d.createTemporary path = .ok (t, d')) :
    ∃ place, t = path.join (d.freshName place) ∧
      d' = d.put (place ++ [(d.freshName place).bytes]) (.file .empty) := by
  unfold createTemporary at h
  cases hplace : d.resolve path with
  | error e =>
    rw [hplace] at h
    cases h
  | ok place =>
    rw [hplace] at h
    simp only [bind, Except.bind] at h
    split at h
    · cases h
    · cases h
    · split at h
      · cases h
      · cases h
        exact ⟨place, rfl, rfl⟩

lemma write_eq_ok {bytes : ByteArray} (h : d.write path bytes = .ok d') :
    ∃ place, d.resolve path = .ok place ∧ d.entry? place ≠ some .folder ∧
      d' = d.put place (.file bytes) := by
  unfold write at h
  cases hplace : d.resolve path with
  | error e =>
    rw [hplace] at h
    cases h
  | ok place =>
    rw [hplace] at h
    simp only [bind, Except.bind] at h
    split at h
    · cases h
    · rename_i hfolder
      cases h
      exact ⟨place, rfl, hfolder, rfl⟩

end Steps

/-- Where the path of a temporary file leads. -/
theorem resolve_of_isTemporary {t : Path} (ht : files.IsTemporary t) {place : Place}
    (h : d.resolve t = .ok place) :
    ∃ folder name, place = folder ++ [name.bytes] ∧ IsTemporaryName name := by
  obtain ⟨folder, w, hcreated⟩ := ht
  rcases hrun : (files.createTemporary folder).run w with ⟨r, w'⟩
  rw [hrun] at hcreated
  rcases run_attempt hrun with ⟨x, rfl, hstep⟩ | ⟨e, rfl, -⟩
  · cases hcreated
    obtain ⟨above, rfl, -⟩ := createTemporary_eq_ok hstep
    have hname := isTemporaryName_freshName w above
    obtain ⟨before, hpieces⟩ := Path.pieces_join folder hname.2
    have hwalk := resolve_eq_ok h
    rw [hpieces] at hwalk
    obtain ⟨above', hplace⟩ := walk_append_singleton hwalk hname.not_isIdle hname.not_isUp
    exact ⟨above', _, hplace, hname⟩
  · cases hcreated

/-- A name that a file in the present folder can have and no temporary file has. -/
structure IsPlainName (name : Path) : Prop where
  noNul : 0 ∉ name.bytes
  noSlash : slash ∉ name.bytes
  short : name.bytes.length ≤ 255
  notIdle : isIdle name.bytes = false
  notUp : isUp name.bytes = false
  notTemporary : ¬ Text.bytes ".tmp" <+: name.bytes

section PlainName

variable {name : Path} (hname : IsPlainName name)
include hname

lemma IsPlainName.nonempty : name.bytes ≠ [] := by
  intro hempty
  have hidle := hname.notIdle
  rw [hempty] at hidle
  cases hidle

lemma IsPlainName.checkPath : checkPath name = .ok () := by
  have hshort := hname.short
  simp only [Directory.checkPath, List.contains_iff_mem, hname.noNul, List.isEmpty_iff,
    hname.nonempty, if_false]
  rw [if_neg (by omega)]

lemma IsPlainName.isAbsolute : name.isAbsolute = false := by
  rw [Path.isAbsolute, beq_eq_false_iff_ne]
  intro hhead
  exact hname.noSlash (List.mem_of_mem_head? hhead)

lemma IsPlainName.walk (d : Directory) : d.walk [] [name.bytes] = .ok [name.bytes] := by
  have hfolder : d.entry? [] = some .folder := rfl
  have hshort := hname.short
  simp only [Directory.walk, hfolder, hname.notIdle, hname.notUp, Bool.false_eq_true, if_false,
    List.nil_append]
  rw [if_neg (by omega)]

lemma IsPlainName.resolve (d : Directory) : d.resolve name = .ok [name.bytes] := by
  rw [Directory.resolve, hname.checkPath, origin, hname.isAbsolute,
    Path.pieces_of_not_mem hname.noSlash]
  exact hname.walk d

lemma IsPlainName.slot? (d : Directory) : d.slot? name = .ok (some [name.bytes]) := by
  have hnonempty : ([name.bytes].filter fun piece => !piece.isEmpty) = [name.bytes] := by
    simp [hname.nonempty]
  have hfolder : d.walk [] [[Path.dot]] = .ok [] := rfl
  rw [Directory.slot?, hname.checkPath, origin, hname.isAbsolute,
    Path.pieces_of_not_mem hname.noSlash, hnonempty]
  simp only [bind, Except.bind, List.dropLast_singleton, List.nil_append, Bool.false_eq_true,
    if_false, hfolder, List.getLast?_singleton, hname.notIdle, hname.notUp, Bool.or_self,
    hname.walk d]
  rfl

lemma IsPlainName.entry? (d : Directory) :
    d.entry? [name.bytes] = d.entries.lookup [name.bytes] := by
  have hroot : name.bytes ≠ [slash] := by
    intro h
    exact hname.noSlash (h ▸ List.mem_singleton_self slash)
  simp [Directory.entry?, isFixed, hname.notUp, hroot]

/-- A temporary file stands in another folder or has another name. -/
lemma IsPlainName.place_ne (folder : Place) {temporary : Path} (h : IsTemporaryName temporary) :
    folder ++ [temporary.bytes] ≠ [name.bytes] := by
  intro heq
  have hlast := congrArg List.getLast? heq
  rw [List.getLast?_concat, List.getLast?_singleton] at hlast
  exact hname.notTemporary (Option.some.inj hlast ▸ h.1)

end PlainName

section Lookup

variable (d : Directory) {place other : Place}

lemma lookup_drop_of_ne (h : other ≠ place) :
    (d.drop place).entries.lookup other = d.entries.lookup other := by
  exact (Dict.lookup_filter_ne place other d.entries).trans (if_neg h)

lemma lookup_put_self (e : FileEntry) : (d.put place e).entries.lookup place = some e :=
  List.lookup_cons_self

lemma lookup_put_of_ne (h : other ≠ place) (e : FileEntry) :
    (d.put place e).entries.lookup other = d.entries.lookup other := by
  rw [put, List.lookup_cons, beq_false_of_ne h, lookup_drop_of_ne d h]

end Lookup

section Put

variable {place : Place} (hplace : d.entry? place ≠ some .folder) (e : FileEntry)
include hplace

lemma entry?_put_self : Directory.entry? (d.put place e) place = some e := by
  have hfixed : ¬ isFixed place = true := by
    intro h
    exact hplace (by rw [Directory.entry?, if_pos h])
  rw [Directory.entry?, if_neg hfixed, lookup_put_self]

lemma entry?_put_of_folder {other : Place} (h : d.entry? other = some .folder) :
    Directory.entry? (d.put place e) other = some .folder := by
  have hne : other ≠ place := by
    rintro rfl
    exact hplace h
  unfold Directory.entry? at h ⊢
  rwa [lookup_put_of_ne d hne]

/-- What is put where no folder is does not stand in the way of a path. -/
theorem walk_put {start finish : Place} {pieces : List (List UInt8)}
    (h : d.walk start pieces = .ok finish) : (d.put place e).walk start pieces = .ok finish := by
  induction pieces generalizing start with
  | nil => exact h
  | cons piece rest ih =>
    unfold walk at h
    split at h
    · cases h
    · cases h
    · rename_i hfolder
      unfold walk
      rw [entry?_put_of_folder hplace e hfolder]
      dsimp only
      split at h
      · rw [if_pos ‹_›]
        exact ih h
      · rw [if_neg ‹_›]
        split at h
        · rw [if_pos ‹_›]
          exact ih h
        · rw [if_neg ‹_›]
          split at h
          · cases h
          · rw [if_neg ‹_›]
            exact ih h

lemma resolve_put {path : Path} {finish : Place} (h : d.resolve path = .ok finish) :
    (d.put place e).resolve path = .ok finish := by
  unfold resolve at h ⊢
  cases hcheck : Directory.checkPath path with
  | error e =>
    rw [hcheck] at h
    cases h
  | ok _ =>
    rw [hcheck] at h
    exact walk_put hplace e h

end Put

/-- What is written to a file is read again. -/
theorem readBytes_write {path : Path} {bytes : ByteArray} (h : d.write path bytes = .ok d') :
    d'.readBytes path = .ok bytes := by
  obtain ⟨place, hresolve, hplace, rfl⟩ := write_eq_ok h
  rw [readBytes, resolve_put hplace _ hresolve]
  simp only [bind, Except.bind, entry?_put_self hplace]

/-- The bytes of a file, if there is one at a path. -/
def bytesAt (d : Directory) (path : Path) : Option ByteArray := (d.readBytes path).toOption

section Atomic

variable {name : Path} (hname : IsPlainName name)
include hname

lemma IsPlainName.readBytes (d : Directory) :
    d.readBytes name = match d.entries.lookup [name.bytes] with
      | some (.file bytes) => .ok bytes
      | some .folder => .error .isDirectory
      | none => .error .notFound := by
  have hentry := hname.entry? d
  rw [Directory.readBytes, hname.resolve d]
  rcases hget : d.entries.lookup [name.bytes] with _ | ⟨bytes⟩ | _ <;> rw [hget] at hentry <;>
    simp [bind, Except.bind, hentry]

lemma IsPlainName.bytesAt_of_lookup {bytes : ByteArray}
    (h : d.entries.lookup [name.bytes] = some (.file bytes)) : d.bytesAt name = some bytes := by
  rw [bytesAt, hname.readBytes, h]
  rfl

lemma IsPlainName.bytesAt_congr
    (h : d.entries.lookup [name.bytes] = d'.entries.lookup [name.bytes]) :
    d.bytesAt name = d'.bytesAt name := by
  rw [bytesAt, bytesAt, hname.readBytes, hname.readBytes, h]

lemma IsPlainName.bytesAt_put (d : Directory) {place : Place} (hplace : place ≠ [name.bytes])
    (e : FileEntry) : (d.put place e).bytesAt name = d.bytesAt name :=
  hname.bytesAt_congr (lookup_put_of_ne d hplace.symm e)

lemma IsPlainName.bytesAt_drop (d : Directory) {place : Place} (hplace : place ≠ [name.bytes]) :
    (d.drop place).bytesAt name = d.bytesAt name :=
  hname.bytesAt_congr (lookup_drop_of_ne d hplace.symm)

lemma IsPlainName.rename_eq_ok {source : Path} (h : d.rename source name = .ok d') :
    ∃ bytes place, d.readBytes source = .ok bytes ∧ d.resolve source = .ok place ∧
      d' = (d.put [name.bytes] (.file bytes)).drop place := by
  unfold rename at h
  cases hbytes : d.readBytes source with
  | error e =>
    rw [hbytes] at h
    cases h
  | ok bytes =>
    cases hplace : d.resolve source with
    | error e =>
      rw [Directory.readBytes, hplace] at hbytes
      cases hbytes
    | ok place =>
      rw [hbytes, hplace] at h
      simp only [bind, Except.bind, List.contains_iff_mem, hname.noNul, if_false, hname.slot? d] at h
      split at h
      · cases h
      · split at h
        · cases h
        · cases h
          exact ⟨bytes, place, rfl, rfl, rfl⟩

theorem files_atomic : files.Atomic bytesAt name where
  read := by
    intro d text h
    have hbytes : d.readBytes name = .ok text.toUTF8 := by
      rw [bytesAt] at h
      cases hread : d.readBytes name with
      | error e =>
        rw [hread] at h
        cases h
      | ok bytes =>
        rw [hread] at h
        cases h
        rfl
    show d.read name = .ok text
    rw [read, hbytes]
    simp only [bind, Except.bind, Text.fromUTF8?_toUTF8]
  create := by
    intro folder d d' r h
    rcases run_attempt h with ⟨x, -, hstep⟩ | ⟨e, -, rfl⟩
    · obtain ⟨place, -, rfl⟩ := createTemporary_eq_ok hstep
      exact hname.bytesAt_put d (hname.place_ne place (isTemporaryName_freshName d place)) _
    · rfl
  write := by
    intro t text d d' r ht h
    rcases run_attempt_map h with ⟨-, hstep⟩ | ⟨e, -, rfl⟩
    · obtain ⟨place, hresolve, -, rfl⟩ := write_eq_ok hstep
      obtain ⟨folder, temporary, rfl, htemporary⟩ := resolve_of_isTemporary ht hresolve
      exact hname.bytesAt_put d (hname.place_ne folder htemporary) _
    · rfl
  written := by
    intro t text d d' ht h
    rcases run_attempt_map h with ⟨-, hstep⟩ | ⟨e, hr, -⟩
    · rw [bytesAt, readBytes_write hstep]
      rfl
    · cases hr
  sync := by
    intro t d d' r ht h
    cases h
    rfl
  synced := by
    intro t d d' ht h
    cases h
    rfl
  renamed := by
    intro t d d' ht h
    rcases run_attempt_map h with ⟨-, hstep⟩ | ⟨e, hr, -⟩
    · obtain ⟨bytes, place, hbytes, hresolve, rfl⟩ := hname.rename_eq_ok hstep
      obtain ⟨folder, temporary, rfl, htemporary⟩ := resolve_of_isTemporary ht hresolve
      rw [hname.bytesAt_drop _ (hname.place_ne folder htemporary), bytesAt, bytesAt, hbytes,
        hname.readBytes, lookup_put_self]
    · cases hr
  notRenamed := by
    intro t d d' e ht h
    rcases run_attempt_map h with ⟨hr, -⟩ | ⟨e, -, rfl⟩
    · cases hr
    · rfl
  remove := by
    intro t d ht
    show (d.remove t).bytesAt name = d.bytesAt name
    unfold remove
    split
    · rename_i place hresolve
      obtain ⟨folder, temporary, rfl, htemporary⟩ := resolve_of_isTemporary ht hresolve
      exact hname.bytesAt_drop d (hname.place_ne folder htemporary)
    · rfl

end Atomic

end Directory
end Phrasebook
