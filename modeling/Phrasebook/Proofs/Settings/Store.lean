import Phrasebook.Proofs.Settings.Codec
import Phrasebook.Settings.Store

/-! Settings are saved whole or not at all, and what was saved is loaded again. -/
namespace Phrasebook

section Files

variable {σ : Type}

/-- A path under which a temporary file was made in some state. -/
def Files.IsTemporary (files : Files (StateM σ)) (t : Path) : Prop :=
  ∃ folder w, ((files.createTemporary folder).run w).1 = .ok t

/-- What is relied on of files, where `bytes w p` stands at the path `p` in the state `w`: a text is
read as it stands there, what is done to a temporary file leaves `path` alone, and its renaming to
`path` either puts the whole of it there or leaves `path` alone too. -/
structure Files.Atomic (files : Files (StateM σ)) (bytes : σ → Path → Option ByteArray)
    (path : Path) : Prop where
  read {w : σ} {text : String} (h : bytes w path = some text.toUTF8) :
    ((files.read path).run w).1 = .ok text
  create {folder : Path} {w w' : σ} {r : Except FileFault Path}
    (h : (files.createTemporary folder).run w = (r, w')) : bytes w' path = bytes w path
  write {t : Path} {text : String} {w w' : σ} {r : Except FileFault Unit} (ht : files.IsTemporary t)
    (h : (files.write t text).run w = (r, w')) : bytes w' path = bytes w path
  written {t : Path} {text : String} {w w' : σ} (ht : files.IsTemporary t)
    (h : (files.write t text).run w = (.ok (), w')) : bytes w' t = some text.toUTF8
  sync {t : Path} {w w' : σ} {r : Except FileFault Unit} (ht : files.IsTemporary t)
    (h : (files.sync t).run w = (r, w')) : bytes w' path = bytes w path
  synced {t : Path} {w w' : σ} (ht : files.IsTemporary t)
    (h : (files.sync t).run w = (.ok (), w')) : bytes w' t = bytes w t
  renamed {t : Path} {w w' : σ} (ht : files.IsTemporary t)
    (h : (files.rename t path).run w = (.ok (), w')) : bytes w' path = bytes w t
  notRenamed {t : Path} {w w' : σ} {e : FileFault} (ht : files.IsTemporary t)
    (h : (files.rename t path).run w = (.error e, w')) : bytes w' path = bytes w path
  remove {t : Path} {w : σ} (ht : files.IsTemporary t) :
    bytes ((files.remove t).run w).2 path = bytes w path

lemma run_bind_of_run {α β : Type} {x : StateM σ α} {f : α → StateM σ β} {w w' : σ} {a : α}
    (h : x.run w = (a, w')) : (x >>= f).run w = (f a).run w' := by
  rw [StateT.run_bind, h]
  rfl

end Files

namespace Settings

section Store

variable {σ : Type} {files : Files (StateM σ)} {bytes : σ → Path → Option ByteArray}
  {path : Path}

/-- The old bytes stand at the path after a failure, and the new ones after a success. -/
def AllOrNothing {ε : Type} (old : Option ByteArray) (new : ByteArray) (r : Except ε Unit)
    (now : Option ByteArray) : Prop :=
  (∃ e, r = .error e ∧ now = old) ∨ (r = .ok () ∧ now = some new)

theorem fill_allOrNothing (hfiles : files.Atomic bytes path) {t : Path}
    (ht : files.IsTemporary t) (text : String) {w w' : σ} {r : Except FileFault Unit}
    (h : (fill files t path text).run w = (r, w')) :
    AllOrNothing (bytes w path) text.toUTF8 r (bytes w' path) := by
  rcases hwrite : (files.write t text).run w with ⟨wrote, w₁⟩
  have hold₁ := hfiles.write ht hwrite
  rw [fill, run_bind_of_run hwrite] at h
  cases wrote with
  | error e =>
    cases h
    exact .inl ⟨e, rfl, hold₁⟩
  | ok _ =>
    rcases hsync : (files.sync t).run w₁ with ⟨synced, w₂⟩
    have hold₂ := (hfiles.sync ht hsync).trans hold₁
    rw [run_bind_of_run hsync] at h
    cases synced with
    | error e =>
      cases h
      exact .inl ⟨e, rfl, hold₂⟩
    | ok _ =>
      cases r with
      | error e => exact .inl ⟨e, rfl, (hfiles.notRenamed ht h).trans hold₂⟩
      | ok _ =>
        have hnew := (hfiles.synced ht hsync).trans (hfiles.written ht hwrite)
        exact .inr ⟨rfl, (hfiles.renamed ht h).trans hnew⟩

theorem writeAtomically_allOrNothing (hfiles : files.Atomic bytes path) (text : String) {w w' : σ}
    {r : Except StoreError Unit} (h : (writeAtomically files path text).run w = (r, w')) :
    AllOrNothing (bytes w path) text.toUTF8 r (bytes w' path) := by
  rcases hcreate : (files.createTemporary (Path.folder path)).run w with ⟨created, w₁⟩
  have hold₁ := hfiles.create hcreate
  rw [writeAtomically, run_bind_of_run hcreate] at h
  cases created with
  | error e =>
    cases h
    exact .inl ⟨_, rfl, hold₁⟩
  | ok t =>
    have ht : files.IsTemporary t := ⟨_, w, congrArg Prod.fst hcreate⟩
    rcases hfill : (fill files t path text).run w₁ with ⟨filled, w₂⟩
    have hfilled := fill_allOrNothing hfiles ht text hfill
    rw [hold₁] at hfilled
    rw [run_bind_of_run hfill] at h
    rcases hfilled with ⟨e, rfl, hold₂⟩ | ⟨rfl, hnew⟩
    · cases h
      exact .inl ⟨_, rfl, (hfiles.remove ht).trans hold₂⟩
    · cases h
      exact .inr ⟨rfl, hnew⟩

/-- A save that does not know the format of the file, or has no text to write, touches no file. Any
other one leaves the text of the settings there, or what was there before. -/
theorem save_cases (hfiles : files.Atomic bytes path) (s : Settings) {w w' : σ}
    {r : Except StoreError Unit} (h : (save files path s).run w = (r, w')) :
    (∃ e, formatOf path = .error e ∧ r = .error e ∧ w' = w) ∨
      (∃ f, formatOf path = .ok f ∧ f.render? s = none ∧ r = .error .unwritable ∧ w' = w) ∨
      ∃ f text, formatOf path = .ok f ∧ f.render? s = some text ∧
        AllOrNothing (bytes w path) text.toUTF8 r (bytes w' path) := by
  unfold save at h
  cases hformat : formatOf path with
  | error e =>
    rw [hformat] at h
    cases h
    exact .inl ⟨e, rfl, rfl, rfl⟩
  | ok f =>
    simp only [hformat] at h
    cases hrender : f.render? s with
    | none =>
      rw [hrender] at h
      cases h
      exact .inr (.inl ⟨f, rfl, hrender, rfl, rfl⟩)
    | some text =>
      rw [hrender] at h
      exact .inr (.inr ⟨f, text, rfl, hrender, writeAtomically_allOrNothing hfiles text h⟩)

/-- Valid settings are loaded from the text they are rendered to. -/
theorem load_of_render (hfiles : files.Atomic bytes path) {s : Settings} {code : String}
    (hs : s.check = .ok ()) (hlanguage : s.localization.language = .ofText code) {f : Format}
    (hformat : formatOf path = .ok f) {written : Data} (hwritten : s.toData? = some written)
    {text : String} (hreads : f.Reads text written) {w : σ}
    (hbytes : bytes w path = some text.toUTF8) : ((load files path).run w).1 = .ok s := by
  rcases hread : (files.read path).run w with ⟨r, w'⟩
  have hr : r = .ok text := (congrArg Prod.fst hread).symm.trans (hfiles.read hbytes)
  subst hr
  unfold load
  simp only [hformat]
  rw [run_bind_of_run hread]
  show decode f text = .ok s
  rw [decode, Format.parse?_of_written hlanguage hwritten f hreads]
  simp only [hs]

end Store

/-- The choice of a language has no part in what makes settings valid. -/
theorem check_withLanguage (s : Settings) (r : Request) : (s.withLanguage r).check = s.check := rfl

end Settings
end Phrasebook
