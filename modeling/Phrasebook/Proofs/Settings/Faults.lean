import Mathlib.Data.List.Nodup
import Mathlib.Order.Bounds.Basic
import Phrasebook.Proofs.Decimal.Value
import Phrasebook.Proofs.Settings.Identifier
import Phrasebook.Proofs.Settings.Validity

/-! Which settings are accepted, and what is reported of the others. Settings are accepted for their
languages alone, in whatever order these stand; what is reported is the fault of the first language that
has one. -/
namespace Phrasebook.Settings
open Identifier Decimal

/-- The scale is a finite number above zero. -/
def IsScale (scale : Single) : Prop := ∃ q, scale.value? = some q ∧ 0 < q

/-- The fault of a language whose name is taken or not. A name that is taken counts before one that is no
identifier, and a name before a scale. -/
inductive IsFault (l : Language) (taken : Prop) : Problem → Prop
  | duplicate (again : taken) : IsFault l taken (.duplicate l.name)
  | identifier (free : ¬ taken) (bad : ¬ IsIdentifier l.name) :
      IsFault l taken (.identifier l.name)
  | scale (free : ¬ taken) (good : IsIdentifier l.name) (bad : ¬ IsScale l.scale) :
      IsFault l taken (.scale l.name l.scale)

/-- A language before this place has the name. -/
def IsTaken (ls : List Language) (i : Nat) (name : String) : Prop :=
  ∃ j < i, ∃ l, ls[j]? = some l ∧ l.name = name

/-- The fault of the language at a place. -/
def FaultAt (ls : List Language) (i : Nat) (p : Problem) : Prop :=
  ∃ l, ls[i]? = some l ∧ IsFault l (IsTaken ls i l.name) p

/-- The places at which there is a fault. -/
def faulty (ls : List Language) : Set Nat := {i | ∃ p, FaultAt ls i p}

lemma fault?_eq_some_iff (seen : List String) (l : Language) (p : Problem) :
    fault? seen l = some p ↔ IsFault l (l.name ∈ seen) p := by
  have hid := isValid_iff l.name
  have hscale : l.scale.isPositive = true ↔ IsScale l.scale := Binary.isPositive_iff l.scale
  unfold fault?
  constructor
  · intro h
    split at h
    · next taken =>
      cases h
      exact .duplicate taken
    · next free =>
      split at h
      · next bad =>
        cases h
        exact .identifier free (mt hid.2 (by simpa using bad))
      · next good =>
        split at h
        · next bad =>
          cases h
          exact .scale free (hid.1 (by simpa using good)) (mt hscale.2 (by simpa using bad))
        · cases h
  · intro h
    cases h with
    | duplicate again => rw [if_pos again]
    | identifier free bad => rw [if_neg free, if_pos (by simpa using mt hid.1 bad)]
    | scale free good bad =>
      rw [if_neg free, if_neg (by simpa using hid.2 good), if_pos (by simpa using mt hscale.1 bad)]

section Places

variable {before rest : List Language} {l : Language}

lemma isTaken_length_iff (name : String) :
    IsTaken (before ++ rest) before.length name ↔ name ∈ before.map Language.name := by
  rw [IsTaken, List.mem_map]
  constructor
  · rintro ⟨j, hj, l, hl, rfl⟩
    rw [List.getElem?_append_left hj] at hl
    exact ⟨l, List.mem_of_getElem? hl, rfl⟩
  · rintro ⟨l, hl, rfl⟩
    obtain ⟨j, hj, rfl⟩ := List.getElem_of_mem hl
    exact ⟨j, hj, before[j], by rw [List.getElem?_append_left hj, List.getElem?_eq_getElem hj], rfl⟩

lemma faultAt_length_iff (p : Problem) : FaultAt (before ++ l :: rest) before.length p ↔
    IsFault l (l.name ∈ before.map Language.name) p := by
  rw [FaultAt]
  simp only [isTaken_length_iff, List.getElem?_append_right le_rfl, Nat.sub_self,
    List.getElem?_cons_zero, Option.some.injEq, exists_eq_left']

/-- The check goes through the places one by one, and its names are those of the places before. -/
theorem checkFrom_eq_error_iff {seen : List String} (p : Problem)
    (hseen : ∀ name, name ∈ seen ↔ name ∈ before.map Language.name)
    (hbefore : ∀ i < before.length, i ∉ faulty (before ++ rest)) :
    checkFrom seen rest = .error p ↔
      ∃ i, IsLeast (faulty (before ++ rest)) i ∧ FaultAt (before ++ rest) i p := by
  induction rest generalizing before seen with
  | nil =>
    constructor
    · intro h
      cases h
    · rintro ⟨i, ⟨hfaulty, -⟩, l, hl, -⟩
      rw [List.append_nil] at hl
      exact absurd hfaulty (hbefore i (List.getElem?_eq_some_iff.1 hl).1)
  | cons l rest ih =>
    have hfault : ∀ q, fault? seen l = some q ↔ FaultAt (before ++ l :: rest) before.length q := by
      intro q
      rw [fault?_eq_some_iff, faultAt_length_iff, hseen]
    cases hf : fault? seen l with
    | some q =>
      -- This is the least place with a fault, for there was none before it.
      have hq := (hfault q).1 hf
      have hleast : IsLeast (faulty (before ++ l :: rest)) before.length :=
        ⟨⟨q, hq⟩, fun i hi => Nat.le_of_not_lt fun hlt => hbefore i hlt hi⟩
      rw [checkFrom, hf]
      constructor
      · intro h
        cases h
        exact ⟨before.length, hleast, hq⟩
      · rintro ⟨i, hi, hp⟩
        rw [hi.unique hleast] at hp
        rw [← hfault, hf] at hp
        cases hp
        rfl
    | none =>
      have hnone : before.length ∉ faulty (before ++ l :: rest) := by
        rintro ⟨q, hq⟩
        rw [← hfault, hf] at hq
        cases hq
      have hsplit : before ++ l :: rest = before ++ [l] ++ rest := by simp
      rw [checkFrom, hf, hsplit]
      refine ih (fun name => ?_) fun i hi => ?_
      · rw [List.mem_cons, hseen, List.map_append, List.mem_append, or_comm]
        simp
      · rw [← hsplit]
        rw [List.length_append, List.length_singleton, Nat.lt_succ_iff] at hi
        rcases hi.lt_or_eq with hlt | rfl
        · exact hbefore i hlt
        · exact hnone

end Places

lemma check_of_ne_nil {s : Settings} (h : s.languages ≠ []) :
    s.check = checkFrom [] s.languages := by
  obtain ⟨l, rest, hls⟩ := List.exists_cons_of_ne_nil h
  rw [check, show s.localization.languages = l :: rest from hls, hls]
  rfl

theorem check_eq_error_iff (s : Settings) (p : Problem) : s.check = .error p ↔
    s.languages = [] ∧ p = .noLanguage ∨
      ∃ i, IsLeast (faulty s.languages) i ∧ FaultAt s.languages i p := by
  by_cases hls : s.languages = []
  · have hcheck : s.check = .error .noLanguage := by
      rw [check, show s.localization.languages = [] from hls]
      rfl
    have hnone : ∀ i, ¬ FaultAt [] i p := by
      rintro i ⟨l, hl, -⟩
      cases hl
    simp [hcheck, hls, hnone, eq_comm]
  · rw [check_of_ne_nil hls]
    have hseen : ∀ name, name ∈ ([] : List String) ↔
        name ∈ ([] : List Language).map Language.name := fun _ => Iff.rfl
    have hbefore : ∀ i < ([] : List Language).length, i ∉ faulty ([] ++ s.languages) := by simp
    simpa [hls] using checkFrom_eq_error_iff p hseen hbefore

theorem check_eq_ok_iff_declared (s : Settings) : s.check = .ok () ↔ s.languages ≠ [] ∧
    (s.languages.map Language.name).Nodup ∧ (∀ l ∈ s.languages, IsIdentifier l.name) ∧
    ∀ l ∈ s.languages, IsScale l.scale := by
  rw [check_eq_ok_iff]
  simp only [isValid_iff, Binary.isPositive_iff, forall_and, languages, IsScale]
  tauto

/-- Settings are accepted if and only if there is a language, no two have one name, and every name is an
identifier and every scale a number above zero. Neither the order of the languages nor anything else in
the settings makes a difference to that, and nothing else at all to what is reported. Without a language
that is what is reported; else it is the fault at the first place that has one. -/
theorem check_firstFault :
    (∀ s : Settings, s.check = .ok () ↔ s.languages ≠ [] ∧
      (s.languages.map Language.name).Nodup ∧ (∀ l ∈ s.languages, IsIdentifier l.name) ∧
      ∀ l ∈ s.languages, IsScale l.scale) ∧
    (∀ s s' : Settings, s.languages.Perm s'.languages → (s.check = .ok () ↔ s'.check = .ok ())) ∧
    (∀ s s' : Settings, s.languages = s'.languages → s.check = s'.check) ∧
    ∀ (s : Settings) (p : Problem), s.check = .error p ↔
      s.languages = [] ∧ p = .noLanguage ∨
        ∃ i, IsLeast (faulty s.languages) i ∧ FaultAt s.languages i p := by
  refine ⟨check_eq_ok_iff_declared, fun s s' h => ?_, fun s s' h => ?_, check_eq_error_iff⟩
  · have hnil : s.languages = [] ↔ s'.languages = [] := by
      rw [← List.length_eq_zero_iff, ← List.length_eq_zero_iff, h.length_eq]
    simp only [check_eq_ok_iff_declared, ne_eq, hnil, (h.map Language.name).nodup_iff, h.mem_iff]
  · exact congrArg checkLanguages h

/-- A name that is no identifier stands before a scale of zero and before itself. -/
def faultyLanguages : List Language :=
  [⟨"en", "Noto Sans", .one⟩, ⟨"not a language", "", .one⟩, ⟨"fr", "", .zero false⟩,
    ⟨"not a language", "", .nan⟩, ⟨"en", "", .one⟩]

/-- The same languages in another order and with another selection, and the first of several faults. -/
theorem check_firstFault_faulty :
    let s := Settings.standard
    let s' := (s.withLanguages s.languages.reverse).withLanguage (.explicit "xx")
    let bad := s.withLanguages faultyLanguages
    s.languages.Perm s'.languages ∧ s.check = .ok () ∧ s'.check = .ok () ∧
    (s.withLanguage (.explicit "xx")).check = s.check ∧
    bad.check = .error (.identifier "not a language") ∧
    (∃ i, IsLeast (faulty bad.languages) i ∧
      FaultAt bad.languages i (.identifier "not a language")) ∧
    (s.withLanguages []).check = .error .noLanguage := by
  intro s s' bad
  obtain ⟨accepted, permuted, alone, rejected⟩ := check_firstFault
  have reversed : s.languages.Perm s'.languages := (List.reverse_perm s.languages).symm
  have valid : s.check = .ok () := by decide +kernel
  have report : bad.check = .error (.identifier "not a language") := by decide +kernel
  refine ⟨reversed, valid, (permuted s s' reversed).1 valid, alone _ s rfl, report, ?_,
    (rejected _ _).2 (.inl ⟨rfl, rfl⟩)⟩
  rcases (rejected bad _).1 report with ⟨-, hnone⟩ | first
  · cases hnone
  · exact first

end Phrasebook.Settings
