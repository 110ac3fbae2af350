import Phrasebook.Proofs.Tag.Splice

/-! The tags of both kinds replaced at once, each where it stands in the text. Replacing the variables
first and the entries afterwards comes to the same, as long as no value of a variable brings an entry tag
along or makes one up with what stands around it. -/
namespace Phrasebook.Tag
open Text

/-- Replaces the tags of both kinds; what is put in the place of either is not looked at again. -/
def substituteBoth (f g : List Char → List Char) : List Char → List Char
  | [] => []
  | c :: rest =>
    match leading? variableOpener (c :: rest), leading? entryOpener (c :: rest) with
    | some key, _ =>
      f key ++ substituteBoth f g ((c :: rest).drop (written variableOpener key).length)
    | none, some key =>
      g key ++ substituteBoth f g ((c :: rest).drop (written entryOpener key).length)
    | none, none => c :: substituteBoth f g rest
termination_by cs => cs.length
decreasing_by
  · simp only [List.length_drop, List.length_cons, written, List.length_append]
    omega
  · simp only [List.length_drop, List.length_cons, written, List.length_append]
    omega
  · exact Nat.lt_succ_self _

/-- The same on whole texts. -/
def replaceBoth (f g : String → String) (text : String) : String :=
  String.ofList (substituteBoth (fun key => (f (String.ofList key)).toList)
    (fun key => (g (String.ofList key)).toList) text.toList)

section Head

variable {opener cs : List Char} {key key' : List Char}

lemma leading?_eq_none_iff : leading? opener cs = none ↔ head? opener cs = none := by
  rw [Option.eq_none_iff_forall_ne_some, Option.eq_none_iff_forall_ne_some]
  constructor
  · rintro h ⟨key, rest⟩ hhead
    obtain ⟨hkey, hcs⟩ := head?_eq_some_iff.1 hhead
    exact h key (leading?_eq_some_iff.2 ⟨hkey, rest, hcs.symm⟩)
  · intro h key hleading
    obtain ⟨hkey, rest, hcs⟩ := leading?_eq_some_iff.1 hleading
    exact h (key, rest) (head?_eq_some_iff.2 ⟨hkey, hcs.symm⟩)

lemma head?_written (hkey : IsKey key) (rest : List Char) :
    head? opener (written opener key ++ rest) = some (key, rest) :=
  head?_eq_some_iff.2 ⟨hkey, rfl⟩

lemma leading?_written (hkey : IsKey key) (rest : List Char) :
    leading? opener (written opener key ++ rest) = some key :=
  leading?_eq_some_iff.2 ⟨hkey, List.prefix_append _ _⟩

/-- The openers differ in their second characters. -/
lemma head?_variable_written (key rest : List Char) :
    head? variableOpener (written entryOpener key ++ rest) = none := rfl

/-- Every text is put together from tags of either kind and the characters that begin none. -/
@[elab_as_elim]
theorem heads_induction {motive : List Char → Prop} (nil : motive [])
    (live : ∀ key rest, IsKey key → motive rest → motive (written variableOpener key ++ rest))
    (entry : ∀ key rest, IsKey key → motive rest → motive (written entryOpener key ++ rest))
    (plain : ∀ c rest, head? variableOpener (c :: rest) = none →
      head? entryOpener (c :: rest) = none → motive rest → motive (c :: rest)) (cs : List Char) :
    motive cs := by
  -- By the length of the text: a tag is taken as a whole, not character by character.
  induction hn : cs.length using Nat.strongRecOn generalizing cs with
  | ind n ih =>
    cases cs with
    | nil => exact nil
    | cons c rest =>
      cases hlive : head? variableOpener (c :: rest) with
      | some tag =>
        obtain ⟨key, after⟩ := tag
        obtain ⟨hkey, hcs⟩ := head?_eq_some_iff.1 hlive
        have hafter := ih after.length (hn ▸ head?_length hlive) after rfl
        exact hcs ▸ live key after hkey hafter
      | none =>
        cases hentry : head? entryOpener (c :: rest) with
        | some tag =>
          obtain ⟨key, after⟩ := tag
          obtain ⟨hkey, hcs⟩ := head?_eq_some_iff.1 hentry
          have hafter := ih after.length (hn ▸ head?_length hentry) after rfl
          exact hcs ▸ entry key after hkey hafter
        | none =>
          have hlt : rest.length < n := hn ▸ Nat.lt_succ_self rest.length
          exact plain c rest hlive hentry (ih rest.length hlt rest rfl)

end Head

section Both

variable (f g : List Char → List Char) {key : List Char}

@[simp] lemma substituteBoth_nil : substituteBoth f g [] = [] := by rw [substituteBoth]

lemma substituteBoth_live (hkey : IsKey key) (rest : List Char) :
    substituteBoth f g (written variableOpener key ++ rest) = f key ++ substituteBoth f g rest := by
  have hleading : leading? variableOpener (written variableOpener key ++ rest) = some key :=
    leading?_written hkey rest
  have hdrop : (written variableOpener key ++ rest).drop (written variableOpener key).length = rest :=
    List.drop_left
  cases hcs : written variableOpener key ++ rest with
  | nil => simp [written] at hcs
  | cons c tail =>
    rw [hcs] at hleading hdrop
    rw [substituteBoth, hleading]
    simp only [hdrop]

lemma substituteBoth_entry (hkey : IsKey key) (rest : List Char) :
    substituteBoth f g (written entryOpener key ++ rest) = g key ++ substituteBoth f g rest := by
  have hlive := leading?_eq_none_iff.2 (head?_variable_written key rest)
  have hleading : leading? entryOpener (written entryOpener key ++ rest) = some key :=
    leading?_written hkey rest
  have hdrop : (written entryOpener key ++ rest).drop (written entryOpener key).length = rest :=
    List.drop_left
  cases hcs : written entryOpener key ++ rest with
  | nil => simp [written] at hcs
  | cons c tail =>
    rw [hcs] at hlive hleading hdrop
    rw [substituteBoth, hlive, hleading]
    simp only [hdrop]

lemma substituteBoth_plain {c : Char} {rest : List Char}
    (hlive : head? variableOpener (c :: rest) = none)
    (hentry : head? entryOpener (c :: rest) = none) :
    substituteBoth f g (c :: rest) = c :: substituteBoth f g rest := by
  rw [substituteBoth, leading?_eq_none_iff.2 hlive, leading?_eq_none_iff.2 hentry]

end Both

section Pass

variable (f : List Char → List Char)

lemma substitute_written_append (opener : List Char) {key : List Char} (hkey : IsKey key)
    (rest : List Char) :
    substitute opener f (written opener key ++ rest) = f key ++ substitute opener f rest :=
  substitute_of_tag f (head?_written hkey rest)

/-- Text without the first character of the opener is copied. -/
lemma substitute_append_of_not_mem {opener w : List Char} {x : Char} (hx : opener.head? = some x)
    (h : x ∉ w) (rest : List Char) :
    substitute opener f (w ++ rest) = w ++ substitute opener f rest := by
  obtain ⟨tail, rfl⟩ := List.head?_eq_some_iff.1 hx
  induction w with
  | nil => rfl
  | cons c w ih =>
    have hc : x ≠ c := fun heq => h (heq ▸ List.mem_cons_self ..)
    have hhead : head? (x :: tail) (c :: (w ++ rest)) = none := by
      simp [head?, opened?, hc]
    rw [List.cons_append, substitute_of_no_tag f hhead, ih fun hmem => h (List.mem_cons_of_mem _ hmem),
      List.cons_append]

/-- A tag that is put in for itself is copied character by character. -/
lemma substitute_cons_of_kept {opener : List Char} (hout : StandsOut opener) {c : Char}
    {rest : List Char} (h : ∀ key after, head? opener (c :: rest) = some (key, after) →
      f key = written opener key) :
    substitute opener f (c :: rest) = c :: substitute opener f rest := by
  cases hhead : head? opener (c :: rest) with
  | none => exact substitute_of_no_tag f hhead
  | some tag =>
    obtain ⟨key, after⟩ := tag
    obtain ⟨hkey, hcs⟩ := head?_eq_some_iff.1 hhead
    obtain ⟨x, tail, rfl, -⟩ := id hout
    obtain ⟨y, hwritten⟩ := hout.written_eq
    obtain ⟨w, hw, hy⟩ := hwritten key hkey
    obtain rfl : x = y := (List.cons.inj hw).1
    rw [hw, List.cons_append] at hcs
    obtain ⟨rfl, rfl⟩ := List.cons.inj hcs
    rw [substitute_of_tag f hhead, h key after hhead, hw, substitute_append_of_not_mem f rfl hy,
      List.cons_append]

/-- Text is copied if every tag that begins in it is put in for itself, even one that ends behind it. -/
lemma substitute_append_of_kept {opener : List Char} (hout : StandsOut opener)
    {text rest : List Char} (h : ∀ before mid key after, text = before ++ mid → mid ≠ [] →
      head? opener (mid ++ rest) = some (key, after) → f key = written opener key) :
    substitute opener f (text ++ rest) = text ++ substitute opener f rest := by
  induction text with
  | nil => rfl
  | cons c text ih =>
    have hrest : substitute opener f (text ++ rest) = text ++ substitute opener f rest := by
      refine ih fun before mid key after htext => ?_
      exact h (c :: before) mid key after (by rw [htext, List.cons_append])
    have hcopied : substitute opener f (c :: (text ++ rest)) =
        c :: substitute opener f (text ++ rest) :=
      substitute_cons_of_kept f hout fun key after =>
        h [] (c :: text) key after rfl (List.cons_ne_nil c text)
    rw [List.cons_append, hcopied, hrest, List.cons_append]

/-- Entry tags pass through the replacement of variables. -/
theorem substitute_variable_entry {key : List Char} (hkey : IsKey key) (rest : List Char) :
    substitute variableOpener f (written entryOpener key ++ rest) =
      written entryOpener key ++ substitute variableOpener f rest := by
  obtain ⟨y, hwritten⟩ := standsOut_entryOpener.written_eq
  obtain ⟨w, hw, hy⟩ := hwritten key hkey
  obtain rfl : '<' = y := (List.cons.inj hw).1
  have hhead := head?_variable_written key rest
  rw [hw, List.cons_append] at hhead ⊢
  rw [substitute_of_no_tag f hhead, substitute_append_of_not_mem f rfl hy, List.cons_append]

/-- An entry tag does not begin inside a variable tag, so what stands before it begins with all of that. -/
lemma live_prefix {key key' rest start after : List Char} (hkey : IsKey key)
    (h : written variableOpener key ++ rest = start ++ (written entryOpener key' ++ after)) :
    written variableOpener key <+: start := by
  refine standsOut_variableOpener.written_prefix (b := entryOpener) rfl hkey ?_ h
  rintro rfl
  have hhead := head?_variable_written key' after
  rw [← List.nil_append (written entryOpener key' ++ after), ← h, head?_written hkey] at hhead
  cases hhead

/-- What stands before an entry tag is replaced on its own. -/
theorem substitute_append_entry (start key after : List Char) (hkey : IsKey key) :
    substitute variableOpener f (start ++ (written entryOpener key ++ after)) =
      substitute variableOpener f start ++
        (written entryOpener key ++ substitute variableOpener f after) := by
  induction start using heads_induction with
  | nil => rw [List.nil_append, substitute_nil, List.nil_append, substitute_variable_entry f hkey]
  | live key' start hkey' ih =>
    rw [List.append_assoc, substitute_written_append f _ hkey', ih,
      substitute_written_append f _ hkey', List.append_assoc]
  | entry key' start hkey' ih =>
    rw [List.append_assoc, substitute_variable_entry f hkey', ih,
      substitute_variable_entry f hkey', List.append_assoc]
  | plain c start hlive _ ih =>
    have hhead : head? variableOpener (c :: (start ++ (written entryOpener key ++ after))) = none := by
      rw [Option.eq_none_iff_forall_ne_some]
      rintro ⟨key', after'⟩ hsome
      obtain ⟨hkey', hcs⟩ := head?_eq_some_iff.1 hsome
      rw [← List.cons_append] at hcs
      obtain ⟨more, hstart⟩ := live_prefix hkey' hcs.symm
      rw [← hstart, head?_written hkey'] at hlive
      cases hlive
    rw [List.cons_append, substitute_of_no_tag f hhead, ih, substitute_of_no_tag f hlive,
      List.cons_append]

end Pass

section Inert

variable {f g : List Char → List Char} {cs : List Char}

/-- The text has an entry tag of its own, before which it reads as given with its variables in place. -/
def IsOwn (f : List Char → List Char) (cs before key : List Char) : Prop :=
  ∃ start after, cs = start ++ (written entryOpener key ++ after) ∧
    substitute variableOpener f start = before

/-- With the variables in place, every entry tag that is not put in for itself is one of the text's own. -/
def IsInert (f g : List Char → List Char) (cs : List Char) : Prop :=
  ∀ before key after, IsKey key →
    substitute variableOpener f cs = before ++ (written entryOpener key ++ after) →
    g key = written entryOpener key ∨ IsOwn f cs before key

/-- The head of a text can be left out if it goes by the replacement on its own and no tag crosses its
end. -/
lemma IsInert.rest {head head' rest : List Char} (h : IsInert f g (head ++ rest))
    (hhead : ∀ start, start <+: rest →
      substitute variableOpener f (head ++ start) = head' ++ substitute variableOpener f start)
    (hwhole : ∀ start key after before, IsKey key →
      head ++ rest = start ++ (written entryOpener key ++ after) →
      substitute variableOpener f start = head' ++ before → head <+: start) : IsInert f g rest := by
  intro before key after hkey hrest
  have hcs : substitute variableOpener f (head ++ rest) =
      head' ++ before ++ (written entryOpener key ++ after) := by
    rw [hhead rest (List.prefix_refl rest), hrest, List.append_assoc]
  rcases h _ key after hkey hcs with hkept | ⟨start, after', hown, hstart⟩
  · exact .inl hkept
  · obtain ⟨start, rfl⟩ := hwhole start key after' before hkey hown hstart
    rw [List.append_assoc] at hown
    have hrest' := List.append_cancel_left hown
    rw [hhead start ⟨_, hrest'.symm⟩] at hstart
    exact .inr ⟨start, after', hrest', List.append_cancel_left hstart⟩

lemma head?_variable_shorter {c : Char} {start rest : List Char} (hle : start <+: rest)
    (h : head? variableOpener (c :: rest) = none) : head? variableOpener (c :: start) = none := by
  obtain ⟨more, rfl⟩ := hle
  rw [← Option.not_isSome_iff_eq_none] at h ⊢
  exact fun hsome => h (isSome_head?_append hsome more)

lemma IsInert.live_rest {key rest : List Char} (hkey : IsKey key)
    (h : IsInert f g (written variableOpener key ++ rest)) : IsInert f g rest :=
  h.rest (fun start _ => substitute_written_append f variableOpener hkey start)
    fun _ _ _ _ _ hcs _ => live_prefix hkey hcs

lemma IsInert.entry_rest {key rest : List Char} (hkey : IsKey key)
    (h : IsInert f g (written entryOpener key ++ rest)) : IsInert f g rest := by
  refine h.rest (fun start _ => substitute_variable_entry f hkey start) ?_
  intro start key' after before _ hcs hstart
  refine standsOut_entryOpener.written_prefix rfl hkey ?_ hcs
  rintro rfl
  simp [written] at hstart

lemma IsInert.plain_rest {c : Char} {rest : List Char}
    (hlive : head? variableOpener (c :: rest) = none) (h : IsInert f g (c :: rest)) :
    IsInert f g rest := by
  have hhead (start : List Char) (hle : start <+: rest) :
      substitute variableOpener f ([c] ++ start) = [c] ++ substitute variableOpener f start :=
    substitute_of_no_tag f (head?_variable_shorter hle hlive)
  refine IsInert.rest h hhead ?_
  intro start key after before _ hcs hstart
  cases start with
  | nil => simp at hstart
  | cons x start =>
    obtain ⟨rfl, -⟩ := List.cons.inj hcs
    exact ⟨start, rfl⟩

/-- No tag of the text's own begins inside the value of its first variable. -/
lemma IsInert.value_kept {key rest before mid key' after : List Char} (hkey : IsKey key)
    (h : IsInert f g (written variableOpener key ++ rest)) (hvalue : f key = before ++ mid)
    (hmid : mid ≠ [])
    (hhead : head? entryOpener (mid ++ substitute variableOpener f rest) = some (key', after)) :
    g key' = written entryOpener key' := by
  obtain ⟨hkey', hafter⟩ := head?_eq_some_iff.1 hhead
  have hcs : substitute variableOpener f (written variableOpener key ++ rest) =
      before ++ (written entryOpener key' ++ after) := by
    rw [substitute_written_append f _ hkey, hvalue, List.append_assoc, hafter]
  rcases h before key' after hkey' hcs with hkept | ⟨start, after', hown, hstart⟩
  · exact hkept
  · obtain ⟨start, rfl⟩ := live_prefix hkey hown
    rw [substitute_written_append f _ hkey, hvalue, List.append_assoc] at hstart
    have hnil := List.append_right_eq_self.1 hstart
    exact absurd (List.append_eq_nil_iff.1 hnil).1 hmid

/-- A plain character does not come to begin an entry tag. -/
lemma IsInert.plain_kept {c : Char} {rest key after : List Char} (h : IsInert f g (c :: rest))
    (hlive : head? variableOpener (c :: rest) = none)
    (hentry : head? entryOpener (c :: rest) = none)
    (hhead : head? entryOpener (c :: substitute variableOpener f rest) = some (key, after)) :
    g key = written entryOpener key := by
  obtain ⟨hkey, hcs⟩ := head?_eq_some_iff.1 hhead
  rw [← substitute_of_no_tag f hlive] at hcs
  rcases h [] key after hkey hcs with hkept | ⟨start, after', hown, hstart⟩
  · exact hkept
  · cases start with
    | nil =>
      rw [hown, List.nil_append, head?_written hkey] at hentry
      cases hentry
    | cons x start =>
      obtain ⟨rfl, hrest⟩ := List.cons.inj hown
      have hle : start <+: rest := ⟨_, hrest.symm⟩
      rw [substitute_of_no_tag f (head?_variable_shorter hle hlive)] at hstart
      cases hstart

/-- One replacement after the other is both at once on texts whose values are inert. -/
theorem substitute_substitute (h : IsInert f g cs) :
    substitute entryOpener g (substitute variableOpener f cs) = substituteBoth f g cs := by
  induction cs using heads_induction with
  | nil => simp
  | live key rest hkey ih =>
    rw [substitute_written_append f _ hkey, substituteBoth_live f g hkey, ← ih (h.live_rest hkey)]
    refine substitute_append_of_kept g standsOut_entryOpener ?_
    intro before mid key' after hvalue hmid hhead
    exact h.value_kept hkey hvalue hmid hhead
  | entry key rest hkey ih =>
    rw [substitute_variable_entry f hkey, substitute_written_append g _ hkey,
      substituteBoth_entry f g hkey, ih (h.entry_rest hkey)]
  | plain c rest hlive hentry ih =>
    rw [substitute_of_no_tag f hlive, substituteBoth_plain f g hlive hentry,
      ← ih (h.plain_rest hlive)]
    exact substitute_cons_of_kept g standsOut_entryOpener fun key after hhead =>
      h.plain_kept hlive hentry hhead

end Inert

section Texts

variable {f g : String → String} {text : String}

/-- A tag of the text with its variables in place that stands where the text has the same tag. -/
def IsAuthored (f : String → String) (text : String) (t : Tag) : Prop :=
  ∃ before after, text = before ++ ("<ref:" ++ t.key ++ ">") ++ after ∧
    (replaceAll "<global:" f before).utf8ByteSize = t.start

lemma IsCutFrom.exists_append {opener : String} {t : Tag} (h : IsCutFrom opener text t) :
    ∃ before after, text.toList = before ++ (written opener.toList t.key.toList ++ after) ∧
      byteLength before = t.start := by
  obtain ⟨before, after, htext, hplace⟩ := (standsAt_iff (written_ne_empty opener t.key)).1 h.standsAt
  refine ⟨before.toList, after.toList, ?_, ?_⟩
  · rw [htext, String.toList_append, String.toList_append, toList_written]
  · rw [← utf8ByteSize_ofList, String.ofList_toList, hplace]

/-- The scan of a text with its variables in place tells whether its values are inert. -/
theorem isInert_of_all (h : ∀ t ∈ all "<ref:" (replaceAll "<global:" f text),
    IsAuthored f text t ∨ g t.key = "<ref:" ++ t.key ++ ">") :
    IsInert (fun key => (f (String.ofList key)).toList) (fun key => (g (String.ofList key)).toList)
      text.toList := by
  intro before key after hkey hcs
  have hplaced : (replaceAll "<global:" f text).toList =
      before ++ (written "<ref:".toList key ++ after) := by
    rw [replaceAll, String.toList_ofList]
    exact hcs
  have htags := areTags_all (by decide : "<ref:" ∈ openers) (replaceAll "<global:" f text)
  -- The scan misses no tag, and a place in the text is told by its distance in bytes.
  obtain ⟨t, ht, hstart⟩ := htags.complete _ (occursAt_iff.2 ⟨before, key, after, hkey, hplaced, rfl⟩)
  obtain ⟨before', after', hcut, hbefore'⟩ := (htags.cut t ht).exists_append
  obtain ⟨rfl, hsame⟩ := append_inj_of_byteLength (hcut.symm.trans hplaced) (hbefore'.trans hstart)
  obtain rfl : t.key.toList = key := by
    have hhead : head? "<ref:".toList (written "<ref:".toList t.key.toList ++ after') = _ :=
      head?_written (htags.cut t ht).key after'
    rw [hsame, head?_written hkey] at hhead
    cases hhead
    rfl
  rcases h t ht with ⟨start, rest, htext, hsize⟩ | hkept
  · have hown : text.toList = start.toList ++ (written entryOpener t.key.toList ++ rest.toList) := by
      rw [htext, String.toList_append, String.toList_append, toList_written, List.append_assoc]
      rfl
    have hsame := hcs
    rw [hown, substitute_append_entry _ _ _ _ hkey] at hsame
    refine .inr ⟨start.toList, rest.toList, hown, (append_inj_of_byteLength hsame ?_).1⟩
    rw [hbefore', ← hsize, ← utf8ByteSize_ofList]
    rfl
  · refine .inl ?_
    simp only [String.ofList_toList, hkept]
    exact toList_written _ _

theorem replaceAll_replaceAll (h : ∀ t ∈ all "<ref:" (replaceAll "<global:" f text),
    IsAuthored f text t ∨ g t.key = "<ref:" ++ t.key ++ ">") :
    replaceAll "<ref:" g (replaceAll "<global:" f text) = replaceBoth f g text := by
  refine congrArg String.ofList ?_
  have hplaced : (replaceAll "<global:" f text).toList =
      substitute variableOpener (fun key => (f (String.ofList key)).toList) text.toList :=
    String.toList_ofList ..
  rw [hplaced]
  exact substitute_substitute (isInert_of_all h)

end Texts

end Phrasebook.Tag
