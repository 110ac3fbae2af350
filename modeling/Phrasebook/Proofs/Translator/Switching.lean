import Phrasebook.Proofs.Display.FanOut
import Phrasebook.Proofs.Translator

/-! A translator whose language is switched again and again, as a display does it. The catalog is
compiled once, for the configured languages, so the texts it serves are compiled ones as long as the
active language is one of these. -/
namespace Phrasebook.Translator
open Tag

/-- The translator after a request, with the locale that is reported by then. -/
def switch (t : Translator) (locale : String) (r : Request) : Translator :=
  (select { t with locale } r).getD { t with locale }

def switchAll (t : Translator) (switches : List (String × Request)) : Translator :=
  switches.foldl (fun t (locale, r) => t.switch locale r) t

lemma switch_of_eq {t : Translator} {r : Request} (h : t.requested = r) (locale : String) :
    t.switch locale r = { t with locale } := by
  have hselect : select { t with locale } r = none := if_pos h
  rw [switch, hselect, Option.getD_none]

lemma switch_of_ne {t : Translator} {r : Request} (h : t.requested ≠ r) (locale : String) :
    t.switch locale r = { t with locale, selection := ⟨r, t.offer.choose locale r⟩ } := by
  have hselect : select { t with locale } r =
      some { t with locale, selection := ⟨r, t.offer.choose locale r⟩ } := if_neg h
  rw [switch, hselect, Option.getD_some]

@[simp] lemma locale_switch (t : Translator) (locale : String) (r : Request) :
    (t.switch locale r).locale = locale := by
  by_cases h : t.requested = r
  · rw [switch_of_eq h]
  · rw [switch_of_ne h]

section Display

variable {σ ι : Type} (surface : Surface σ) (breakAnywhere : List String)

lemma setLanguage_fst (root : Tree (Element σ)) (t : Translator) (r : Request) (s : σ) :
    (Display.setLanguage surface breakAnywhere root r t s).1 = t.switch t.locale r := by
  by_cases h : t.requested = r
  · rw [Display.setLanguage_of_eq _ _ _ h, switch_of_eq h]
  · rw [Display.setLanguage_of_ne _ _ _ h, switch_of_ne h]

/-- What an order asks for; to present the language once more is no request. -/
def request? : Display.Order σ ι → Option Request
  | .present _ => none
  | .select r _ => some r

/-- A display switches its translator by the requests among its orders, whatever comes of their
presentation. -/
theorem obeyAll_translator (orders : List (Display.Order σ ι)) (t : Translator)
    (g : Display.Stage σ ι) :
    (Display.obeyAll surface breakAnywhere orders (t, g)).1.1 =
      t.switchAll ((orders.filterMap request?).map (t.locale, ·)) := by
  induction orders generalizing t g with
  | nil => rfl
  | cons order rest ih =>
    cases order with
    | present root => exact ih t _
    | select r root =>
      let first := Display.setLanguage (Display.Stage.surface surface) breakAnywhere
        (root.map Display.Stage.element) r t g
      have hfirst : first.1 = t.switch t.locale r := setLanguage_fst _ _ _ t r g
      have hrest : (Display.obeyAll surface breakAnywhere (.select r root :: rest) (t, g)).1.1 =
          (Display.obeyAll surface breakAnywhere rest (first.1, first.2.1)).1.1 := rfl
      rw [hrest, ih, hfirst, locale_switch]
      rfl

end Display

/-- What a translator keeps over all switches: the catalog it was started with, the languages on offer,
and an active language that was chosen from them. -/
structure Serves (forest : List Node) (o : Offer) (t : Translator) : Prop where
  catalog : t.catalog = (Catalog.ofForest forest).compileAll (o.languages.map Language.name)
  offer : t.offer = o
  active : ∃ locale r, t.active = o.choose locale r

section Serves

variable {forest : List Node} {o : Offer} {t : Translator}

theorem serves_start (forest : List Node) (o : Offer) (locale : String) (r : Request) :
    Serves forest o (start forest o locale r) :=
  ⟨rfl, rfl, locale, r, rfl⟩

theorem Serves.switch (h : Serves forest o t) (locale : String) (r : Request) :
    Serves forest o (t.switch locale r) := by
  by_cases hr : t.requested = r
  · rw [switch_of_eq hr]
    exact ⟨h.catalog, h.offer, h.active⟩
  · rw [switch_of_ne hr]
    exact ⟨h.catalog, h.offer, locale, r, congrArg (Offer.choose · locale r) h.offer⟩

theorem Serves.switchAll (h : Serves forest o t) (switches : List (String × Request)) :
    Serves forest o (t.switchAll switches) := by
  induction switches generalizing t with
  | nil => exact h
  | cons s rest ih => exact ih (h.switch s.1 s.2)

lemma Serves.active_mem (h : Serves forest o t) (ho : o.languages ≠ []) :
    t.active ∈ o.languages := by
  obtain ⟨locale, r, hactive⟩ := h.active
  rw [hactive]
  exact Offer.choose_mem ho locale r

theorem Serves.get_eq (h : Serves forest o t) (ho : o.languages ≠ []) (v : Values Id)
    (id : String) : t.get v id =
      (Node.authored? forest t.active.name id).map (replaceAll "<global:" v.textOf) :=
  getIn_of_listed h.catalog (List.mem_map_of_mem (h.active_mem ho)) v id

/-- Without a configured language nothing has been compiled. -/
theorem Serves.get_of_nil (h : Serves forest o t) (ho : o.languages = []) (v : Values Id)
    (id : String) : t.get v id = Node.authored? forest t.active.name id := by
  refine getIn_of_unlisted h.catalog ?_ v id
  simp [ho]

end Serves

/-- After any switches the active language is a configured one, and what is read is the authored text in
it, with the current values in the place of its variable tags. With no language configured there is
still an active one, and the authored text is read as it is. -/
theorem get_switchAll (forest : List Node) (o : Offer) (locale : String) (r : Request)
    (switches : List (String × Request)) :
    let t := (start forest o locale r).switchAll switches
    (o.languages ≠ [] → t.active ∈ o.languages ∧ ∀ v id, t.get v id =
      (Node.authored? forest t.active.name id).map (replaceAll "<global:" v.textOf)) ∧
    (o.languages = [] → ∀ v id, t.get v id = Node.authored? forest t.active.name id) := by
  intro t
  have hserves : Serves forest o t := (serves_start forest o locale r).switchAll switches
  exact ⟨fun ho => ⟨hserves.active_mem ho, hserves.get_eq ho⟩, hserves.get_of_nil⟩

/-- One entry, in two languages. -/
def scoreForest : List Node :=
  [.entry "0000000000000001" (.ofList
    [("en", "Score: <global:00000000000000a1>"), ("fr", "Points : <global:00000000000000a1>")])]

/-- To French by the locale under another name, to a language that is not configured, and back by the
locale of that time. -/
theorem get_switchAll_score :
    let o : Offer := ⟨[.named "en", .named "fr"], .ofList [("ca", "fr-CA")]⟩
    let v : Values Id := Values.ofDict (.ofList [("00000000000000a1", "7")]) ""
    let t := (start scoreForest o "en-US" (.explicit "en")).switchAll
      [("ca", .auto), ("ca", .explicit "ja"), ("fr", .auto)]
    let t' := (start scoreForest ⟨[], .empty⟩ "en-US" (.explicit "xx")).switchAll
      [("fr-CA", .explicit "fr")]
    o.languages ≠ [] ∧ t.active = .named "fr" ∧
    t.get v "0000000000000001" = some "Points : 7" ∧
    t'.get v "0000000000000001" = some "Points : <global:00000000000000a1>" := by
  intro o v t t'
  have configured : o.languages ≠ [] := List.cons_ne_nil _ _
  obtain ⟨served, -⟩ := get_switchAll scoreForest o "en-US" (.explicit "en")
    [("ca", .auto), ("ca", .explicit "ja"), ("fr", .auto)]
  obtain ⟨-, raw⟩ := get_switchAll scoreForest ⟨[], .empty⟩ "en-US" (.explicit "xx")
    [("fr-CA", .explicit "fr")]
  refine ⟨configured, by decide +kernel, ?_, ?_⟩
  · rw [(served configured).2 v]
    decide +kernel
  · rw [raw rfl v]
    decide +kernel

/-- A language that is made up for a request is not compiled, so its variables are not read. -/
theorem get_start_unlisted :
    let t := start scoreForest ⟨[], .empty⟩ "en-US" (.explicit "en")
    let v : Values Id := Values.ofDict (.ofList [("00000000000000a1", "7")]) ""
    t.get v "0000000000000001" = some "Score: <global:00000000000000a1>" ∧
    (Node.authored? scoreForest t.active.name "0000000000000001").map
      (replaceAll "<global:" v.textOf) = some "Score: 7" := by
  decide +kernel

end Phrasebook.Translator
