import Phrasebook.Display.Channel
import Phrasebook.Proofs.Display.Walk

/-! A display under observation. Its elements and its surface may do and refuse anything; a journal
keeps each call that is made. A new language is stored before the first call, and the calls are those
of one plan, up to the first that fails. -/
namespace Phrasebook.Display
open Decimal

/-- A call made to bring a language to what shows text. -/
inductive Event (ι : Type) where
  /-- An element read its text again, and this is the selection that it saw. -/
  | refreshed (element : ι) (seen : Selection)
  | announced
  | font (family : String)
  | scale (factor : Single)
  | wrap (policy : Wrap)

/-- A display with its listeners, and the journal of the calls made so far. -/
structure Stage (σ ι : Type) where
  state : σ
  channel : Channel
  journal : List (Event ι)

/-- An element of the tree by name; only those with a step can be refreshed. -/
abbrev Node (σ ι : Type) := ι × Element σ

variable {σ ι : Type}

/-- What the listeners get from a call. -/
def Event.heard : Event ι → Channel → Channel
  | .announced, c => c.send
  | _, c => c

namespace Stage

/-- A step of the display, as the call that it is. -/
def perform (event : Event ι) (act : Act σ) : Act (Stage σ ι) := fun g =>
  let (s, failure) := act g.state
  (⟨s, event.heard g.channel, g.journal ++ [event]⟩, failure)

def surface (surface : Surface σ) : Surface (Stage σ ι) where
  notify g := (perform .announced (fun s => (surface.notify s, none)) g).1
  font family := perform (.font family) (surface.font family)
  scale factor := perform (.scale factor) (surface.scale factor)
  wrap policy := perform (.wrap policy) (surface.wrap policy)

def element (node : Node σ ι) : Element (Stage σ ι) :=
  node.2.map fun refresh t => perform (.refreshed node.1 t.selection) (refresh t)

end Stage

/-- The calls that bring the active language to everything, in order. -/
def plan (surface : Surface σ) (breakAnywhere : List String) (t : Translator)
    (root : Tree (Node σ ι)) : List (Event ι × Act σ) :=
  (root.preorder.filterMap fun (name, element) =>
    element.map fun refresh => (.refreshed name t.selection, refresh t)) ++
  [(.announced, fun s => (surface.notify s, none)),
    (.font t.active.font, surface.font t.active.font),
    (.scale t.active.scale, surface.scale t.active.scale),
    (.wrap (.forLanguage t.active.name breakAnywhere),
      surface.wrap (.forLanguage t.active.name breakAnywhere))]

/-- Calls that succeed one after the other. -/
inductive Passes : List (Event ι × Act σ) → σ → σ → Prop
  | nil (s) : Passes [] s s
  | cons {event act rest s s₁ s₂} (passed : act s = (s₁, none)) (tail : Passes rest s₁ s₂) :
      Passes ((event, act) :: rest) s s₂

/-- Calls made as planned: all of them if none fails, or else those up to the first that does, with
its failure. -/
inductive Performs (calls : List (Event ι × Act σ)) (s : σ) :
    List (Event ι) → σ → Option DisplayError → Prop
  | all {s'} (passed : Passes calls s s') : Performs calls s (calls.map Prod.fst) s' none
  | stopped {before event act after s₁ s' e} (split : calls = before ++ (event, act) :: after)
      (passed : Passes before s s₁) (failed : act s₁ = (s', some e)) :
      Performs calls s (before.map Prod.fst ++ [event]) s' (some e)

/-- The calls that are made, the state they leave, and the failure that ended them. -/
def attempt : List (Event ι × Act σ) → σ → List (Event ι) × σ × Option DisplayError
  | [], s => ([], s, none)
  | (event, act) :: rest, s =>
    match act s with
    | (s, some e) => ([event], s, some e)
    | (s, none) =>
      let (done, s, failure) := attempt rest s
      (event :: done, s, failure)

lemma Performs.cons {event : Event ι} {act : Act σ} {rest : List (Event ι × Act σ)} {s s₁ s' : σ}
    {done : List (Event ι)} {failure : Option DisplayError} (passed : act s = (s₁, none))
    (tail : Performs rest s₁ done s' failure) :
    Performs ((event, act) :: rest) s (event :: done) s' failure := by
  cases tail with
  | all h => exact .all (.cons passed h)
  | stopped split h failed =>
    rw [split, ← List.cons_append]
    exact .stopped rfl (.cons passed h) failed

theorem attempt_performs (calls : List (Event ι × Act σ)) (s : σ) :
    Performs calls s (attempt calls s).1 (attempt calls s).2.1 (attempt calls s).2.2 := by
  induction calls generalizing s with
  | nil => exact .all (.nil s)
  | cons call rest ih =>
    obtain ⟨event, act⟩ := call
    cases h : act s with
    | mk s₁ failure =>
      cases failure with
      | some e =>
        simp only [attempt, h]
        exact .stopped (List.nil_append _).symm (.nil s) h
      | none =>
        simp only [attempt, h]
        exact (ih s₁).cons h

/-- On a stage the calls are made and noted down; listeners change nothing of them. -/
theorem runActs_perform (calls : List (Event ι × Act σ)) (g : Stage σ ι) :
    runActs (calls.map fun call => Stage.perform call.1 call.2) g =
      let (done, s, failure) := attempt calls g.state
      (⟨s, done.foldl (fun c event => event.heard c) g.channel, g.journal ++ done⟩, failure) := by
  induction calls generalizing g with
  | nil => simp [runActs, attempt]
  | cons call rest ih =>
    obtain ⟨event, act⟩ := call
    cases h : act g.state with
    | mk s failure =>
      cases failure with
      | some e => simp only [List.map_cons, runActs, attempt, Stage.perform, h]; rfl
      | none =>
        simp only [List.map_cons, runActs, attempt, Stage.perform, h, ih, List.foldl_cons,
          List.append_assoc, List.singleton_append]

theorem steps_stage (surface : Surface σ) (breakAnywhere : List String) (t : Translator)
    (root : Tree (Node σ ι)) :
    steps (Stage.surface surface) breakAnywhere t (root.map Stage.element) =
      (plan surface breakAnywhere t root).map fun call => Stage.perform call.1 call.2 := by
  simp only [steps, plan, refreshers, Tree.preorder_map, List.filterMap_map, List.map_append,
    List.map_filterMap]
  congr 2
  funext node
  cases h : node.2 with
  | none => simp only [Function.comp, Stage.element, h, Option.map_none]
  | some refresh => simp only [Function.comp, Stage.element, h, Option.map_some]

/-- A presentation on a stage follows the plan. -/
theorem announce_stage (surface : Surface σ) (breakAnywhere : List String)
    (root : Tree (Node σ ι)) (t : Translator) (g : Stage σ ι) :
    announce (Stage.surface surface) breakAnywhere (root.map Stage.element) t g =
      let (done, s, failure) := attempt (plan surface breakAnywhere t root) g.state
      (⟨s, done.foldl (fun c event => event.heard c) g.channel, g.journal ++ done⟩,
        .ofEnd t.active.name failure) := by
  rw [announce_eq, steps_stage, runActs_perform]

/-- What a display is told, each time with the tree of elements that is on it. -/
inductive Order (σ ι : Type) where
  | present (root : Tree (Node σ ι))
  | select (r : Request) (root : Tree (Node σ ι))

namespace Order

def root : Order σ ι → Tree (Node σ ι)
  | .present root => root
  | .select _ root => root

/-- The translator once an order is stored: a request, with the language for it. -/
def stored : Order σ ι → Translator → Translator
  | .present _, t => t
  | .select r _, t => { t with selection := ⟨r, t.offer.choose t.locale r⟩ }

/-- Whether an order requests what is stored already. -/
def IsStale (t : Translator) : Order σ ι → Prop
  | .present _ => False
  | .select r _ => t.requested = r

end Order

section Obey

variable (surface : Surface σ) (breakAnywhere : List String)

def obey : Order σ ι → Translator × Stage σ ι → (Translator × Stage σ ι) × Change
  | .present root, (t, g) =>
    let (g, change) := announce (Stage.surface surface) breakAnywhere (root.map Stage.element) t g
    ((t, g), change)
  | .select r root, (t, g) =>
    let (t, g, change) :=
      setLanguage (Stage.surface surface) breakAnywhere (root.map Stage.element) r t g
    ((t, g), change)

def obeyAll : List (Order σ ι) → Translator × Stage σ ι → (Translator × Stage σ ι) × List Change
  | [], x => (x, [])
  | order :: rest, x =>
    let (x, change) := obey surface breakAnywhere order x
    let (x, changes) := obeyAll rest x
    (x, change :: changes)

/-- How an order is obeyed. A stale one does nothing. Any other is stored and then presented as
planned; a failure is reported and takes nothing back. -/
inductive Heeds (order : Order σ ι) :
    Translator × Stage σ ι → Translator × Stage σ ι → Change → Prop
  | idle {t g} (stale : order.IsStale t) : Heeds order (t, g) (t, g) .unchanged
  | presented {t g done s failure} (fresh : ¬ order.IsStale t)
      (performed : Performs (plan surface breakAnywhere (order.stored t) order.root) g.state
        done s failure) :
      Heeds order (t, g)
        (order.stored t,
          ⟨s, done.foldl (fun c event => event.heard c) g.channel, g.journal ++ done⟩)
        (.ofEnd (order.stored t).active.name failure)

/-- Orders obeyed one after the other. -/
inductive HeedsAll :
    List (Order σ ι) → Translator × Stage σ ι → Translator × Stage σ ι → List Change → Prop
  | nil (x) : HeedsAll [] x x []
  | cons {order rest x y z change changes} (first : Heeds surface breakAnywhere order x y change)
      (tail : HeedsAll rest y z changes) : HeedsAll (order :: rest) x z (change :: changes)

lemma obey_of_stale {order : Order σ ι} {t : Translator} (h : order.IsStale t)
    (g : Stage σ ι) : obey surface breakAnywhere order (t, g) = ((t, g), .unchanged) := by
  cases order with
  | present root => exact h.elim
  | select r root => simp only [obey, setLanguage_of_eq _ _ _ (show t.requested = r from h)]

lemma obey_of_fresh {order : Order σ ι} {t : Translator} (h : ¬ order.IsStale t)
    (g : Stage σ ι) :
    obey surface breakAnywhere order (t, g) =
      let t' := order.stored t
      let (done, s, failure) := attempt (plan surface breakAnywhere t' order.root) g.state
      ((t', ⟨s, done.foldl (fun c event => event.heard c) g.channel, g.journal ++ done⟩),
        .ofEnd t'.active.name failure) := by
  cases order with
  | present root =>
    simp only [obey, announce_stage]
    rfl
  | select r root =>
    simp only [obey, setLanguage_of_ne _ _ _ (show t.requested ≠ r from h), announce_stage]
    rfl

theorem obey_heeds (order : Order σ ι) (x : Translator × Stage σ ι) :
    Heeds surface breakAnywhere order x (obey surface breakAnywhere order x).1
      (obey surface breakAnywhere order x).2 := by
  obtain ⟨t, g⟩ := x
  by_cases h : order.IsStale t
  · rw [obey_of_stale _ _ h]
    exact .idle h
  · rw [obey_of_fresh _ _ h]
    exact .presented h (attempt_performs _ _)

/-- Other listeners make no difference to what is stored, done and reported. -/
lemma obey_channel (order : Order σ ι) (t : Translator) (g : Stage σ ι) (other : Channel) :
    ∃ channel, obey surface breakAnywhere order (t, { g with channel := other }) =
      let (x, change) := obey surface breakAnywhere order (t, g)
      ((x.1, { x.2 with channel := channel }), change) := by
  by_cases h : order.IsStale t
  · exact ⟨other, by rw [obey_of_stale _ _ h, obey_of_stale _ _ h]⟩
  · exact ⟨_, by rw [obey_of_fresh _ _ h, obey_of_fresh _ _ h]⟩

theorem obeyAll_channel (orders : List (Order σ ι)) (t : Translator) (g : Stage σ ι)
    (other : Channel) :
    ∃ channel, obeyAll surface breakAnywhere orders (t, { g with channel := other }) =
      let (x, changes) := obeyAll surface breakAnywhere orders (t, g)
      ((x.1, { x.2 with channel := channel }), changes) := by
  induction orders generalizing t g other with
  | nil => exact ⟨other, rfl⟩
  | cons order rest ih =>
    obtain ⟨between, hfirst⟩ := obey_channel surface breakAnywhere order t g other
    obtain ⟨channel, htail⟩ := ih (obey surface breakAnywhere order (t, g)).1.1
      (obey surface breakAnywhere order (t, g)).1.2 between
    refine ⟨channel, ?_⟩
    simp only [obeyAll, hfirst, htail]

/-- Every sequence of orders is obeyed as planned, whoever listens. -/
theorem obeyAll_heeds (orders : List (Order σ ι)) (t : Translator) (g : Stage σ ι) :
    HeedsAll surface breakAnywhere orders (t, g) (obeyAll surface breakAnywhere orders (t, g)).1
      (obeyAll surface breakAnywhere orders (t, g)).2 ∧
    ∀ other, ∃ channel,
      obeyAll surface breakAnywhere orders (t, { g with channel := other }) =
        let (x, changes) := obeyAll surface breakAnywhere orders (t, g)
        ((x.1, { x.2 with channel := channel }), changes) := by
  refine ⟨?_, obeyAll_channel surface breakAnywhere orders t g⟩
  have hall : ∀ x, HeedsAll surface breakAnywhere orders x
      (obeyAll surface breakAnywhere orders x).1 (obeyAll surface breakAnywhere orders x).2 := by
    induction orders with
    | nil => exact fun x => .nil x
    | cons order rest ih => exact fun x => .cons (obey_heeds surface breakAnywhere order x) (ih _)
  exact hall (t, g)

end Obey

end Phrasebook.Display
