import Gazetteer.Proofs.Field.View
import Gazetteer.Proofs.Query.Signature

/-!
# Prepared texts

A text, or a postal address, is looked up as a text without blanks at its ends, which is empty just
if the value counts as empty.  The text of an address is made of what its components are without
blanks at their ends; components that are absent and components that are blank count alike.  So
whatever values a field has, a provider that is to find places is never asked for a blank text, nor
for one with blanks at an end.

    v.Prepares t: the value v is looked up as the text t, and t as itself
    Kept fields parts: what is kept of the components of an address
    OnlyAsks P m: the step m asks the providers only what P allows

    every text and every address prepares a text              (prepares_text, prepares_address)
    a field asks for the queries of its values that are not empty            (onlyAsks_resolve)
    all of it                                                              (prepared_canonical)
-/

namespace Gazetteer

/-! ## The components of an address -/

namespace PostalAddress

/-- All components, as they stand. -/
def fields (a : PostalAddress) : List (Option String) :=
  [a.line1, a.line2, a.locality, a.administrativeArea, a.postalCode, a.countryCode]

/-- What is kept of components: the ones that are there and not blank, without blanks at their
ends. -/
inductive Kept : List (Option String) → List String → Prop where
  | nil : Kept [] []
  | absent {rest : List (Option String)} {parts : List String} (h : Kept rest parts) :
      Kept (none :: rest) parts
  | blank {s : String} {rest : List (Option String)} {parts : List String}
      (hs : Text.Blank s.toList) (h : Kept rest parts) : Kept (some s :: rest) parts
  | part {s part : String} {rest : List (Option String)} {parts : List String}
      (hs : Text.TrimsTo s.toList part.toList) (hne : part ≠ "") (h : Kept rest parts) :
      Kept (some s :: rest) (part :: parts)

/-- A component as it is, an absent one for a blank one, or one with blanks around it. -/
inductive Respelled : Option String → Option String → Prop where
  | same (c : Option String) : Respelled c c
  | dropped {s : String} (h : Text.Blank s.toList) : Respelled (some s) none
  | padded {before after : String} (s : String) (hbefore : Text.Blank before.toList)
      (hafter : Text.Blank after.toList) : Respelled (some s) (some (before ++ s ++ after))

/-- What is kept of one component. -/
def part? (c : Option String) : Option String :=
  c.bind fun s => if Text.trim s = "" then none else some (Text.trim s)

theorem filterMap_part? (fields : List (Option String)) :
    ((fields.filterMap id).map Text.trim).filter (fun c => !c.isEmpty) =
      fields.filterMap part? := by
  rw [List.map_filterMap, List.filter_filterMap]
  congr 1
  funext c
  cases c with
  | none => rfl
  | some s => by_cases hs : Text.trim s = "" <;> simp [part?, hs]

theorem components_eq (a : PostalAddress) : a.components = a.fields.filterMap part? :=
  filterMap_part? a.fields

theorem kept_iff {fields : List (Option String)} {parts : List String} :
    Kept fields parts ↔ fields.filterMap part? = parts := by
  constructor
  · intro h
    induction h with
    | nil => rfl
    | absent h ih => exact ih
    | blank hs h ih => rwa [List.filterMap_cons, part?, Option.bind_some,
        if_pos (Text.trim_eq_empty_iff.mpr hs)]
    | part hs hne h ih =>
      rw [Text.trimsTo_toList_iff] at hs
      rw [List.filterMap_cons, part?, Option.bind_some, hs, if_neg hne, ih]
  · rintro rfl
    induction fields with
    | nil => exact .nil
    | cons c rest ih =>
      cases c with
      | none => exact .absent ih
      | some s =>
        by_cases hs : Text.trim s = ""
        · rw [List.filterMap_cons, part?, Option.bind_some, if_pos hs]
          exact .blank (Text.trim_eq_empty_iff.mp hs) ih
        · rw [List.filterMap_cons, part?, Option.bind_some, if_neg hs]
          exact .part (Text.trimsTo_toList_iff.mpr rfl) hs ih

theorem Respelled.part?_eq {c c' : Option String} (h : Respelled c c') : part? c = part? c' := by
  cases h with
  | same c => rfl
  | dropped h =>
    rw [part?, Option.bind_some, if_pos (Text.trim_eq_empty_iff.mpr h)]
    rfl
  | padded s hbefore hafter =>
    have htrim := Text.trimChars_padded s.toList hbefore hafter
    rw [part?, part?, Option.bind_some, Option.bind_some, Text.trim, Text.trim,
      String.toList_append, String.toList_append, htrim]

theorem filterMap_part?_respelled {fields fields' : List (Option String)}
    (h : List.Forall₂ Respelled fields fields') :
    fields.filterMap part? = fields'.filterMap part? := by
  induction h with
  | nil => rfl
  | cons h _ ih => rw [List.filterMap_cons, List.filterMap_cons, h.part?_eq, ih]

end PostalAddress

/-! ## Texts of values -/

namespace FieldValue

/-- A value is looked up as a text: one that is canonical, and empty just if the value is. -/
structure Prepares (v : FieldValue) (t : String) : Prop where
  query : v.query .geocode = .ok (.text t)
  trimmed : Text.Trimmed t.toList
  empty : t = "" ↔ v.isEmpty = true
  again : (text t).query .geocode = .ok (.text t)

theorem prepares_text (s : String) : (text s).Prepares (Text.trim s) where
  query := rfl
  trimmed := Text.trimmed_trim s
  empty := by simp [isEmpty]
  again := by rw [query, Text.trim_trim]

theorem prepares_address (a : PostalAddress) :
    (address a).Prepares (", ".intercalate a.components) where
  query := rfl
  trimmed := a.trimmed_joined
  empty := by
    rw [a.joined_eq_empty_iff]
    simp [isEmpty]
  again := by rw [query, a.trim_joined]

/-- What is looked up as a text prepares it. -/
theorem prepares_of_query {v : FieldValue} {q : Query} (h : v.query .geocode = .ok q) :
    ∃ t, v.Prepares t ∧ q = .text t := by
  cases v with
  | text s =>
    cases h
    exact ⟨_, prepares_text s, rfl⟩
  | geofield item => cases h
  | address a =>
    cases h
    exact ⟨_, prepares_address a, rfl⟩

end FieldValue

/-! ## What providers are asked -/

namespace Geocoder

variable {π σ α β : Type} {P : Ask → Prop}

/-- A step on the record asks only what is allowed. -/
def OnlyAsks (P : Ask → Prop)
    (m : ExceptT Error (LookupM (π × List Ask) (σ × List StoreCall)) α) : Prop :=
  ∀ s, (∀ a ∈ s.1.2, P a) → ∀ a ∈ (m.run.run s).2.1.2, P a

theorem OnlyAsks.of_silent {m : ExceptT Error (LookupM (π × List Ask) (σ × List StoreCall)) α}
    (h : ∀ s, (m.run.run s).2 = s) : OnlyAsks P m := by
  intro s hs
  rwa [h]

/-- A step that only gives a result asks nothing. -/
theorem onlyAsks_lift (r : Except Error α) : OnlyAsks P
    (liftM r : ExceptT Error (LookupM (π × List Ask) (σ × List StoreCall)) α) :=
  .of_silent fun _ => rfl

theorem OnlyAsks.bind {m : ExceptT Error (LookupM (π × List Ask) (σ × List StoreCall)) α}
    {k : α → ExceptT Error (LookupM (π × List Ask) (σ × List StoreCall)) β}
    (hm : OnlyAsks P m) (hk : ∀ a, OnlyAsks P (k a)) : OnlyAsks P (m >>= k) := by
  intro s hs
  have hasked := hm s hs
  cases h : m.run.run s with
  | mk result t =>
    rw [h] at hasked
    cases result with
    | ok a =>
      rw [run_bind_ok h]
      exact hk a t hasked
    | error e =>
      rw [run_bind_error k h]
      exact hasked

theorem onlyAsks_lookup (g : Geocoder π σ) (now : Instant) (r : Request)
    (h : ∀ a : Ask, a.query = r.query → P a) : OnlyAsks P (g.recorded.lookup now r) := by
  rintro ⟨⟨x, asks⟩, y, calls⟩ hs a ha
  rw [recorded_lookup] at ha
  rcases List.mem_append.mp ha with hbefore | hnew
  · exact hs a hbefore
  · rw [← asks_eq g now] at hnew
    exact h a (mem_asks g now r _ a hnew).1

end Geocoder

namespace FieldLookup

open Geocoder (OnlyAsks)

variable {π σ : Type} {P : Ask → Prop} (f : FieldLookup) (g : Geocoder π σ) (now : Nat → Instant)
  (values : List FieldValue)

theorem onlyAsks_find (now : Instant) (value : FieldValue)
    (h : ∀ a : Ask, value.query f.direction = .ok a.query → P a) :
    OnlyAsks P (f.find g.recorded now value) := by
  intro s hs
  rw [find_run]
  cases hquery : value.query f.direction with
  | error e => exact hs
  | ok q =>
    rw [hquery] at h
    exact g.onlyAsks_lookup now ⟨q, f.providers⟩ (fun a ha => h a (by rw [ha])) s hs

/-- A field asks only for the queries of its values that are not empty. -/
theorem onlyAsks_resolve (delta : Nat)
    (h : ∀ v ∈ values, v.isEmpty = false → ∀ a : Ask, v.query f.direction = .ok a.query → P a) :
    OnlyAsks P (f.resolve g.recorded now delta values) := by
  induction values generalizing delta with
  | nil => exact .of_silent fun _ => rfl
  | cons value rest ih =>
    have hrest := ih (delta + 1) fun v hv => h v (List.mem_cons_of_mem _ hv)
    rw [resolve_cons]
    split
    · exact hrest
    · next hempty =>
      have hfirst := h value List.mem_cons_self (Bool.eq_false_iff.mpr hempty)
      exact (f.onlyAsks_find g (now delta) value hfirst).bind fun found =>
        hrest.bind fun others => .of_silent fun _ => rfl

/-- A question for the text of one of some values, which is not empty. -/
def AsksText (values : List FieldValue) (a : Ask) : Prop :=
  ∃ v ∈ values, ∃ t, v.Prepares t ∧ a.query = .text t ∧ t ≠ ""

theorem onlyAsks_text (hdirection : f.direction = .geocode) (delta : Nat) :
    OnlyAsks (AsksText values) (f.resolve g.recorded now delta values) := by
  apply onlyAsks_resolve
  intro v hv hempty a hquery
  rw [hdirection] at hquery
  obtain ⟨t, hprepares, ht⟩ := FieldValue.prepares_of_query hquery
  refine ⟨v, hv, t, hprepares, ht, ?_⟩
  rw [Ne, hprepares.empty, hempty]
  exact Bool.false_ne_true

end FieldLookup

namespace FieldValue

/-- Prepared texts are canonical.  Every text and every address prepares a text.  That of an
address joins what is kept of its components, and does not change with their spelling.  A field that
looks for places asks its providers for such texts only, and for none that is empty, whether it is
shown or stored. -/
theorem prepared_canonical :
    ((∀ s, (text s).Prepares (Text.trim s)) ∧ ∀ a, ∃ t, (address a).Prepares t) ∧
    (∀ (a : PostalAddress) (t : String), (address a).query .geocode = .ok (.text t) ↔
      ∃ parts, PostalAddress.Kept a.fields parts ∧ t = ", ".intercalate parts) ∧
    (∀ a b : PostalAddress, List.Forall₂ PostalAddress.Respelled a.fields b.fields →
      (address a).query .geocode = (address b).query .geocode) ∧
    ∀ {π σ : Type} (f : FieldLookup) (g : Geocoder π σ) (now : Nat → Instant)
      (values : List FieldValue) (x : π) (y : σ), f.direction = .geocode →
      (∀ format, ∀ a ∈ ((f.shown g.recorded now format values).run.run ((x, []), (y, []))).2.1.2,
        FieldLookup.AsksText values a) ∧
      ∀ a ∈ ((f.geofields g.recorded now values).run.run ((x, []), (y, []))).2.1.2,
        FieldLookup.AsksText values a := by
  refine ⟨⟨prepares_text, fun a => ⟨_, prepares_address a⟩⟩, ?joined, ?respelled, ?asked⟩
  case joined =>
    intro a t
    simp only [PostalAddress.kept_iff, ← PostalAddress.components_eq, exists_eq_left']
    constructor
    · rintro ⟨⟩
      rfl
    · rintro rfl
      rfl
  case respelled =>
    intro a b h
    rw [query, query, PostalAddress.components_eq, PostalAddress.components_eq,
      PostalAddress.filterMap_part?_respelled h]
  case asked =>
    intro π σ f g now values x y hdirection
    have hresolve := f.onlyAsks_text g now values hdirection 0
    have hnone : ∀ a ∈ ([] : List Ask), FieldLookup.AsksText values a :=
      List.forall_mem_nil _
    exact ⟨fun format => hresolve.bind (fun _ => Geocoder.onlyAsks_lift _) _ hnone,
      hresolve.bind (fun _ => Geocoder.onlyAsks_lift _) _ hnone⟩

/-- An address in two spellings, between a blank text and a padded one. -/
theorem prepared_canonical_downing :
    let a : PostalAddress :=
      { line1 := some "10 Downing Street", line2 := some " \u3000", locality := some "London" }
    let b : PostalAddress :=
      { line1 := some "\t10 Downing Street", line2 := none, locality := some "London\u00a0" }
    let f : FieldLookup := ⟨["test_provider"], .geocode⟩
    let g : Geocoder Unit Unit := .ofSettings (Http.Network.unreachable Unit) {} none
    let values := [text " ", address b, text " gotham city"]
    let now : Instant := ⟨2024, 1, 1, 0, 0, 0, 0, by decide⟩
    let asks := ((f.shown g.recorded (fun _ => now) .wkt values).run.run (((), []), ((), []))).2.1.2
    List.Forall₂ PostalAddress.Respelled a.fields b.fields ∧ f.direction = .geocode ∧
      (address a).query .geocode = .ok (.text "10 Downing Street, London") ∧
      (address a).query .geocode = (address b).query .geocode ∧
      asks.map (·.query) = [.text "10 Downing Street, London", .text "gotham city"] ∧
      ∀ ask ∈ asks, FieldLookup.AsksText values ask := by
  intro a b f g values now asks
  obtain ⟨-, -, hrespelled, hasked⟩ := prepared_canonical
  have hspelling : List.Forall₂ PostalAddress.Respelled a.fields b.fields := by
    have hblank : ∀ pad ∈ ["", "\t", "\u00a0", " \u3000"], Text.Blank pad.toList := by
      decide +kernel
    exact .cons (.padded "10 Downing Street" (hblank "\t" (by simp)) (hblank "" (by simp)))
      (.cons (.dropped (hblank " \u3000" (by simp)))
        (.cons (.padded "London" (hblank "" (by simp)) (hblank "\u00a0" (by simp)))
          (.cons (.same none) (.cons (.same none) (.cons (.same none) .nil)))))
  have hjoined : ", ".intercalate a.components = "10 Downing Street, London" := by decide +kernel
  have hquery : (address a).query .geocode = .ok (.text "10 Downing Street, London") := by
    rw [query, hjoined]
  exact ⟨hspelling, rfl, hquery, hrespelled a b hspelling, by decide +kernel,
    (hasked f g (fun _ => now) values () () rfl).1 .wkt⟩

end FieldValue

end Gazetteer
