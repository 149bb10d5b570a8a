import Gazetteer.Proofs.CommandLine.Plan
import Gazetteer.Proofs.Field.View
import Gazetteer.Proofs.Http.Record
import Gazetteer.Proofs.Lookup.Timing

/-!
# The command line and fields agree

A lookup on the command line and a field with one text come to the same: a query is made of the text
and looked up, and the first address is shown.  With the same settings, the command writes the item
that the field shows, and fails where the field has a fault.  Both ask the same, and leave the same
in the cache file but for the times of entries.

    a field with one value is a lookup and its first address                         (shown_single)
    a command without --all agrees with the field of its text                     (agrees_with_view)
-/

namespace Gazetteer

/-! ## Fields with one value -/

namespace FieldLookup

variable {π σ : Type} (f : FieldLookup) (g : Geocoder π σ)

/-- The items of a field with one value, from the addresses of the value. -/
def itemsOf (format : ExportFormat) : List Address → Except Error (List ShownItem)
  | [] => .ok []
  | first :: _ => (first.render format).map fun output => [⟨0, output⟩]

theorem shown_single (now : Nat → Instant) (format : ExportFormat) {value : FieldValue}
    (h : value.isEmpty = false) (s : π × σ) :
    (f.shown g now format [value]).run.run s =
      (((f.find g (now 0) value).run.run s).1.bind (itemsOf format),
        ((f.find g (now 0) value).run.run s).2) := by
  have hstep : f.step g (now 0) value s = (some ((f.find g (now 0) value).run.run s).1,
      ((f.find g (now 0) value).run.run s).2) := by
    rw [step, h]
    rfl
  cases hfound : ((f.find g (now 0) value).run.run s).1 with
  | error e =>
    have hresolve := resolve_cons_error f g now 0 value [] s e (by rw [hstep, hfound])
    rw [hstep] at hresolve
    exact run_bind_error _ hresolve
  | ok found =>
    have hrest : (f.resolve g now 1 []).run.run (f.step g (now 0) value s).2 =
        (.ok [], (f.step g (now 0) value s).2) := rfl
    have hresolve := resolve_cons_ok f g now 0 value [] s (by rw [hstep, hfound]; simp) hrest
    rw [shown_of_resolved f g now format [value] s hresolve, hstep, hfound]
    cases found with
    | nil => rfl
    | cons first others =>
      show (([(0, first)] : List (Nat × Address)).mapM (showItem format), _) =
        ((first.render format).map fun output => [⟨0, output⟩], _)
      rw [List.mapM_cons, showItem]
      cases first.render format <;> rfl

end FieldLookup

/-- A field with one text, and what it is looked up and shown with. -/
structure TextView (ν : Type) where
  geocoder : Geocoder ν Disk
  field : FieldLookup
  format : ExportFormat
  text : String

namespace TextView

variable {ν : Type} (v : TextView ν) (now : Nat → Instant) (w : World ν)

/-- The items of the field, and what showing it leaves of the network and of the cache file. -/
def run : Except Error (List ShownItem) × ν × Disk :=
  (v.field.shown v.geocoder now v.format [.text v.text]).run.run (w.network, Disk.opened w.cache)

/-- What the providers are asked, in order. -/
def asks : List Ask :=
  ((v.field.shown v.geocoder.recorded now v.format [.text v.text]).run.run
    ((w.network, []), (Disk.opened w.cache, []))).2.1.2

end TextView

/-- The field with what a lookup on the command line has under the settings of the file: the same
settings, cache file, providers and direction. -/
def LookupOptions.view {ν : Type} (o : LookupOptions) (s : Settings) (n : Http.Network ν)
    (direction : Direction) (format : ExportFormat) (text : String) : TextView ν where
  geocoder := .ofSettings n (o.settings s) (some Disk.store)
  field := ⟨o.asked s, direction⟩
  format := format
  text := text

/-- The items on lines of their own. -/
def itemLines : Except Error (List ShownItem) → String
  | .ok items => String.join (items.map fun item => item.output ++ "\n")
  | .error _ => ""

/-- A command writes the items of a field, which are none or one, and fails where the field does. -/
structure Outcome.Shows (o : Outcome) (items : Except Error (List ShownItem)) : Prop where
  success : o.code = 0 ↔ ∃ shown, items = .ok shown
  output : o.output = itemLines items
  single : ∀ shown, items = .ok shown → shown.length ≤ 1

namespace CommandLine

theorem failed_shows (f : Failure) (e : Error) : (failed f "").Shows (.error e) where
  success := by simp [failed]
  output := rfl
  single := by simp

theorem outcome_shows (p : Plan) (result : Except Error (List Address)) :
    (p.outcome false result).Shows (result.bind (FieldLookup.itemsOf p.format)) := by
  cases result with
  | error e => exact failed_shows _ e
  | ok found =>
    cases found with
    | nil =>
      constructor
      case success => exact ⟨fun _ => ⟨[], rfl⟩, fun _ => rfl⟩
      case output => rfl
      case single =>
        rintro _ ⟨⟩
        exact Nat.zero_le 1
    | cons first others =>
      show (written p.format "" [first]).Shows
        ((first.render p.format).map fun output => [⟨0, output⟩])
      rw [written]
      cases first.render p.format with
      | error e => exact failed_shows _ e
      | ok output =>
        constructor
        case success => exact ⟨fun _ => ⟨_, rfl⟩, fun _ => rfl⟩
        case output => simp [written, Except.map, itemLines]
        case single =>
          rintro _ ⟨⟩
          exact Nat.le_refl 1

section

variable {ν : Type} {direction : Direction} {text : String} {options : LookupOptions}
  {s : Settings} {format : ExportFormat}

/-- The view of a text is its lookup and the first address, if the text is a query. -/
theorem view_run (htext : Text.trim text ≠ "") (n : Http.Network ν) (now : Nat → Instant)
    (w : World ν) : (options.view s n direction format text).run now w =
      match (FieldValue.text text).query direction with
      | .error e => (.error e, w.network, Disk.opened w.cache)
      | .ok q =>
        let p : Plan := ⟨options.settings s, options.asked s, format, q⟩
        ((p.lookup n (now 0) w).1.bind (FieldLookup.itemsOf format), (p.lookup n (now 0) w).2) := by
  have hvalue : (FieldValue.text text).isEmpty = false := by
    simpa [FieldValue.isEmpty] using htext
  rw [TextView.run, LookupOptions.view, FieldLookup.shown_single _ _ _ _ hvalue,
    FieldLookup.find_run]
  cases (FieldValue.text text).query direction <;> rfl

/-- What the providers are asked by a lookup, in order. -/
def asks (n : Http.Network ν) (now : Instant) (direction : Direction) (text : String)
    (options : LookupOptions) (w : World ν) : List Ask :=
  match plan w.config direction text options with
  | .ok p => (p.geocoder n).asks now p.request (w.network, Disk.opened w.cache)
  | .error _ => []

theorem view_asks (htext : Text.trim text ≠ "") (n : Http.Network ν) (now : Nat → Instant)
    (w : World ν) : (options.view s n direction format text).asks now w =
      match (FieldValue.text text).query direction with
      | .error _ => []
      | .ok q =>
        let p : Plan := ⟨options.settings s, options.asked s, format, q⟩
        (p.geocoder n).asks (now 0) p.request (w.network, Disk.opened w.cache) := by
  have hvalue : (FieldValue.text text).isEmpty = false := by
    simpa [FieldValue.isEmpty] using htext
  rw [TextView.asks, LookupOptions.view, FieldLookup.shown_single _ _ _ _ hvalue,
    FieldLookup.find_run]
  cases (FieldValue.text text).query direction <;> rfl

/-- Lookups of a plan at two times have one result and leave the same collections. -/
theorem Plan.lookup_retimed (p : Plan) (n : Http.Network ν) (w : World ν) {now now' : Instant}
    (hnow : now.InRange) (hnow' : now'.InRange) :
    (p.lookup n now w).1 = (p.lookup n now' w).1 ∧
      Geocoder.SameCollections (p.lookup n now w).2 (p.lookup n now' w).2 := by
  apply Geocoder.lookup_retimed _ hnow hnow'
  unfold Plan.geocoder Geocoder.ofSettings
  cases p.settings.cache
  · exact .inl rfl
  · exact .inr rfl

theorem runLookup_agrees {w : World ν} (htext : Text.trim text ≠ "") (hall : options.all = false)
    (hs : Settings.load w.config = .ok s) (hformat : options.exportFormat s = .ok format)
    (n : Http.Network ν) (direction : Direction) {now : Instant} {now' : Nat → Instant}
    (hnow : now.InRange) (hnow' : (now' 0).InRange) :
    ((runLookup n now direction text options).run w).1.Shows
        ((options.view s n direction format text).run now' w).1 ∧
      ((runLookup n now direction text options).run w).2.network =
        ((options.view s n direction format text).run now' w).2.1 ∧
      Disk.collections ((runLookup n now direction text options).run w).2.cache =
        Disk.collections ((options.view s n direction format text).run now' w).2.2.slot := by
  have hplan := plan_of_loaded hs hformat direction text
  rw [view_run htext]
  cases hquery : (FieldValue.text text).query direction with
  | error e =>
    rw [hquery] at hplan
    rw [runLookup_unplanned n now hplan]
    exact ⟨failed_shows _ e, rfl, rfl⟩
  | ok q =>
    rw [hquery] at hplan
    rw [runLookup_planned n now hplan, hall]
    obtain ⟨hresult, hnetwork, hcollections⟩ :=
      Plan.lookup_retimed ⟨options.settings s, options.asked s, format, q⟩ n w hnow hnow'
    dsimp only
    rw [← hresult]
    exact ⟨outcome_shows _ _, hnetwork, hcollections⟩

/-- A lookup on the command line, and the field of its text: what they show, and what they do. -/
structure FieldAgreement (n : Http.Network ν) (now : Instant) (now' : Nat → Instant)
    (args : List String) (direction : Direction) (text : String) (options : LookupOptions)
    (s : Settings) (format : ExportFormat) (w : World ν) : Prop where
  shows : ((run n now args).run w).1.Shows
    ((options.view s n direction format text).run now' w).1
  asks : asks n now direction text options w =
    (options.view s n direction format text).asks now' w
  requests : requests n now args w =
    ((options.view s n.recorded direction format text).run now' w.onRecord).2.1.2
  network : ((run n now args).run w).2.network =
    ((options.view s n direction format text).run now' w).2.1
  collections : Disk.collections ((run n now args).run w).2.cache =
    Disk.collections ((options.view s n direction format text).run now' w).2.2.slot

/-- The command line and the field of its text agree: the command writes the item that the field
shows, if it shows one, and else nothing, and fails where the field has a fault.  Both ask the same
of the providers and of the network, and leave the same collections under the same keys, whenever
they are run: the times are only such that a clock shows them. -/
theorem agrees_with_view {args : List String}
    (hargs : parse false args = .command (.lookup direction text options))
    (htext : Text.trim text ≠ "") (hall : options.all = false) {w : World ν}
    (hs : Settings.load w.config = .ok s) (hformat : options.exportFormat s = .ok format)
    (n : Http.Network ν) {now : Instant} {now' : Nat → Instant} (hnow : now.InRange)
    (hnow' : (now' 0).InRange) :
    FieldAgreement n now now' args direction text options s format w := by
  have hloaded : Settings.load w.onRecord.config = .ok s := hs
  obtain ⟨hshows, hnetwork, hcollections⟩ :=
    runLookup_agrees htext hall hs hformat n direction hnow hnow'
  obtain ⟨-, hrecorded, -⟩ :=
    runLookup_agrees htext hall hloaded hformat n.recorded direction hnow hnow'
  constructor
  case shows => rwa [run_lookup n now hargs]
  case asks =>
    rw [view_asks htext, asks, plan_of_loaded hs hformat]
    cases (FieldValue.text text).query direction with
    | error e => rfl
    | ok q => exact Geocoder.asks_timeless _ _ _ _ _
  case requests => rw [requests, run_lookup n.recorded now hargs, hrecorded]
  case network => rwa [run_lookup n now hargs]
  case collections => rwa [run_lookup n now hargs]

/-- A place that is found, and shown a year later. -/
theorem agrees_with_view_gotham :
    let n := Http.Network.unreachable Unit
    let args := ["geocode", "gotham city", "-p", "test_provider", "-d", "wkt"]
    let options : LookupOptions := { providers := ["test_provider"], format := some "wkt" }
    let now : Instant := ⟨2024, 1, 1, 0, 0, 0, 0, by decide⟩
    let later : Instant := ⟨2025, 1, 1, 0, 0, 0, 0, by decide⟩
    let w : World Unit :=
      ⟨⟨"/c/config.toml", "/c", .absent⟩, ⟨"/k/cache.json", "/k", .absent⟩, (), .utc⟩
    parse false args = .command (.lookup .geocode "gotham city" options) ∧
      Text.trim "gotham city" ≠ "" ∧ options.all = false ∧ Settings.load w.config = .ok {} ∧
      options.exportFormat {} = .ok .wkt ∧ now.InRange ∧ later.InRange ∧
      ((run n now args).run w).1 = { code := 0, output := "POINT(40 20)\n" } ∧
      FieldAgreement n now (fun _ => later) args .geocode "gotham city" options {} .wkt w := by
  intro n args options now later w
  have hargs : parse false args = .command (.lookup .geocode "gotham city" options) := by
    decide +kernel
  have htext : Text.trim "gotham city" ≠ "" := by decide +kernel
  have hformat : options.exportFormat {} = .ok .wkt := by
    have hname : ExportFormat.ofName? "wkt" = some .wkt := by decide +kernel
    simp [LookupOptions.exportFormat, LookupOptions.formatName?, options, ExportFormat.ofName, hname]
  have hnow : now.InRange := by decide
  have hlater : later.InRange := by decide
  exact ⟨hargs, htext, rfl, rfl, hformat, hnow, hlater, by decide +kernel,
    agrees_with_view hargs htext rfl rfl hformat n hnow hlater⟩

end

end CommandLine

end Gazetteer
