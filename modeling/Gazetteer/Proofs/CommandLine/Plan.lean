import Gazetteer.CommandLine.Run
import Gazetteer.Proofs.Steps

/-!
# The plan of a lookup

What a lookup needs is found out before anything is asked: its settings, its providers, its format
and its query.  The options come before the settings file.  A lookup with a plan does what a
geocoder does, and shows of its result what the plan says; without a plan it does nothing.

    plan config direction text options = .ok p ↔ the parts of p are those of the lookup (plan_ok_iff)
    runs of a lookup, with a plan and without one          (runLookup_planned, runLookup_unplanned)
-/

namespace Gazetteer

namespace LookupOptions

/-- The settings of a lookup, from those of the file. -/
def settings (o : LookupOptions) (s : Settings) : Settings :=
  if o.noCache then { s with cache := false } else s

/-- The ids of the providers that a lookup asks, in order. -/
def asked (o : LookupOptions) (s : Settings) : List String :=
  if o.providers.isEmpty then s.enabledProviders else o.providers

/-- The name of the format of a lookup, if it is given or configured. -/
def formatName? (o : LookupOptions) (s : Settings) : Option String :=
  match o.format with
  | some name => some name
  | none => s.defaultFormat

/-- The format of a lookup. -/
def exportFormat (o : LookupOptions) (s : Settings) : Except Error ExportFormat :=
  match o.formatName? s with
  | some name => ExportFormat.ofName name
  | none => .ok .geoJson

end LookupOptions

namespace CommandLine

section

variable {config : FileSlot} {direction : Direction} {text : String} {options : LookupOptions}

theorem plan_eq : plan config direction text options = (do
    let s ← (Settings.load config).mapError .file
    let format ← (options.exportFormat s).mapError .error
    let query ← ((FieldValue.text text).query direction).mapError .error
    return ⟨options.settings s, options.asked s, format, query⟩) := by
  unfold plan
  congr 1
  funext s
  -- Whether the cache is off makes no difference to the providers and the format.
  obtain ⟨providers, format, noCache, all⟩ := options
  cases format <;> cases noCache <;> rfl

theorem plan_ok_iff {p : Plan} : plan config direction text options = .ok p ↔
    ∃ s, Settings.load config = .ok s ∧ options.exportFormat s = .ok p.format ∧
      (FieldValue.text text).query direction = .ok p.query ∧
      p.settings = options.settings s ∧ p.providers = options.asked s := by
  rw [plan_eq]
  simp only [bind_eq_ok_iff, mapError_eq_ok_iff]
  constructor
  · rintro ⟨s, hs, format, hformat, query, hquery, h⟩
    cases h
    exact ⟨s, hs, hformat, hquery, rfl, rfl⟩
  · rintro ⟨s, hs, hformat, hquery, hsettings, hproviders⟩
    refine ⟨s, hs, p.format, hformat, p.query, hquery, ?_⟩
    rw [← hsettings, ← hproviders]
    rfl

/-- With settings and a format, there is a plan if and only if the text is a query. -/
theorem plan_of_loaded {s : Settings} {format : ExportFormat} (hs : Settings.load config = .ok s)
    (hformat : options.exportFormat s = .ok format) (direction : Direction) (text : String) :
    plan config direction text options =
      match (FieldValue.text text).query direction with
      | .error e => .error (.error e)
      | .ok q => .ok ⟨options.settings s, options.asked s, format, q⟩ := by
  rw [plan_eq, hs]
  show (do
    let format ← (options.exportFormat s).mapError .error
    let query ← ((FieldValue.text text).query direction).mapError .error
    return (⟨options.settings s, options.asked s, format, query⟩ : Plan) : Except Failure Plan) = _
  rw [hformat]
  cases (FieldValue.text text).query direction <;> rfl

/-! ## Runs -/

variable {ν : Type}

/-- The geocoder that a plan is for. -/
def Plan.geocoder (p : Plan) (n : Http.Network ν) : Geocoder ν Disk :=
  .ofSettings n p.settings (some Disk.store)

/-- What a plan asks the geocoder. -/
def Plan.request (p : Plan) : Request := ⟨p.query, p.providers⟩

/-- The lookup of a plan in a world: its result, and what it leaves of the network and of the cache
file. -/
def Plan.lookup (p : Plan) (n : Http.Network ν) (now : Instant) (w : World ν) :
    Except Error (List Address) × ν × Disk :=
  ((p.geocoder n).lookup now p.request).run.run (w.network, Disk.opened w.cache)

variable (n : Http.Network ν) (now : Instant) {w : World ν}

theorem runLookup_unplanned {f : Failure} (h : plan w.config direction text options = .error f) :
    (runLookup n now direction text options).run w = (failed f "", w) := by
  show runLookup n now direction text options w = _
  unfold runLookup
  rw [h]

theorem runLookup_planned {p : Plan} (h : plan w.config direction text options = .ok p) :
    (runLookup n now direction text options).run w =
      (p.outcome options.all (p.lookup n now w).1,
        { w with network := (p.lookup n now w).2.1, cache := (p.lookup n now w).2.2.slot }) := by
  have hgeocoder : Geocoder.ofSettings n p.settings
      (if p.settings.cache then some Disk.store else none) = p.geocoder n := by
    unfold Plan.geocoder Geocoder.ofSettings
    cases p.settings.cache <;> rfl
  show runLookup n now direction text options w = _
  unfold runLookup
  rw [h]
  dsimp only
  rw [hgeocoder]
  rfl

theorem run_lookup {args : List String}
    (hargs : parse false args = .command (.lookup direction text options)) :
    (run n now args).run w = (runLookup n now direction text options).run w := by
  rw [run, hargs]
  rfl

end

end CommandLine

end Gazetteer
