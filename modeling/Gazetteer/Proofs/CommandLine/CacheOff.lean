import Gazetteer.Proofs.CommandLine.Plan
import Gazetteer.Proofs.Http.Record

/-!
# Lookups that leave the cache file alone

A geocoder without a store asks its providers and does nothing else: its lookups are steps of the
providers (`Registry.lookup`), whatever the time and whatever stands in the store's place.  With the
cache switched off, on the command line or in the settings file, a lookup has no store, so nothing
that it shows, asks or changes depends on the cache file.

    geocoder.lookup now r, without a store, is registry.lookup r              (lookup_storeless)
    run of a lookup, cache off, is a step of the network                      (run_of_cacheOff)
    two runs with any two cache files go the same way                        (cache_noninterference)
-/

namespace Gazetteer

/-! ## Lookups without a store -/

section Storeless

variable {π σ : Type}

/-- The first answer of the providers that is not empty. -/
def Query.askAll (q : Query) : List (Provider π) → StateM π (List Address)
  | [] => return []
  | p :: rest => do
    match ← (p.ask q).run with
    | .ok (first :: others) => return first :: others
    | _ => q.askAll rest

/-- What a lookup does to the providers when nothing is kept. -/
def Registry.lookup (registry : Registry π) (r : Request) :
    StateM π (Except Error (List Address)) :=
  match (⟨registry, none⟩ : Geocoder π Unit).resolved r with
  | .error e => return .error e
  | .ok ps => do return .ok (← r.query.askAll ps)

namespace Geocoder

theorem firstAnswer_storeless (registry : Registry π) (now : Instant) (q : Query)
    (ps : List (Provider π)) (x : π) (y : σ) :
    ((⟨registry, none⟩ : Geocoder π σ).firstAnswer now q ps).run (x, y) =
      (((q.askAll ps).run x).1, (((q.askAll ps).run x).2, y)) := by
  induction ps generalizing x with
  | nil => rfl
  | cons p rest ih =>
    rw [firstAnswer_cons]
    -- Nothing is kept, so the turn is to ask; and nothing will be kept of its answer.
    have hturn : ((⟨registry, none⟩ : Geocoder π σ).turn q p).run (x, y) =
        (.asked ((p.ask q).run x).1, (((p.ask q).run x).2, y)) := rfl
    have hask : (q.askAll (p :: rest)).run x = (match ((p.ask q).run x).1 with
        | .ok (first :: others) => (pure (first :: others) : StateM π (List Address))
        | _ => q.askAll rest).run ((p.ask q).run x).2 := rfl
    rw [hturn, hask]
    dsimp only
    cases ((p.ask q).run x).1 with
    | error e => exact ih _
    | ok as =>
      cases as with
      | nil => exact ih _
      | cons first others => rfl

theorem lookup_storeless (registry : Registry π) (now : Instant) (r : Request) (x : π) (y : σ) :
    ((⟨registry, none⟩ : Geocoder π σ).lookup now r).run.run (x, y) =
      (((registry.lookup r).run x).1, (((registry.lookup r).run x).2, y)) := by
  have hresolved : (⟨registry, none⟩ : Geocoder π σ).resolved r =
      (⟨registry, none⟩ : Geocoder π Unit).resolved r := rfl
  rw [lookup_run, hresolved]
  unfold Registry.lookup
  cases (⟨registry, none⟩ : Geocoder π Unit).resolved r with
  | error e => rfl
  | ok ps =>
    dsimp only
    rw [firstAnswer_storeless]
    rfl

end Geocoder

end Storeless

/-! ## Lookups with the cache off -/

namespace CommandLine

variable {ν : Type}

/-- A lookup runs without the cache: its options say so, or the settings file does. -/
def CacheOff (config : FileSlot) (options : LookupOptions) : Prop :=
  options.noCache = true ∨ ∀ s, Settings.load config = .ok s → s.cache = false

theorem cache_of_plan {config : FileSlot} {direction : Direction} {text : String}
    {options : LookupOptions} (hoff : CacheOff config options) {p : Plan}
    (h : plan config direction text options = .ok p) : p.settings.cache = false := by
  obtain ⟨s, hs, -, -, hsettings, -⟩ := plan_ok_iff.mp h
  rw [hsettings, LookupOptions.settings]
  by_cases hno : options.noCache = true
  · rw [if_pos hno]
  · rw [if_neg hno]
    obtain hno' | hcache := hoff
    · exact absurd hno' hno
    · exact hcache s hs

/-- With the cache off, a lookup is a step of the network: nothing comes from the cache file or
goes there, and nothing depends on the time. -/
theorem runLookup_of_cacheOff {config : FileSlot} {options : LookupOptions}
    (h : CacheOff config options) (n : Http.Network ν) (direction : Direction) (text : String) :
    ∃ step : StateM ν Outcome, ∀ now cache zone x,
      (runLookup n now direction text options).run ⟨config, cache, x, zone⟩ =
        ((step.run x).1, ⟨config, cache, (step.run x).2, zone⟩) := by
  cases hp : plan config direction text options with
  | error f => exact ⟨return failed f "", fun now cache zone x => runLookup_unplanned n now hp⟩
  | ok p =>
    have hstoreless : p.geocoder n = ⟨Registry.ofSettings n p.settings, none⟩ := by
      rw [Plan.geocoder, Geocoder.ofSettings, cache_of_plan h hp]
      rfl
    refine ⟨do
      let result ← (Registry.ofSettings n p.settings).lookup p.request
      return p.outcome options.all result, fun now cache zone x => ?_⟩
    rw [runLookup_planned n now hp, Plan.lookup, hstoreless, Geocoder.lookup_storeless]
    rfl

theorem run_of_cacheOff {args : List String} {direction : Direction} {text : String}
    {options : LookupOptions} (hargs : parse false args = .command (.lookup direction text options))
    {config : FileSlot} (h : CacheOff config options) (n : Http.Network ν) :
    ∃ step : StateM ν Outcome, ∀ now cache zone x,
      (run n now args).run ⟨config, cache, x, zone⟩ =
        ((step.run x).1, ⟨config, cache, (step.run x).2, zone⟩) := by
  obtain ⟨step, hstep⟩ := runLookup_of_cacheOff h n direction text
  refine ⟨step, fun now cache zone x => ?_⟩
  rw [← hstep now cache zone x, run_lookup n now hargs]

/-- Two runs of a command line, at times and in worlds that may differ in the cache file and the
time zone, go the same way and leave the file as they found it. -/
structure RunAlike (n : Http.Network ν) (args : List String) (now now' : Instant)
    (w w' : World ν) : Prop where
  outcome : ((run n now args).run w).1 = ((run n now' args).run w').1
  requests : requests n now args w = requests n now' args w'
  network : ((run n now args).run w).2.network = ((run n now' args).run w').2.network
  kept : ((run n now args).run w).2.cache = w.cache
  kept' : ((run n now' args).run w').2.cache = w'.cache

theorem cache_noninterference {args : List String} {direction : Direction} {text : String}
    {options : LookupOptions} (hargs : parse false args = .command (.lookup direction text options))
    {config : FileSlot} (h : CacheOff config options) (n : Http.Network ν) (x : ν)
    (now now' : Instant) (cache cache' : FileSlot) (zone zone' : Zone) :
    RunAlike n args now now' ⟨config, cache, x, zone⟩ ⟨config, cache', x, zone'⟩ := by
  obtain ⟨step, hstep⟩ := run_of_cacheOff hargs h n
  obtain ⟨recorded, hrecorded⟩ := run_of_cacheOff hargs h n.recorded
  have hrequests (now : Instant) (cache : FileSlot) (zone : Zone) :
      requests n now args ⟨config, cache, x, zone⟩ = (recorded.run (x, [])).2.2 := by
    unfold requests World.onRecord
    rw [hrecorded]
  constructor
  case outcome => rw [hstep, hstep]
  case requests => rw [hrequests, hrequests]
  case network => rw [hstep, hstep]
  case kept => rw [hstep]
  case kept' => rw [hstep]

/-- A file that is no table, and one where another answer stands. -/
theorem cache_noninterference_gotham :
    let args :=
      ["geocode", "gotham city", "-p", "test_provider", "-d", "address_text", "--no-cache"]
    let now : Instant := ⟨2020, 1, 1, 0, 0, 0, 0, by decide⟩
    let config : FileSlot := ⟨"/c/config.toml", "/c", .absent⟩
    let table := Table.empty.insert (CacheKey.mk "geocode:gotham city" "test_provider").flat
      (CacheEntry.mk now []).text
    let torn : FileSlot := ⟨"/k/cache.json", "/k", .file "\x7b"⟩
    let filled : FileSlot := ⟨"/k/cache.json", "/k", .file (Disk.textOf table)⟩
    ((run (Http.Network.unreachable Unit) now args).run ⟨config, torn, (), .utc⟩).1 =
        { code := 0, output := "Gotham City, New Jersey, United States\n" } ∧
      RunAlike (Http.Network.unreachable Unit) args now now ⟨config, torn, (), .utc⟩
        ⟨config, filled, (), .utc⟩ := by
  intro args now config table torn filled
  have hargs : parse false args = .command (.lookup .geocode "gotham city"
      { providers := ["test_provider"], format := some "address_text", noCache := true }) := by
    decide +kernel
  exact ⟨by decide +kernel,
    cache_noninterference hargs (.inl rfl) _ () now now torn filled .utc .utc⟩

end CommandLine

end Gazetteer
