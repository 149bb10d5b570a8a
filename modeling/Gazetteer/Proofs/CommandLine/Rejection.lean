import Gazetteer.Proofs.CommandLine.Plan
import Gazetteer.Proofs.Http.Record
import Gazetteer.Proofs.Lookup.Faults
import Gazetteer.Proofs.Provider.Registered

/-!
# Lookups that are rejected

A lookup is rejected for an unknown format, for a text that is no pair of coordinates where one is
needed, and for a provider that is not built in.  All of this is found before the first request, so
a rejected lookup fails without output and without a trace.  Nothing else can make a lookup fail
before its result is written: whatever the network answers and whatever is in the cache file, the
geocoder has a result.

    a rejected lookup leaves the world as it was                                   (run_of_rejected)
    it is refused, and others have a result                                        (rejected_or_found)
-/

namespace Gazetteer

namespace CommandLine

/-! ## Rejection -/

/-- What is wrong with a lookup, under the settings of the file. -/
inductive Rejected (direction : Direction) (text : String) (options : LookupOptions)
    (s : Settings) : Prop where
  | format (name : String) (h : options.formatName? s = some name)
    (hunknown : ExportFormat.ofName? name = none)
  | coordinates (h : direction = .reverse) (hmalformed : ∀ c, Coordinates.ofText text ≠ .ok c)
  | provider (id : String) (h : id ∈ options.asked s)
    (hunknown : ∀ known : ProviderId, known.name ≠ id)

/-- A command line fails, and there is no output, no request, and no change. -/
structure Refused {ν : Type} (n : Http.Network ν) (now : Instant) (args : List String)
    (w : World ν) : Prop where
  code : ((run n now args).run w).1.code = 1
  output : ((run n now args).run w).1.output = ""
  requests : requests n now args w = []
  unchanged : ((run n now args).run w).2 = w

section

variable {ν : Type} {direction : Direction} {text : String} {options : LookupOptions}
  {s : Settings}

theorem asked_ne_nil (options : LookupOptions) (s : Settings) : options.asked s ≠ [] := by
  unfold LookupOptions.asked Settings.enabledProviders
  split
  · split
    · simp
    · next h => simpa using h
  · next h => simpa using h

theorem exportFormat_ok (h : ¬ Rejected direction text options s) :
    ∃ format, options.exportFormat s = .ok format := by
  unfold LookupOptions.exportFormat
  cases hname : options.formatName? s with
  | none => exact ⟨_, rfl⟩
  | some name =>
    cases hformat : ExportFormat.ofName? name with
    | none => exact absurd (.format name hname hformat) h
    | some format => exact ⟨format, by simp [ExportFormat.ofName, hformat]⟩

theorem query_ok (h : ¬ Rejected direction text options s) :
    ∃ q, (FieldValue.text text).query direction = .ok q := by
  cases direction with
  | geocode => exact ⟨_, rfl⟩
  | reverse =>
    cases hpoint : Coordinates.ofText text with
    | ok c => exact ⟨.point c, by simp [FieldValue.query, hpoint, Except.map]⟩
    | error e => exact absurd (.coordinates rfl fun c hc => by rw [hpoint] at hc; cases hc) h

/-- A lookup that is not rejected has a plan. -/
theorem plan_ok {config : FileSlot} (hs : Settings.load config = .ok s)
    (h : ¬ Rejected direction text options s) :
    ∃ p, plan config direction text options = .ok p ∧ p.providers = options.asked s := by
  obtain ⟨format, hformat⟩ := exportFormat_ok h
  obtain ⟨q, hq⟩ := query_ok h
  exact ⟨⟨options.settings s, options.asked s, format, q⟩,
    plan_ok_iff.mpr ⟨s, hs, hformat, hq, rfl, rfl⟩, rfl⟩

/-- A plan rules out all that a lookup is rejected for, but for its providers. -/
theorem unknown_of_plan {config : FileSlot} {p : Plan} (hs : Settings.load config = .ok s)
    (hplan : plan config direction text options = .ok p)
    (h : Rejected direction text options s) :
    ∃ id ∈ p.providers, ∀ known : ProviderId, known.name ≠ id := by
  obtain ⟨s', hs', hformat, hquery, -, hproviders⟩ := plan_ok_iff.mp hplan
  obtain rfl : s = s' := Except.ok.inj (hs.symm.trans hs')
  cases h with
  | format name hname hunknown =>
    rw [LookupOptions.exportFormat, hname] at hformat
    simp [ExportFormat.ofName, hunknown] at hformat
  | coordinates hdirection hmalformed =>
    subst hdirection
    cases hpoint : Coordinates.ofText text with
    | ok c => exact absurd hpoint (hmalformed c)
    | error e => simp [FieldValue.query, hpoint, Except.map] at hquery
  | provider id hid hunknown => exact ⟨id, hproviders ▸ hid, hunknown⟩

/-! ## Lookups of plans -/

section

variable (p : Plan) (n : Http.Network ν) (now : Instant) (w : World ν)

theorem Plan.resolved_eq_error_iff (e : Error) :
    (p.geocoder n).resolved p.request = .error e ↔ p.providers = [] ∧ e = .noProviders ∨
      ∃ id, p.providers.find? (fun id => ((Registry.ofSettings n p.settings).find? id).isNone) =
        some id ∧ e = .unknownProvider id :=
  Geocoder.resolved_eq_error_iff (p.geocoder n) p.request e

theorem Plan.lookup_unknown {id : String} (hid : id ∈ p.providers)
    (hunknown : ∀ known : ProviderId, known.name ≠ id) :
    ∃ e, p.lookup n now w = (.error e, w.network, Disk.opened w.cache) := by
  have hnone := (Registry.find?_ofSettings_eq_none_iff n p.settings id).mpr hunknown
  have hsome : (p.providers.find? fun id =>
      ((Registry.ofSettings n p.settings).find? id).isNone).isSome := by
    rw [List.find?_isSome]
    exact ⟨id, hid, by rw [hnone]; rfl⟩
  obtain ⟨first, hfirst⟩ := Option.isSome_iff_exists.mp hsome
  have hrefused := (p.resolved_eq_error_iff n _).mpr (.inr ⟨first, hfirst, rfl⟩)
  refine ⟨.unknownProvider first, ?_⟩
  rw [lookup, Geocoder.lookup_run, hrefused]

/-- The lookup of known providers has a result, whatever the network and the cache file do. -/
theorem Plan.lookup_known (hsome : p.providers ≠ [])
    (hknown : ∀ id ∈ p.providers, ∃ known : ProviderId, known.name = id) :
    ∃ found, (p.lookup n now w).1 = .ok found := by
  rw [lookup, Geocoder.lookup_run]
  cases hresolved : (p.geocoder n).resolved p.request with
  | ok ps => exact ⟨_, rfl⟩
  | error e =>
    obtain ⟨hnone, -⟩ | ⟨id, hid, -⟩ := (p.resolved_eq_error_iff n e).mp hresolved
    · exact absurd hnone hsome
    · obtain ⟨known, hname⟩ := hknown id (List.mem_of_find?_eq_some hid)
      have hnone := List.find?_some hid
      rw [Option.isNone_iff_eq_none, Registry.find?_ofSettings_eq_none_iff] at hnone
      exact absurd hname (hnone known)

end

/-! ## Command lines -/

theorem run_of_rejected {args : List String}
    (hargs : parse false args = .command (.lookup direction text options))
    (n : Http.Network ν) (now : Instant) (w : World ν)
    (h : ∀ s, Settings.load w.config = .ok s → Rejected direction text options s) :
    ∃ f, (run n now args).run w = (failed f "", w) := by
  rw [run_lookup n now hargs]
  cases hplan : plan w.config direction text options with
  | error f => exact ⟨f, runLookup_unplanned n now hplan⟩
  | ok p =>
    obtain ⟨s, hs, -⟩ := plan_ok_iff.mp hplan
    obtain ⟨id, hid, hunknown⟩ := unknown_of_plan hs hplan (h s hs)
    obtain ⟨e, hlookup⟩ := p.lookup_unknown n now w hid hunknown
    refine ⟨.lookup p.providers e, ?_⟩
    rw [runLookup_planned n now hplan, hlookup]
    rfl

/-- A lookup that is rejected, or whose settings do not load, is refused without a trace.  Any other
has a result of its providers, and ends as this result is written. -/
theorem rejected_or_found {args : List String}
    (hargs : parse false args = .command (.lookup direction text options))
    (n : Http.Network ν) (now : Instant) (w : World ν) :
    ((∀ s, Settings.load w.config = .ok s → Rejected direction text options s) →
      Refused n now args w) ∧
    ∀ s, Settings.load w.config = .ok s → ¬ Rejected direction text options s →
      ∃ p found, plan w.config direction text options = .ok p ∧
        (p.lookup n now w).1 = .ok found ∧
        ((run n now args).run w).1 = p.outcome options.all (.ok found) := by
  constructor
  · intro h
    obtain ⟨f, hrun⟩ := run_of_rejected hargs n now w h
    obtain ⟨f', hrecorded⟩ := run_of_rejected hargs n.recorded now w.onRecord h
    constructor
    case code => rw [hrun]; rfl
    case output => rw [hrun]; rfl
    case requests => rw [requests, hrecorded]; rfl
    case unchanged => rw [hrun]
  · intro s hs h
    obtain ⟨p, hplan, hproviders⟩ := plan_ok hs h
    have hsome : p.providers ≠ [] := hproviders ▸ asked_ne_nil options s
    have hknown : ∀ id ∈ p.providers, ∃ known : ProviderId, known.name = id := by
      intro id hid
      by_contra hunknown
      exact h (.provider id (hproviders ▸ hid) fun known hname => hunknown ⟨known, hname⟩)
    obtain ⟨found, hfound⟩ := p.lookup_known n now w hsome hknown
    refine ⟨p, found, hplan, hfound, ?_⟩
    rw [run_lookup n now hargs, runLookup_planned n now hplan, hfound]

/-- A latitude that is too large, and a lookup with a result. -/
theorem rejected_or_found_gotham :
    let n := Http.Network.unreachable Unit
    let now : Instant := ⟨2024, 1, 1, 0, 0, 0, 0, by decide⟩
    let w : World Unit :=
      ⟨⟨"/c/config.toml", "/c", .absent⟩, ⟨"/k/cache.json", "/k", .absent⟩, (), .utc⟩
    let options : LookupOptions := { providers := ["test_provider"], format := some "wkt" }
    let reverse := ["reverse", "90.5,0", "-p", "test_provider", "-d", "wkt"]
    let geocode := ["geocode", "gotham city", "-p", "test_provider", "-d", "wkt"]
    parse false reverse = .command (.lookup .reverse "90.5,0" options) ∧
      (∀ s, Settings.load w.config = .ok s → Rejected .reverse "90.5,0" options s) ∧
      Refused n now reverse w ∧
      parse false geocode = .command (.lookup .geocode "gotham city" options) ∧
      Settings.load w.config = .ok {} ∧ ¬ Rejected .geocode "gotham city" options {} ∧
      ∃ p found, plan w.config .geocode "gotham city" options = .ok p ∧
        (p.lookup n now w).1 = .ok found ∧
        ((run n now geocode).run w).1 = p.outcome options.all (.ok found) := by
  intro n now w options reverse geocode
  have hreverse : parse false reverse = .command (.lookup .reverse "90.5,0" options) := by
    decide +kernel
  have hgeocode : parse false geocode = .command (.lookup .geocode "gotham city" options) := by
    decide +kernel
  have hmalformed : (Coordinates.ofText "90.5,0").toOption = none := by decide +kernel
  have hrejected : ∀ s, Settings.load w.config = .ok s → Rejected .reverse "90.5,0" options s := by
    refine fun s _ => .coordinates rfl fun c hc => ?_
    rw [hc] at hmalformed
    cases hmalformed
  have haccepted : ¬ Rejected .geocode "gotham city" options {} := by
    rintro (⟨name, hname, hunknown⟩ | ⟨hdirection, -⟩ | ⟨id, hid, hunknown⟩)
    · cases hname
      revert hunknown
      decide +kernel
    · cases hdirection
    · exact hunknown .test (List.mem_singleton.mp hid).symm
  exact ⟨hreverse, hrejected, (rejected_or_found hreverse n now w).1 hrejected, hgeocode, rfl,
    haccepted, (rejected_or_found hgeocode n now w).2 {} rfl haccepted⟩

end

end CommandLine

end Gazetteer
