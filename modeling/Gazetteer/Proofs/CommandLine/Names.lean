import Gazetteer.Proofs.CommandLine.Rejection

/-!
# Names of providers

The built-in providers are known by their names, in any letter case.  A lookup takes the names that
it is given, and those of the settings, as they stand: one that is exactly the name of a provider
has this provider tried, and a section under it has the key and the address of the provider.  For a
name in another letter case the whole lookup is refused, and a section under it counts for nothing.

    a provider of the list has its turn, unless something is found before      (hasTurn_turns)
    registries are made from the sections under the exact names             (ofSettings_congr)
    what becomes of a name, exact or in another letter case              (names_taken_exactly)
    a provider that is known by a name and not found by it                    (known_not_found)
-/

namespace Gazetteer

/-! ## Turns -/

namespace Geocoder

variable {π σ : Type}

/-- Among turns, the provider has its own at a place of the list, or one before has found
something. -/
def HasTurn (turns : List (Provider π × Turn)) (i : Nat) (p : Provider π) : Prop :=
  (∃ t, turns[i]? = some (p, t)) ∨
    ∃ j < i, ∃ other t, turns[j]? = some (other, t) ∧ t.found?.isSome = true

theorem HasTurn.cons {turns : List (Provider π × Turn)} {i : Nat} {p : Provider π}
    (h : HasTurn turns i p) (first : Provider π × Turn) : HasTurn (first :: turns) (i + 1) p := by
  obtain ⟨t, ht⟩ | ⟨j, hj, other, t, hother, hfound⟩ := h
  · exact .inl ⟨t, ht⟩
  · exact .inr ⟨j + 1, Nat.succ_lt_succ hj, other, t, hother, hfound⟩

theorem hasTurn_turns (g : Geocoder π σ) (q : Query) {ps : List (Provider π)} (s : π × σ) {i : Nat}
    {p : Provider π} (h : ps[i]? = some p) : HasTurn (g.turns q ps s) i p := by
  induction ps generalizing s i with
  | nil => cases h
  | cons first rest ih =>
    rw [turns_cons]
    cases i with
    | zero =>
      obtain rfl : first = p := Option.some.inj h
      exact .inl ⟨_, rfl⟩
    | succ i =>
      split
      · next hfound => exact .inr ⟨0, i.succ_pos, first, _, rfl, hfound⟩
      · exact (ih _ h).cons _

/-- Ids and providers correspond, place by place. -/
theorem getElem?_of_resolved {g : Geocoder π σ} {r : Request} {ps : List (Provider π)}
    (h : g.resolved r = .ok ps) {i : Nat} {id : String} {p : Provider π}
    (hi : r.providers[i]? = some id) (hp : g.registry.find? id = some p) : ps[i]? = some p := by
  have hmap := congrArg (·[i]?) ((resolved_eq_ok_iff g r ps).mp h).2
  simpa [hi, hp] using hmap.symm

end Geocoder

/-! ## Sections -/

/-- Sections under other ids than the built-in ones make no difference. -/
theorem Registry.ofSettings_congr {π : Type} (n : Http.Network π) {s s' : Settings}
    (h : ∀ id, s'.provider? id = s.provider? id) : ofSettings n s' = ofSettings n s := by
  have hprovider (id : ProviderId) : Provider.orUnavailable n s' id = .orUnavailable n s id := by
    unfold Provider.orUnavailable Provider.ofSettings Settings.apiKey? Settings.baseUrl?
    rw [h id]
  unfold ofSettings
  simp only [hprovider]

theorem ProviderId.ofName?_name (id : ProviderId) : ofName? id.name = some id := by
  cases id <;> decide +kernel

/-- In another letter case a name is not that of any provider. -/
theorem ProviderId.name_ne_of_ofName? {name : String} {id : ProviderId}
    (h : ofName? name = some id) (hne : name ≠ id.name) (known : ProviderId) :
    known.name ≠ name := by
  rintro rfl
  rw [ofName?_name] at h
  exact hne (congrArg ProviderId.name (Option.some.inj h))

namespace CommandLine

variable {ν : Type}

/-! ## Lookups -/

/-- A name that stands for a provider in a lookup with a plan. -/
structure StandsFor (n : Http.Network ν) (now : Instant) (w : World ν) (p : Plan) (name : String)
    (id : ProviderId) : Prop where
  known : (p.lookup n now w).1 ≠ .error (.unknownProvider name)
  /-- The provider has its turn, unless another name of the list is unknown. -/
  tried : (∃ other, (p.lookup n now w).1 = .error (.unknownProvider other)) ∨
    ∀ i, p.providers[i]? = some name →
      Geocoder.HasTurn ((p.geocoder n).turnsOf p.request (w.network, Disk.opened w.cache)) i
        (.orUnavailable n p.settings id)
  supplied : ∀ v, p.settings.providers.find? name = some v →
    p.settings.apiKey? id = v.apiKey ∧ p.settings.baseUrl? id = v.baseUrl

/-- A name that stands for nothing in a lookup with a plan. -/
structure StandsForNothing (n : Http.Network ν) (now : Instant) (args : List String) (w : World ν)
    (p : Plan) (name : String) : Prop where
  /-- The lookup is refused for the first name that is not exactly that of a provider. -/
  refused : name ∈ p.providers → ∃ before first after, p.providers = before ++ first :: after ∧
    (∀ other ∈ before, ∃ known : ProviderId, known.name = other) ∧
    (∀ known : ProviderId, known.name ≠ first) ∧
    (run n now args).run w = (failed (.lookup p.providers (.unknownProvider first)) "", w) ∧
    requests n now args w = []
  /-- Settings that differ in the section under the name have the same providers. -/
  ignored : ∀ s, (∀ key ≠ name, s.providers.find? key = p.settings.providers.find? key) →
    Registry.ofSettings n s = .ofSettings n p.settings

section

variable (n : Http.Network ν) (now : Instant) (w : World ν) (p : Plan)

theorem Plan.lookup_error_iff (e : Error) :
    (p.lookup n now w).1 = .error e ↔ (p.geocoder n).resolved p.request = .error e := by
  rw [lookup, Geocoder.lookup_run]
  cases (p.geocoder n).resolved p.request with
  | error e' => simp
  | ok ps =>
    constructor
    · intro h
      cases h
    · intro h
      cases h

theorem standsFor (id : ProviderId) : StandsFor n now w p id.name id where
  known hunknown := by
    rw [p.lookup_error_iff, p.resolved_eq_error_iff] at hunknown
    obtain ⟨-, h⟩ | ⟨name, hname, h⟩ := hunknown
    · cases h
    · cases h
      have hnone := List.find?_some hname
      rw [Registry.find?_ofSettings] at hnone
      cases hnone
  tried := by
    cases hresolved : (p.geocoder n).resolved p.request with
    | error e =>
      obtain ⟨hnil, -⟩ | ⟨other, -, rfl⟩ := (p.resolved_eq_error_iff n e).mp hresolved
      · refine .inr fun i hi => ?_
        rw [hnil] at hi
        cases hi
      · exact .inl ⟨other, (p.lookup_error_iff n now w _).mpr hresolved⟩
    | ok ps =>
      refine .inr fun i hi => ?_
      rw [Geocoder.turnsOf_of_resolved hresolved]
      exact Geocoder.hasTurn_turns _ _ _ (Geocoder.getElem?_of_resolved hresolved hi
        (Registry.find?_ofSettings n p.settings id))
  supplied v hv := by
    have hprovider : p.settings.provider? id = some v := hv
    rw [Settings.apiKey?, Settings.baseUrl?, hprovider]
    exact ⟨rfl, rfl⟩

end

section

variable {direction : Direction} {text : String} {options : LookupOptions} {args : List String}
  {w : World ν} {p : Plan}

/-- A lookup with an unknown name is refused for the first of them. -/
theorem run_unknown (n : Http.Network ν) (now : Instant)
    (hargs : parse false args = .command (.lookup direction text options))
    (hplan : plan w.config direction text options = .ok p) {before after : List String}
    {first : String} (hproviders : p.providers = before ++ first :: after)
    (hbefore : ∀ other ∈ before, ∃ known : ProviderId, known.name = other)
    (hfirst : ∀ known : ProviderId, known.name ≠ first) :
    (run n now args).run w = (failed (.lookup p.providers (.unknownProvider first)) "", w) := by
  have hresolved : (p.geocoder n).resolved p.request = .error (.unknownProvider first) := by
    refine (p.resolved_eq_error_iff n _).mpr (.inr ⟨first, ?_, rfl⟩)
    refine List.find?_eq_some_iff_append.mpr ⟨?_, before, after, hproviders, ?_⟩
    · rw [Option.isNone_iff_eq_none]
      exact (Registry.find?_ofSettings_eq_none_iff n p.settings first).mpr hfirst
    · intro other hother
      obtain ⟨known, rfl⟩ := hbefore other hother
      rw [Registry.find?_ofSettings]
      rfl
  rw [run_lookup n now hargs, runLookup_planned n now hplan, Plan.lookup, Geocoder.lookup_run,
    hresolved]
  rfl

/-- In a list with a name that no provider has, there is a first one. -/
theorem exists_first_unknown {names : List String} {name : String} (h : name ∈ names)
    (hunknown : ∀ known : ProviderId, known.name ≠ name) :
    ∃ before first after, names = before ++ first :: after ∧
      (∀ other ∈ before, ∃ known : ProviderId, known.name = other) ∧
      ∀ known : ProviderId, known.name ≠ first := by
  induction names with
  | nil => cases h
  | cons other rest ih =>
    by_cases hother : ∃ known : ProviderId, known.name = other
    · obtain ⟨known, hknown⟩ := hother
      have hrest : name ∈ rest := by
        cases h with
        | head => exact absurd hknown (hunknown known)
        | tail _ h => exact h
      obtain ⟨before, first, after, rfl, hbefore, hfirst⟩ := ih hrest
      refine ⟨other :: before, first, after, rfl, ?_, hfirst⟩
      exact List.forall_mem_cons.mpr ⟨⟨known, hknown⟩, hbefore⟩
    · exact ⟨[], other, rest, rfl, nofun, fun known hknown => hother ⟨known, hknown⟩⟩

theorem standsForNothing (n : Http.Network ν) (now : Instant)
    (hargs : parse false args = .command (.lookup direction text options))
    (hplan : plan w.config direction text options = .ok p) {name : String}
    (hunknown : ∀ known : ProviderId, known.name ≠ name) :
    StandsForNothing n now args w p name where
  refused hname := by
    obtain ⟨before, first, after, hproviders, hbefore, hfirst⟩ :=
      exists_first_unknown hname hunknown
    refine ⟨before, first, after, hproviders, hbefore, hfirst,
      run_unknown n now hargs hplan hproviders hbefore hfirst, ?_⟩
    have hrecorded : plan w.onRecord.config direction text options = .ok p := hplan
    rw [requests, run_unknown n.recorded now hargs hrecorded hproviders hbefore hfirst]
    rfl
  ignored s h := Registry.ofSettings_congr n fun id => h id.name (hunknown id)

/-- Names are taken exactly.  Of the spellings by which a built-in provider is known, a lookup has
it tried under its own name, with the section under that name; for any other the lookup is refused
without a trace, and the section under it counts for nothing. -/
theorem names_taken_exactly (n : Http.Network ν) (now : Instant) {s : Settings}
    (hargs : parse false args = .command (.lookup direction text options))
    (hs : Settings.load w.config = .ok s)
    (hplan : plan w.config direction text options = .ok p) {name : String} {id : ProviderId}
    (hname : ProviderId.ofName? name = some id) :
    (p.settings = options.settings s ∧ p.providers = options.asked s) ∧
      (name = id.name → StandsFor n now w p name id) ∧
      (name ≠ id.name → StandsForNothing n now args w p name) := by
  refine ⟨?_, ?_, ?_⟩
  · obtain ⟨s', hs', -, -, hsettings, hproviders⟩ := plan_ok_iff.mp hplan
    obtain rfl : s = s' := Except.ok.inj (hs.symm.trans hs')
    exact ⟨hsettings, hproviders⟩
  · rintro rfl
    exact standsFor n now w p id
  · intro hne
    exact standsForNothing n now hargs hplan (ProviderId.name_ne_of_ofName? hname hne)

/-- A text can always be asked for, so a lookup for well-known text has a plan. -/
theorem plan_wkt {config : FileSlot} {s : Settings} (hs : Settings.load config = .ok s)
    (hformat : options.format = some "wkt") (text : String) :
    plan config .geocode text options =
      .ok ⟨options.settings s, options.asked s, .wkt, .text (Text.trim text)⟩ := by
  have hname : ExportFormat.ofName? "wkt" = some .wkt := by decide +kernel
  have hwkt : options.exportFormat s = .ok .wkt := by
    simp [LookupOptions.exportFormat, LookupOptions.formatName?, hformat, ExportFormat.ofName,
      hname]
  exact plan_ok_iff.mpr ⟨s, hs, hwkt, rfl, rfl, rfl⟩

/-- The test provider under its own name, and under one that begins with a capital letter. -/
theorem names_taken_exactly_gotham :
    let n := Http.Network.unreachable Unit
    let now : Instant := ⟨2024, 1, 1, 0, 0, 0, 0, by decide⟩
    let w : World Unit :=
      ⟨⟨"/c/config.toml", "/c", .absent⟩, ⟨"/k/cache.json", "/k", .absent⟩, (), .utc⟩
    let args (name : String) := ["geocode", "gotham city", "-p", name, "-d", "wkt"]
    let options (name : String) : LookupOptions := { providers := [name], format := some "wkt" }
    let p (name : String) : Plan := ⟨{}, [name], .wkt, .text (Text.trim "gotham city")⟩
    Settings.load w.config = .ok {} ∧
      (∀ name ∈ ["test_provider", "Test_Provider"],
        parse false (args name) = .command (.lookup .geocode "gotham city" (options name)) ∧
        plan w.config .geocode "gotham city" (options name) = .ok (p name) ∧
        ProviderId.ofName? name = some .test) ∧
      StandsFor n now w (p "test_provider") "test_provider" .test ∧
      StandsForNothing n now (args "Test_Provider") w (p "Test_Provider") "Test_Provider" := by
  intro n now w args options p
  have hknown : ∀ name ∈ ["test_provider", "Test_Provider"],
      parse false (args name) = .command (.lookup .geocode "gotham city" (options name)) ∧
        ProviderId.ofName? name = some .test := by
    decide +kernel
  have hplan (name : String) :
      plan w.config .geocode "gotham city" (options name) = .ok (p name) :=
    plan_wkt rfl rfl "gotham city"
  have hexact := hknown "test_provider" (by decide)
  have hother := hknown "Test_Provider" (by decide)
  refine ⟨rfl, fun name hname => ?_, ?_, ?_⟩
  · exact ⟨(hknown name hname).1, hplan name, (hknown name hname).2⟩
  · exact (names_taken_exactly n now hexact.1 rfl (hplan _) hexact.2).2.1 rfl
  · exact (names_taken_exactly n now hother.1 rfl (hplan _) hother.2).2.2 (by decide)

/-- A name that is known where a provider is configured, and refused where it is to be tried; and a
key that is not found under such a name. -/
theorem known_not_found :
    let n := Http.Network.unreachable Unit
    let now : Instant := ⟨2024, 1, 1, 0, 0, 0, 0, by decide⟩
    let w : World Unit :=
      ⟨⟨"/c/config.toml", "/c", .absent⟩, ⟨"/k/cache.json", "/k", .absent⟩, (), .utc⟩
    let args := ["geocode", "Gotham City", "-p", "Test_Provider", "-d", "wkt", "--no-cache"]
    let s : Settings := { providers := Table.empty.insert "MapsCo" { apiKey := some "K" } }
    ProviderId.ofName? "Test_Provider" = some .test ∧
      ((run n now ["configure", "Test_Provider"]).run w).1 = failed (.nothingToConfigure .test) "" ∧
      (run n now args).run w =
        (failed (.lookup ["Test_Provider"] (.unknownProvider "Test_Provider")) "", w) ∧
      ProviderId.ofName? "MapsCo" = some .mapsCo ∧ s.isReady .mapsCo = false := by
  intro n now w args s
  have hargs : parse false args = .command (.lookup .geocode "Gotham City"
      { providers := ["Test_Provider"], format := some "wkt", noCache := true }) := by
    decide +kernel
  have hunknown : ∀ known : ProviderId, known.name ≠ "Test_Provider" := by
    rintro (_ | _ | _) <;> decide
  have hloaded : Settings.load w.config = .ok {} := rfl
  refine ⟨by decide +kernel, by decide +kernel, ?_, by decide +kernel, by decide +kernel⟩
  have hproviders : ["Test_Provider"] = [] ++ "Test_Provider" :: [] := rfl
  exact run_unknown n now hargs (plan_wkt hloaded rfl "Gotham City") hproviders nofun hunknown

end

end CommandLine

end Gazetteer
