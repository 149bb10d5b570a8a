import Gazetteer.Proofs.Provider.Registered
import Gazetteer.Proofs.Provider.Search
import Gazetteer.Proofs.Settings.Persistence

/-!
# Ready providers

Settings call a provider ready just if it can be made from them, and a registry that is made from
them has the provider then, and a stand-in for it otherwise.  A stand-in is known by its reason,
which no service ever has: it refuses everything, and sends nothing.

A provider with a key stays ready through a session, whatever is edited and saved.  A load brings
back what the file holds, so the key has to be saved before, and by a save that no later one has
spoilt.

    no provider is made ↔ the settings say that it is not ready           (ofSettings_eq_error_iff)
    a provider that is made is no stand-in                                (ne_standIn_of_ofSettings)
    settings, constructor and registry agree                                             (agreement)
    a key that is set stays, unless a load drops it                                    (hasKey_run)
-/

namespace Gazetteer

/-! ## What can be made from settings -/

namespace Provider

section

variable {π : Type} {n : Http.Network π} {s : Settings} {id : ProviderId}

theorem ofSettings_eq_error_iff {e : Error} :
    ofSettings n s id = .error e ↔ s.isReady id = false ∧ e = .missingApiKey id := by
  cases id with
  | test => simp [ofSettings, Settings.isReady, ProviderId.requiresApiKey]
  | openStreetMap => simp [ofSettings, Settings.isReady, ProviderId.requiresApiKey]
  | mapsCo =>
    unfold ofSettings Settings.isReady
    cases s.apiKey? .mapsCo with
    | none => simp [ProviderId.requiresApiKey, eq_comm]
    | some key => simp [ProviderId.requiresApiKey]

theorem exists_ofSettings_iff : (∃ p, ofSettings n s id = .ok p) ↔ s.isReady id = true := by
  cases h : ofSettings n s id with
  | ok p =>
    have hready : s.isReady id ≠ false := by
      intro hready
      have herror := (ofSettings_eq_error_iff (n := n)).mpr ⟨hready, rfl⟩
      rw [h] at herror
      cases herror
    simpa using hready
  | error e => simp [(ofSettings_eq_error_iff.mp h).1]

/-! ## Stand-ins -/

/-- The stand-in for a provider that has no key. -/
def standIn (id : ProviderId) : Provider π := unavailable id (Error.missingApiKey id).message

theorem orUnavailable_eq_standIn (h : s.isReady id = false) :
    orUnavailable n s id = standIn id := by
  rw [orUnavailable, ofSettings_eq_error_iff.mpr ⟨h, rfl⟩]
  rfl

theorem orUnavailable_eq_of_ofSettings {p : Provider π} (h : ofSettings n s id = .ok p) :
    orUnavailable n s id = p := by
  rw [orUnavailable, h]

/-- Every lookup fails, and leaves the state as it was. -/
theorem standIn_ask (id : ProviderId) (q : Query) (x : π) :
    ((standIn id).ask q).run.run x =
      (.error (.unavailable id.name (Error.missingApiKey id).message), x) := by
  cases q <;> rfl

end

end Provider

/-- A text starts as its first part does. -/
theorem head?_append_of_head? {a b : String} {c : Char} (h : a.toList.head? = some c) :
    (a ++ b).toList.head? = some c := by
  rw [String.toList_append, List.head?_append, h]
  rfl

/-- Services give other reasons for what fails: the status of an answer, or a text in it. -/
theorem Nominatim.search_ne_missingApiKey {π : Type} (s : Service) (n : Http.Network π) (x : π)
    (text : String) (id : ProviderId) :
    s.result n x (.text text) ≠
      .error (.unavailable id.name (Error.missingApiKey id).message) := by
  intro h
  have hreason : (Error.missingApiKey id).message.toList.head? = some 'c' := by
    unfold Error.message
    exact head?_append_of_head? (head?_append_of_head? (head?_append_of_head?
      (head?_append_of_head? (by decide +kernel))))
  generalize (Error.missingApiKey id).message = reason at h hreason
  have hother {a b : String} {c : Char} (ha : a.toList.head? = some c) (hc : c ≠ 'c') :
      reason ≠ a ++ b := by
    rintro rfl
    rw [head?_append_of_head? ha] at hreason
    exact hc (Option.some.inj hreason)
  have hsearched := search_result_iff.mp h
  generalize hr : Except.error (ProviderError.unavailable id.name reason) = r at hsearched
  generalize s.answer? n x (.text text) = answer at hsearched
  cases hsearched with
  | unanswered => cases hr
  | refused _ =>
    injection hr with hr
    injection hr with _ hr
    have hstatus : "status ".toList.head? = some 's' := by decide +kernel
    exact hother (head?_append_of_head? (head?_append_of_head? hstatus)) (by decide) hr
  | unreadable _ _ => cases hr
  | read _ _ hyields =>
    cases hyields with
    | addresses _ => cases hr
    | fault _ _ _ =>
      injection hr with hr
      injection hr with _ hr
      have hcoordinate : "invalid coordinate '".toList.head? = some 'i' := by decide +kernel
      exact hother (head?_append_of_head? (head?_append_of_head? hcoordinate)) (by decide) hr

theorem Provider.ne_standIn_of_ofSettings {π : Type} {n : Http.Network π} {s : Settings}
    {id : ProviderId} {p : Provider π} (h : ofSettings n s id = .ok p) (x : π) :
    p ≠ standIn id := by
  rintro rfl
  have hrefused (service : Nominatim.Service) (hp : nominatim service n = standIn id) : False := by
    apply Nominatim.search_ne_missingApiKey service n x "" id
    have hask := congrArg Prod.fst (standIn_ask id (.text "") x)
    rwa [← hp] at hask
  cases id with
  | test =>
    have hask := congrArg Prod.fst (standIn_ask .test (.text "") x)
    rw [← Except.ok.inj h] at hask
    cases hask
  | openStreetMap => exact hrefused _ (Except.ok.inj h)
  | mapsCo =>
    unfold ofSettings at h
    cases hkey : s.apiKey? .mapsCo with
    | none =>
      rw [hkey] at h
      cases h
    | some key =>
      rw [hkey] at h
      exact hrefused _ (Except.ok.inj h)

/-! ## Agreement -/

/-- What settings, constructor and registry say of a provider, over a network in a state. -/
structure Agreement {ν : Type} (n : Http.Network ν) (x : ν) (s : Settings) (id : ProviderId) :
    Prop where
  made : s.isReady id = true ↔ ∃ p, Provider.ofSettings n s id = .ok p
  registered : ∃ p, (Registry.ofSettings n s).find? id.name = some p ∧
    (s.isReady id = true → Provider.ofSettings n s id = .ok p) ∧
    (s.isReady id = true ↔ p ≠ .standIn id)
  /-- The names of the built-in providers, each for the provider that has it. -/
  ids : (Registry.ofSettings n s).ids = ["mapsco", "openstreetmap", "test_provider"]
  own : ∀ key p, (Registry.ofSettings n s).find? key = some p → p.id = key
  /-- On the record, a stand-in is seen to fail without a request. -/
  silent : ∀ p, (Registry.ofSettings n.recorded s).find? id.name = some p → p = .standIn id →
    ∀ q, (p.ask q).run.run (x, []) =
      (.error (.unavailable id.name (Error.missingApiKey id).message), (x, []))

theorem agreement {ν : Type} (n : Http.Network ν) (x : ν) (s : Settings) (id : ProviderId) :
    Agreement n x s id where
  made := Provider.exists_ofSettings_iff.symm
  registered := by
    refine ⟨_, Registry.find?_ofSettings n s id, ?_⟩
    cases hready : s.isReady id with
    | true =>
      obtain ⟨p, hp⟩ := (Provider.exists_ofSettings_iff (n := n)).mpr hready
      rw [Provider.orUnavailable_eq_of_ofSettings hp]
      exact ⟨fun _ => hp, iff_of_true rfl (Provider.ne_standIn_of_ofSettings hp x)⟩
    | false =>
      rw [Provider.orUnavailable_eq_standIn hready]
      exact ⟨nofun, iff_of_false nofun fun hne => hne rfl⟩
  ids := Registry.ids_ofSettings n s
  own _ _ h := Registry.id_of_find? _ h
  silent p _ hp q := by
    rw [hp, Provider.standIn_ask]

/-! ## Keys -/

namespace Settings

/-- The provider has a key. -/
def HasKey (s : Settings) (id : ProviderId) : Prop := (s.apiKey? id).isSome = true

theorem HasKey.isReady {s : Settings} {id : ProviderId} (h : s.HasKey id) :
    s.isReady id = true := by
  have hkey : (s.apiKey? id).isSome = true := h
  simp [Settings.isReady, hkey]

theorem provider?_changeProvider (s : Settings) (id id' : ProviderId)
    (change : ProviderSettings → ProviderSettings) :
    (s.changeProvider id change).provider? id' =
      if id' = id then some (change ((s.provider? id).getD {})) else s.provider? id' := by
  have h := s.providers.find?_insert id.name id'.name (change ((s.provider? id).getD {}))
  simp only [ProviderId.name_inj] at h
  exact h

/-- A change of a provider's settings that leaves no provider without a key leaves every key that
there is. -/
theorem HasKey.changeProvider {s : Settings} {id : ProviderId} (h : s.HasKey id) (id' : ProviderId)
    (change : ProviderSettings → ProviderSettings)
    (hchange : ∀ p, p.apiKey.isSome = true → (change p).apiKey.isSome = true) :
    (s.changeProvider id' change).HasKey id := by
  unfold HasKey apiKey? at h ⊢
  rw [provider?_changeProvider]
  split
  · next heq =>
    subst heq
    cases hp : s.provider? id with
    | none => simp [hp] at h
    | some p =>
      rw [hp] at h
      exact hchange p h
  · exact h

theorem providers_setApiKey (s : Settings) (id : ProviderId) (key : String) :
    (s.setApiKey id key).providers =
      (s.changeProvider id ({ · with apiKey := some key })).providers := by
  unfold setApiKey
  dsimp only
  split <;> rfl

theorem hasKey_setApiKey (s : Settings) (id : ProviderId) (key : String) :
    (s.setApiKey id key).HasKey id := by
  have hprovider := s.provider?_changeProvider id id ({ · with apiKey := some key })
  rw [if_pos rfl] at hprovider
  unfold HasKey apiKey? provider?
  rw [providers_setApiKey]
  unfold provider? at hprovider
  rw [hprovider]
  rfl

theorem HasKey.setApiKey {s : Settings} {id : ProviderId} (h : s.HasKey id) (id' : ProviderId)
    (key : String) : (s.setApiKey id' key).HasKey id := by
  have hchanged := h.changeProvider id' ({ · with apiKey := some key }) fun _ _ => rfl
  unfold HasKey apiKey? provider? at hchanged ⊢
  rwa [providers_setApiKey]

namespace Session

/-! ## Keys through a session -/

/-- A key stays in memory, unless settings without one are loaded. -/
theorem hasKey_step {d : Session} {id : ProviderId} (h : d.settings.HasKey id) (step : Step)
    (hload : step = .load true → ∀ s, Settings.load d.slot = .ok s → s.HasKey id) :
    (d.step step).settings.HasKey id := by
  cases step with
  | prefer id' => exact h
  | setApiKey id' key => exact h.setApiKey id' key
  | setBaseUrl id' url => exact h.changeProvider id' ({ · with baseUrl := some url }) fun _ hp => hp
  | save order => exact h
  | load adopt =>
    rw [Session.step]
    split
    · next s hs =>
      cases adopt with
      | true => exact hload rfl s hs
      | false => exact h
    · exact h

/-- The settings in memory have the key, and so has whatever can be loaded. -/
structure KeyKept (d : Session) (id : ProviderId) : Prop where
  memory : d.settings.HasKey id
  file : ∀ s, Settings.load d.slot = .ok s → s.HasKey id

/-- A save that succeeds here. -/
def Saves (d : Session) (order : SectionOrder) : Prop :=
  (d.settings.saveIn order d.slot).1 = .ok ()

/-- A save that fails here, with the file no longer as it was. -/
def Spoils (d : Session) (order : SectionOrder) : Prop :=
  ¬ d.Saves order ∧ (d.settings.saveIn order d.slot).2 ≠ d.slot

/-- One of the steps spoils the file. -/
def SpoiltIn (d : Session) (steps : List Step) : Prop :=
  ∃ before order after, steps = before ++ .save order :: after ∧ (d.run before).Spoils order

theorem SpoiltIn.cons {d : Session} {step : Step} {steps : List Step}
    (h : (d.step step).SpoiltIn steps) : d.SpoiltIn (step :: steps) := by
  obtain ⟨before, order, after, rfl, hspoils⟩ := h
  exact ⟨step :: before, order, after, rfl, hspoils⟩

theorem keyKept_saved {d : Session} {id : ProviderId} (h : d.settings.HasKey id)
    {order : SectionOrder} (hsaved : d.Saves order) : (d.step (.save order)).KeyKept id := by
  refine ⟨h, fun s hs => ?_⟩
  rw [← Except.ok.inj ((load_of_saved hsaved).symm.trans hs)]
  exact h

/-- The key stays, whatever is done that does not spoil the file. -/
theorem keyKept_step {d : Session} {id : ProviderId} (h : d.KeyKept id) {step : Step}
    (hwhole : ∀ order, step = .save order → ¬ d.Spoils order) : (d.step step).KeyKept id := by
  have hmemory := hasKey_step h.memory step fun _ => h.file
  cases hsave : step.isSave with
  | false => exact ⟨hmemory, by rw [slot_step d hsave]; exact h.file⟩
  | true =>
    cases step with
    | save order =>
      by_cases hsaved : d.Saves order
      · exact keyKept_saved h.memory hsaved
      · have hslot : (d.step (.save order)).slot = d.slot := by
          by_contra hchanged
          exact hwhole order rfl ⟨hsaved, hchanged⟩
        exact ⟨hmemory, by rw [hslot]; exact h.file⟩
    | prefer id' => cases hsave
    | setApiKey id' key => cases hsave
    | setBaseUrl id' url => cases hsave
    | load adopt => cases hsave

theorem keyKept_run {d : Session} {id : ProviderId} (h : d.KeyKept id) {steps : List Step}
    (hwhole : ¬ d.SpoiltIn steps) : (d.run steps).KeyKept id := by
  induction steps generalizing d with
  | nil => exact h
  | cons step steps ih =>
    refine ih (keyKept_step h ?_) fun hspoilt => hwhole hspoilt.cons
    rintro order rfl hspoils
    exact hwhole ⟨[], order, steps, rfl, hspoils⟩

/-- Settings without a key for the provider are loaded.  Until then no save succeeds, unless a later
one spoils the file. -/
def DropsKey (d : Session) (id : ProviderId) (steps : List Step) : Prop :=
  ∃ early late s, steps = early ++ .load true :: late ∧ Settings.load (d.run early).slot = .ok s ∧
    ¬ s.HasKey id ∧ ∀ before order after, early = before ++ .save order :: after →
      (d.run before).Saves order → (d.run (before ++ [.save order])).SpoiltIn after

theorem DropsKey.append {d : Session} {id : ProviderId} {steps : List Step}
    (h : d.DropsKey id steps) (more : List Step) : d.DropsKey id (steps ++ more) := by
  obtain ⟨early, late, s, rfl, hdrops⟩ := h
  exact ⟨early, late ++ more, s, by simp, hdrops⟩

/-- A file that takes a text is not spoilt. -/
theorem not_spoiltIn {d : Session} (h : d.slot.TakesText) (steps : List Step) :
    ¬ d.SpoiltIn steps := by
  rintro ⟨before, order, after, -, hfails, -⟩
  exact hfails (load_saveIn _ order (takesText_run d before h)).1

/-- A save comes first, into a file that takes a text. -/
theorem not_dropsKey_cons {d : Session} (h : d.slot.TakesText) (id : ProviderId)
    (order : SectionOrder) (steps : List Step) : ¬ d.DropsKey id (.save order :: steps) := by
  rintro ⟨early, late, s, hsteps, -, -, hspoilt⟩
  cases early with
  | nil => cases (List.cons.inj hsteps).1
  | cons first early =>
    obtain ⟨rfl, -⟩ := List.cons.inj hsteps
    have hsaved : (d.run []).Saves order := (load_saveIn d.settings order h).1
    exact not_spoiltIn (takesText_run d _ h) early (hspoilt [] order early rfl hsaved)

/-- A key that is in memory stays there, if it is not dropped. -/
theorem hasKey_run {d : Session} {id : ProviderId} (h : d.settings.HasKey id) (steps : List Step)
    (hkept : ¬ d.DropsKey id steps) : (d.run steps).settings.HasKey id := by
  rcases List.eq_nil_or_concat steps with rfl | ⟨early, step, hsteps⟩
  · exact h
  rw [List.concat_eq_append] at hsteps
  have hshorter : early.length < steps.length := by simp [hsteps]
  rw [hsteps] at hkept ⊢
  have hearly := hasKey_run h early fun hdrops => hkept (hdrops.append _)
  rw [run_append]
  refine hasKey_step hearly step ?_
  rintro rfl s hload
  by_contra hkey
  refine hkept ⟨early, [], s, rfl, hload, hkey, ?_⟩
  rintro before order after rfl hsaved
  -- what was saved had the key, and would be loaded now if it were still there
  by_contra hwhole
  have hbefore : (d.run before).settings.HasKey id := by
    have hshortest : before.length < steps.length := by
      rw [List.length_append] at hshorter
      omega
    refine hasKey_run h before fun hdrops => hkept ?_
    rw [List.append_assoc]
    exact hdrops.append _
  have hfile : (d.run (before ++ [.save order])).KeyKept id := by
    rw [run_append]
    exact keyKept_saved hbefore hsaved
  have hend := keyKept_run hfile hwhole
  rw [← run_append, List.append_assoc] at hend
  exact hkey (hend.file s hload)
termination_by steps.length

/-- Whatever is done in a session, settings, constructor and registry agree about each provider; and
a provider whose key has been set is ready from then on, as long as its key is not dropped by a
load. -/
theorem ready_means_usable (d : Session) (steps : List Step) {ν : Type} (n : Http.Network ν) (x : ν)
    (id : ProviderId) :
    Agreement n x (d.run steps).settings id ∧
      ∀ before key later, steps = before ++ .setApiKey id key :: later →
        ¬ (d.run (before ++ [.setApiKey id key])).DropsKey id later →
        (d.run steps).settings.isReady id = true := by
  refine ⟨agreement n x _ id, ?_⟩
  rintro before key later rfl hkept
  have hset : (d.run (before ++ [.setApiKey id key])).settings.HasKey id := by
    rw [run_append]
    exact hasKey_setApiKey _ id key
  have hlater := hasKey_run hset later hkept
  rw [← run_append, List.append_assoc] at hlater
  exact hlater.isReady

/-- A key that is saved before the file is loaded again. -/
theorem ready_means_usable_saved :
    let d : Session := ⟨{}, ⟨"c/s.toml", "c", .file "cache = false"⟩⟩
    let before : List Step := [.load true]
    let later : List Step := [.save .byName, .setApiKey .mapsCo "", .load true, .load true]
    let steps : List Step := before ++ .setApiKey .mapsCo "K" :: later
    Agreement (.unreachable Unit) () (d.run steps).settings .mapsCo ∧
      ¬ (d.run (before ++ [.setApiKey .mapsCo "K"])).DropsKey .mapsCo later ∧
      (d.run steps).settings.isReady .mapsCo = true := by
  intro d before later steps
  have hslot : d.slot.TakesText := trivial
  have hkept : ¬ (d.run (before ++ [.setApiKey .mapsCo "K"])).DropsKey .mapsCo later :=
    not_dropsKey_cons (takesText_run d _ hslot) .mapsCo .byName _
  obtain ⟨hagree, hready⟩ := ready_means_usable d steps (.unreachable Unit) () .mapsCo
  exact ⟨hagree, hkept, hready before "K" later rfl hkept⟩

/-- The second save ends before the key, and what it leaves can be loaded. -/
example :
    let slot : FileSlot := ⟨"c/s.toml", "c", .unsteady none [.whole, .cut 13]⟩
    let d : Session := ⟨({} : Settings).setApiKey .mapsCo "K", slot⟩
    (d.run [.save .byName, .load true]).settings.isReady .mapsCo = true ∧
      (d.run [.save .byName, .save .byName, .load true]).settings.isReady .mapsCo = false := by
  decide +kernel

/-- A key that is set makes the provider ready, and a load brings back what was saved before. -/
theorem key_unsaved {d : Session} (h : d.slot.TakesText) (order : SectionOrder) (id : ProviderId)
    (key : String) :
    (d.run [.save order, .setApiKey id key]).settings.isReady id = true ∧
      (d.run [.save order, .setApiKey id key, .load true]).settings = d.settings := by
  constructor
  · exact (hasKey_setApiKey d.settings id key).isReady
  · have hload : Settings.load (d.run [.save order, .setApiKey id key]).slot = .ok d.settings :=
      (load_saveIn d.settings order h).2.2
    have hrun : d.run [.save order, .setApiKey id key, .load true] =
        (d.run [.save order, .setApiKey id key]).step (.load true) := rfl
    rw [hrun, Session.step, hload]
    rfl

/-- A key that is set after the save is gone when the file is loaded again. -/
theorem key_lost_on_load :
    let d : Session := ⟨{}, ⟨"c/s.toml", "c", .file ""⟩⟩
    Settings.ofText? "" = some d.settings ∧
      (d.run [.save .byName, .setApiKey .mapsCo "K"]).settings.isReady .mapsCo = true ∧
      (d.run [.save .byName, .setApiKey .mapsCo "K", .load true]).settings.isReady .mapsCo =
        false := by
  intro d
  have hslot : d.slot.TakesText := trivial
  obtain ⟨hready, hloaded⟩ := key_unsaved hslot .byName .mapsCo "K"
  refine ⟨rfl, hready, ?_⟩
  rw [hloaded]
  rfl

end Session

end Settings

end Gazetteer
