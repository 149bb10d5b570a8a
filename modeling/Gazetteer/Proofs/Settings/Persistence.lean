import Gazetteer.Proofs.Settings.ReadBack

/-!
# Settings outlast the session

A session edits settings in memory and saves them to a file and loads them from it.  No edit and no
load touches the file, and every save leaves a file that takes the next one.  So what is loaded are
the settings of the last save, whatever has been done to those in memory since.

    FileSlot.TakesText is kept by every step                                   (takesText_step)
    only a save changes the file                                               (slot_step)
    a load after a save gives the settings that were in memory at the save     (load_after_save)
-/

namespace Gazetteer

/-- A text can be written to the path, maybe after its directory has been made. -/
def FileSlot.TakesText (s : FileSlot) : Prop :=
  match s.state with
  | .noDirectory | .absent | .file _ => True
  | .restricted _ access => access.writable = true
  | _ => False

namespace Settings

/-- A file that takes a text takes another one after it. -/
theorem saveText_takesText (text : String) {slot : FileSlot} (h : slot.TakesText) :
    (saveText text slot).1 = .ok () ∧ (saveText text slot).2.TakesText := by
  obtain ⟨path, parent, state⟩ := slot
  cases state with
  | noDirectory => exact ⟨rfl, trivial⟩
  | absent => exact ⟨rfl, trivial⟩
  | file old => exact ⟨rfl, trivial⟩
  | restricted old access =>
    obtain ⟨writable, removable⟩ := access
    have hwritable : writable = true := h
    subst hwritable
    exact ⟨rfl, rfl⟩
  | blocked => exact h.elim
  | closed => exact h.elim
  | unsteady file writes => exact h.elim
  | directory => exact h.elim

/-- A document that has been saved stands in the file. -/
theorem read_of_saved {text : String} {slot : FileSlot} (h : (saveText text slot).1 = .ok ()) :
    (saveText text slot).2.occupied = true ∧ (saveText text slot).2.read = .ok text := by
  obtain ⟨path, parent, state⟩ := slot
  cases state with
  | noDirectory => exact ⟨rfl, rfl⟩
  | absent => exact ⟨rfl, rfl⟩
  | file old => exact ⟨rfl, rfl⟩
  | restricted old access =>
    obtain ⟨writable, removable⟩ := access
    cases writable with
    | true => exact ⟨rfl, rfl⟩
    | false => cases h
  | unsteady file writes =>
    cases writes with
    | nil => exact ⟨rfl, rfl⟩
    | cons ending writes =>
      cases ending with
      | whole => exact ⟨rfl, rfl⟩
      | cut n => cases h
      | torn => cases h
  | blocked => cases h
  | closed => cases h
  | directory => cases h

/-- The order in which a table's entries are gone through: any, and another for each table. -/
structure SectionOrder where
  arrange : Table ProviderSettings → List (String × ProviderSettings)
  perm : ∀ t, (arrange t).Perm t.entries

/-- The order of the names, which `save` takes. -/
def SectionOrder.byName : SectionOrder := ⟨(·.entries), fun _ => .refl _⟩

/-- Saves settings with the sections in an order. -/
def saveIn (s : Settings) (order : SectionOrder) (slot : FileSlot) :
    Except FileFault Unit × FileSlot :=
  saveText (s.textWith (order.arrange s.providers)) slot

theorem saveIn_byName (s : Settings) (slot : FileSlot) : s.saveIn .byName slot = s.save slot := rfl

/-- What has been saved is loaded. -/
theorem load_of_saved {s : Settings} {order : SectionOrder} {slot : FileSlot}
    (h : (s.saveIn order slot).1 = .ok ()) : load (s.saveIn order slot).2 = .ok s := by
  rw [saveIn] at h
  obtain ⟨hoccupied, hread⟩ := read_of_saved h
  rw [saveIn, load, if_pos hoccupied, hread]
  simp only [ofText?_textWith s (order.perm s.providers)]

theorem load_saveIn (s : Settings) (order : SectionOrder) {slot : FileSlot} (h : slot.TakesText) :
    (s.saveIn order slot).1 = .ok () ∧ (s.saveIn order slot).2.TakesText ∧
      load (s.saveIn order slot).2 = .ok s := by
  obtain ⟨hsaved, htakes⟩ := saveText_takesText (s.textWith (order.arrange s.providers)) h
  exact ⟨hsaved, htakes, load_of_saved hsaved⟩

/-! ## Sessions -/

inductive Step where
  | prefer (id : ProviderId)
  | setApiKey (id : ProviderId) (key : String)
  | setBaseUrl (id : ProviderId) (url : String)
  | save (order : SectionOrder)
  /-- What is loaded may take the place of the settings in memory. -/
  | load (adopt : Bool)

def Step.isSave : Step → Bool
  | .save _ => true
  | _ => false

/-- Settings in memory and their file. -/
structure Session where
  settings : Settings
  slot : FileSlot

namespace Session

def step (d : Session) : Step → Session
  | .prefer id => { d with settings := d.settings.prefer id }
  | .setApiKey id key => { d with settings := d.settings.setApiKey id key }
  | .setBaseUrl id url => { d with settings := d.settings.setBaseUrl id url }
  | .save order => { d with slot := (d.settings.saveIn order d.slot).2 }
  | .load adopt =>
    match Settings.load d.slot with
    | .ok s => if adopt then { d with settings := s } else d
    | .error _ => d

def run (d : Session) (steps : List Step) : Session := steps.foldl step d

theorem run_append (d : Session) (before later : List Step) :
    d.run (before ++ later) = (d.run before).run later :=
  List.foldl_append

/-- Only a save changes the file. -/
theorem slot_step (d : Session) {step : Step} (h : step.isSave = false) :
    (d.step step).slot = d.slot := by
  cases step with
  | prefer id => rfl
  | setApiKey id key => rfl
  | setBaseUrl id url => rfl
  | save order => cases h
  | load adopt =>
    rw [Session.step]
    split
    · split <;> rfl
    · rfl

theorem slot_run (d : Session) (steps : List Step) (h : ∀ step ∈ steps, step.isSave = false) :
    (d.run steps).slot = d.slot := by
  induction steps generalizing d with
  | nil => rfl
  | cons step steps ih =>
    obtain ⟨hstep, hsteps⟩ := List.forall_mem_cons.mp h
    exact (ih (d.step step) hsteps).trans (slot_step d hstep)

theorem takesText_step (d : Session) (step : Step) (h : d.slot.TakesText) :
    (d.step step).slot.TakesText := by
  cases hsave : step.isSave with
  | false => rwa [slot_step d hsave]
  | true =>
    cases step with
    | save order => exact (load_saveIn d.settings order h).2.1
    | prefer id => cases hsave
    | setApiKey id key => cases hsave
    | setBaseUrl id url => cases hsave
    | load adopt => cases hsave

theorem takesText_run (d : Session) (steps : List Step) (h : d.slot.TakesText) :
    (d.run steps).slot.TakesText := by
  induction steps generalizing d with
  | nil => exact h
  | cons step steps ih => exact ih (d.step step) (takesText_step d step h)

/-- A save anywhere in a session succeeds, and until the next one every load gives the settings that
were in memory at the save. -/
theorem load_after_save (d : Session) (before later : List Step) (order : SectionOrder)
    (hslot : d.slot.TakesText) (hlater : ∀ step ∈ later, step.isSave = false) :
    ((d.run before).settings.saveIn order (d.run before).slot).1 = .ok () ∧
      Settings.load (d.run (before ++ .save order :: later)).slot =
        .ok (d.run before).settings := by
  obtain ⟨hsave, -, hload⟩ :=
    load_saveIn (d.run before).settings order (takesText_run d before hslot)
  have hkept := slot_run ((d.run before).step (.save order)) later hlater
  refine ⟨hsave, ?_⟩
  calc
    Settings.load (d.run (before ++ .save order :: later)).slot
        = Settings.load (((d.run before).step (.save order)).run later).slot := by
      rw [run_append]
      rfl
    _ = Settings.load ((d.run before).settings.saveIn order (d.run before).slot).2 := by
      rw [hkept]
      rfl
    _ = .ok (d.run before).settings := hload

/-- Settings with texts of every kind, and no directory for their file. -/
def sample : Session where
  settings :=
    { cache := false
      providersOrder := ["a\"b", "a\"b", ""]
      defaultFormat := some ""
      providers := (Table.empty.insert "[x]\n" {}).insert "mapsco"
        { apiKey := some "\x27\x27\x27\\\x00\r\n\"" } }
  slot := ⟨"c/s.toml", "c", .noDirectory⟩

/-- The sections are written last to first, and the settings are edited after the save. -/
theorem load_after_save_reversed :
    let before : List Step := [.setBaseUrl .openStreetMap "\"\"\"\n", .prefer .mapsCo]
    let later : List Step := [.setApiKey .mapsCo "", .load false]
    let order : SectionOrder := ⟨(·.entries.reverse), fun t => t.entries.reverse_perm⟩
    sample.slot.TakesText ∧ (∀ step ∈ later, step.isSave = false) ∧
      ((sample.run before).settings.saveIn order (sample.run before).slot).1 = .ok () ∧
      ∃ s, Settings.load (sample.run (before ++ .save order :: later)).slot = .ok s ∧
        s.cache = false ∧ s.providersOrder = ["mapsco", "a\"b", "a\"b", ""] ∧
        s.defaultFormat = some "" ∧
        s.providers.entries =
          [("[x]\n", {}), ("mapsco", { apiKey := some "\x27\x27\x27\\\x00\r\n\"" }),
            ("openstreetmap", { baseUrl := some "\"\"\"\n" })] := by
  intro before later order
  have hlater : ∀ step ∈ later, step.isSave = false := by simp [later, Step.isSave]
  obtain ⟨hsave, hload⟩ := load_after_save sample before later order trivial hlater
  exact ⟨trivial, hlater, hsave, _, hload, rfl, by decide, rfl, by decide⟩

end Session

end Settings

end Gazetteer
