import Gazetteer.Proofs.Table
import Gazetteer.Proofs.Toml.Assembly
import Gazetteer.Proofs.Toml.Document
import Gazetteer.Settings.File

/-!
# Settings are read back

The settings document is a document of values and sections.  What is read from it are the settings
it was written for, in whatever order the sections of the providers stand.

    sections.Perm s.providers.entries → ofText? (s.textWith sections) = some s   (ofText?_textWith)
    ofText? s.text = some s                                                          (ofText?_text)
-/

namespace Gazetteer

open Toml

/-- A value for a text that is there. -/
def optionalValue (key : String) : Option String → List (String × Value)
  | some s => [(key, .text s)]
  | none => []

/-- The values in a provider's section. -/
def ProviderSettings.values (p : ProviderSettings) : List (String × Value) :=
  optionalValue "api_key" p.apiKey ++ optionalValue "base_url" p.baseUrl

theorem ProviderSettings.distinct_values (p : ProviderSettings) : Distinct p.values := by
  obtain ⟨apiKey, baseUrl⟩ := p
  cases apiKey
  all_goals
    cases baseUrl
    all_goals simp [Distinct, values, optionalValue]

/-- A provider's settings are read from the table of its values: what is not there is read as
missing, and the empty text is kept apart from that. -/
theorem ProviderSettings.ofToml?_values (p : ProviderSettings) :
    ofToml? (.table p.values) = some p := by
  obtain ⟨apiKey, baseUrl⟩ := p
  cases apiKey
  all_goals
    cases baseUrl
    all_goals rfl

namespace Settings

/-- The values before the sections. -/
def generalValues (s : Settings) : List (String × Value) :=
  [("cache", .bool s.cache), ("providers_order", .array (s.providersOrder.map .text))] ++
    optionalValue "default_dumper" s.defaultFormat

/-- The values in the sections. -/
def sectionValues (sections : List (String × ProviderSettings)) :
    List (String × List (String × Value)) :=
  sections.map fun e => (e.1, e.2.values)

theorem distinct_generalValues (s : Settings) : Distinct s.generalValues := by
  cases h : s.defaultFormat
  all_goals simp [Distinct, generalValues, optionalValue, h]

theorem providers_notMem_generalValues (s : Settings) :
    "providers" ∉ s.generalValues.map (·.1) := by
  cases h : s.defaultFormat
  all_goals simp [generalValues, optionalValue, h]

/-! ## Lines -/

theorem lines_optional {key : String} (hkey : BareKey key) (o : Option String) :
    Lines (optionalLine key o) ((optionalValue key o).map assignment) := by
  cases o with
  | none => exact .nil
  | some s => exact (line_assign hkey (spelled_text s)).lines

theorem lines_provider (e : String × ProviderSettings) :
    Lines (providerChars e.1 e.2) (sectionStatements "providers" (e.1, e.2.values)) := by
  have hheader := (line_header (by decide : BareKey "providers") e.1).lines
  have hkey := lines_optional (by decide : BareKey "api_key") e.2.apiKey
  have hurl := lines_optional (by decide : BareKey "base_url") e.2.baseUrl
  have h := ((hheader.append hkey).append hurl).gap
  simpa [providerChars, sectionStatements, ProviderSettings.values] using h

theorem lines_general (s : Settings) :
    Lines
      (lineChars "cache" (if s.cache then "true".toList else "false".toList)
        ++ lineChars "providers_order" (arrayChars s.providersOrder)
        ++ optionalLine "default_dumper" s.defaultFormat)
      (s.generalValues.map assignment) := by
  have hcache := (line_assign (by decide : BareKey "cache") (spelled_bool s.cache)).lines
  have hname : BareKey "providers_order" := by decide
  have horder := (line_assign hname (spelled_array s.providersOrder)).lines
  have hformat := lines_optional (by decide : BareKey "default_dumper") s.defaultFormat
  have h := (hcache.append horder).append hformat
  rwa [generalValues, List.map_append]

theorem lines_charsWith (s : Settings) (sections : List (String × ProviderSettings)) :
    Lines (s.charsWith sections)
      (documentStatements "providers" s.generalValues (sectionValues sections)) := by
  apply (lines_general s).append
  cases sections with
  | nil => exact (line_table (by decide : BareKey "providers")).lines.gap
  | cons e sections =>
    have h := Lines.flatMap lines_provider (e :: sections)
    rw [← List.flatMap_map (fun e : String × ProviderSettings => (e.1, e.2.values))
      (sectionStatements "providers")] at h
    exact h

/-- The document is read as the table of its values and sections. -/
theorem read?_textWith (s : Settings) (sections : List (String × ProviderSettings))
    (hnames : Distinct sections) :
    Toml.read? (s.textWith sections) =
      some (sectionedTable "providers" s.generalValues (sectionValues sections)) := by
  have hsections : ∀ e ∈ sectionValues sections, Distinct e.2 := by
    intro e he
    obtain ⟨e', -, rfl⟩ := List.mem_map.mp he
    exact e'.2.distinct_values
  have hdistinct : Distinct (sectionValues sections) := by
    simpa [Distinct, sectionValues, Function.comp_def] using hnames
  obtain ⟨d, hfold, hvalues⟩ := foldlM_document (distinct_generalValues s)
    (providers_notMem_generalValues s) hdistinct hsections
  have hmark : Clear '\uFEFF' (s.charsWith sections) := by
    obtain ⟨t, ht⟩ : ∃ t, s.charsWith sections = 'c' :: t := ⟨_, rfl⟩
    rw [ht]
    simp [Clear]
  rw [textWith, (lines_charsWith s sections).read?_eq hmark hfold, hvalues]

/-! ## Settings -/

theorem mapM_text (texts : List String) :
    (texts.map Value.text).mapM ProviderSettings.text? = some texts := by
  induction texts with
  | nil => rfl
  | cons s texts ih =>
    rw [List.map_cons, List.mapM_cons, ih]
    rfl

theorem mapM_sectionValues (sections : List (String × ProviderSettings)) :
    ((sectionValues sections).map fun e => (e.1, Value.table e.2)).mapM
      (fun e : String × Value => (ProviderSettings.ofToml? e.2).map (e.1, ·)) = some sections := by
  induction sections with
  | nil => rfl
  | cons e sections ih =>
    obtain ⟨name, p⟩ := e
    have hcons : (sectionValues ((name, p) :: sections)).map (fun e => (e.1, Value.table e.2)) =
        (name, .table p.values) :: (sectionValues sections).map fun e => (e.1, .table e.2) := rfl
    rw [hcons, List.mapM_cons, ProviderSettings.ofToml?_values, ih]
    rfl

theorem ofToml?_sectionedTable (s : Settings) (sections : List (String × ProviderSettings)) :
    ofToml? (sectionedTable "providers" s.generalValues (sectionValues sections)) =
      some { s with providers := Table.ofList sections } := by
  have horder := mapM_text s.providersOrder
  have hsections := mapM_sectionValues sections
  have hformat : ProviderSettings.optionalText? (s.defaultFormat.map Value.text) =
      some s.defaultFormat := by
    cases s.defaultFormat <;> rfl
  generalize hm : sectionedTable "providers" s.generalValues (sectionValues sections) = m
  have hlookups : m.lookup "cache" = some (.bool s.cache) ∧
      m.lookup "providers_order" = some (.array (s.providersOrder.map .text)) ∧
      m.lookup "default_dumper" = s.defaultFormat.map .text ∧
      m.lookup "providers" =
        some (.table ((sectionValues sections).map fun e => (e.1, .table e.2))) := by
    rw [← hm, sectionedTable, generalValues]
    cases s.defaultFormat <;> exact ⟨rfl, rfl, rfl, rfl⟩
  obtain ⟨h1, h2, h3, h4⟩ := hlookups
  simp only [ofToml?, member?, h1, h2, h3, h4, hformat, Option.bind_eq_bind, Option.bind_some]
  rw [horder]
  simp only [Option.bind_some, hsections]
  rfl

/-- Settings are read back, in whatever order the sections of their providers are written. -/
theorem ofText?_textWith (s : Settings) {sections : List (String × ProviderSettings)}
    (h : sections.Perm s.providers.entries) : ofText? (s.textWith sections) = some s := by
  have hnames : (sections.map (·.1)).Nodup := (h.map (·.1)).nodup_iff.mpr s.providers.keys_nodup
  rw [ofText?, read?_textWith s sections hnames, Option.bind_some, ofToml?_sectionedTable,
    Table.ofList_perm h]

theorem ofText?_text (s : Settings) : ofText? s.text = some s := ofText?_textWith s (.refl _)

end Settings

end Gazetteer
