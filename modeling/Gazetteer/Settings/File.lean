import Gazetteer.FileSlot
import Gazetteer.Settings.Basic
import Gazetteer.Toml.Document
import Gazetteer.Toml.Writer

/-!
# The settings file

Settings as a TOML document: the general ones first, then a table for each provider.  Every member
may be missing and unknown ones are passed over; members of another type are refused.
-/

namespace Gazetteer

open Toml (Value)

/-! ## Reading -/

namespace ProviderSettings

def text? : Value → Option String
  | .text s => some s
  | _ => none

/-- An optional text. -/
def optionalText? : Option Value → Option (Option String)
  | none => some none
  | some v => (text? v).map some

/-- From a table, or from an array of key and address.  A date counts as a table of unknown
members. -/
def ofToml? : Value → Option ProviderSettings
  | .table m => do
    return ⟨← optionalText? (m.lookup "api_key"), ← optionalText? (m.lookup "base_url")⟩
  | .array items => do return ⟨← optionalText? items[0]?, ← optionalText? items[1]?⟩
  | .date _ => some {}
  | _ => none

end ProviderSettings

namespace Settings

/-- A member with a default. -/
def member? {α : Type} (m : List (String × Value)) (name : String) (default : α)
    (read : Value → Option α) : Option α :=
  match m.lookup name with
  | none => some default
  | some v => read v

def ofToml? (m : List (String × Value)) : Option Settings := do
  let cache ← member? m "cache" true fun
    | .bool b => some b
    | _ => none
  let providersOrder ← member? m "providers_order" [] fun
    | .array items => items.mapM ProviderSettings.text?
    | _ => none
  let defaultFormat ← ProviderSettings.optionalText? (m.lookup "default_dumper")
  let providers ← member? m "providers" Table.empty fun
    | .table m => do
      return Table.ofList (← m.mapM fun (name, v) => (ProviderSettings.ofToml? v).map (name, ·))
    | _ => none
  return { cache, providersOrder, defaultFormat, providers }

def ofText? (text : String) : Option Settings := (Toml.read? text).bind ofToml?

/-! ## Writing -/

/-- A line for an optional text. -/
def optionalLine (key : String) : Option String → List Char
  | some s => Toml.lineChars key (Toml.textChars s.toList)
  | none => []

/-- The table of a provider, after an empty line. -/
def providerChars (name : String) (p : ProviderSettings) : List Char :=
  '\n' :: Toml.headerChars "providers" name ++ optionalLine "api_key" p.apiKey
    ++ optionalLine "base_url" p.baseUrl

/-- The document with the tables of the providers in a given order. -/
def charsWith (s : Settings) (sections : List (String × ProviderSettings)) : List Char :=
  let general := Toml.lineChars "cache" (if s.cache then "true".toList else "false".toList)
    ++ Toml.lineChars "providers_order" (Toml.arrayChars s.providersOrder)
    ++ optionalLine "default_dumper" s.defaultFormat
  let providers := sections.flatMap fun (name, p) => providerChars name p
  general ++ (if sections.isEmpty then "\n[providers]\n".toList else providers)

def textWith (s : Settings) (sections : List (String × ProviderSettings)) : String :=
  String.ofList (s.charsWith sections)

/-- The document with the tables of the providers in the order of their names. -/
def text (s : Settings) : String := s.textWith s.providers.entries

/-! ## The file -/

/-- Settings of a file; the usual ones if there is none. -/
def load (slot : FileSlot) : Except FileFault Settings :=
  if slot.occupied then
    match slot.read with
    | .ok text =>
      match ofText? text with
      | some s => .ok s
      | none => .error (.of .config slot .unparsable)
    | .error problem => .error (.of .config slot problem)
  else .ok {}

/-- Writes a document into a file and makes its directory first.  What has been done is kept when
the rest fails. -/
def saveText (text : String) (slot : FileSlot) : Except FileFault Unit × FileSlot :=
  match slot.makeParent with
  | .error problem => (.error (.of .config slot problem), slot)
  | .ok made =>
    match made.write text with
    | .error problem => (.error (.of .config made problem), made.spoiled text)
    | .ok written => (.ok (), written)

/-- Writes settings into a file. -/
def save (s : Settings) (slot : FileSlot) : Except FileFault Unit × FileSlot :=
  saveText s.text slot

end Settings

end Gazetteer
