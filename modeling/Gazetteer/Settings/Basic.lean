import Gazetteer.Error
import Gazetteer.Table

/-!
# Settings

Which providers are asked in which order, their keys and addresses, whether answers are kept, and
the format of the output.
-/

namespace Gazetteer

structure ProviderSettings where
  apiKey : Option String := none
  /-- Another address than the provider's usual one. -/
  baseUrl : Option String := none
deriving DecidableEq, Repr

structure Settings where
  /-- Whether answers are kept. -/
  cache : Bool := true
  providersOrder : List String := []
  defaultFormat : Option String := none
  providers : Table ProviderSettings := .empty

namespace Settings

/-- The ids of the providers to ask, in order. -/
def enabledProviders (s : Settings) : List String :=
  if s.providersOrder.isEmpty then [ProviderId.openStreetMap.name] else s.providersOrder

def format (s : Settings) : Except Error ExportFormat :=
  match s.defaultFormat with
  | some name => ExportFormat.ofName name
  | none => .ok .geoJson

def provider? (s : Settings) (id : ProviderId) : Option ProviderSettings :=
  s.providers.find? id.name

def apiKey? (s : Settings) (id : ProviderId) : Option String := (s.provider? id).bind (·.apiKey)

def baseUrl? (s : Settings) (id : ProviderId) : Option String := (s.provider? id).bind (·.baseUrl)

/-- A provider is ready when it needs no key or has one. -/
def isReady (s : Settings) (id : ProviderId) : Bool :=
  !id.requiresApiKey || (s.apiKey? id).isSome

/-! ## Changes -/

/-- Moves a provider to the front of the order. -/
def prefer (s : Settings) (id : ProviderId) : Settings :=
  { s with providersOrder := id.name :: s.providersOrder.filter (· != id.name) }

/-- Changes the settings of a provider, empty ones if it has none. -/
def changeProvider (s : Settings) (id : ProviderId)
    (change : ProviderSettings → ProviderSettings) : Settings :=
  { s with providers := s.providers.insert id.name (change ((s.provider? id).getD {})) }

/-- Gives a provider a key.  If no provider has been put in order, this one is. -/
def setApiKey (s : Settings) (id : ProviderId) (key : String) : Settings :=
  let s := s.changeProvider id ({ · with apiKey := some key })
  if s.providersOrder.isEmpty then { s with providersOrder := [id.name] } else s

def setBaseUrl (s : Settings) (id : ProviderId) (url : String) : Settings :=
  s.changeProvider id ({ · with baseUrl := some url })

end Settings

end Gazetteer
