import Gazetteer.Error
import Gazetteer.Query

/-!
# Providers

A `Provider π` finds addresses for texts and for points; it may use and change a state in `π`.  To
find nothing is an answer, and different from failing.
-/

namespace Gazetteer

inductive ProviderError where
  | unavailable (provider reason : String)
  | unsupported (provider operation : String)
  /-- A request that could not be made, or that got no answer. -/
  | http
  /-- An answer that could not be read. -/
  | decode
deriving DecidableEq, Repr

def ProviderError.message : ProviderError → String
  | unavailable provider reason => "provider '" ++ provider ++ "' unavailable: " ++ reason
  | unsupported provider operation =>
    "provider '" ++ provider ++ "' does not support " ++ operation
  | http => "HTTP request failed"
  | decode => "failed to decode provider response"

/-- Asking a provider keeps the changes of the state when it fails. -/
abbrev ProviderM (π : Type) := ExceptT ProviderError (StateM π)

structure Provider (π : Type) where
  id : String
  label : String
  geocode : String → ProviderM π (List Address)
  reverse : Coordinates → ProviderM π (List Address)

namespace Provider

variable {π : Type}

/-- Asks a query. -/
def ask (p : Provider π) : Query → ProviderM π (List Address)
  | .text s => p.geocode s
  | .point c => p.reverse c

/-- Stands in for a built-in provider that cannot work.  Every lookup fails. -/
def unavailable (id : ProviderId) (reason : String) : Provider π where
  id := id.name
  label := id.label
  geocode _ := throw (.unavailable id.name reason)
  reverse _ := throw (.unavailable id.name reason)

end Provider

end Gazetteer
