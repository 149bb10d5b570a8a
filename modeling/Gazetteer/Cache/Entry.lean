import Gazetteer.Address.Json
import Gazetteer.Instant.Reader

/-!
# Cache keys and cache entries

An answer is kept under the signature of its query and the id of the provider that gave it, together
with the time at which it was stored.  Both have a text form:

    CacheKey.flat          `provider|signature`; the first bar divides
    CacheEntry.text        a JSON object
-/

namespace Gazetteer

open Json (Tree Value)

structure CacheKey where
  signature : String
  provider : String
deriving DecidableEq, Repr

namespace CacheKey

/-- The key as one text. -/
def flat (k : CacheKey) : String := k.provider ++ "|" ++ k.signature

def ofFlat? (text : String) : Option CacheKey :=
  (Text.splitOnce '|' text.toList).map fun (provider, signature) =>
    ⟨String.ofList signature, String.ofList provider⟩

end CacheKey

structure CacheEntry where
  storedAt : Instant
  addresses : List Address
deriving DecidableEq, Repr

namespace CacheEntry

def toJson (e : CacheEntry) : Value :=
  .object [
    ("stored_at", .text e.storedAt.text), ("result", .array (e.addresses.map Address.toJson))]

def text (e : CacheEntry) : String := e.toJson.compact

def ofTree? (t : Tree) : Option CacheEntry := do
  match ← t.fields? ["stored_at", "result"] with
  | [storedAt, result] =>
    return ⟨← Instant.ofText? (← Tree.required Tree.text? storedAt),
      ← Tree.required (Tree.list? Address.ofTree?) result⟩
  | _ => none

def ofText? (text : String) : Option CacheEntry := (Tree.ofText? text).bind ofTree?

end CacheEntry

end Gazetteer
