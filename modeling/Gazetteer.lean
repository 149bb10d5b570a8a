import Gazetteer.Address.Basic
import Gazetteer.Address.Json
import Gazetteer.Address.Label
import Gazetteer.Cache.Disk
import Gazetteer.Cache.Entry
import Gazetteer.Cache.Store
import Gazetteer.CommandLine.Arguments
import Gazetteer.CommandLine.Run
import Gazetteer.Error
import Gazetteer.Export.Format
import Gazetteer.Export.Rendering
import Gazetteer.Field.Basic
import Gazetteer.Field.Preparation
import Gazetteer.Field.View
import Gazetteer.FileSlot
import Gazetteer.Geocoder
import Gazetteer.Geometry.Basic
import Gazetteer.Geometry.Fault
import Gazetteer.Geometry.GeoJson
import Gazetteer.Geometry.Geohash
import Gazetteer.Http.Form
import Gazetteer.Http.Network
import Gazetteer.Http.Url
import Gazetteer.Instant.Basic
import Gazetteer.Instant.Reader
import Gazetteer.Json.Basic
import Gazetteer.Json.Document
import Gazetteer.Json.Numeral
import Gazetteer.Json.Tree
import Gazetteer.Number.Binary64
import Gazetteer.Number.Decimal
import Gazetteer.Number.Layout
import Gazetteer.Number.Shortest
import Gazetteer.Program
import Gazetteer.Provider.Basic
import Gazetteer.Provider.Id
import Gazetteer.Provider.Nominatim
import Gazetteer.Provider.Registry
import Gazetteer.Provider.Sample
import Gazetteer.Query
import Gazetteer.Settings.Basic
import Gazetteer.Settings.File
import Gazetteer.Table
import Gazetteer.Text.Blank
import Gazetteer.Text.Letters
import Gazetteer.Toml.Assembly
import Gazetteer.Toml.Basic
import Gazetteer.Toml.Document
import Gazetteer.Toml.Scalar
import Gazetteer.Toml.Writer
import Gazetteer.Xml
import Gazetteer.Main
import Gazetteer.Proofs.Cache.File
import Gazetteer.Proofs.Cache.Key
import Gazetteer.Proofs.Lookup.Fallback
import Gazetteer.Proofs.Address.ReadBack
import Gazetteer.Proofs.Address.Label
import Gazetteer.Proofs.Cache.Refinement
import Gazetteer.Proofs.Lookup.Provenance
import Gazetteer.Proofs.Lookup.Transparency
import Gazetteer.Proofs.Cache.Entry
import Gazetteer.Proofs.Number.Moderate
import Gazetteer.Proofs.Address.Range
import Gazetteer.Proofs.Lookup.Repeat
import Gazetteer.Proofs.Cache.Failure
import Gazetteer.Proofs.Cache.Shared
import Gazetteer.Proofs.Cache.Handles
import Gazetteer.Proofs.Cache.Recovery
import Gazetteer.Proofs.Cache.Entries
import Gazetteer.Proofs.Lookup.Faults
import Gazetteer.Proofs.Lookup.Memory
import Gazetteer.Proofs.Lookup.Readable
import Gazetteer.Proofs.Lookup.Lasting
import Gazetteer.Proofs.Lookup.EqualQueries
import Gazetteer.Proofs.Lookup.Exhaustion
import Gazetteer.Proofs.Lookup.Spelling
import Gazetteer.Proofs.Field.View
import Gazetteer.Proofs.Field.Geofields
import Gazetteer.Proofs.Field.InStep
import Gazetteer.Proofs.Field.PreparedText
import Gazetteer.Proofs.Field.CoordinateText
import Gazetteer.Proofs.Settings.Persistence
import Gazetteer.Proofs.Http.Record
import Gazetteer.Proofs.CommandLine.CacheOff
import Gazetteer.Proofs.Export.Feature
import Gazetteer.Proofs.Export.Markup
import Gazetteer.Proofs.Export.Characters
import Gazetteer.Proofs.Export.Point
import Gazetteer.Proofs.Export.Geometry
import Gazetteer.Proofs.Provider.Parameters
import Gazetteer.Proofs.Provider.Boxes
import Gazetteer.Proofs.Provider.Positions
import Gazetteer.Proofs.Provider.Reverse
import Gazetteer.Proofs.Provider.Search
import Gazetteer.Proofs.CommandLine.Rejection
import Gazetteer.Proofs.CommandLine.FieldAgreement
import Gazetteer.Proofs.CommandLine.Names
import Gazetteer.Proofs.Settings.Preference
import Gazetteer.Proofs.Provider.Readiness
