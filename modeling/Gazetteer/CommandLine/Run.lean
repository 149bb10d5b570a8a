import Gazetteer.Cache.Disk
import Gazetteer.CommandLine.Arguments
import Gazetteer.Export.Rendering
import Gazetteer.Field.Preparation
import Gazetteer.Geocoder
import Gazetteer.Instant.Clock
import Gazetteer.Program
import Gazetteer.Settings.File

/-!
# Running a command

`CommandLine.run` turns a command line into its outcome: an exit code and two texts.  A run sees and
changes a `World`: the settings file, the cache file, and whatever the network is.  Times are shown
in the world's time zone.
-/

namespace Gazetteer

structure World (ν : Type) where
  config : FileSlot
  cache : FileSlot
  network : ν
  zone : Zone := .utc

structure Outcome where
  code : Nat
  /-- For standard output. -/
  output : String := ""
  /-- For standard error. -/
  errors : String := ""
deriving DecidableEq, Repr

namespace CommandLine

/-! ## Failures -/

/-- Why a command failed. -/
inductive Failure where
  | error (e : Error)
  | file (fault : FileFault)
  | lookup (providers : List String) (cause : Error)
  | nothingToConfigure (id : ProviderId)
  /-- There is nobody to answer questions. -/
  | noAnswer (question : String)

def Failure.message : Failure → String
  | error e => e.message
  | file fault => fault.message
  | lookup providers _ => "Lookup with providers [" ++ ", ".intercalate providers ++ "] failed"
  | nothingToConfigure id => "Provider '" ++ id.name ++ "' has nothing to configure."
  | noAnswer question => "Failed to read " ++ question

/-- What lies behind a problem with a file. -/
def problemCause : FileProblem → String
  | .unreadable | .unwritable | .unremovable => "Is a directory (os error 21)"
  | .noDirectory => "File exists (os error 17)"
  | .unparsable => "malformed document"

def Failure.cause? : Failure → Option String
  | error _ | nothingToConfigure _ => none
  | file fault => some (problemCause fault.problem)
  | lookup _ cause => some cause.message
  | noAnswer _ => some "The input device is not a TTY"

/-- The report of a failure, after what had been written before it. -/
def failed (f : Failure) (output : String) : Outcome where
  code := 1
  output := output
  errors :=
    let cause := match f.cause? with
      | some cause => "\n\nCaused by:\n    " ++ "\n    ".intercalate
          ((Text.splitAt '\n' cause.toList).map String.ofList)
      | none => ""
    "Error: " ++ f.message ++ cause ++ "\n"

/-! ## Lists -/

/-- A text with blanks up to a width. -/
def padded (width : Nat) (s : String) : String := s.pushn ' ' (width - s.length)

def providerLine (s : Settings) (id : ProviderId) : String :=
  padded 15 id.name ++ " " ++ padded 28 id.label ++ " "
    ++ (if s.isReady id then "ready" else "needs `geocoder configure`") ++ "\n"

def formatLine (f : ExportFormat) : String := padded 15 f.name ++ " " ++ f.label ++ "\n"

/-- The state of a cache file. -/
def cacheReport (zone : Zone) (path : String) (entries : List (CacheKey × Instant)) : String :=
  let times := match entries.head?, entries.getLast? with
    | some (_, oldest), some (_, newest) =>
      "Oldest:     " ++ oldest.clockText zone ++ "\n"
        ++ "Newest:     " ++ newest.clockText zone ++ "\n"
    | _, _ => ""
  "Cache file: " ++ path ++ "\n" ++ "Entries:    " ++ toString entries.length ++ "\n" ++ times

/-! ## Lookups -/

/-- Writes addresses, each on lines of its own, up to the first that has no text in the format. -/
def written (format : ExportFormat) (before : String) : List Address → Outcome
  | [] => { code := 0, output := before }
  | a :: rest =>
    match a.render format with
    | .ok text => written format (before ++ text ++ "\n") rest
    | .error e => failed (.error e) before

variable {ν : Type}

/-- What a lookup needs, found out before anything is asked. -/
structure Plan where
  settings : Settings
  providers : List String
  format : ExportFormat
  query : Query

def plan (config : FileSlot) (direction : Direction) (text : String) (options : LookupOptions) :
    Except Failure Plan := do
  let loaded ← (Settings.load config).mapError .file
  let settings := if options.noCache then { loaded with cache := false } else loaded
  let providers :=
    if options.providers.isEmpty then settings.enabledProviders else options.providers
  let format ← match options.format with
    | some name => (ExportFormat.ofName name).mapError .error
    | none => settings.format.mapError .error
  let query ← ((FieldValue.text text).query direction).mapError .error
  return { settings, providers, format, query }

/-- What a lookup shows of its result: all addresses or the first. -/
def Plan.outcome (p : Plan) (all : Bool) : Except Error (List Address) → Outcome
  | .error e => failed (.lookup p.providers e) ""
  | .ok [] =>
    { code := 0
      errors := "No results from providers: " ++ ", ".intercalate p.providers ++ "\n" }
  | .ok (first :: others) => written p.format "" (if all then first :: others else [first])

def runLookup (network : Http.Network ν) (now : Instant) (direction : Direction) (text : String)
    (options : LookupOptions) : StateM (World ν) Outcome := fun w =>
  match plan w.config direction text options with
  | .error f => (failed f "", w)
  | .ok p =>
    let store := if p.settings.cache then some Disk.store else none
    let geocoder := Geocoder.ofSettings network p.settings store
    let (result, net, disk) :=
      (geocoder.lookup now ⟨p.query, p.providers⟩).run.run (w.network, Disk.opened w.cache)
    (p.outcome options.all result, { w with network := net, cache := disk.slot })

/-! ## Other commands -/

/-- Configuring asks questions on a terminal; without one it ends at the first. -/
def runConfigure (config : FileSlot) (provider : String) : Outcome :=
  match ProviderId.ofName provider with
  | .error e => failed (.error e) ""
  | .ok id =>
    match Settings.load config with
    | .error fault => failed (.file fault) ""
    | .ok _ =>
      match id with
      | .test => failed (.nothingToConfigure id) ""
      | .mapsCo => failed (.noAnswer "API key") ""
      | .openStreetMap => failed (.noAnswer "base URL") ""

/-- What a step on the cache file shows of its result. -/
def stepOutcome {α : Type} (report : α → String) : Except FileFault α → Outcome
  | .ok a => { code := 0, output := report a }
  | .error fault => failed (.file fault) ""

/-- Runs a step on the cache file. -/
def onDisk {α : Type} (step : DiskM α) (report : α → String) : StateM (World ν) Outcome := fun w =>
  let (result, disk) := step.run (Disk.opened w.cache)
  (stepOutcome report result, { w with cache := disk.slot })

def runCommand (network : Http.Network ν) (now : Instant) (c : Command) :
    StateM (World ν) Outcome := do
  let w ← get
  match c with
  | .lookup direction text options => runLookup network now direction text options
  | .providers =>
    match Settings.load w.config with
    | .ok s => return { code := 0, output := String.join (ProviderId.all.map (providerLine s)) }
    | .error fault => return failed (.file fault) ""
  | .formats => return { code := 0, output := String.join (ExportFormat.all.map formatLine) }
  | .configure provider => return runConfigure w.config provider
  | .cacheInfo => onDisk Disk.entries (cacheReport w.zone w.cache.path)
  | .cacheClear => onDisk Disk.clear fun _ => "Cleared cache at " ++ w.cache.path ++ "\n"

/-- How the program is used. -/
def usage : String :=
  "Usage: geocoder [-v] <COMMAND>\n\n"
    ++ "Commands:\n"
    ++ "  geocode <TEXT> [-p PROVIDER]... [-d DUMPER] [--no-cache] [--all]\n"
    ++ "  reverse <COORDINATES> [-p PROVIDER]... [-d DUMPER] [--no-cache] [--all]\n"
    ++ "  providers\n"
    ++ "  dumpers\n"
    ++ "  configure <PROVIDER>\n"
    ++ "  cache info | clear\n"

/-- Runs a command line at the time `now`. -/
def run (network : Http.Network ν) (now : Instant) (args : List String) :
    StateM (World ν) Outcome :=
  match parse false args with
  | .command c => runCommand network now c
  | .version => return { code := 0, output := programName ++ " " ++ programVersion ++ "\n" }
  | .help => return { code := 0, output := usage }
  | .refused => return { code := 2, errors := usage }

end CommandLine

end Gazetteer
