import Gazetteer.CommandLine.Run
import Std.Time.Zoned

/-!
# The program

Brings the two files, the clock and the time zone to `CommandLine.run`, and its outcome back.
Requests stay without an answer, as nothing here talks to a network.
-/

namespace Gazetteer

/-- What is at a path, as far as reading it shows. -/
def observeFile (path parent : String) : IO FileSlot := do
  let state ← try
      let text ← IO.FS.readFile path
      pure (FileState.file text)
    catch
      | .noFileOrDirectory .. => pure .noDirectory
      | _ => pure .directory
  return { path, parent, state }

/-- Makes a file what it has become. -/
def keepFile (before after : FileSlot) : IO Unit := do
  if before.state ≠ after.state then
    match after.state with
    | .file text =>
      IO.FS.createDirAll after.parent
      IO.FS.writeFile after.path text
    | _ => IO.FS.removeFile after.path

/-- The program's directory under the one that an environment variable names, or under one at
home. -/
def homeOf (name fallback : String) : IO String := do
  let root ← match ← IO.getEnv name with
    | some root => pure root
    | none => pure ((← IO.getEnv "HOME").getD "" ++ "/" ++ fallback)
  return root ++ "/geocoder-cli"

/-- The time on the clock, in UTC. -/
def clock : IO Instant := do
  let now := Std.Time.PlainDateTime.ofWallTime (.ofTimestamp (← Std.Time.Timestamp.now) .zero)
  let date := (now.year.toInt, now.month.val.toNat, now.day.val.toNat)
  let minutes := now.hour.val.toNat * 60 + now.minute.val.toNat
  match Instant.ofFields? date minutes now.second.val.toNat now.nanosecond.val.toNat with
  | some t => return t
  | none => throw (IO.userError "the clock shows no time")

/-- The time zone that is set; UTC if its rules cannot be found. -/
def localZone : IO Zone := do
  try
    let rules ← Std.Time.Database.defaultGetLocalZoneRules
    return .ofOffset fun t =>
      let days := Instant.dayNumber t.year t.month t.day - Instant.dayNumber 1970 1 1
      let seconds := days * 86400 + Instant.secondOfDay t.hour t.minute t.second
      (rules.timezoneAt (.ofSecondsSinceUnixEpoch (.ofInt seconds))).offset.second.val
  catch _ => return .utc

end Gazetteer

open Gazetteer in
def main (args : List String) : IO UInt32 := do
  let configDirectory ← homeOf "XDG_CONFIG_HOME" ".config"
  let cacheDirectory ← homeOf "XDG_CACHE_HOME" ".cache"
  let config ← observeFile (configDirectory ++ "/config.toml") configDirectory
  let cache ← observeFile (cacheDirectory ++ "/geocode-cache.json") cacheDirectory
  let world : World Unit := { config, cache, network := (), zone := ← localZone }
  let (outcome, world) := (CommandLine.run (.unreachable Unit) (← clock) args).run world
  keepFile config world.config
  keepFile cache world.cache
  IO.print outcome.output
  IO.eprint outcome.errors
  return outcome.code.toUInt32
