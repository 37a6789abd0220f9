import Std.Time.DateTime.Timestamp
import Rungs.Batch
import Rungs.Clock

/-! The command line program: a batch run on the files and streams of the machine itself. -/

namespace Rungs

/-- A step of the machine with its failure in words. -/
def attempt {α : Type} (step : IO α) : ExceptT String IO α :=
  .mk (step.toBaseIO.map fun result => result.mapError toString)

/-- Whether a path leads to a file, to anything else, or nowhere. -/
def isFile? (path : Path) : IO (Option Bool) := do
  try
    let metadata ← (← IO.FS.realPath path.text).metadata
    match metadata.type with
    | .file => return some true
    | _ => return some false
  catch _ => return none

def namesIn (path : Path) : IO (List String) := do
  let entries ← (← IO.FS.realPath path.text).readDir
  return entries.toList.map (·.fileName)

def currentTime : IO String := do
  let now ← Std.Time.Timestamp.now
  return Clock.text now.val.second.val.toNat now.val.nano.val.toNat

def systemHost : Host IO where
  isPresent path := Option.isSome <$> isFile? path
  isFile path := (· == some true) <$> isFile? path
  names path := attempt (namesIn path)
  read path := attempt (IO.FS.readBinFile path.text)
  makeDirectories path :=
    if path.segments.isEmpty then pure () else attempt (IO.FS.createDirAll path.text)
  write path bytes := attempt (IO.FS.writeBinFile path.text bytes)
  remove path := attempt (IO.FS.removeFile path.text)
  rename source target := attempt (IO.FS.rename source.text target.text)
  now := currentTime
  print := IO.println
  log := IO.eprintln

def usage : String :=
  "usage: rungs PATH [-s SETTINGS] [-o DIRECTORY] [--json] [-v]"

end Rungs

/-- Runs over the snapshots that the arguments name. -/
def main (arguments : List String) : IO UInt32 := do
  match Rungs.CommandLine.parse arguments with
  | .error .help =>
    IO.println Rungs.usage
    return Rungs.CommandLine.Stop.help.exitCode
  | .error .misuse =>
    IO.eprintln Rungs.usage
    return Rungs.CommandLine.Stop.misuse.exitCode
  | .ok commandLine =>
    match ← (Rungs.Batch.run Rungs.systemHost commandLine).run with
    | .ok () => return 0
    | .error failure =>
      IO.eprintln ("Error: " ++ failure.message)
      return 1
