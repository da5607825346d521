import TypeModel.Cli.Log
import TypeModel.Cli.Usage

/-!
# The program

Reads the files a run needs, performs the run on them and writes what has changed.  Starting other
programs is not supported, so a run that asks for a descriptor set ends in a failure.
-/

namespace TypeModel.Cli

/-- the text of a file; one that is no text counts as empty -/
def readFile? (path : String) : IO (Option String) := do
  try return some (← IO.FS.readFile path)
  catch _ =>
    try
      let _ ← IO.FS.readBinFile path
      return some ""
    catch _ => return none

/-- the files among the given ones that exist -/
def snapshot (paths : List String) : IO FileSystem :=
  paths.foldlM (fun fs path => do
    match ← readFile? path with
    | some text => return (fs.write path text).1
    | none => return fs) {}

def settingsDirectory : IO String := do
  match ← IO.getEnv "XDG_CONFIG_HOME" with
  | some dir => return dir
  | none => return Path.join ((← IO.getEnv "HOME").getD "") ".config"

def noPrograms (_ : String) (_ : List String) : Execution :=
  .notStarted "programs cannot be started"

/-- write the files that differ from what was there -/
def save (before after : FileSystem) : IO Unit :=
  for (path, text) in after.files do
    unless before.read? path == some text do
      IO.FS.createDirAll ((Path.parent? path).getD "")
      IO.FS.writeFile path text

/-- a first run tells which files are written, so that the second one knows which of them exist -/
def runOnDisk (a : Args) : IO RunResult := do
  let settings ← settingsDirectory
  let inputs := [a.input, localConfigPath, systemConfigPath settings] ++ a.config.toList
  let planned := run noPrograms settings a (← snapshot inputs)
  let present ← snapshot (inputs ++ planned.files.files.map (·.1))
  let result := run noPrograms settings a present
  save present result.files
  return result

def logLevel (a : Args) : IO LogLevel := do
  match LogLevel.ofText? a.logLevel with
  | some level => return level
  | none =>
    IO.eprintln ("Invalid log level: " ++ a.logLevel ++ ". Using 'warn' instead.")
    return LogLevel.fallback

def tell (lines : List String) : IO Unit := lines.forM fun line => IO.eprintln line

def perform (a : Args) : IO UInt32 := do
  let level ← logLevel a
  let r ← runOnDisk a
  tell (shownNotices level r.notices)
  match r.result with
  | .ok report =>
    if level.shows .warning then tell report.skipLines
    if a.summary then IO.print report.text
    return 0
  | .error e =>
    if level.shows .error then tell (e.reportables.flatMap Reportable.lines)
    return 1

end TypeModel.Cli

def main (words : List String) : IO UInt32 := do
  match TypeModel.Cli.Args.parse words with
  | .ok a => TypeModel.Cli.perform a
  | .error e =>
    if e.isFailure then
      IO.eprint e.message
      return 2
    else
      IO.print e.message
      return 0
