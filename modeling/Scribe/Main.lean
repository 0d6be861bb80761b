import Scribe.CommandLine.Run

/-!
# The command line program

The program reads its arguments, the environment and the log file, runs the command, and writes what
the command gives. It comes without a browser engine, so that `record` reports that none can be
started.
-/

namespace Scribe

/-- The engine of a program that has no browser. -/
def absentEngine : Engine where
  reply
    | .start => some (.error "ブラウザエンジンがありません")
    | _ => none

/-- How the program is called. -/
def usageText : String :=
  "使い方: [--verbose] record [URL] | render LOG_FILE | targets\n"

/-- The variables of the environment that the settings look at. -/
def readEnvironment : IO Environment :=
  Settings.variableNames.filterMapM fun name => do
    return (← IO.getEnv name).map fun value => (name, value)

/-- The file at a path and no other, if there is one that can be read. -/
def readFolder (path : String) : IO Folder := do
  try
    return { files := [(.ofPath path, ← IO.FS.readBinFile path)] }
  catch _ => return {}

/-- Writes a file and makes the folders that it needs. -/
def writeFile (p : Text.Place) (content : ByteArray) : IO Unit := do
  let folder := p.folder.toPath
  if !folder.isEmpty then IO.FS.createDirAll folder
  IO.FS.writeBinFile p.toPath content

/-- Runs a command and writes what it gives. -/
def perform (c : CommandLine.Command) : IO UInt32 := do
  let folder ←
    match c with
    | .render o => readFolder o.log
    | _ => pure {}
  let o := CommandLine.run c
    { environment := ← readEnvironment, folder := folder, engine := absentEngine }
  for line in o.err do IO.eprintln line
  IO.print o.out
  for (place, content) in o.folder.since folder do writeFile place content
  return UInt32.ofNat o.exitCode

end Scribe

/-- Runs the command that the arguments ask for. -/
def main (args : List String) : IO UInt32 :=
  match Scribe.CommandLine.read args with
  | .ok (.command c) => Scribe.perform c
  | .ok .help => do
    IO.print Scribe.usageText
    return 0
  | .error _ => do
    IO.eprint Scribe.usageText
    return UInt32.ofNat Scribe.CommandLine.usageCode
