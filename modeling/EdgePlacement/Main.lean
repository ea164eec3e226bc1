import EdgePlacement.CommandLine.Run

/-!
# The command line

Reads the files of a dataset, runs, prints the report and writes the exported tables.
-/

namespace EdgePlacement.CommandLine

def readText? (path : String) : IO (Option String) := do
  try
    return some (← IO.FS.readFile path)
  catch _ =>
    return none

def fromHome (path : String) : IO String := do
  if path = "~" || path.startsWith "~/" then
    match ← IO.getEnv "HOME" with
    | some home => return home ++ String.ofList (path.toList.drop 1)
    | none => return path
  else return path

def readFolder (path : String) : IO Folder := do
  let mut files := []
  for name in Folder.members do
    match ← readText? (memberPath path name) with
    | some text => files := files ++ [(name, text)]
    | none => pure ()
  return ⟨files⟩

def writeExports (folder : String) (exports : List (String × String)) : IO Unit := do
  unless exports.isEmpty do
    IO.FS.createDirAll folder
    for (name, text) in exports do
      IO.FS.writeFile (memberPath folder name) text

def faultLine (start : String) (fault : Fault Float) : String :=
  start ++ (fault.message?.map fun message => ": " ++ message).getD ""

def perform (dataset : String) (request : Request) : IO UInt32 := do
  let outcome := request.run (← readFolder (← fromHome dataset))
  if request.verbose then
    for note in outcome.notes do
      IO.eprintln note
  writeExports (request.exportFolder.getD "") outcome.exports
  for line in outcome.lines do
    IO.println line
  match outcome.ending with
  | .finished => return 0
  | .unsuccessful fault =>
    let start :=
      if fault.kind.isOfPlacement then "No placement" else "Could not load dataset from " ++ dataset
    IO.eprintln (faultLine start fault)
    return 1
  | .broken fault =>
    IO.eprintln (faultLine "Stopped" fault)
    return 1

end EdgePlacement.CommandLine

open EdgePlacement.CommandLine in
def main (arguments : List String) : IO UInt32 :=
  match readArguments arguments with
  | .help => do
    IO.println usageText
    return 0
  | .refused => do
    IO.eprintln usageText
    return 2
  | .accepted dataset request => perform dataset request
