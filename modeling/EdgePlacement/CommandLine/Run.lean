import EdgePlacement.CommandLine.Arguments
import EdgePlacement.Dataset.Folder
import EdgePlacement.Report.Console

/-!
# Runs from the command line

A run reads a dataset, plans a placement for it, prints the report and, where a folder for them is
named, exports its tables.
-/

namespace EdgePlacement.CommandLine

open EdgePlacement.Decimal

inductive Ending where
  | finished
  | unsuccessful (fault : Fault Float)
  | broken (fault : Fault Float)

structure Outcome where
  lines : List String
  notes : List String
  exports : List (String × String)
  ending : Ending

def Ending.ofFault (expected : FaultKind → Bool) (fault : Fault Float) : Ending :=
  if expected fault.kind then .unsuccessful fault else .broken fault

def Request.settings (request : Request) : Except (Fault Float) (Settings Float) :=
  SettingsRequest.settle {
    SettingsRequest.defaults with
    seed := some request.seed
    backend := .text request.backend.name
    weight := .text request.pathWeight.name
    tolerance := request.tolerance }

/-- Exports go nowhere when the folder for them has no name. -/
def Request.exportsTo? (request : Request) : Option String :=
  request.exportFolder.filter fun folder => !folder.isEmpty

def exportsOf (plan : Plan Float) (t : Topology Float) : List (String × String) := [
  ("placement.csv", plan.placement.frame.exported),
  ("node_usage.csv", t.nodeFrame.exported),
  ("link_usage.csv", t.linkFrame.exported)]

def loadedNote (data : Dataset Float) : String :=
  "Loaded " ++ countText data.topology.nodes.length ++ " nodes, " ++
    countText data.topology.links.length ++ " links, " ++ countText data.services.length ++
    " services, " ++ countText data.demands.length ++ " demands"

def plannedNote (plan : Plan Float) : String :=
  "Placed " ++ countText plan.placement.placed.length ++ " services, routed " ++
    countText plan.placement.routes.entries.length ++ " demands"

def Request.runOn (request : Request) (settings : Settings Float) (data : Dataset Float) :
    Outcome :=
  let notice :=
    if data.skipped = 0 then [] else [skippedLine data.skipped data.skippedByTable.entries]
  let notes := [loadedNote data]
  match standardPlanner.run data.topology ⟨data.services, data.demands⟩ settings data.skipped with
  | (_, .error fault) => ⟨notice, notes, [], .ofFault FaultKind.isOfPlacement fault⟩
  | (t, .ok plan) =>
    let report := notice ++ plan.report t
    let notes := notes ++ [plannedNote plan]
    match request.exportsTo? with
    | none => ⟨report, notes, [], .finished⟩
    | some folder => ⟨report ++ [writtenLine folder], notes, exportsOf plan t, .finished⟩

/-- The settings are looked at before the dataset is. -/
def Request.run (request : Request) (folder : Folder) : Outcome :=
  match request.settings with
  | .error fault => ⟨[], [], [], .broken fault⟩
  | .ok settings =>
    match Dataset.load folder (Random.MersenneTwister.ofSeed 0) settings.seed with
    | .error fault => ⟨[], [], [], .ofFault FaultKind.isOfReading fault⟩
    | .ok data => request.runOn settings data

def memberPath (folder name : String) : String :=
  if folder.isEmpty || folder.toList.getLast? = some '/' then folder ++ name
  else folder ++ "/" ++ name

def usageText : String :=
  "usage: --dataset DATASET [--seed SEED] [--backend highs|pulp] [--path-weight latency|hops] " ++
    "[--eps EPS] [--csv-out FOLDER] [--verbose] [-h]"

end EdgePlacement.CommandLine
