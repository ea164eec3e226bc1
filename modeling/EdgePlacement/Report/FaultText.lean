import EdgePlacement.Decimal.Fixed
import EdgePlacement.Fault
import EdgePlacement.Network.Paths
import EdgePlacement.Relaxation.Solve

/-!
# The wording of faults

Every fault that a user of the library can do something about has a message; the others are told by
their cause alone. Names stand quoted in a message where blanks or marks in them could mislead.
-/

namespace EdgePlacement

open EdgePlacement.Decimal EdgePlacement.Text

def choicesText (words : List String) : String :=
  "(" ++ String.intercalate ", " (words.map quoted) ++ ")"

def sizeText (rows columns : Nat) : String :=
  "(" ++ countText rows ++ ", " ++ countText columns ++ ")"

/-- The size of a matrix as it is told; one without rows has lost the count of its columns. -/
def matrixSizeText (rows columns : Nat) : String :=
  if rows = 0 then "(0,)" else sizeText rows columns

def Violation.message : Violation Float → String
  | shape rows columns services nodes =>
    "matrix shape " ++ matrixSizeText rows columns ++ " != expected " ++ sizeText services nodes
  | outsideUnit => "values outside [0, 1]"
  | rowTotal service total => "service " ++ service ++ ": fractions sum to " ++ fixedText 6 total
  | overload node dimension load capacity =>
    "node " ++ node ++ ": " ++ dimension.name ++ " load " ++ fixedText 6 load ++ " > cap " ++
      fixedText 6 capacity

def backendChoices : String :=
  choicesText (Backend.all.map Backend.name)

def pathWeightChoices : String :=
  choicesText (PathWeight.all.map PathWeight.name)

def Fault.message? : Fault Float → Option String
  | negativeRequirements service =>
    some ("Service " ++ quoted service ++ " has negative requirements")
  | negativeBandwidth source target =>
    some ("Demand " ++ source ++ "->" ++ target ++ " has negative bandwidth")
  | negativeCapacity node => some ("Node " ++ quoted node ++ " has negative capacity")
  | negativeLink link => some ("Link " ++ quoted link ++ " has negative capacity or latency")
  | duplicateNode name existing =>
    some ("Duplicate node " ++ quoted name ++ " (already have " ++ quoted existing ++ ")")
  | unknownEndpoints link names =>
    some ("Link " ++ quoted link ++ " has unknown endpoint(s) " ++ quotedList names)
  | duplicateLink link => some ("Duplicate link id " ++ quoted link)
  | unknownNode name => some name
  | unknownPathEnds source target =>
    some ("Unknown node in path query " ++ quoted source ++ " -> " ++ quoted target)
  | notAnEndpoint node link =>
    some (quoted node ++ " is not an endpoint of link " ++ quoted link)
  | notListed service => some (quoted service ++ " is not in list")
  | unknownBackend word =>
    some ("Unknown backend " ++ word ++ ", expected one of " ++ backendChoices)
  | unknownSolver name => some ("Unknown LP backend " ++ quoted name)
  | unknownPathWeight name =>
    some ("Unknown path weight " ++ quoted name ++ ", expected one of " ++ pathWeightChoices)
  | unknownWeightSetting word => some ("Unknown path weight " ++ word)
  | negativeTolerance => some "eps must be non-negative"
  | matrixShape rows columns services nodes =>
    some ("Fractional matrix shape " ++ sizeText rows columns ++ " does not match " ++
      countText services ++ " services x " ++ countText nodes ++ " nodes")
  | repeatedServices => some "Service names must be unique"
  | nothingToPlace nodes services =>
    some ("Nothing to place: " ++ countText nodes ++ " nodes, " ++ countText services ++
      " services")
  | emptyRelaxation nodes services =>
    some ("Cannot build LP with " ++ countText nodes ++ " nodes and " ++ countText services ++
      " services")
  | aggregateExceeded dimension demand capacity =>
    some ("Aggregate " ++ dimension.name ++ " demand " ++ fixedText 3 demand ++
      " exceeds capacity " ++ fixedText 3 capacity)
  | constraintsViolated count first =>
    some ("Fractional solution violates " ++ countText count ++ " constraint(s): " ++ first.message)
  | noOptimum => some "No optimal solution was returned"
  | missingColumns table missing available =>
    some ("Missing columns in " ++ table ++ ": " ++ quotedList missing ++ ". Available: " ++
      quotedList available)
  | unknownNeighbourhood _ | notANumber | noNumberAtAll | numberTooLarge | wrongArity
  | negativeTieTolerance | unorderedPaths | negativeSeed | emptyRange | refusedWeights
  | drawsExhausted | raggedMatrix | noFractionalAssignment | unusableData _ | missingTable
  | emptyTable | openQuote | wideRow | repeatedNumberColumn | repeatedTextColumn => none

end EdgePlacement
