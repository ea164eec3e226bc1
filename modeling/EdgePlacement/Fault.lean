import EdgePlacement.Resources

/-!
# Faults

Why an operation is refused, one constructor for each cause. The wording of the faults that have one
stands in `EdgePlacement.Report.FaultText`.
-/

namespace EdgePlacement

/-- How a fractional assignment breaks the relaxation that it belongs to. -/
inductive Violation (α : Type) where
  | shape (rows columns services nodes : Nat)
  | outsideUnit
  | rowTotal (service : String) (total : α)
  | overload (node : String) (dimension : Dimension) (load capacity : α)
  deriving DecidableEq

inductive Backend where
  | highs
  | pulp
  deriving DecidableEq

inductive Fault (α : Type) where
  -- Records that cannot be taken.
  | negativeRequirements (service : String)
  | negativeBandwidth (source target : String)
  | negativeCapacity (node : String)
  | negativeLink (link : String)
  | duplicateNode (name existing : String)
  | unknownEndpoints (link : String) (names : List String)
  | duplicateLink (link : String)
  | notANumber
  | noNumberAtAll
  | numberTooLarge
  | wrongArity
  -- Names that are looked up in vain.
  | unknownNode (name : String)
  | unknownNeighbourhood (name : String)
  | unknownPathEnds (source target : String)
  | notAnEndpoint (node link : String)
  | notListed (service : String)
  -- Arguments out of range. Unknown words are given as they stand in the message.
  | unknownBackend (word : String)
  | unknownSolver (name : String)
  | unknownPathWeight (name : String)
  | unknownWeightSetting (word : String)
  | negativeTolerance
  | negativeTieTolerance
  | unorderedPaths
  | negativeSeed
  | emptyRange
  | refusedWeights
  | drawsExhausted
  | raggedMatrix
  | matrixShape (rows columns services nodes : Nat)
  | repeatedServices
  -- Instances without a placement.
  | nothingToPlace (nodes services : Nat)
  | emptyRelaxation (nodes services : Nat)
  | aggregateExceeded (dimension : Dimension) (demand capacity : α)
  | noFractionalAssignment
  | noOptimum
  | constraintsViolated (count : Nat) (first : Violation α)
  | unusableData (backend : Backend)
  -- Tables and folders.
  | missingTable
  | emptyTable
  | openQuote
  | wideRow
  | missingColumns (table : String) (missing available : List String)
  | repeatedNumberColumn
  | repeatedTextColumn
  deriving DecidableEq

/-- What a fault is about, as far as callers tell faults apart. -/
inductive FaultKind where
  | malformedRecord
  | emptyInstance
  | infeasible
  | solverFailure
  | wrongValue
  | wrongType
  | overflow
  | unknownName
  | unknownVertex
  | missingFile
  | emptyTable
  | brokenTable
  | backendFailure
  deriving DecidableEq

def Fault.kind {α : Type} : Fault α → FaultKind
  | negativeRequirements _ | negativeBandwidth _ _ | negativeCapacity _ | negativeLink _
  | duplicateNode _ _ | unknownEndpoints _ _ | duplicateLink _ => .malformedRecord
  | nothingToPlace _ _ | emptyRelaxation _ _ => .emptyInstance
  | aggregateExceeded _ _ _ | noFractionalAssignment => .infeasible
  | noOptimum | constraintsViolated _ _ => .solverFailure
  | notANumber | notListed _ | unknownBackend _ | unknownSolver _ | unknownPathWeight _
  | unknownWeightSetting _ | negativeTolerance | negativeTieTolerance | unorderedPaths
  | negativeSeed | emptyRange | refusedWeights | drawsExhausted | raggedMatrix
  | matrixShape _ _ _ _ | repeatedServices | repeatedTextColumn
  | unusableData .highs => .wrongValue
  | noNumberAtAll | wrongArity | repeatedNumberColumn => .wrongType
  | numberTooLarge => .overflow
  | unknownNode _ | unknownPathEnds _ _ | notAnEndpoint _ _ | missingColumns _ _ _ => .unknownName
  | unknownNeighbourhood _ => .unknownVertex
  | missingTable => .missingFile
  | emptyTable => .emptyTable
  | openQuote | wideRow => .brokenTable
  | unusableData .pulp => .backendFailure

/-- Faults that belong to placing itself: the records or the instance allow no placement. -/
def FaultKind.isOfPlacement : FaultKind → Bool
  | malformedRecord | emptyInstance | infeasible | solverFailure => true
  | _ => false

def FaultKind.isOfReading : FaultKind → Bool
  | wrongValue | unknownName | missingFile | emptyTable | brokenTable => true
  | _ => false

end EdgePlacement
