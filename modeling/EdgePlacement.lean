import EdgePlacement.CommandLine.Arguments
import EdgePlacement.CommandLine.Run
import EdgePlacement.Dataset.Chain
import EdgePlacement.Dataset.Folder
import EdgePlacement.Dataset.Records
import EdgePlacement.Dataset.Rows
import EdgePlacement.Decimal.Binary64
import EdgePlacement.Decimal.Fixed
import EdgePlacement.Decimal.Numeral
import EdgePlacement.Decimal.Rounding
import EdgePlacement.Decimal.Shortest
import EdgePlacement.Decimal.Whole
import EdgePlacement.Fault
import EdgePlacement.Link
import EdgePlacement.Main
import EdgePlacement.Network.PathSearch
import EdgePlacement.Network.Paths
import EdgePlacement.Network.Registry
import EdgePlacement.Network.Reservation
import EdgePlacement.Network.RoutingGraph
import EdgePlacement.Network.Topology
import EdgePlacement.Node
import EdgePlacement.OrderedMap
import EdgePlacement.Placement.Candidates
import EdgePlacement.Placement.Result
import EdgePlacement.Placement.Rounding
import EdgePlacement.Placement.Routing
import EdgePlacement.Placement.Sampler
import EdgePlacement.Planner
import EdgePlacement.Quantity
import EdgePlacement.Random.MersenneTwister
import EdgePlacement.Random.Pcg
import EdgePlacement.Random.Seed
import EdgePlacement.Record
import EdgePlacement.Relaxation.Check
import EdgePlacement.Relaxation.Fractions
import EdgePlacement.Relaxation.Instance
import EdgePlacement.Relaxation.LinearSystem
import EdgePlacement.Relaxation.Program
import EdgePlacement.Relaxation.Solve
import EdgePlacement.Relaxation.Solver
import EdgePlacement.Report.Columns
import EdgePlacement.Report.Console
import EdgePlacement.Report.Description
import EdgePlacement.Report.FaultText
import EdgePlacement.Report.FractionRow
import EdgePlacement.Report.Frames
import EdgePlacement.Report.Metrics
import EdgePlacement.Resources
import EdgePlacement.Service
import EdgePlacement.Settings
import EdgePlacement.Summation
import EdgePlacement.Table.Header
import EdgePlacement.Table.Reading
import EdgePlacement.Table.Scan
import EdgePlacement.Table.Writing
import EdgePlacement.Text.Blank
import EdgePlacement.Text.Digit
import EdgePlacement.Text.Hidden
import EdgePlacement.Text.LetterCase
import EdgePlacement.Text.NameOrder
import EdgePlacement.Text.Quoted
import EdgePlacement.Proofs.Binary64.Packing
import EdgePlacement.Proofs.Binary64.Rounding
import EdgePlacement.Proofs.Binary64.Order
import EdgePlacement.Proofs.Binary64.Counting
import EdgePlacement.Proofs.LawfulCounters
import EdgePlacement.Proofs.Resources
import EdgePlacement.Proofs.Network.WellFormed
import EdgePlacement.Proofs.Network.Changes
import EdgePlacement.Proofs.Network.Layout
import EdgePlacement.Proofs.Placement.Placing
import EdgePlacement.Proofs.Runs
import EdgePlacement.Proofs.Capacity
import EdgePlacement.Proofs.Placement.Hosting
import EdgePlacement.Proofs.Paths.Walks
import EdgePlacement.Proofs.Paths.LeastCosts
import EdgePlacement.Proofs.Paths.FirstTied
import EdgePlacement.Proofs.Text.NameOrder
import EdgePlacement.Proofs.Paths.Rules
import EdgePlacement.Proofs.Paths.PreferredLinks
import EdgePlacement.Proofs.Paths.Routes
import EdgePlacement.Proofs.Paths.FoundPaths
import EdgePlacement.Proofs.Paths.SimplePaths
import EdgePlacement.Proofs.Network.Charges
import EdgePlacement.Proofs.Network.Demands
import EdgePlacement.Proofs.Network.Bandwidth
import EdgePlacement.Proofs.Binary64.Exactness
import EdgePlacement.Proofs.Network.Rollback
import EdgePlacement.Proofs.Paths.PathInputs
import EdgePlacement.Proofs.Paths.CounterIndependence
import EdgePlacement.Proofs.Paths.Reachability
import EdgePlacement.Proofs.Paths.RoutingGraphs
import EdgePlacement.Proofs.Network.Registries
import EdgePlacement.Proofs.Placement.Accounting
import EdgePlacement.Proofs.Relaxation.Rows
import EdgePlacement.Proofs.Relaxation.Statements
import EdgePlacement.Proofs.Placement.Maximality
import EdgePlacement.Proofs.NodeInvariants
import EdgePlacement.Proofs.Placement.HostedShares
import EdgePlacement.Proofs.Placement.Retention
import EdgePlacement.Proofs.Placement.Replanning
import EdgePlacement.Proofs.FailedPlans
import EdgePlacement.Proofs.ForgottenPast
import EdgePlacement.Proofs.LostCounts
import EdgePlacement.Proofs.Paths.ConstructionOrder
import EdgePlacement.Proofs.Firsts
import EdgePlacement.Proofs.Network.TakenRecords
import EdgePlacement.Proofs.Dataset.TakenRows
import EdgePlacement.Proofs.Dataset.Loading
import EdgePlacement.Proofs.Dataset.Ingestion
import EdgePlacement.Proofs.Binary64.Quotients
import EdgePlacement.Proofs.Binary64.Decimals
import EdgePlacement.Proofs.Dataset.UsableRecords
import EdgePlacement.Proofs.Dataset.LoadedRuns
import EdgePlacement.Proofs.Ranks
import EdgePlacement.Proofs.Placement.CandidateOrder
import EdgePlacement.Proofs.Placement.Loads
import EdgePlacement.Proofs.Placement.Turns
import EdgePlacement.Proofs.Placement.Destinations
import EdgePlacement.Proofs.Relaxation.Aggregates
import EdgePlacement.Proofs.Placement.Priority
import EdgePlacement.Proofs.Placement.Draws
import EdgePlacement.Proofs.Placement.IntegralFractions
import EdgePlacement.Proofs.Binary64.Undefined
import EdgePlacement.Proofs.Relaxation.Violations
import EdgePlacement.Proofs.Binary64.Nearness
import EdgePlacement.Proofs.Binary64.Accumulation
import EdgePlacement.Proofs.Relaxation.FinalizedFractions
import EdgePlacement.Proofs.Relaxation.FeasiblePoints
import EdgePlacement.Proofs.Relaxation.Pivots
import EdgePlacement.Proofs.Relaxation.ExactAnswers
import EdgePlacement.Proofs.Paths.FewestHops
import EdgePlacement.Proofs.Network.KeptRecords
import EdgePlacement.Proofs.Report.Divisions
import EdgePlacement.Proofs.Report.FigureRanges
import EdgePlacement.Proofs.Text.LetterCase
import EdgePlacement.Proofs.Table.Lines
import EdgePlacement.Proofs.Table.Columns
import EdgePlacement.Proofs.Table.WrittenNames
import EdgePlacement.Proofs.Table.SeparatedLines
import EdgePlacement.Proofs.Table.Spellings
import EdgePlacement.Proofs.OrderedMap
