import CircuitNetlist.Json.Options
import CircuitNetlist.Json.Simulation
import CircuitNetlist.Parameter.Table.Lemmas
import CircuitNetlist.Session.File
import CircuitNetlist.Session.Text
import CircuitNetlist.Proofs.ScriptRuns
import CircuitNetlist.Proofs.SignalTables
import CircuitNetlist.Proofs.NodeNames
import CircuitNetlist.Proofs.ConnectionText
import CircuitNetlist.Proofs.DeclaredNodes
import CircuitNetlist.Proofs.WrittenNetlists
import CircuitNetlist.Proofs.ModuleOrder
import CircuitNetlist.Proofs.ParameterMerge
import CircuitNetlist.Proofs.PositionalNodes
import CircuitNetlist.Proofs.SpectreFields
import CircuitNetlist.Proofs.ParameterPrecedence
import CircuitNetlist.Proofs.ResolvedReferences
import CircuitNetlist.Proofs.ScopeCalls
import CircuitNetlist.Proofs.CallsOfScripts
import CircuitNetlist.Proofs.NetlistNames
import CircuitNetlist.Proofs.AlikeScripts
import CircuitNetlist.Proofs.ConnectionFaults
import CircuitNetlist.Proofs.ConnectionOrder
import CircuitNetlist.Proofs.Requests
import CircuitNetlist.Proofs.LimitedSinks
import CircuitNetlist.Proofs.ReachableSessions
import CircuitNetlist.Proofs.StepwiseInstances
import CircuitNetlist.Proofs.RejectedInstances
import CircuitNetlist.Proofs.AcceptedRuns
import CircuitNetlist.Proofs.Interfaces
import CircuitNetlist.Proofs.ModuleBlocks
import CircuitNetlist.Proofs.ComposedReplies
import CircuitNetlist.Proofs.DeckParts
import CircuitNetlist.Proofs.DistinctNodes
import CircuitNetlist.Proofs.TopModules
import CircuitNetlist.Proofs.Outcomes
import CircuitNetlist.Proofs.SpiceDialects
import CircuitNetlist.Proofs.PackageFaults
import CircuitNetlist.Proofs.SpiceAndSpectre
import CircuitNetlist.Proofs.ExternalOrder
import CircuitNetlist.Proofs.LineDepths
import CircuitNetlist.Proofs.CountedDepths
import CircuitNetlist.Proofs.Indentation
import CircuitNetlist.Proofs.JsonRoundTrips
import CircuitNetlist.Proofs.VoltageSources
import CircuitNetlist.Proofs.HeaderComments
import CircuitNetlist.Proofs.RejectedCards
import CircuitNetlist.Proofs.SupportedAnalyses
import CircuitNetlist.Proofs.AcceptedModules
import CircuitNetlist.Proofs.TargetFaults
import CircuitNetlist.Proofs.VerilogModules
import CircuitNetlist.Proofs.PositionalValues
import CircuitNetlist.Proofs.NumeralGrammar
import CircuitNetlist.Proofs.NumberSpellings
import CircuitNetlist.Proofs.ScaleWords
import CircuitNetlist.Proofs.BlamedPlaces
import CircuitNetlist.Proofs.LoggedWrites
import CircuitNetlist.Proofs.NetlistFiles
import CircuitNetlist.Proofs.NetlistWords
import CircuitNetlist.Proofs.DoubleNeighbours
import CircuitNetlist.Proofs.ShortestDecimals
import CircuitNetlist.Proofs.ShortestTexts
import CircuitNetlist.Proofs.RenamesInRange
import CircuitNetlist.Proofs.TableHistories
