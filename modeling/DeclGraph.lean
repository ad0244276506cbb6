import DeclGraph.Decl.Text
import DeclGraph.Graph.Export
import DeclGraph.Graph.Merge
import DeclGraph.Graph.Path
import DeclGraph.Graph.Traversal
import DeclGraph.Sorting
import DeclGraph.TypeExpr.Parser
import DeclGraph.Proofs.Coherence
import DeclGraph.Proofs.Requests
import DeclGraph.Proofs.Adoption
import DeclGraph.Proofs.Companions
import DeclGraph.Proofs.IssuedNames
import DeclGraph.Proofs.Merging
import DeclGraph.Proofs.Rewriting
import DeclGraph.Proofs.References
import DeclGraph.Proofs.Union
import DeclGraph.Proofs.IndexScan
import DeclGraph.Proofs.Copies
import DeclGraph.Proofs.Reproduction
import DeclGraph.Proofs.Conflation
import DeclGraph.Proofs.Addresses
import DeclGraph.Proofs.Shards
import DeclGraph.Proofs.FreshNames
import DeclGraph.Proofs.Resolution
import DeclGraph.Proofs.Shadowing
import DeclGraph.Proofs.Renumbering
import DeclGraph.Proofs.Contents
import DeclGraph.Proofs.PlainReferences
import DeclGraph.Proofs.Composition
import DeclGraph.Proofs.Regrouping
import DeclGraph.Proofs.Traversals
import DeclGraph.Proofs.Outlines
import DeclGraph.Proofs.Adjoining
import DeclGraph.Proofs.ApartMerges
import DeclGraph.Proofs.Alongside
import DeclGraph.Proofs.Lockstep
import DeclGraph.Proofs.Scripts
import DeclGraph.Proofs.Sequential
import DeclGraph.Proofs.WrittenPaths
import DeclGraph.Proofs.Frames
import DeclGraph.Proofs.Safety
import DeclGraph.Proofs.Repetition
import DeclGraph.Proofs.WrittenTypes
import DeclGraph.Proofs.WrittenLines
import DeclGraph.Proofs.EqualOutlines
import DeclGraph.Proofs.WrittenDecls
import DeclGraph.Proofs.Continuations
import DeclGraph.Proofs.Methods
import DeclGraph.Proofs.Insertions
import DeclGraph.Proofs.JsonReader
import DeclGraph.Proofs.ExportReader
import DeclGraph.Proofs.IndexOrder
import DeclGraph.Proofs.ExportedGraphs
import DeclGraph.Proofs.Territories
import DeclGraph.Proofs.Interchange
import DeclGraph.Proofs.Interleavings
import DeclGraph.Proofs.Duplicates
import DeclGraph.Proofs.DottedPaths
import DeclGraph.Proofs.TypeGrammar
import DeclGraph.Proofs.ByteCursor
import DeclGraph.Proofs.ErrorPlaces
import DeclGraph.Proofs.Stepwise
import DeclGraph.Proofs.Refusals
