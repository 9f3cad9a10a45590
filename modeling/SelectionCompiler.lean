import SelectionCompiler.Files.Tree
import SelectionCompiler.Main
import SelectionCompiler.Proofs.Graph.TypeGraph
import SelectionCompiler.Proofs.Graph.DependencyGraph
import SelectionCompiler.Proofs.Graph.EmissionOrder
import SelectionCompiler.Proofs.Compilation.Closed
import SelectionCompiler.Proofs.Compilation.Inlining
import SelectionCompiler.Proofs.Compilation.Paths
import SelectionCompiler.Proofs.StaticModule.Reader
import SelectionCompiler.Proofs.Sdl.Name
import SelectionCompiler.Proofs.StaticModule.RoundTrip
import SelectionCompiler.Proofs.StaticModule.Claims
import SelectionCompiler.Proofs.StaticModule.Resolution
import SelectionCompiler.Proofs.StaticModule.Spelling
import SelectionCompiler.Proofs.StaticModule.Meaning
import SelectionCompiler.Proofs.Graph.Departure
import SelectionCompiler.Proofs.Graph.Blocked
import SelectionCompiler.Proofs.StaticModule.Binding
import SelectionCompiler.Proofs.Text.Casing
import SelectionCompiler.Proofs.StaticModule.Legality
import SelectionCompiler.Proofs.Introspection.Description
import SelectionCompiler.Proofs.Introspection.Reading
import SelectionCompiler.Proofs.Json.Tokens
import SelectionCompiler.Proofs.Schema.Sources
import SelectionCompiler.Proofs.Json.Number
import SelectionCompiler.Proofs.Json.Quoted
import SelectionCompiler.Proofs.Query.Arguments
import SelectionCompiler.Proofs.Query.Selection
import SelectionCompiler.Proofs.Compilation.Tiers
import SelectionCompiler.Proofs.Schema.Ordinary
import SelectionCompiler.Proofs.Schema.Classification
import SelectionCompiler.Proofs.Compilation.Reordering
import SelectionCompiler.Proofs.Files.Path
import SelectionCompiler.Proofs.Files.Tree
import SelectionCompiler.Proofs.Files.Replace
import SelectionCompiler.Proofs.Json.Pretty
import SelectionCompiler.Proofs.Json.Faithful
import SelectionCompiler.Proofs.Json.Decode
import SelectionCompiler.Proofs.Schema.Codec
import SelectionCompiler.Proofs.Selection.Codec
import SelectionCompiler.Proofs.Compilation.Codec
import SelectionCompiler.Proofs.Compilation.Deepening
import SelectionCompiler.Proofs.Graph.Turn
import SelectionCompiler.Proofs.Selection.StaticEquality
import SelectionCompiler.Proofs.Graph.References
import SelectionCompiler.Proofs.Graph.Agreement
import SelectionCompiler.Proofs.Schema.Extensions
import SelectionCompiler.Proofs.Query.Operation
import SelectionCompiler.Proofs.Schema.ArgumentStyles
import SelectionCompiler.Proofs.StaticModule.Search
import SelectionCompiler.Proofs.Selection.Loose
import SelectionCompiler.Proofs.Schema.TypeRef
import SelectionCompiler.Proofs.Schema.History
