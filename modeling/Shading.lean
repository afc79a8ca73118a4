import Shading.CallGraph
import Shading.Context
import Shading.Context.Discovery
import Shading.Data
import Shading.Decimal.Binary
import Shading.Decimal.Shortest
import Shading.Declaration
import Shading.Emission
import Shading.Error
import Shading.Footprint
import Shading.Generation
import Shading.Glsl.Code
import Shading.Glsl.Identifier
import Shading.Glsl.Intrinsic
import Shading.Glsl.Spelling
import Shading.Glsl.StageSource
import Shading.Glsl.Target
import Shading.Glsl.Term
import Shading.Layouts
import Shading.Model
import Shading.Model.Data
import Shading.Model.Validation
import Shading.Name
import Shading.Packing
import Shading.Program
import Shading.Resource
import Shading.Resource.Kind
import Shading.ShaderSet
import Shading.Source
import Shading.Stage
import Shading.Structure
import Shading.Text.Blank
import Shading.Text.Hexadecimal
import Shading.TypeRef
import Shading.UnknownName
import Shading.Usage
import Shading.Visit
import Shading.Proofs.CallOrder
import Shading.Proofs.Accesses
import Shading.Proofs.Exclusion
import Shading.Proofs.Packing
import Shading.Proofs.Containment
import Shading.Proofs.CanonicalNames
import Shading.Proofs.Coherence
import Shading.Proofs.Memoization
import Shading.Proofs.Replay
import Shading.Proofs.Discovery
import Shading.Proofs.SharedMemory
import Shading.Proofs.Mentions
import Shading.Proofs.Calls
import Shading.Proofs.Rendering
import Shading.Proofs.Lowering
import Shading.Proofs.Assembly
import Shading.Proofs.StageEntries
import Shading.Proofs.DefinitionOrder
import Shading.Proofs.ResourceUse
import Shading.Proofs.StageLegality
import Shading.Proofs.Placement
import Shading.Proofs.StructurePacking
import Shading.Proofs.Binding
import Shading.Proofs.ResourceSlots
import Shading.Proofs.SetDiscovery
import Shading.Proofs.Tokens
import Shading.Proofs.Reading
import Shading.Proofs.Grouping
import Shading.Proofs.Products
import Shading.Proofs.TargetIndependence
import Shading.Proofs.DependencyOrder
import Shading.Proofs.FieldReferences
import Shading.Proofs.StructureDiscovery
import Shading.Proofs.SourceParts
import Shading.Proofs.StructureDefinitions
import Shading.Proofs.GlobalNames
import Shading.Proofs.LayoutFaults
import Shading.Proofs.RecursiveStructures
import Shading.Proofs.LayoutArithmetic
import Shading.Proofs.UsageText
import Shading.Proofs.ModelData
import Shading.Proofs.StageCoverage
import Shading.Proofs.Accounting
import Shading.Proofs.Occurrences
import Shading.Proofs.DiscoveryClosure
import Shading.Proofs.AtomicDiscovery
import Shading.Proofs.DivergenceSearch
import Shading.Proofs.BuiltModels
import Shading.Proofs.StageInterface
import Shading.Proofs.MainWiring
import Shading.Proofs.InterfaceTypes
import Shading.Proofs.InterfaceLocations
import Shading.Proofs.SpelledTerms
import Shading.Proofs.NamedOutputs
import Shading.Proofs.HoistedOutputs
import Shading.Proofs.OutputDeclarations
import Shading.Proofs.FlatVaryings
import Shading.Proofs.Widening
import Shading.Proofs.LeadingMarks
import Shading.Proofs.PrefixOperators
import Shading.Proofs.ReturnStatements
import Shading.Proofs.EmissionParts
import Shading.Proofs.DefaultValues
import Shading.Proofs.Validation
import Shading.Proofs.GenerationFaults
import Shading.Proofs.Interleaving
import Shading.Proofs.Independence
import Shading.Proofs.FiniteEmission
import Shading.Proofs.CallSequences
import Shading.Proofs.TypeIndex
import Shading.Proofs.ContextGrowth
import Shading.Proofs.RegistryHistories
import Shading.Proofs.LineWriter
import Shading.Proofs.EmitterReuse
