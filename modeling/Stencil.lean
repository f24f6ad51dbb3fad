import Stencil.Engine
import Stencil.Files.FileTree
import Stencil.Proofs.Calls.Arity
import Stencil.Proofs.Calls.TypedFunctions
import Stencil.Proofs.Engine.Repetition
import Stencil.Proofs.Loading.Confinement
import Stencil.Proofs.Loading.Gaps
import Stencil.Proofs.NameMap.History
import Stencil.Proofs.Number.FixedPlaces
import Stencil.Proofs.Number.GroupedPlaces
import Stencil.Proofs.Number.Patterns
import Stencil.Proofs.Number.WholeNumbers
import Stencil.Proofs.Rendering.AttachedValues
import Stencil.Proofs.Rendering.BaseChains
import Stencil.Proofs.Rendering.ErrorTrail
import Stencil.Proofs.Rendering.HostObjects
import Stencil.Proofs.Rendering.Inlining
import Stencil.Proofs.Rendering.KeyForms
import Stencil.Proofs.Rendering.LoopVariables
import Stencil.Proofs.Rendering.OwnedValues
import Stencil.Proofs.Rendering.PathExtension
import Stencil.Proofs.Rendering.Respelling
import Stencil.Proofs.Rendering.Shadowing
import Stencil.Proofs.Rendering.Termination
import Stencil.Proofs.Syntax.BaseLayout
import Stencil.Proofs.Syntax.BlockStructure
import Stencil.Proofs.Syntax.Concatenation
import Stencil.Proofs.Syntax.Flattening
import Stencil.Proofs.Syntax.Lines
import Stencil.Proofs.Syntax.PathPlaces
import Stencil.Proofs.Syntax.PrintRoundTrip
import Stencil.Proofs.Syntax.ScanFaults
import Stencil.Proofs.Syntax.Slices
import Stencil.Proofs.Syntax.StepBounds
import Stencil.Proofs.Syntax.TraceEvents
import Stencil.Proofs.Syntax.WrittenPaths
import Stencil.Proofs.Values.JsonText
import Stencil.Proofs.Values.Serialization
import Stencil.Proofs.Values.WrittenTexts
