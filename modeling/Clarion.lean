import Clarion.Main
import Clarion.Proofs.Checked.Folding
import Clarion.Proofs.ClassLookup
import Clarion.Proofs.ClosingPolicy
import Clarion.Proofs.ConcurrentLookup
import Clarion.Proofs.Containers
import Clarion.Proofs.DerivedState
import Clarion.Proofs.FoldingRanges
import Clarion.Proofs.InclusionChain
import Clarion.Proofs.JsonRoundTrip
import Clarion.Proofs.LayeredScopes
import Clarion.Proofs.LogicalLines
import Clarion.Proofs.LookupMemory
import Clarion.Proofs.MaskRules
import Clarion.Proofs.PathNormalization
import Clarion.Proofs.ProjectReading
import Clarion.Proofs.Rendering
import Clarion.Proofs.ScopeConservation
import Clarion.Proofs.Sealing
import Clarion.Proofs.SearchOrder
import Clarion.Proofs.SearchPaths
import Clarion.Proofs.ShownOnce
import Clarion.Proofs.SolutionCache
import Clarion.Proofs.SolutionScan
import Clarion.Proofs.SolutionText
import Clarion.Proofs.SortedGroups
import Clarion.Proofs.StackDiscipline
import Clarion.Proofs.Traversal
import Clarion.Proofs.UndeclaredClasses
import Clarion.Proofs.ValueOrder
import Clarion.Proofs.ViewNesting
