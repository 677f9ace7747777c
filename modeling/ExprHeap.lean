import ExprHeap.EntryPoint
import ExprHeap.Main
import ExprHeap.Proofs.Shading
import ExprHeap.Proofs.Descent
import ExprHeap.Proofs.Coherence
import ExprHeap.Proofs.Allocation
import ExprHeap.Proofs.Barrier
import ExprHeap.Proofs.Marking
import ExprHeap.Proofs.Batches
import ExprHeap.Proofs.Scan
import ExprHeap.Proofs.Sweep
import ExprHeap.Proofs.Requests
import ExprHeap.Proofs.StoreRuns
import ExprHeap.Proofs.Protection
import ExprHeap.Proofs.InterleavedSweep
import ExprHeap.Proofs.LateShading
import ExprHeap.Proofs.Sessions
import ExprHeap.Proofs.Collections
import ExprHeap.Proofs.Producers
import ExprHeap.Proofs.Trees
import ExprHeap.Proofs.Counterparts
import ExprHeap.Proofs.Pauses
import ExprHeap.Proofs.Invisibility
import ExprHeap.Proofs.Moments
import ExprHeap.Proofs.ExpressionGraph
import ExprHeap.Proofs.FaultFreedom
import ExprHeap.Proofs.Representation
import ExprHeap.Proofs.Sharing
import ExprHeap.Proofs.Generations
import ExprHeap.Proofs.Registration
import ExprHeap.Proofs.Unbatched
import ExprHeap.Proofs.Batching
import ExprHeap.Proofs.Typing
import ExprHeap.Proofs.Outcomes
import ExprHeap.Proofs.Census
import ExprHeap.Proofs.LiveSets
import ExprHeap.Proofs.ScanAnswers
import ExprHeap.Proofs.Books
import ExprHeap.Proofs.Accounting
import ExprHeap.Proofs.Populations
import ExprHeap.Proofs.ShadowFrames
import ExprHeap.Proofs.Checksums
import ExprHeap.Proofs.Comparisons
import ExprHeap.Proofs.CallerFrames
import ExprHeap.Proofs.RunningAverages
import ExprHeap.Proofs.Singles
import ExprHeap.Proofs.Environments
import ExprHeap.Proofs.Rounding
import ExprHeap.Proofs.GrowthTrigger
import ExprHeap.Proofs.Renaming
import ExprHeap.Proofs.Clearing
import ExprHeap.Proofs.ShadingTurns
import ExprHeap.Proofs.Insertions
