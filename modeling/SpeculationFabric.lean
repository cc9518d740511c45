import SpeculationFabric.CallFacts
import SpeculationFabric.Finality
import SpeculationFabric.Ledger
import SpeculationFabric.CpuVerifier
import SpeculationFabric.Acceptance
import SpeculationFabric.StaleAttempt
import SpeculationFabric.Outstanding
import SpeculationFabric.Branches
import SpeculationFabric.ByteFields
import SpeculationFabric.Wire
import SpeculationFabric.Frames
import SpeculationFabric.Persistence
import SpeculationFabric.Archives
import SpeculationFabric.CpuProposer
import SpeculationFabric.Worker
import SpeculationFabric.Coordinator
import SpeculationFabric.CoordinatorFacts
import SpeculationFabric.CoordinatorRuns
import SpeculationFabric.DriveOutcomes
import SpeculationFabric.Resubmission
import SpeculationFabric.Misdirected
import SpeculationFabric.Redelivered
import SpeculationFabric.Replays
import SpeculationFabric.CpuCycle
import SpeculationFabric.WorkedCycle
import SpeculationFabric.SoloCycle
import SpeculationFabric.CycleRefinement
import SpeculationFabric.Pairs
import SpeculationFabric.CommitPath
import SpeculationFabric.PrefixResult
import SpeculationFabric.Barrier
import SpeculationFabric.CudaKernels
import SpeculationFabric.EventIds
import SpeculationFabric.Unchecked
import SpeculationFabric.CycleEvents
import SpeculationFabric.Totals
import SpeculationFabric.Statistics
import SpeculationFabric.Views
import SpeculationFabric.Independent
import SpeculationFabric.Interleavings
import SpeculationFabric.Guarded
import SpeculationFabric.Truncation
import SpeculationFabric.Crc
import SpeculationFabric.Bursts
import SpeculationFabric.DraftTarget
import SpeculationFabric.TargetLength
import SpeculationFabric.CanonicalKeys
import SpeculationFabric.Depths
import SpeculationFabric.WorkerAccesses
import SpeculationFabric.Accesses
import SpeculationFabric.SettledOutcomes
import SpeculationFabric.Unsettled
import SpeculationFabric.Vocabulary
import SpeculationFabric.Windows
import SpeculationFabric.RatioHistory
import SpeculationFabric.BranchDrafts
import SpeculationFabric.CudaExecutors
import SpeculationFabric.Winners
import SpeculationFabric.PlannedDepth
import SpeculationFabric.RequestPolicy
import SpeculationFabric.Attempts
import SpeculationFabric.Provenance
import SpeculationFabric.BranchRecords
import SpeculationFabric.IdFactory
import SpeculationFabric.Identities
import SpeculationFabric.ClampBounds
import SpeculationFabric.Diamonds
import SpeculationFabric.Networks
import SpeculationFabric.Deployment
import SpeculationFabric.DeploymentRuns
import SpeculationFabric.Submissions
import SpeculationFabric.Transport
import SpeculationFabric.Histories
import SpeculationFabric.Objects
import SpeculationFabric.RequestBook
import SpeculationFabric.Progress
import SpeculationFabric.Descriptors
import SpeculationFabric.Decoding
import SpeculationFabric.Service
import SpeculationFabric.FileStores
import SpeculationFabric.Observations
import SpeculationFabric.Workloads
