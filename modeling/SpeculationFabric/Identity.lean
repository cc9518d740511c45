import Mathlib.Data.List.AList
import Mathlib.Data.UInt

/-! Identifiers, errors and model identity, as the control plane compares them.
Device and executor descriptions are opaque labels here; nothing in the engine
interprets them beyond equality. A default-constructed identifier is null. -/
namespace SpeculationFabric

inductive Tag where
  | request | sequence | attempt | proposal | branch | worker | workerBoot | dispatch | tenant | adapter
  | model | revision | tokenizer | executor | device | reservation | state | event
  | proposalGen | authGen | stateGen | epoch | cycle | client
  deriving DecidableEq, Repr

structure StrongId (tag : Tag) (T : Type) where
  value : T
  deriving DecidableEq, Repr

instance {tag T} [Inhabited T] : Inhabited (StrongId tag T) := ⟨⟨default⟩⟩

def StrongId.isNull {tag T} [Inhabited T] [DecidableEq T] (id : StrongId tag T) : Bool :=
  decide (id.value = default)

def StrongId.str {tag T} [ToString T] (id : StrongId tag T) : String := toString id.value

abbrev RequestId := StrongId .request UInt64
abbrev SequenceId := StrongId .sequence UInt64
abbrev AttemptId := StrongId .attempt UInt64
abbrev ProposalId := StrongId .proposal UInt64
abbrev BranchId := StrongId .branch UInt64
abbrev WorkerId := StrongId .worker UInt64
abbrev WorkerBootId := StrongId .workerBoot UInt64
abbrev DispatchId := StrongId .dispatch UInt64
abbrev TenantId := StrongId .tenant UInt64
abbrev AdapterId := StrongId .adapter UInt64
abbrev ModelId := StrongId .model UInt64
abbrev Revision := StrongId .revision UInt64
abbrev TokenizerId := StrongId .tokenizer UInt64
abbrev ExecutorId := StrongId .executor UInt64
abbrev DeviceId := StrongId .device UInt64
abbrev ReservationId := StrongId .reservation UInt64
abbrev StateId := StrongId .state UInt64
abbrev EventId := StrongId .event UInt64
abbrev ProposalGeneration := StrongId .proposalGen UInt64
abbrev AuthGeneration := StrongId .authGen UInt64
abbrev StateGeneration := StrongId .stateGen UInt64
abbrev CoordinatorEpoch := StrongId .epoch UInt64
abbrev CycleId := StrongId .cycle UInt64
abbrev ClientId := StrongId .client UInt64

/- Executors are an open interface and may answer with any code, so the whole
enumeration is kept although the engine itself produces only a few of them. -/
inductive ErrorCode where
  | ok
  | invalidArgument | outOfRange | notFound | alreadyExists | invalidState | unknown
  | notImplemented | internal | capacityExceeded | bufferFull | corrupt | malformed
  | invalidProposal | invalidCandidate | invalidBranch | invalidDepth | invalidTokenEncoding
  | tokenCountMismatch | acceptanceExceedsCandidate | invalidVerificationResult | emptyCandidate
  | invalidAuthoritativeGeneration | invalidCandidateGeneration | candidateLengthMismatch
  | invalidRequest | invalidIdentity | invalidDispatch | invalidAttempt | impossibleCandidateDepth
  | invalidZeroDepth
  | staleEpoch | staleWorkerBoot | staleAttempt | staleProposalGeneration
  | staleVerificationGeneration | wrongBaseGeneration | duplicateProposal | duplicateVerification
  | completionAfterCancellation | completionAfterTerminal | losingBranchCommit | lateProposal
  | lateVerification | staleAuthority | obsoleteWorker
  | incompatibleModelPair | incompatibleTokenizer | incompatibleVocabulary | incompatibleAdapter
  | incompatibleProtocol | incompatibleDevice | incompatibleExecutor | incompatibleStateLayout
  | incompatibleRevision | incompatibleOperatorPolicy
  | reservationUnderflow | doubleRelease | deadlineExceeded | budgetExceeded | backpressure
  | requestCancelled | expired | proposerUnavailable | verifierUnavailable | reservationLeak
  | memoryPressure | shutDown
  | rejected | rolledBack | superseded | failed | alreadyTerminal | cancelled | committed
  | fullyAccepted | partiallyAccepted | retryableFailure | nonRetryableFailure
  | proposalSuccess | proposalRetryableFailure | proposalNonRetryableFailure
  | verificationSuccessFullAccept | verificationSuccessPartialAccept | verificationRejectAll
  | verificationRetryableFailure | verificationNonRetryableFailure
  | malformedFrame | oversizedFrame | truncatedFrame | unknownProtocolVersion | unknownMessageType
  | malformedIdentity | invalidMessage | zeroLengthMessage
  | invalidTransition | notReady | wrongState | stateMachineCycleOverflow
  deriving DecidableEq, Repr

structure Error where
  code : ErrorCode
  message : String
  deriving DecidableEq, Repr

abbrev Result (T : Type) := Except Error T

def Result.err {T : Type} (code : ErrorCode) (message : String) : Result T := .error ⟨code,message⟩

inductive ExecutorKind where
  | cpu | cuda | rocm | metal | custom | unknown
  deriving DecidableEq, Repr

structure DeviceDescriptor where
  id : DeviceId := ⟨0⟩
  name : String := ""
  canonical : String := ""
  kind : ExecutorKind := .unknown
  computeCapabilityMajor : UInt32 := 0
  computeCapabilityMinor : UInt32 := 0
  memoryBytes : UInt64 := 0
  deriving DecidableEq, Repr

structure TokenizerIdentity where
  id : TokenizerId := ⟨0⟩
  name : String := ""
  vocabSize : UInt32 := 0
  hash : String := ""
  deriving DecidableEq, Repr

structure ExecutorIdentity where
  id : ExecutorId := ⟨0⟩
  name : String := ""
  kind : ExecutorKind := .unknown
  protocolVersion : UInt32 := 0
  deriving DecidableEq, Repr

structure AdapterIdentity where
  id : AdapterId := ⟨0⟩
  name : String := ""
  revision : String := ""
  deriving DecidableEq, Repr

structure ModelIdentity where
  model : ModelId := ⟨0⟩
  revision : Revision := ⟨0⟩
  tokenizer : TokenizerIdentity := {}
  adapter : Option AdapterIdentity := none
  executor : ExecutorIdentity := {}
  device : DeviceDescriptor := {}
  name : String := ""
  deriving DecidableEq, Repr

def ModelIdentity.canonical (m : ModelIdentity) : String :=
  let s := "model=" ++ m.name ++ ";rev=" ++ m.revision.str ++ ";tok=" ++ m.tokenizer.name ++ ";"
  let s := match m.adapter with
    | some adapter => s ++ ("adapter=" ++ adapter.name ++ ";")
    | none => s
  s ++ ("exec=" ++ m.executor.name ++ ";dev=" ++ m.device.canonical)

end SpeculationFabric
