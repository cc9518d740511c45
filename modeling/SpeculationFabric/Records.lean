import SpeculationFabric.Identity

/-! The records that cross the engine's boundary: requests, candidates, executor
inputs and results, proposals, branches and cycle outcomes. Field order and
defaults follow the headers. No record here is validated by its constructor;
the engine's own checks are modelled where the source performs them. -/
namespace SpeculationFabric

structure StateRef where
  id : StateId := ⟨0⟩
  generation : StateGeneration := ⟨0⟩
  deriving DecidableEq, Repr

inductive SequenceRole where
  | authoritative | speculative
  deriving DecidableEq, Repr

structure StateDomain where
  name : String := "cpu"
  device : DeviceDescriptor := {}
  deriving DecidableEq, Repr

inductive ReservationState where
  | none | reserved | pending | used | released
  deriving DecidableEq, Repr

inductive StateOwner where
  | none | proposal | branch | verification | authoritativeCommit
  deriving DecidableEq, Repr

structure StateDescriptor where
  ref : StateRef := {}
  role : SequenceRole := .speculative
  domain : StateDomain := {}
  parent : Option StateRef := none
  parentGeneration : Option StateGeneration := none
  bytesHeld : UInt64 := 0
  reservation : ReservationState := .none
  owner : StateOwner := .none
  proposalOwner : Option ProposalId := none
  branchOwner : Option BranchId := none
  committed : Bool := false
  deriving DecidableEq, Repr

structure Reservation where
  id : ReservationId := ⟨0⟩
  domain : StateDomain := {}
  bytes : UInt64 := 0
  state : ReservationState := .none
  purpose : StateOwner := .none
  proposal : Option ProposalId := none
  branch : Option BranchId := none
  request : Option RequestId := none
  purposeLabel : String := ""
  deriving DecidableEq, Repr

def Reservation.isActive (r : Reservation) : Bool :=
  decide (r.state = .reserved) || decide (r.state = .pending) || decide (r.state = .used)

structure Token where
  id : UInt32 := 0
  text : Option String := none
  deriving DecidableEq, Repr

structure CandidateSequence where
  tokens : List Token := []
  deriving DecidableEq, Repr

def CandidateSequence.size (c : CandidateSequence) : Nat := c.tokens.length

structure CandidateTokenIdentity where
  tokenizer : TokenizerId := ⟨0⟩
  vocabSize : UInt32 := 0
  format : String := "int32"
  deriving DecidableEq, Repr

structure ModelPairCompatibilityKey where
  proposer : ModelIdentity := {}
  verifier : ModelIdentity := {}
  protocolVersion : UInt32 := 1
  deriving DecidableEq, Repr

structure ProposalProvenance where
  epoch : CoordinatorEpoch := ⟨0⟩
  request : RequestId := ⟨0⟩
  sequence : SequenceId := ⟨0⟩
  attempt : AttemptId := ⟨0⟩
  branch : BranchId := ⟨0⟩
  cycle : CycleId := ⟨0⟩
  proposerWorker : WorkerId := ⟨0⟩
  proposerBoot : WorkerBootId := ⟨0⟩
  proposerModel : ModelIdentity := {}
  baseGeneration : AuthGeneration := ⟨0⟩
  dispatch : DispatchId := ⟨0⟩
  deriving DecidableEq, Repr

structure Proposal where
  id : ProposalId := ⟨0⟩
  generation : ProposalGeneration := ⟨0⟩
  provenance : ProposalProvenance := {}
  candidate : CandidateSequence := {}
  tokenIdentity : CandidateTokenIdentity := {}
  baseState : StateRef := {}
  baseStateGeneration : StateGeneration := ⟨0⟩
  speculativeState : StateRef := {}
  speculativeStateDesc : StateDescriptor := {}
  computeSpent : UInt64 := 0
  memoryHeld : UInt64 := 0
  finalized : Bool := false
  eligibleForVerification : Bool := false
  committed : Bool := false
  deriving DecidableEq, Repr

structure Branch where
  id : BranchId := ⟨0⟩
  request : RequestId := ⟨0⟩
  sequence : SequenceId := ⟨0⟩
  attempt : AttemptId := ⟨0⟩
  cycle : CycleId := ⟨0⟩
  baseGeneration : AuthGeneration := ⟨0⟩
  baseState : StateRef := {}
  proposer : ModelIdentity := {}
  speculativeState : StateDescriptor := {}
  latestProposal : Option ProposalId := none
  proposalCount : Nat := 0
  retired : Bool := false
  selected : Bool := false
  deriving DecidableEq, Repr

inductive ProposalOutcome where
  | success | retryableFailure | nonRetryableFailure | cancelled | expired | staleAuthorityRejected
  deriving DecidableEq, Repr

structure ProposalResult where
  outcome : ProposalOutcome := .nonRetryableFailure
  candidate : Option CandidateSequence := none
  speculativeState : Option StateDescriptor := none
  computeSpent : UInt64 := 0
  memoryHeld : UInt64 := 0
  executionMeasuredNs : UInt64 := 0
  error : ErrorCode := .ok
  detail : String := ""
  deriving DecidableEq, Repr

structure ProposalInput where
  provenance : ProposalProvenance := {}
  baseState : StateRef := {}
  baseGeneration : AuthGeneration := ⟨0⟩
  depth : UInt32 := 0
  branchIndex : UInt32 := 0
  branchCount : UInt32 := 1
  deterministicSeed : UInt64 := 0
  computeBudget : UInt64 := 0
  memoryBudget : UInt64 := 0
  deriving DecidableEq, Repr

structure VerificationInput where
  request : RequestId := ⟨0⟩
  sequence : SequenceId := ⟨0⟩
  attempt : AttemptId := ⟨0⟩
  branch : BranchId := ⟨0⟩
  proposal : ProposalId := ⟨0⟩
  proposalGeneration : ProposalGeneration := ⟨0⟩
  authoritativeGeneration : AuthGeneration := ⟨0⟩
  authoritativeState : StateRef := {}
  authoritativeStateGeneration : StateGeneration := ⟨0⟩
  candidate : CandidateSequence := {}
  candidateIdentity : CandidateTokenIdentity := {}
  proposer : ModelIdentity := {}
  verifier : ModelIdentity := {}
  compatibility : ModelPairCompatibilityKey := {}
  verificationState : StateRef := {}
  dispatch : DispatchId := ⟨0⟩
  epoch : CoordinatorEpoch := ⟨0⟩
  verifierWorker : WorkerId := ⟨0⟩
  verifierBoot : WorkerBootId := ⟨0⟩
  deriving DecidableEq, Repr

inductive AcceptanceOutcome where
  | fullAccept | partialAccept | rejectAll | verifierFailure
  deriving DecidableEq, Repr

structure AcceptanceResult where
  outcome : AcceptanceOutcome := .rejectAll
  candidateLength : UInt32 := 0
  acceptedPrefix : UInt32 := 0
  firstRejectionIndex : UInt32 := 0
  perPosition : List UInt8 := []
  retryable : Bool := false
  terminal : Bool := false
  authoritativeNextGeneration : AuthGeneration := ⟨0⟩
  authoritativeNextState : StateRef := {}
  authoritativeNextStateGeneration : StateGeneration := ⟨0⟩
  executionMeasuredNs : UInt64 := 0
  verifierNote : String := ""
  deriving DecidableEq, Repr

structure CommitResult where
  committedTokens : UInt32 := 0
  acceptedPrefix : UInt32 := 0
  rejectedTokens : UInt32 := 0
  newGeneration : AuthGeneration := ⟨0⟩
  newState : StateRef := {}
  newStateGeneration : StateGeneration := ⟨0⟩
  success : Bool := false
  detail : String := ""
  deriving DecidableEq, Repr

structure RollbackResult where
  rejectedTokens : UInt32 := 0
  acceptedPrefix : UInt32 := 0
  restoredGeneration : AuthGeneration := ⟨0⟩
  restoredState : StateRef := {}
  restoredStateGeneration : StateGeneration := ⟨0⟩
  retiredBranches : UInt32 := 0
  releasedReservations : UInt32 := 0
  success : Bool := false
  detail : String := ""
  deriving DecidableEq, Repr

structure ProposalPlan where
  request : RequestId := ⟨0⟩
  sequence : SequenceId := ⟨0⟩
  attempt : AttemptId := ⟨0⟩
  cycle : CycleId := ⟨0⟩
  branch : BranchId := ⟨0⟩
  proposal : ProposalId := ⟨0⟩
  depth : UInt32 := 0
  branchCount : UInt32 := 1
  proposer : ModelIdentity := {}
  proposerWorker : WorkerId := ⟨0⟩
  dispatch : DispatchId := ⟨0⟩
  rationale : String := ""
  deriving DecidableEq, Repr

inductive LatencyClass where
  | interactive | balanced | throughput
  deriving DecidableEq, Repr

structure ProposalPolicy where
  maxDepth : UInt32 := 4
  maxBranches : UInt32 := 1
  maxCandidateTokensPerProposal : UInt32 := 64
  maxConcurrentProposalsPerSequence : UInt32 := 2
  maxProposerComputeBudget : UInt64 := 0
  maxProposerMemoryBudget : UInt64 := 0
  maxOutstandingSpeculativeWork : UInt32 := 8
  maxSpeculativeDelayNs : UInt64 := 1000000000
  latencyClass : LatencyClass := .balanced
  speculatingEnabled : Bool := true
  tenantMaxSpeculativeBudgetNs : UInt64 := 0
  tenantMaxConcurrentBranches : UInt32 := 0
  minEconomicAcceptanceRatio : Float := 0.0
  adaptiveWindow : UInt32 := 32
  adaptiveDepthEnabled : Bool := true
  deriving DecidableEq, Repr

/- The source calls the initial authoritative tokens `prefix`, a reserved word here. -/
structure SpeculationRequest where
  id : RequestId := ⟨0⟩
  sequence : SequenceId := ⟨0⟩
  tenant : TenantId := ⟨0⟩
  client : ClientId := ⟨0⟩
  targetModel : ModelIdentity := {}
  draftModel : ModelIdentity := {}
  pairKey : ModelPairCompatibilityKey := {}
  prefixTokens : List UInt32 := []
  maxAttempts : UInt32 := 3
  deadlineNs : Option UInt64 := none
  policy : ProposalPolicy := {}
  promptLabel : String := ""
  deriving DecidableEq, Repr

end SpeculationFabric
