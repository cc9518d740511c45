import SpeculationFabric.Records

/-! The speculative cycle's guarded state machine. The table is the source's own,
row by row and in its order; a transition that no row declares is refused and
leaves the phase alone. The engine discards the answer of most applications. -/
namespace SpeculationFabric

inductive SpeculativePhase where
  | ready | proposalPlanned | proposalReserved | proposalDispatched | proposalRunning
  | proposalProduced | verificationPlanned | verificationReserved | verificationDispatched
  | verificationRunning | verified | partiallyAccepted | fullyAccepted | rejected | rolledBack
  | cancelRequested | cancelled | retryPending | superseded | expired | failed | committed
  | terminal
  deriving DecidableEq, Repr

inductive SpeculationEvent where
  | null | planProposal | reserveProposal | dispatchProposal | proposalStarted | proposalFinished
  | proposalRetry | proposalFail | planVerification | reserveVerification | dispatchVerification
  | verificationStarted | verificationFinished | acceptPartial | acceptFull | rejectAll | commit
  | rollback | cancel | retry | supersede | expire | fail | enterTerminal
  deriving DecidableEq, Repr

def SpeculativePhase.toString : SpeculativePhase → String
  | .ready => "Ready"
  | .proposalPlanned => "ProposalPlanned"
  | .proposalReserved => "ProposalReserved"
  | .proposalDispatched => "ProposalDispatched"
  | .proposalRunning => "ProposalRunning"
  | .proposalProduced => "ProposalProduced"
  | .verificationPlanned => "VerificationPlanned"
  | .verificationReserved => "VerificationReserved"
  | .verificationDispatched => "VerificationDispatched"
  | .verificationRunning => "VerificationRunning"
  | .verified => "Verified"
  | .partiallyAccepted => "PartiallyAccepted"
  | .fullyAccepted => "FullyAccepted"
  | .rejected => "Rejected"
  | .rolledBack => "RolledBack"
  | .cancelRequested => "CancelRequested"
  | .cancelled => "Cancelled"
  | .retryPending => "RetryPending"
  | .superseded => "Superseded"
  | .expired => "Expired"
  | .failed => "Failed"
  | .committed => "Committed"
  | .terminal => "Terminal"

def SpeculationEvent.toString : SpeculationEvent → String
  | .null => "Null"
  | .planProposal => "PlanProposal"
  | .reserveProposal => "ReserveProposal"
  | .dispatchProposal => "DispatchProposal"
  | .proposalStarted => "ProposalStarted"
  | .proposalFinished => "ProposalFinished"
  | .proposalRetry => "ProposalRetry"
  | .proposalFail => "ProposalFail"
  | .planVerification => "PlanVerification"
  | .reserveVerification => "ReserveVerification"
  | .dispatchVerification => "DispatchVerification"
  | .verificationStarted => "VerificationStarted"
  | .verificationFinished => "VerificationFinished"
  | .acceptPartial => "AcceptPartial"
  | .acceptFull => "AcceptFull"
  | .rejectAll => "RejectAll"
  | .commit => "Commit"
  | .rollback => "Rollback"
  | .cancel => "Cancel"
  | .retry => "Retry"
  | .supersede => "Supersede"
  | .expire => "Expire"
  | .fail => "Fail"
  | .enterTerminal => "EnterTerminal"

structure Transition where
  source : SpeculativePhase
  event : SpeculationEvent
  target : SpeculativePhase
  deriving DecidableEq, Repr

def transitions : List Transition := [
  -- Proposal phase
  ⟨.ready,.planProposal,.proposalPlanned⟩,
  ⟨.proposalPlanned,.reserveProposal,.proposalReserved⟩,
  ⟨.proposalReserved,.dispatchProposal,.proposalDispatched⟩,
  ⟨.proposalDispatched,.proposalStarted,.proposalRunning⟩,
  ⟨.proposalRunning,.proposalFinished,.proposalProduced⟩,
  ⟨.proposalRunning,.proposalRetry,.retryPending⟩,
  ⟨.proposalRunning,.proposalFail,.failed⟩,
  -- Verification phase
  ⟨.proposalProduced,.planVerification,.verificationPlanned⟩,
  ⟨.verificationPlanned,.reserveVerification,.verificationReserved⟩,
  ⟨.verificationReserved,.dispatchVerification,.verificationDispatched⟩,
  ⟨.verificationDispatched,.verificationStarted,.verificationRunning⟩,
  ⟨.verificationRunning,.verificationFinished,.verified⟩,
  ⟨.verified,.acceptPartial,.partiallyAccepted⟩,
  ⟨.verified,.acceptFull,.fullyAccepted⟩,
  ⟨.verified,.rejectAll,.rejected⟩,
  ⟨.verificationRunning,.proposalRetry,.retryPending⟩,
  ⟨.verificationRunning,.proposalFail,.failed⟩,
  -- Commit / rollback
  ⟨.fullyAccepted,.commit,.committed⟩,
  ⟨.partiallyAccepted,.commit,.committed⟩,
  ⟨.partiallyAccepted,.rollback,.rolledBack⟩,
  ⟨.rejected,.rollback,.rolledBack⟩,
  ⟨.rolledBack,.retry,.ready⟩,
  -- Retry
  ⟨.retryPending,.retry,.ready⟩,
  -- Cancellation
  ⟨.ready,.cancel,.cancelRequested⟩,
  ⟨.proposalPlanned,.cancel,.cancelRequested⟩,
  ⟨.proposalReserved,.cancel,.cancelRequested⟩,
  ⟨.proposalDispatched,.cancel,.cancelRequested⟩,
  ⟨.proposalRunning,.cancel,.cancelRequested⟩,
  ⟨.proposalProduced,.cancel,.cancelRequested⟩,
  ⟨.verificationPlanned,.cancel,.cancelRequested⟩,
  ⟨.verificationDispatched,.cancel,.cancelRequested⟩,
  ⟨.verificationRunning,.cancel,.cancelRequested⟩,
  ⟨.cancelRequested,.expire,.cancelled⟩,
  -- Supersession / expiry / failure
  ⟨.ready,.supersede,.superseded⟩,
  ⟨.proposalPlanned,.supersede,.superseded⟩,
  ⟨.proposalReserved,.supersede,.superseded⟩,
  ⟨.proposalDispatched,.supersede,.superseded⟩,
  ⟨.proposalRunning,.supersede,.superseded⟩,
  ⟨.proposalProduced,.supersede,.superseded⟩,
  ⟨.verificationPlanned,.supersede,.superseded⟩,
  ⟨.verificationDispatched,.supersede,.superseded⟩,
  ⟨.verificationRunning,.supersede,.superseded⟩,
  ⟨.verified,.supersede,.superseded⟩,
  ⟨.retryPending,.supersede,.superseded⟩,
  ⟨.ready,.expire,.expired⟩,
  ⟨.proposalPlanned,.expire,.expired⟩,
  ⟨.proposalReserved,.expire,.expired⟩,
  ⟨.proposalDispatched,.expire,.expired⟩,
  ⟨.proposalRunning,.expire,.expired⟩,
  ⟨.proposalProduced,.expire,.expired⟩,
  ⟨.verificationPlanned,.expire,.expired⟩,
  ⟨.verificationDispatched,.expire,.expired⟩,
  ⟨.verificationRunning,.expire,.expired⟩,
  ⟨.retryPending,.expire,.expired⟩,
  ⟨.ready,.fail,.failed⟩,
  ⟨.proposalPlanned,.fail,.failed⟩,
  ⟨.proposalReserved,.fail,.failed⟩,
  ⟨.proposalDispatched,.fail,.failed⟩,
  ⟨.proposalRunning,.fail,.failed⟩,
  ⟨.verificationRunning,.fail,.failed⟩,
  ⟨.partiallyAccepted,.fail,.failed⟩,
  ⟨.rejected,.fail,.failed⟩,
  -- Terminal absorb
  ⟨.committed,.enterTerminal,.terminal⟩,
  ⟨.rolledBack,.enterTerminal,.terminal⟩,
  ⟨.cancelled,.enterTerminal,.terminal⟩,
  ⟨.superseded,.enterTerminal,.terminal⟩,
  ⟨.expired,.enterTerminal,.terminal⟩,
  ⟨.failed,.enterTerminal,.terminal⟩]

def isTerminalPhase : SpeculativePhase → Bool
  | .terminal | .committed | .cancelled | .expired | .superseded | .failed => true
  | _ => false

def transitionTarget (source : SpeculativePhase) (event : SpeculationEvent) : Option SpeculativePhase :=
  (transitions.find? (fun t => t.source == source && t.event == event)).map Transition.target

def transitionDeclared (source : SpeculativePhase) (event : SpeculationEvent) : Bool :=
  (transitionTarget source event).isSome

structure SpeculativeStateMachine where
  phase : SpeculativePhase := .ready
  deriving DecidableEq, Repr

def SpeculativeStateMachine.apply (m : SpeculativeStateMachine) (event : SpeculationEvent)
    (guard : Bool := true) (guardError : ErrorCode := .invalidTransition) (guardMessage : String := "") :
    Result SpeculativePhase × SpeculativeStateMachine :=
  if !transitionDeclared m.phase event then
    (Result.err .invalidTransition
      (m.phase.toString ++ " --" ++ event.toString ++ "--> (undeclared)"),m)
  else if !guard then
    (Result.err guardError ("guard blocked " ++ event.toString ++
      (if guardMessage.isEmpty then "" else ": " ++ guardMessage)),m)
  else match transitionTarget m.phase event with
    | none => (Result.err .internal "declared transition resolved to null",m)
    | some next => (.ok next,⟨next⟩)

/- The engine fires its bookkeeping events without looking at the answers. -/
def SpeculativeStateMachine.applyAll (m : SpeculativeStateMachine) (events : List SpeculationEvent) :
    SpeculativeStateMachine :=
  events.foldl (fun machine event => (machine.apply event).2) m

end SpeculationFabric
