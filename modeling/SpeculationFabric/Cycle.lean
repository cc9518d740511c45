import SpeculationFabric.Fabric

/-! The critical sections of `run_cycle`: planning, one proposal input or one
verification input at a time, and settlement. The lock is free between them and
nothing read in one section is checked again in a later one. A read the language
leaves undefined (an absent candidate, a token past the end) has no answer here. -/
namespace SpeculationFabric

inductive CycleOutcomeKind where
  | proposalSuccess | proposalRetryableFailure | proposalNonRetryableFailure
  | verificationSuccessFullAccept | verificationSuccessPartialAccept | verificationRejectAll
  | verificationRetryableFailure | verificationNonRetryableFailure
  | cancelled | expired | staleAuthorityRejected | superseded
  deriving DecidableEq, Repr

structure CycleOutcome where
  outcome : CycleOutcomeKind := .proposalSuccess
  phase : SpeculativePhase := .ready
  acceptance : AcceptanceOutcome := .rejectAll
  commit : CommitResult := {}
  rollback : RollbackResult := {}
  proposal : ProposalId := ⟨0⟩
  branch : BranchId := ⟨0⟩
  proposedTokens : UInt32 := 0
  acceptedTokens : UInt32 := 0
  rejectedTokens : UInt32 := 0
  depth : UInt32 := 0
  summary : String := ""
  error : ErrorCode := .ok
  deriving DecidableEq, Repr

structure Planned where
  plan : ProposalPlan
  depth : UInt32
  branchCount : UInt32
  deriving DecidableEq, Repr

def activeReservationBytes (rs : RequestState) : UInt32 :=
  rs.reservations.foldl (fun total r => if r.isActive then total + r.bytes.toUInt32 else total) 0

def Stats.acceptanceRatio (s : Stats) : Float :=
  if s.tokensProposed = 0 then 1.0 else s.tokensAccepted.toFloat / s.tokensProposed.toFloat

def deadlinePassed (rs : RequestState) (now : UInt64) : Bool :=
  match rs.req.deadlineNs with
  | some deadline => decide (now > deadline)
  | none => false

def Fabric.backpressure (f : Fabric) (rs : RequestState) : BackpressureDecision :=
  f.scheduler.checkBackpressure rs.req (UInt32.ofNat rs.branches.length) (UInt32.ofNat rs.proposals.length)
    (if activeReservationBytes rs ≠ 0 then 0 else 1) f.stats.acceptanceRatio

def pairDecision (rs : RequestState) : ModelPairCompatibilityDecision :=
  evaluateCompatibility { proposer := rs.req.draftModel, verifier := rs.req.targetModel, protocolVersion := 1 }

/- A finished machine starts over; the reset is kept on every later exit. -/
def RequestState.refreshed (rs : RequestState) : RequestState :=
  { rs with cycle := if isTerminalPhase rs.cycle.phase then ⟨.ready⟩ else rs.cycle }

def incompatibleSummary (d : ModelPairCompatibilityDecision) : String :=
  "incompatible pair: " ++ (match d.reasons with
    | [] => "unspecified"
    | reason :: _ => reason.detail)

def Fabric.admitCycle (f : Fabric) (eventNow : UInt64) (id : RequestId) (rs : RequestState) :
    (Result CycleOutcome ⊕ Planned) × Fabric :=
  let compat := pairDecision rs
  if !compat.compatible then
    let summary := incompatibleSummary compat
    (.inl (.ok { outcome := .proposalNonRetryableFailure, error := .incompatibleModelPair, summary := summary }),
      f.update eventNow id rs f.stats "cycle.incompatible" summary)
  else
    let bp := f.backpressure rs
    if bp.blocked then
      (.inl (.ok { outcome := .proposalNonRetryableFailure, summary := "bypassed: " ++ bp.detail }),
        f.update eventNow id rs { f.stats with speculationBypasses := f.stats.speculationBypasses + 1 }
          "cycle.bypass" bp.detail)
    else
      let plan := f.scheduler.planProposal rs.req rs.authGen 0 0 0.0
      if !f.cfg.proposer || !f.cfg.verifier then
        (.inl (.ok {
          outcome := .proposalNonRetryableFailure
          error := .notImplemented
          summary := "no proposer/verifier executor registered" }),f.store id rs)
      else
        let rs := { rs with
          cycle := rs.cycle.applyAll [.planProposal,.reserveProposal,.dispatchProposal] }
        (.inr ⟨plan,max 1 plan.depth,max 1 plan.branchCount⟩,f.store id rs)

def Fabric.planCycle (f : Fabric) (now eventNow : UInt64) (id : RequestId) :
    (Result CycleOutcome ⊕ Planned) × Fabric :=
  match f.find id with
  | none => (.inl (Result.err .notFound "unknown request"),f)
  | some rs =>
    if rs.terminal then (.inl (.ok { outcome := .superseded, phase := .superseded }),f)
    else if rs.cancelled then (.inl (.ok { outcome := .cancelled, phase := .cancelled }),f)
    else if deadlinePassed rs now then
      (.inl (.ok { outcome := .expired, phase := .expired }),
        f.pushEvent eventNow id "cycle.expired" "deadline passed" "\x7b\x7d")
    else f.admitCycle eventNow id rs.refreshed

def branchIdAt (b : UInt32) : BranchId := ⟨(b + 1).toUInt64⟩

def proposalInput (rs : RequestState) (id : RequestId) (p : Planned) (b : UInt32) : ProposalInput :=
  { baseState := rs.authState
    baseGeneration := rs.authGen
    depth := p.depth
    branchIndex := b
    branchCount := p.branchCount
    deterministicSeed := rs.req.id.value ^^^ (rs.attempt.value * 0x100000001B3)
    provenance := {
      epoch := rs.epoch
      request := id
      sequence := rs.req.sequence
      attempt := rs.attempt
      branch := branchIdAt b
      cycle := ⟨(rs.completedCycles + 1).toUInt64⟩
      proposerModel := rs.req.draftModel
      baseGeneration := rs.authGen
      dispatch := p.plan.dispatch } }

structure BranchResult where
  pr : ProposalResult := {}
  branch : BranchId := ⟨0⟩
  proposerModel : ModelIdentity := {}
  deriving DecidableEq, Repr

def verificationInput (rs : RequestState) (id : RequestId) (p : Planned) (br : BranchResult)
    (candidate : CandidateSequence) : VerificationInput :=
  { request := id
    sequence := rs.req.sequence
    attempt := rs.attempt
    branch := br.branch
    candidate := candidate
    candidateIdentity := { tokenizer := rs.req.draftModel.tokenizer.id, vocabSize := 4096 }
    proposer := br.proposerModel
    verifier := rs.req.targetModel
    compatibility := { proposer := br.proposerModel, verifier := rs.req.targetModel, protocolVersion := 1 }
    authoritativeState := rs.authState
    authoritativeGeneration := rs.authGen
    authoritativeStateGeneration := rs.authStateGen
    dispatch := p.plan.dispatch
    epoch := rs.epoch }

/- The locals of one `run_cycle` call. The inputs are kept for reference: the
source drops each one when its executor call returns. -/
structure Cycle where
  request : RequestId
  planned : Planned
  pins : List ProposalInput := []
  proposed : List BranchResult := []
  vins : List VerificationInput := []
  accepted : List AcceptanceResult := []
  deriving DecidableEq, Repr

def betterBranch (accepted : List AcceptanceResult) (proposed : List BranchResult) (winner i : Nat) : Nat :=
  let challenger := accepted.getD i {}
  let best := accepted.getD winner {}
  if challenger.acceptedPrefix > best.acceptedPrefix then i
  else if challenger.acceptedPrefix = best.acceptedPrefix ∧
      (proposed.getD i {}).branch.value < (proposed.getD winner {}).branch.value then i
  else winner

def selectWinner (accepted : List AcceptanceResult) (proposed : List BranchResult) : Nat :=
  (List.range' 1 (accepted.length - 1)).foldl (betterBranch accepted proposed) 0

def retireFirst (id : BranchId) : List Branch → List Branch
  | [] => []
  | b :: rest => if b.id = id then { b with retired := true } :: rest else b :: retireFirst id rest

def newBranch (rs : RequestState) (br : BranchResult) (keep : BranchId) : Branch :=
  { id := br.branch
    request := rs.req.id
    sequence := rs.req.sequence
    attempt := rs.attempt
    cycle := ⟨(rs.completedCycles + 1).toUInt64⟩
    baseGeneration := rs.authGen
    proposer := rs.req.draftModel
    retired := decide (br.branch ≠ keep) }

/- One round of the loop over the proposed branches. A branch that is both new and
losing passes both counting sites. -/
def recordBranch (rs : RequestState) (keep : BranchId) (acc : List Branch × UInt64) (br : BranchResult) :
    List Branch × UInt64 :=
  let (branches,losers) := acc
  let (branches,losers) :=
    if branches.any (fun b => b.id == br.branch) then (branches,losers)
    else (branches ++ [newBranch rs br keep],if br.branch ≠ keep then losers + 1 else losers)
  if br.branch ≠ keep then
    (retireFirst br.branch branches,
      if branches.any (fun b => b.id == br.branch) then losers + 1 else losers)
  else (branches,losers)

def retireOthers (rs : RequestState) (proposed : List BranchResult) (keep : BranchId)
    (acceptedPrefix rejectedTokens : UInt32) : RollbackResult × RequestState :=
  let (branches,losers) := proposed.foldl (recordBranch rs keep) (rs.branches,0)
  ({ acceptedPrefix := acceptedPrefix
     rejectedTokens := rejectedTokens
     restoredGeneration := rs.authGen
     restoredState := rs.authState
     restoredStateGeneration := rs.authStateGen
     success := true
     retiredBranches := losers.toUInt32
     releasedReservations := UInt32.ofNat (rs.reservations.countP Reservation.isActive) },
    { rs with branches := branches, reservations := rs.reservations.map release })

def settledProposal (rs : RequestState) (id : RequestId) (branch : BranchId) (pr : ProposalResult)
    (candidate : CandidateSequence) (acceptedPrefix : UInt32) : Proposal :=
  { id := ⟨UInt64.ofNat (rs.proposals.length + 1)⟩
    generation := ⟨(rs.completedCycles + 1).toUInt64⟩
    provenance := {
      epoch := rs.epoch
      request := id
      sequence := rs.req.sequence
      attempt := rs.attempt
      branch := branch }
    candidate := candidate
    tokenIdentity := { tokenizer := rs.req.draftModel.tokenizer.id, vocabSize := 4096 }
    baseState := rs.authState
    baseStateGeneration := rs.authStateGen
    speculativeState := (pr.speculativeState.getD {}).ref
    computeSpent := pr.computeSpent
    memoryHeld := pr.memoryHeld
    finalized := true
    eligibleForVerification := true
    committed := decide (acceptedPrefix > 0) }

/- The commit loop reads `tokens[0..n)`; past the end there is nothing to read. -/
def readTokens (candidate : CandidateSequence) (n : UInt32) : Option (List UInt32) :=
  if n.toNat ≤ candidate.size then some ((candidate.tokens.take n.toNat).map Token.id) else none

def commitTokens (rs : RequestState) (tokens : List UInt32) (count : UInt32) : RequestState :=
  let generation : StateGeneration := ⟨rs.authState.generation.value + count.toUInt64⟩
  { rs with
    committed := rs.committed ++ tokens
    authGen := ⟨rs.authGen.value + count.toUInt64⟩
    authState := { rs.authState with generation := generation }
    authStateGen := generation }

def CycleOutcome.withPhase (o : CycleOutcome) : Result SpeculativePhase → CycleOutcome
  | .ok phase => { o with phase := phase }
  | .error _ => o

def settleAccepted (rs : RequestState) (proposed : List BranchResult) (keep : BranchId)
    (candidate : CandidateSequence) (prop : Proposal) (outcome : CycleOutcome) (event : SpeculationEvent)
    (kind : CycleOutcomeKind) (acceptedPrefix rejectedTokens : UInt32) : Option (CycleOutcome × RequestState) := do
  let tokens ← readTokens candidate acceptedPrefix
  let rs := commitTokens rs tokens acceptedPrefix
  let rs := { rs with proposals := rs.proposals ++ [prop], cycle := (rs.cycle.apply event).2 }
  let (answer,machine) := rs.cycle.apply .commit
  let rs := { rs with cycle := machine }
  let (rb,rs) := retireOthers rs proposed keep acceptedPrefix rejectedTokens
  some ({ outcome.withPhase answer with
    rollback := rb
    outcome := kind
    commit := {
      success := true
      committedTokens := acceptedPrefix
      acceptedPrefix := acceptedPrefix
      rejectedTokens := rejectedTokens
      newGeneration := rs.authGen
      newState := rs.authState
      newStateGeneration := rs.authStateGen }
    acceptedTokens := acceptedPrefix
    rejectedTokens := rejectedTokens },rs)

def settleRejected (rs : RequestState) (proposed : List BranchResult) (keep : BranchId) (prop : Proposal)
    (outcome : CycleOutcome) (acceptedPrefix rejectedTokens candidateLen : UInt32) : CycleOutcome × RequestState :=
  let rs := { rs with proposals := rs.proposals ++ [prop], cycle := (rs.cycle.apply .rejectAll).2 }
  let (answer,machine) := rs.cycle.apply .rollback
  let rs := { rs with cycle := machine }
  let (rb,rs) := retireOthers rs proposed keep acceptedPrefix rejectedTokens
  ({ outcome.withPhase answer with
    rollback := rb
    outcome := .verificationRejectAll
    acceptedTokens := 0
    rejectedTokens := candidateLen },rs)

def settleBranch (rs : RequestState) (proposed : List BranchResult) (keep : BranchId)
    (candidate : CandidateSequence) (prop : Proposal) (outcome : CycleOutcome)
    (acceptedPrefix rejectedTokens candidateLen : UInt32) : Option (CycleOutcome × RequestState) :=
  if acceptedPrefix = candidateLen then
    settleAccepted rs proposed keep candidate prop outcome .acceptFull .verificationSuccessFullAccept acceptedPrefix 0
  else if acceptedPrefix > 0 then
    settleAccepted rs proposed keep candidate prop outcome .acceptPartial .verificationSuccessPartialAccept
      acceptedPrefix rejectedTokens
  else some (settleRejected rs proposed keep prop outcome acceptedPrefix rejectedTokens candidateLen)

def settlementCounts (s : Stats) (kind : CycleOutcomeKind) : Stats :=
  match kind with
  | .verificationSuccessFullAccept => { s with fullAcceptCount := s.fullAcceptCount + 1 }
  | .verificationSuccessPartialAccept =>
      { s with partialAcceptCount := s.partialAcceptCount + 1, rollbackCount := s.rollbackCount + 1 }
  | _ => { s with fullRejectCount := s.fullRejectCount + 1, rollbackCount := s.rollbackCount + 1 }

def settlementDetail : CycleOutcomeKind → String
  | .verificationSuccessFullAccept => "full accept"
  | .verificationSuccessPartialAccept => "partial accept"
  | _ => "reject all"

def settlementStats (s : Stats) (kind : CycleOutcomeKind) (candidateLen acceptedPrefix rejectedTokens : UInt32) :
    Stats :=
  let s := settlementCounts s kind
  { s with
    tokensProposed := s.tokensProposed + candidateLen.toUInt64
    tokensAccepted := s.tokensAccepted + acceptedPrefix.toUInt64
    tokensRejected := s.tokensRejected + rejectedTokens.toUInt64
    speculativeCyclesStarted := s.speculativeCyclesStarted + 1
    proposalsProduced := s.proposalsProduced + 1
    verificationsRun := s.verificationsRun + 1 }

def acceptedRatio (acceptedPrefix candidateLen : UInt32) : Float :=
  if candidateLen = 0 then 0.0 else acceptedPrefix.toFloat / candidateLen.toFloat

def Fabric.settleStale (f : Fabric) (now : UInt64) (id : RequestId) (rs : RequestState) :
    Result CycleOutcome × Fabric :=
  let summary := "authority changed while speculative work was in flight"
  let f := { f with stats := { f.stats with proposalsRejectedStale := f.stats.proposalsRejectedStale + 1 } }
  (.ok {
    outcome := .staleAuthorityRejected
    error := if rs.terminal then .completionAfterTerminal else .completionAfterCancellation
    summary := summary },f.pushEvent now id "cycle.stale" summary "\x7b\x7d")

def Fabric.conclude (f : Fabric) (now : UInt64) (id : RequestId) (rs : RequestState) (kind : CycleOutcomeKind)
    (candidateLen acceptedPrefix rejectedTokens : UInt32) : Fabric :=
  let rs := { rs with cycle := ⟨.ready⟩, completedCycles := rs.completedCycles + 1 }
  let f := { f with scheduler := { f.scheduler with
    adaptive := f.scheduler.adaptive.record (acceptedRatio acceptedPrefix candidateLen) } }
  f.update now id rs (settlementStats f.stats kind candidateLen acceptedPrefix rejectedTokens)
    "cycle.completed" (settlementDetail kind)

def Fabric.settle (f : Fabric) (now : UInt64) (c : Cycle) : Option (Result CycleOutcome × Fabric) :=
  match f.find c.request with
  | none => some (Result.err .notFound "unknown request",f)
  | some rs =>
    if rs.terminal || rs.cancelled then some (f.settleStale now c.request rs)
    else do
      let winner := selectWinner c.accepted c.proposed
      let won ← c.proposed[winner]?
      let accept ← c.accepted[winner]?
      let candidate ← won.pr.candidate
      let candidateLen := UInt32.ofNat candidate.size
      let acceptedPrefix := accept.acceptedPrefix
      let rejectedTokens := candidateLen - acceptedPrefix
      let prop := settledProposal rs c.request won.branch won.pr candidate acceptedPrefix
      let outcome : CycleOutcome := {
        proposal := prop.id
        branch := won.branch
        depth := c.planned.depth
        proposedTokens := candidateLen }
      let rs := { rs with cycle := rs.cycle.applyAll [.proposalFinished,.planVerification,
        .reserveVerification,.dispatchVerification,.verificationFinished] }
      let (outcome,rs) ← settleBranch rs c.proposed won.branch candidate prop outcome
        acceptedPrefix rejectedTokens candidateLen
      some (.ok outcome,f.conclude now c.request rs outcome.outcome candidateLen acceptedPrefix rejectedTokens)

end SpeculationFabric
