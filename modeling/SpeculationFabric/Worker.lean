import SpeculationFabric.CpuProposer
import SpeculationFabric.Wire

/-! The field layout of the distributed control plane and the worker process behind
it. A worker holds nothing between frames, and both roles serve both dispatches. A
field that is not there, or an answer that does not encode, has no defined outcome. -/
namespace SpeculationFabric.Dist

open Wire

def kRoleProposer : UInt32 := 1
def kRoleVerifier : UInt32 := 2
def kRoleDriver : UInt32 := 3

def kOutcomeSuccess : UInt32 := 0
def kOutcomeRetryable : UInt32 := 1
def kOutcomeNonRetryable : UInt32 := 2

def kAccFull : UInt32 := 0
def kAccPartial : UInt32 := 1
def kAccReject : UInt32 := 2
def kAccFailure : UInt32 := 3

def pdRequest : Nat := 0
def pdSequence : Nat := 1
def pdAttempt : Nat := 2
def pdEpoch : Nat := 3
def pdBaseStateId : Nat := 4
def pdBaseStateGen : Nat := 5
def pdBaseGen : Nat := 6
def pdProposerRev : Nat := 7
def pdDispatch : Nat := 8
def pdBranch : Nat := 9
def pdProposerBoot : Nat := 10
def pdPropogen : Nat := 11

def pdDepth : Nat := 0
def pdAligned : Nat := 1
def pdBranchCount : Nat := 2

def prRequest : Nat := 0
def prAttempt : Nat := 2
def prEpoch : Nat := 3
def prBaseGen : Nat := 6
def prProposerBoot : Nat := 7
def prPropogen : Nat := 9

def prOutcome : Nat := 0
def prTokens : Nat := 2

def vdRequest : Nat := 0
def vdSequence : Nat := 1
def vdAttempt : Nat := 2
def vdEpoch : Nat := 3
def vdStateId : Nat := 4
def vdStateGen : Nat := 5
def vdBaseGen : Nat := 6
def vdProposerRev : Nat := 7
def vdDispatch : Nat := 8
def vdProposerBoot : Nat := 9

def vdTokenizer : Nat := 0
def vdVocab : Nat := 1
def vdLen : Nat := 2
def vdTokens : Nat := 3

def vrRequest : Nat := 0
def vrAttempt : Nat := 2
def vrEpoch : Nat := 3
def vrBaseGen : Nat := 4
def vrDispatch : Nat := 5

def vrOutcome : Nat := 0
def vrAccepted : Nat := 1
def vrFirstRej : Nat := 3

/- A loop that reads `count` consecutive fields; it reads none when there is none to read. -/
def readFields (fields : List UInt32) (start count : Nat) : Option (List UInt32) :=
  if count = 0 ∨ start + count ≤ fields.length then some ((fields.drop start).take count) else none

def outcomeCode (pr : ProposalResult) : UInt32 :=
  if pr.outcome = .success then kOutcomeSuccess
  else if pr.outcome = .retryableFailure then kOutcomeRetryable
  else kOutcomeNonRetryable

def acceptanceCode : AcceptanceOutcome → UInt32
  | .fullAccept => kAccFull
  | .partialAccept => kAccPartial
  | .rejectAll => kAccReject
  | .verifierFailure => kAccFailure

def proposalInputOf (m : Message) : Option ProposalInput := do
  let request ← m.u64Fields[pdRequest]?
  let sequence ← m.u64Fields[pdSequence]?
  let attempt ← m.u64Fields[pdAttempt]?
  let epoch ← m.u64Fields[pdEpoch]?
  let stateId ← m.u64Fields[pdBaseStateId]?
  let stateGen ← m.u64Fields[pdBaseStateGen]?
  let baseGen ← m.u64Fields[pdBaseGen]?
  let revision ← m.u64Fields[pdProposerRev]?
  let dispatch ← m.u64Fields[pdDispatch]?
  let branch ← m.u64Fields[pdBranch]?
  let boot ← m.u64Fields[pdProposerBoot]?
  let depth ← m.u32Fields[pdDepth]?
  let branchCount ← m.u32Fields[pdBranchCount]?
  some {
    baseState := ⟨⟨stateId⟩,⟨stateGen⟩⟩
    baseGeneration := ⟨baseGen⟩
    depth := depth
    branchIndex := branch.toUInt32
    branchCount := branchCount
    deterministicSeed := dispatch ^^^ attempt
    provenance := {
      epoch := ⟨epoch⟩
      request := ⟨request⟩
      sequence := ⟨sequence⟩
      attempt := ⟨attempt⟩
      branch := ⟨branch + 1⟩
      proposerModel := { revision := ⟨revision⟩ }
      proposerBoot := ⟨boot⟩
      baseGeneration := ⟨baseGen⟩
      dispatch := ⟨dispatch⟩ } }

def candidateFields (depth : UInt32) : Option CandidateSequence → List UInt32
  | some candidate => candidate.tokens.map Token.id
  | none => List.replicate depth.toNat 0

/- The authority the worker copies back is the dispatch's, its own boot included. -/
def proposalAnswer (m : Message) : Option Message := do
  let aligned ← m.u32Fields[pdAligned]?
  let input ← proposalInputOf m
  let propogen ← m.u64Fields[pdPropogen]?
  match CpuProposer.propose { alignedTokens := aligned } input with
  | .error _ => none
  | .ok r =>
      let p := input.provenance
      some {
        type := Msg.proposalResult
        u64Fields := [p.request.value,p.sequence.value,p.attempt.value,p.epoch.value,p.dispatch.value,
          (← m.u64Fields[pdBranch]?),p.baseGeneration.value,p.proposerBoot.value,
          p.proposerModel.revision.value,propogen,r.executionMeasuredNs]
        u32Fields := outcomeCode r :: input.depth :: candidateFields input.depth r.candidate }

def verificationInputOf (m : Message) : Option VerificationInput := do
  let request ← m.u64Fields[vdRequest]?
  let sequence ← m.u64Fields[vdSequence]?
  let attempt ← m.u64Fields[vdAttempt]?
  let epoch ← m.u64Fields[vdEpoch]?
  let stateId ← m.u64Fields[vdStateId]?
  let stateGen ← m.u64Fields[vdStateGen]?
  let baseGen ← m.u64Fields[vdBaseGen]?
  let revision ← m.u64Fields[vdProposerRev]?
  let dispatch ← m.u64Fields[vdDispatch]?
  let boot ← m.u64Fields[vdProposerBoot]?
  let tokenizer ← m.u32Fields[vdTokenizer]?
  let vocab ← m.u32Fields[vdVocab]?
  let len ← m.u32Fields[vdLen]?
  let tokens ← readFields m.u32Fields vdTokens len.toNat
  some {
    authoritativeState := ⟨⟨stateId⟩,⟨stateGen⟩⟩
    authoritativeGeneration := ⟨baseGen⟩
    epoch := ⟨epoch⟩
    request := ⟨request⟩
    sequence := ⟨sequence⟩
    attempt := ⟨attempt⟩
    dispatch := ⟨dispatch⟩
    verifierBoot := ⟨boot⟩
    authoritativeStateGeneration := ⟨stateGen⟩
    proposer := { revision := ⟨revision⟩ }
    candidateIdentity := { tokenizer := ⟨tokenizer.toUInt64⟩, vocabSize := vocab }
    candidate := ⟨tokens.map fun id => { id := id }⟩ }

def verdictFields (len : UInt32) : Result AcceptanceResult → List UInt32
  | .ok r => [acceptanceCode r.outcome,r.acceptedPrefix,len,r.firstRejectionIndex]
  | .error _ => [kAccFailure,0,len,len]

def verificationAnswer (m : Message) : Option Message := do
  let input ← verificationInputOf m
  let len ← m.u32Fields[vdLen]?
  some {
    type := Msg.verificationResult
    u64Fields := [input.request.value,input.sequence.value,input.attempt.value,input.epoch.value,
      input.authoritativeGeneration.value,input.dispatch.value,input.authoritativeState.id.value,
      input.authoritativeState.generation.value]
    u32Fields := verdictFields len (verify input) }

inductive Served where
  | ignored | stopped | undefined
  | sent (frame : List UInt8)
  deriving DecidableEq, Repr

def sentFrame : Option Message → Served
  | none => .undefined
  | some out =>
      match encode out with
      | .error _ => .undefined
      | .ok frame => .sent frame

def serve (frame : List UInt8) : Served :=
  match decode frame with
  | .error _ => .ignored
  | .ok m =>
      if m.type = Msg.shutdown then .stopped
      else if m.type = Msg.proposalDispatch then sentFrame (proposalAnswer m)
      else if m.type = Msg.verificationDispatch then sentFrame (verificationAnswer m)
      else .ignored

end SpeculationFabric.Dist
