import SpeculationFabric.CudaKernels
import SpeculationFabric.BranchDrafts

/-! The host halves of the CUDA executors: select the device, allocate, copy in, launch,
copy back. What the runtime answers is a record with one field for each call, so every
failure path is here. Against the CPU executors two things are missing: the proposer
reads neither the input's branch nor its budget, and the verifier takes any tokenizer
and vocabulary. -/
namespace SpeculationFabric.Cuda

def mix64 (a b c d : UInt64) : UInt64 :=
  let x := (a * 0x9E3779B97F4A7C15) ^^^ b
  let x := (x ^^^ (x >>> 27)) * 0xBF58476D1CE4E5B9
  let x := (x ^^^ (x >>> 31)) * 0x94D049BB133111EB
  let x := (x ^^^ (x >>> 27)) + c * 0x9E3779B97F4A7C15
  let x := x ^^^ d
  let x := (x ^^^ (x >>> 30)) * 0xBF58476D1CE4E5B9
  let x := (x ^^^ (x >>> 29)) * 0x94D049BB133111EB
  x ^^^ (x >>> 32)

structure CudaProposerExecutor where
  alignedTokens : UInt32 := 0
  branchIndex : UInt32 := 0
  deriving DecidableEq, Repr

/- What the runtime answers in `propose`. An allocation succeeds when it leaves a pointer; the last error is the
text `cudaGetErrorString` has for it. -/
structure ProposeCalls where
  setDevice : Bool := true
  dw : Bool := true
  db : Bool := true
  dstate : Bool := true
  dtok : Bool := true
  copyW : Bool := true
  copyB : Bool := true
  lastError : Option String := none
  copyTokens : Bool := true
  deriving DecidableEq, Repr

def proposeSeed (input : ProposalInput) : UInt64 :=
  let base := (input.baseState.id.value * 0x9E3779B97F4A7C15) ^^^
    (input.baseState.generation.value * 0x94D049BB133111EB)
  mix64 base input.baseGeneration.value input.provenance.proposerModel.revision.value
    (input.depth.toUInt64 * 0x100000001B3)

def proposeFailure (error : ErrorCode) (detail : String) : Result ProposalResult :=
  .ok { error := error, detail := detail }

def CudaProposerExecutor.propose (calls : ProposeCalls) (dtok : Nat → UInt32) (input : ProposalInput) :
    Result ProposalResult :=
  if input.depth = 0 then proposeFailure .invalidZeroDepth "proposal depth must be positive"
  else if input.depth > 256 then proposeFailure .invalidDepth "proposal depth exceeds CUDA bound"
  else if !calls.setDevice then proposeFailure .incompatibleDevice "could not select CUDA device 0"
  else if !calls.dw || !calls.db || !calls.dstate || !calls.dtok then
    proposeFailure .internal "CUDA device allocation failed"
  else if !calls.copyW || !calls.copyB then proposeFailure .internal "CUDA copy to device failed"
  else match calls.lastError with
    | some text => proposeFailure .internal ("CUDA proposer kernel failed: " ++ text)
    | none =>
        if !calls.copyTokens then proposeFailure .internal "CUDA copy from device failed"
        else
          let bytesHeld := input.depth.toUInt64 * 64
          .ok {
            outcome := .success
            candidate := some ⟨(List.range input.depth.toNat).map (fun i => { id := dtok i })⟩
            speculativeState := some {
              ref := { input.baseState with generation := ⟨input.baseState.generation.value + 1⟩ }
              role := .speculative
              reservation := .used
              owner := .proposal
              bytesHeld := bytesHeld }
            computeSpent := input.depth.toUInt64 * 4
            memoryHeld := bytesHeld
            executionMeasuredNs := input.depth.toUInt64 * 2
            detail := "cuda-proposer produced " ++ toString input.depth ++ " tokens" }

def CudaProposerExecutor.Proposes (executor : CudaProposerExecutor) (calls : ProposeCalls) (input : ProposalInput)
    (m : BlockMemory (Nat → UInt32)) (answer : Result ProposalResult) : Prop :=
  ∃ m', Barrier.Executes block (proposeKernel buildTarget.1 buildTarget.2 (proposeSeed input) input.depth kVocab
    executor.alignedTokens executor.branchIndex) m m' ∧ answer = propose calls m'.out input

structure VerifyCalls where
  setDevice : Bool := true
  dw : Bool := true
  db : Bool := true
  dcand : Bool := true
  dstate : Bool := true
  dper : Bool := true
  dacc : Bool := true
  dfrej : Bool := true
  copyW : Bool := true
  copyB : Bool := true
  copyCand : Bool := true
  lastError : Option String := none
  copyPer : Bool := true
  copyAcc : Bool := true
  copyFrej : Bool := true
  deriving DecidableEq, Repr

def verifySeed (input : VerificationInput) : UInt64 :=
  let base := (input.authoritativeState.id.value * 0x9E3779B97F4A7C15) ^^^
    (input.authoritativeState.generation.value * 0x94D049BB133111EB)
  mix64 base input.authoritativeGeneration.value input.proposer.revision.value
    (UInt64.ofNat input.candidate.size * 0x100000001B3)

def verifyFailure (input : VerificationInput) (retryable : Bool) (note : String) : Result AcceptanceResult :=
  .ok {
    outcome := .verifierFailure
    candidateLength := UInt32.ofNat input.candidate.size
    retryable := retryable
    verifierNote := note }

def CudaVerifierExecutor.verify (calls : VerifyCalls) (verdict : Verdict) (input : VerificationInput) :
    Result AcceptanceResult :=
  if input.candidate.tokens.isEmpty then verifyFailure input true "candidate is empty"
  else if !calls.setDevice then verifyFailure input false "could not select CUDA device 0"
  else if !calls.dw || !calls.db || !calls.dcand || !calls.dstate || !calls.dper || !calls.dacc || !calls.dfrej then
    verifyFailure input false "CUDA device allocation failed"
  else if !calls.copyW || !calls.copyB || !calls.copyCand then verifyFailure input false "CUDA copy to device failed"
  else match calls.lastError with
    | some text => verifyFailure input false ("CUDA verifier kernel failed: " ++ text)
    | none =>
        if !calls.copyPer || !calls.copyAcc || !calls.copyFrej then
          verifyFailure input false "CUDA copy from device failed"
        else
          let len := UInt32.ofNat input.candidate.size
          let accepted := verdict.accepted
          let generation : StateGeneration := ⟨input.authoritativeState.generation.value + accepted.toUInt64⟩
          .ok {
            outcome := if accepted = len then .fullAccept else if accepted = 0 then .rejectAll else .partialAccept
            candidateLength := len
            acceptedPrefix := accepted
            firstRejectionIndex := verdict.firstrej
            perPosition := (List.range len.toNat).map (fun i => (verdict.perpos i).toUInt8)
            authoritativeNextGeneration := ⟨input.authoritativeGeneration.value + accepted.toUInt64⟩
            authoritativeNextState := { input.authoritativeState with generation := generation }
            authoritativeNextStateGeneration := generation
            executionMeasuredNs := len.toUInt64 * 2
            verifierNote := "cuda-verifier accepted " ++ toString accepted ++ "/" ++ toString len }

def CudaVerifierExecutor.Verifies (calls : VerifyCalls) (input : VerificationInput) (m : BlockMemory Verdict)
    (answer : Result AcceptanceResult) : Prop :=
  ∃ m', Barrier.Executes block (verifyKernel buildTarget.1 buildTarget.2
    ((input.candidate.tokens.take (UInt32.ofNat input.candidate.size).toNat).map Token.id) (verifySeed input)
    (UInt32.ofNat input.candidate.size) kVocab) m m' ∧ answer = verify calls m'.out input

theorem proposeSeedSame (input : ProposalInput) : proposeSeed input = CpuProposer.draftSeed input := rfl

structure SameProposal (one other : ProposalResult) : Prop where
  outcome : one.outcome = other.outcome
  error : one.error = other.error
  candidate : one.candidate = other.candidate

def ProposeAlike (answer other : Result ProposalResult) : Prop :=
  ∃ pr pr', answer = .ok pr ∧ other = .ok pr' ∧ SameProposal pr pr'

theorem proposeAlikeOk (pr pr' : ProposalResult) : ProposeAlike (.ok pr) (.ok pr') ↔ SameProposal pr pr' := by
  constructor
  · rintro ⟨_,_,one,other,same⟩
    cases one
    cases other
    exact same
  · intro same
    exact ⟨pr,pr',rfl,rfl,same⟩

theorem draftBare (tgt : SyntheticModel) (aligned branch : UInt32) (count : Nat) (i : UInt32) (state : List UInt32)
    (prev : UInt32) : ((CpuProposer.draftFrom tgt aligned branch count i state prev).map Token.id).map
      (fun word => { id := word }) = CpuProposer.draftFrom tgt aligned branch count i state prev := by
  induction count generalizing i state prev with
  | zero => rfl
  | succ count ih => rw [CpuProposer.draftFrom,List.map_cons,List.map_cons,ih]

theorem kernelDrafts {aligned branch : UInt32} {input : ProposalInput} {m m' : BlockMemory (Nat → UInt32)}
    (run : Barrier.Executes block (proposeKernel buildTarget.1 buildTarget.2 (proposeSeed input) input.depth kVocab
      aligned branch) m m') :
    (List.range input.depth.toNat).map (fun i => ({ id := m'.out i } : Token)) =
      CpuProposer.draft { alignedTokens := aligned } { input with branchIndex := branch } := by
  have words := congrArg (List.map (fun word => ({ id := word } : Token))) (proposeKernelDrafts run)
  rw [draftBare,List.map_map,proposeSeedSame] at words
  exact words

theorem proposeWithin (dtok : Nat → UInt32) (input : ProposalInput) (nonzero : input.depth ≠ 0)
    (bounded : ¬input.depth > 256) :
    ∃ pr, CudaProposerExecutor.propose {} dtok input = .ok pr ∧ pr.outcome = .success ∧ pr.error = .ok ∧
      pr.candidate = some ⟨(List.range input.depth.toNat).map (fun i => { id := dtok i })⟩ := by
  rw [CudaProposerExecutor.propose,if_neg nonzero,if_neg bounded]
  exact ⟨_,rfl,rfl,rfl,rfl⟩

theorem refusesZero (cfg : CpuProposer.CpuProposerConfig) (dtok : Nat → UInt32) {input : ProposalInput}
    (zero : input.depth = 0) :
    ProposeAlike (CudaProposerExecutor.propose {} dtok input) (CpuProposer.propose cfg input) := by
  rw [CudaProposerExecutor.propose,CpuProposer.propose,if_pos zero,if_pos zero]
  exact (proposeAlikeOk _ _).mpr ⟨rfl,rfl,rfl⟩

theorem refusesDeep (cfg : CpuProposer.CpuProposerConfig) (dtok : Nat → UInt32) {input : ProposalInput}
    (deep : input.depth > 256) :
    ProposeAlike (CudaProposerExecutor.propose {} dtok input) (CpuProposer.propose cfg input) := by
  have nonzero : input.depth ≠ 0 := by
    intro zero
    rw [zero] at deep
    contradiction
  rw [CudaProposerExecutor.propose,CpuProposer.propose,if_neg nonzero,if_neg nonzero,if_pos deep,if_pos deep]
  exact (proposeAlikeOk _ _).mpr ⟨rfl,rfl,rfl⟩

/- The budget the device never looks at. -/
theorem outspends {cfg : CpuProposer.CpuProposerConfig} {dtok : Nat → UInt32} {input : ProposalInput}
    (nonzero : input.depth ≠ 0) (bounded : ¬input.depth > 256)
    (alike : ProposeAlike (CudaProposerExecutor.propose {} dtok input) (CpuProposer.propose cfg input)) :
    input.computeBudget = 0 ∨ input.depth.toUInt64 ≤ input.computeBudget := by
  by_contra short
  rw [not_or,UInt64.not_le] at short
  obtain ⟨pr,answer,success,_,_⟩ := proposeWithin dtok input nonzero bounded
  rw [answer,CpuProposer.propose,if_neg nonzero,if_neg bounded,if_pos short,proposeAlikeOk] at alike
  have same := alike.outcome
  rw [success] at same
  contradiction

theorem candidatesAlike {aligned branch : UInt32} {input : ProposalInput} {m m' : BlockMemory (Nat → UInt32)}
    (run : Barrier.Executes block (proposeKernel buildTarget.1 buildTarget.2 (proposeSeed input) input.depth kVocab
      aligned branch) m m') (nonzero : input.depth ≠ 0) (bounded : ¬input.depth > 256)
    (budget : input.computeBudget = 0 ∨ input.depth.toUInt64 ≤ input.computeBudget) :
    ProposeAlike (CudaProposerExecutor.propose {} m'.out input)
        (CpuProposer.propose { alignedTokens := aligned } input) ↔
      input.depth ≤ aligned ∨ input.branchIndex.toNat % 4096 = branch.toNat % 4096 := by
  have positive : 1 ≤ input.depth := by
    rw [UInt32.le_iff_toNat_le]
    exact UInt32.lt_iff_toNat_lt.mp (UInt32.pos_iff_ne_zero.mpr nonzero)
  obtain ⟨pr,answer,success,clean,candidate⟩ := proposeWithin m'.out input nonzero bounded
  obtain ⟨pr',answer',success',clean',candidate'⟩ := CpuProposer.proposeWithin { alignedTokens := aligned } input
    positive (UInt32.not_lt.mp bounded) budget
  have drafts := CpuProposer.draftSame { alignedTokens := aligned } input input.branchIndex branch
  have own : CpuProposer.draft { alignedTokens := aligned } { input with branchIndex := input.branchIndex } =
    CpuProposer.draft { alignedTokens := aligned } input := rfl
  rw [own] at drafts
  rw [kernelDrafts run] at candidate
  rw [answer,answer',proposeAlikeOk,← drafts]
  constructor
  · intro same
    have equal := same.candidate
    rw [candidate,candidate',Option.some.injEq,CandidateSequence.mk.injEq] at equal
    exact equal.symm
  · intro equal
    refine ⟨success.trans success'.symm,clean.trans clean'.symm,?_⟩
    rw [candidate,candidate',equal]

theorem cudaProposerMatchesWhen (aligned branch : UInt32) (input : ProposalInput) (m : BlockMemory (Nat → UInt32)) :
    (∃ answer, CudaProposerExecutor.Proposes ⟨aligned,branch⟩ {} input m answer) ∧
    ∀ answer, CudaProposerExecutor.Proposes ⟨aligned,branch⟩ {} input m answer →
      (ProposeAlike answer (CpuProposer.propose { alignedTokens := aligned } input) ↔
        input.depth = 0 ∨ input.depth > 256 ∨
        (input.computeBudget = 0 ∨ input.depth.toUInt64 ≤ input.computeBudget) ∧
        (input.depth ≤ aligned ∨ input.branchIndex.toNat % 4096 = branch.toNat % 4096)) := by
  refine ⟨?_,?_⟩
  · obtain ⟨m',run⟩ := Barrier.completes block (proposeKernel buildTarget.1 buildTarget.2 (proposeSeed input)
      input.depth kVocab aligned branch) m
    exact ⟨_,m',run,rfl⟩
  · rintro answer ⟨m',run,rfl⟩
    by_cases zero : input.depth = 0
    · exact iff_of_true (refusesZero _ _ zero) (.inl zero)
    by_cases deep : input.depth > 256
    · exact iff_of_true (refusesDeep _ _ deep) (.inr (.inl deep))
    rw [or_iff_right zero,or_iff_right deep]
    constructor
    · intro alike
      have budget := outspends zero deep alike
      exact ⟨budget,(candidatesAlike run zero deep budget).mp alike⟩
    · rintro ⟨budget,same⟩
      exact (candidatesAlike run zero deep budget).mpr same

def blankMemory {ω : Type} (out : ω) : BlockMemory ω := ⟨fun _ => 0,fun _ => 0,0,out⟩

theorem secondBranchUnlike : ∃ answer,
    CudaProposerExecutor.Proposes {} {} { depth := 4, branchIndex := 1, branchCount := 2 } (blankMemory fun _ => 0)
      answer ∧
    ¬ProposeAlike answer (CpuProposer.propose {} { depth := 4, branchIndex := 1, branchCount := 2 }) := by
  obtain ⟨m',run⟩ := Barrier.completes block (proposeKernel buildTarget.1 buildTarget.2
    (proposeSeed { depth := 4, branchIndex := 1, branchCount := 2 }) 4 kVocab 0 0) (blankMemory fun _ => 0)
  refine ⟨_,⟨m',run,rfl⟩,?_⟩
  rw [candidatesAlike run (by decide) (by decide) (.inl rfl)]
  decide

structure SameVerdict (one other : AcceptanceResult) : Prop where
  outcome : one.outcome = other.outcome
  retryable : one.retryable = other.retryable
  acceptedPrefix : one.acceptedPrefix = other.acceptedPrefix
  firstRejectionIndex : one.firstRejectionIndex = other.firstRejectionIndex
  perPosition : one.perPosition = other.perPosition
  authoritativeNextGeneration : one.authoritativeNextGeneration = other.authoritativeNextGeneration
  authoritativeNextState : one.authoritativeNextState = other.authoritativeNextState
  authoritativeNextStateGeneration : one.authoritativeNextStateGeneration = other.authoritativeNextStateGeneration

def VerifyAlike (answer other : Result AcceptanceResult) : Prop :=
  ∃ vr vr', answer = .ok vr ∧ other = .ok vr' ∧ SameVerdict vr vr'

theorem verifyAlikeOk (vr vr' : AcceptanceResult) : VerifyAlike (.ok vr) (.ok vr') ↔ SameVerdict vr vr' := by
  constructor
  · rintro ⟨_,_,one,other,same⟩
    cases one
    cases other
    exact same
  · intro same
    exact ⟨vr,vr',rfl,rfl,same⟩

theorem kernelAccepts {input : VerificationInput} {m m' : BlockMemory Verdict}
    (run : Barrier.Executes block (verifyKernel buildTarget.1 buildTarget.2
      ((input.candidate.tokens.take (UInt32.ofNat input.candidate.size).toNat).map Token.id) (verifySeed input)
      (UInt32.ofNat input.candidate.size) kVocab) m m') :
    (List.range (UInt32.ofNat input.candidate.size).toNat).map (fun i => (m'.out.perpos i).toUInt8) =
      (acceptAll input).perPosition ∧
    m'.out.accepted = (acceptAll input).acceptedPrefix ∧ m'.out.firstrej = (acceptAll input).firstRejectionIndex := by
  obtain ⟨flags,accepted,firstrej⟩ := verifyKernelAccepts run (a := acceptAll input) rfl
  refine ⟨?_,accepted,firstrej⟩
  have bytes := congrArg (List.map UInt32.toUInt8) flags
  rw [List.map_map,List.map_map] at bytes
  have back : UInt32.toUInt8 ∘ UInt8.toUInt32 = fun flag => flag := funext UInt8.toUInt8_toUInt32
  rw [back,List.map_id'] at bytes
  exact bytes

theorem passesEmpty (verdict : Verdict) {input : VerificationInput} (empty : input.candidate.tokens = []) :
    VerifyAlike (CudaVerifierExecutor.verify {} verdict input) (SpeculationFabric.verify input) := by
  rw [CudaVerifierExecutor.verify,SpeculationFabric.verify,empty,List.isEmpty_nil,if_pos rfl,if_pos rfl]
  exact (verifyAlikeOk _ _).mpr ⟨rfl,rfl,rfl,rfl,rfl,rfl,rfl,rfl⟩

theorem verifyDecides (verdict : Verdict) {input : VerificationInput} (filled : input.candidate.tokens ≠ []) :
    ∃ vr, CudaVerifierExecutor.verify {} verdict input = .ok vr ∧ vr.outcome ≠ .verifierFailure := by
  rw [CudaVerifierExecutor.verify,if_neg (by simpa using filled)]
  refine ⟨_,rfl,?_⟩
  dsimp only
  split
  · decide
  · split <;> decide

theorem verifyRefuses {input : VerificationInput}
    (unfit : input.candidateIdentity.tokenizer.isNull ∨ input.candidateIdentity.vocabSize ≠ kSyntheticVocab) :
    ∃ vr, SpeculationFabric.verify input = .ok vr ∧ vr.outcome = .verifierFailure := by
  rw [SpeculationFabric.verify]
  split
  · exact ⟨_,rfl,rfl⟩
  · split
    · exact ⟨_,rfl,rfl⟩
    · rename_i identified
      rw [if_pos (unfit.resolve_left identified)]
      exact ⟨_,rfl,rfl⟩

theorem decidesUnlike (verdict : Verdict) {input : VerificationInput} (filled : input.candidate.tokens ≠ [])
    (unfit : input.candidateIdentity.tokenizer.isNull ∨ input.candidateIdentity.vocabSize ≠ kSyntheticVocab) :
    ¬VerifyAlike (CudaVerifierExecutor.verify {} verdict input) (SpeculationFabric.verify input) := by
  obtain ⟨vr,answer,decided⟩ := verifyDecides verdict filled
  obtain ⟨vr',answer',failed⟩ := verifyRefuses unfit
  rw [answer,answer',verifyAlikeOk]
  intro same
  exact decided (same.outcome.trans failed)

theorem decidesAlike {input : VerificationInput} {m m' : BlockMemory Verdict}
    (run : Barrier.Executes block (verifyKernel buildTarget.1 buildTarget.2
      ((input.candidate.tokens.take (UInt32.ofNat input.candidate.size).toNat).map Token.id) (verifySeed input)
      (UInt32.ofNat input.candidate.size) kVocab) m m')
    (filled : input.candidate.tokens ≠ []) (identified : ¬input.candidateIdentity.tokenizer.isNull)
    (vocabulary : input.candidateIdentity.vocabSize = kSyntheticVocab) :
    VerifyAlike (CudaVerifierExecutor.verify {} m'.out input) (SpeculationFabric.verify input) := by
  obtain ⟨flags,accepted,firstrej⟩ := kernelAccepts run
  have some : ¬input.candidate.tokens.isEmpty := by simpa using filled
  rw [CudaVerifierExecutor.verify,SpeculationFabric.verify,if_neg some,if_neg some,if_neg identified,
    if_neg (not_not_intro vocabulary)]
  refine (verifyAlikeOk _ _).mpr ⟨?_,rfl,accepted,firstrej,flags,?_,?_,?_⟩
  · rw [accepted]
  · rw [accepted]
  · rw [accepted]
  · rw [accepted]

theorem cudaVerifierMatchesWhen (input : VerificationInput) (m : BlockMemory Verdict) :
    (∃ answer, CudaVerifierExecutor.Verifies {} input m answer) ∧
    ∀ answer, CudaVerifierExecutor.Verifies {} input m answer →
      (VerifyAlike answer (SpeculationFabric.verify input) ↔
        input.candidate.tokens = [] ∨
        ¬input.candidateIdentity.tokenizer.isNull ∧ input.candidateIdentity.vocabSize = 4096) := by
  refine ⟨?_,?_⟩
  · obtain ⟨m',run⟩ := Barrier.completes block (verifyKernel buildTarget.1 buildTarget.2
      ((input.candidate.tokens.take (UInt32.ofNat input.candidate.size).toNat).map Token.id) (verifySeed input)
      (UInt32.ofNat input.candidate.size) kVocab) m
    exact ⟨_,m',run,rfl⟩
  · rintro answer ⟨m',run,rfl⟩
    by_cases filled : input.candidate.tokens = []
    · exact iff_of_true (passesEmpty _ filled) (.inl filled)
    rw [or_iff_right filled]
    constructor
    · intro alike
      by_contra unfit
      rw [not_and_or,not_not] at unfit
      exact decidesUnlike m'.out filled unfit alike
    · rintro ⟨identified,vocabulary⟩
      exact decidesAlike run filled identified vocabulary

theorem unidentifiedUnlike : ∃ answer,
    CudaVerifierExecutor.Verifies {} { candidate := ⟨[{}]⟩, candidateIdentity := { vocabSize := 4096 } }
      (blankMemory ⟨fun _ => 0,0,0⟩) answer ∧
    ¬VerifyAlike answer
      (SpeculationFabric.verify { candidate := ⟨[{}]⟩, candidateIdentity := { vocabSize := 4096 } }) := by
  obtain ⟨m',run⟩ := Barrier.completes block (verifyKernel buildTarget.1 buildTarget.2 [0]
    (verifySeed { candidate := ⟨[{}]⟩, candidateIdentity := { vocabSize := 4096 } }) 1 kVocab)
    (blankMemory ⟨fun _ => 0,0,0⟩)
  exact ⟨_,⟨m',run,rfl⟩,decidesUnlike m'.out (by decide) (.inl (by decide))⟩

end SpeculationFabric.Cuda
