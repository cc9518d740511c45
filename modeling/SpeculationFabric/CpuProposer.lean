import SpeculationFabric.CpuVerifier

/-! The deterministic CPU proposer. It follows the verifier's recurrence along its own
output: the expected token while the position is inside the aligned part, then one
moved on by the branch index. Configuration the proposer never reads is left out. -/
namespace SpeculationFabric.CpuProposer

structure CpuProposerConfig where
  alignedTokens : UInt32 := 0
  deriving DecidableEq, Repr

def makeModel (weightSeed : UInt32) : SyntheticModel :=
  let rows := drawRows kStateWords (weightSeed.toUInt64 ||| ((1 : UInt64) <<< 32))
  { weights := rows.map Prod.fst, bias := rows.map Prod.snd }

def draftSeed (input : ProposalInput) : UInt64 :=
  let base := (input.baseState.id.value * 0x9E3779B97F4A7C15) ^^^
    (input.baseState.generation.value * 0x94D049BB133111EB)
  mix64 base input.baseGeneration.value input.provenance.proposerModel.revision.value
    (input.depth.toUInt64 * 0x100000001B3)

def draftFrom (tgt : SyntheticModel) (aligned branchIndex : UInt32) : Nat → UInt32 → List UInt32 → UInt32 → List Token
  | 0,_,_,_ => []
  | count + 1,i,state,prev =>
      let expected := tgt.token state i prev kSyntheticVocab
      let tok := if i < aligned then expected else (expected + 1 + branchIndex) % kSyntheticVocab
      { id := tok } :: draftFrom tgt aligned branchIndex count (i + 1) (tgt.step state tok) tok

def draft (cfg : CpuProposerConfig) (input : ProposalInput) : List Token :=
  draftFrom (makeModel kTargetModelSeed) cfg.alignedTokens input.branchIndex input.depth.toNat 0
    (SyntheticModel.seedState (draftSeed input)) 0

def proposerFailure (outcome : ProposalOutcome) (error : ErrorCode) (detail : String) : ProposalResult :=
  { outcome := outcome, error := error, detail := detail }

def propose (cfg : CpuProposerConfig) (input : ProposalInput) : Result ProposalResult :=
  if input.depth = 0 then
    .ok (proposerFailure .nonRetryableFailure .invalidZeroDepth "proposal depth must be positive")
  else if input.depth > 256 then
    .ok (proposerFailure .nonRetryableFailure .invalidDepth "proposal depth exceeds synthetic model bound")
  else if input.computeBudget ≠ 0 ∧ input.depth.toUInt64 > input.computeBudget then
    .ok (proposerFailure .retryableFailure .budgetExceeded "proposal would exceed compute budget")
  else
    let bytesHeld := input.depth.toUInt64 * 64
    .ok {
      outcome := .success
      candidate := some ⟨draft cfg input⟩
      speculativeState := some {
        ref := { input.baseState with generation := ⟨input.baseState.generation.value + 1⟩ }
        role := .speculative
        reservation := .used
        owner := .proposal
        bytesHeld := bytesHeld }
      computeSpent := input.depth.toUInt64 * 8
      memoryHeld := bytesHeld
      executionMeasuredNs := input.depth.toUInt64
      detail := "proposer produced " ++ toString input.depth ++ " tokens" }

theorem draftFromLength (tgt : SyntheticModel) (aligned branchIndex : UInt32) (count : Nat) (i : UInt32)
    (state : List UInt32) (prev : UInt32) :
    (draftFrom tgt aligned branchIndex count i state prev).length = count := by
  induction count generalizing i state prev with
  | zero => rfl
  | succ count ih => simp only [draftFrom,List.length_cons,ih]

theorem draftLength (cfg : CpuProposerConfig) (input : ProposalInput) :
    (draft cfg input).length = input.depth.toNat := draftFromLength _ _ _ _ _ _ _

theorem draftAgrees (cfg : CpuProposerConfig) {left right : ProposalInput}
    (state : left.baseState = right.baseState) (generation : left.baseGeneration = right.baseGeneration)
    (revision : left.provenance.proposerModel.revision = right.provenance.proposerModel.revision)
    (depth : left.depth = right.depth) (branch : left.branchIndex = right.branchIndex) :
    draft cfg left = draft cfg right := by
  simp only [draft,draftSeed,state,generation,revision,depth,branch]

theorem proposeWithin (cfg : CpuProposerConfig) (input : ProposalInput) (positive : 1 ≤ input.depth)
    (bounded : input.depth ≤ 256) (budget : input.computeBudget = 0 ∨ input.depth.toUInt64 ≤ input.computeBudget) :
    ∃ pr, propose cfg input = .ok pr ∧ pr.outcome = .success ∧ pr.error = .ok ∧
      pr.candidate = some ⟨draft cfg input⟩ := by
  have nonzero : input.depth ≠ 0 := by
    intro zero
    rw [zero] at positive
    contradiction
  have affordable : ¬(input.computeBudget ≠ 0 ∧ input.depth.toUInt64 > input.computeBudget) := by
    rintro ⟨limited,above⟩
    exact budget.elim limited fun within => absurd above (UInt64.not_lt.mpr within)
  rw [propose,if_neg nonzero,if_neg (UInt32.not_lt.mpr bounded),if_neg affordable]
  exact ⟨_,rfl,rfl,rfl,rfl⟩

end SpeculationFabric.CpuProposer
