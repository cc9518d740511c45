import SpeculationFabric.CpuProposer

/-! The proposer's draft against the verifier's target. Both follow one recurrence, the
first along the tokens it emits and the second along the tokens it expects, so they move
in step up to the first token the draft puts off. Where that is depends on the aligned
part and on whether moving a token by the branch index moves it at all. -/
namespace SpeculationFabric.CpuProposer

def perturbed (expected branchIndex : UInt32) : UInt32 := (expected + 1 + branchIndex) % kSyntheticVocab

theorem targetBelow (tgt : SyntheticModel) (state : List UInt32) (i prev : UInt32) :
    (tgt.token state i prev kSyntheticVocab).toNat < 4096 := by
  rw [SyntheticModel.token,if_neg (by decide),UInt32.toNat_mod]
  exact Nat.mod_lt _ (by decide)

theorem perturbedBelow (expected branchIndex : UInt32) : (perturbed expected branchIndex).toNat < 4096 := by
  rw [perturbed,UInt32.toNat_mod]
  exact Nat.mod_lt _ (by decide)

/- The sum wraps at a multiple of the vocabulary, so wrapping does not show. -/
theorem perturbedSame {expected : UInt32} (branchIndex : UInt32) (small : expected.toNat < 4096) :
    perturbed expected branchIndex = expected ↔ 4096 ∣ branchIndex.toNat + 1 := by
  have vocabulary : kSyntheticVocab.toNat = 4096 := rfl
  have one : (1 : UInt32).toNat = 1 := rfl
  rw [← UInt32.toNat_inj,perturbed,UInt32.toNat_mod,UInt32.toNat_add,UInt32.toNat_add,vocabulary,one]
  omega

def agreedLength (aligned depth branchIndex : UInt32) : Nat :=
  if depth ≤ aligned ∨ 4096 ∣ branchIndex.toNat + 1 then depth.toNat else aligned.toNat

section walk
variable (tgt : SyntheticModel) (aligned branchIndex : UInt32)

theorem draftBelow (count : Nat) (i : UInt32) (state : List UInt32) (prev : UInt32) :
    ∀ t ∈ draftFrom tgt aligned branchIndex count i state prev, t.id.toNat < 4096 := by
  induction count generalizing i state prev with
  | zero =>
      intro t member
      cases member
  | succ count ih =>
      intro t member
      rw [draftFrom] at member
      rcases List.mem_cons.mp member with rfl | later
      · show (ite _ _ _ : UInt32).toNat < 4096
        split
        · exact targetBelow tgt state i prev
        · exact perturbedBelow _ branchIndex
      · exact ih _ _ _ t later

theorem draftAgreesAt (state : List UInt32) (i prev : UInt32) :
    (if i < aligned then tgt.token state i prev kSyntheticVocab
      else perturbed (tgt.token state i prev kSyntheticVocab) branchIndex) = tgt.token state i prev kSyntheticVocab ↔
      i < aligned ∨ 4096 ∣ branchIndex.toNat + 1 := by
  by_cases inside : i < aligned
  · simp only [inside,if_true,true_or]
  · simp only [inside,if_false,false_or]
    exact perturbedSame branchIndex (targetBelow tgt state i prev)

theorem leadingDraft (count : Nat) (i : UInt32) (state : List UInt32) (prev : UInt32)
    (room : i.toNat + count < 2 ^ 32) :
    Leading.leading (List.zipWith (· == ·) (targetFrom tgt count i state prev)
      ((draftFrom tgt aligned branchIndex count i state prev).map Token.id)) =
      if 4096 ∣ branchIndex.toNat + 1 then count else min count (aligned.toNat - i.toNat) := by
  induction count generalizing i state prev with
  | zero => simp [targetFrom,Leading.leading]
  | succ count ih =>
      have next : (i + 1).toNat = i.toNat + 1 := nextPosition (by omega)
      rw [targetFrom,draftFrom,List.map_cons,List.zipWith_cons_cons]
      by_cases agrees : i < aligned ∨ 4096 ∣ branchIndex.toNat + 1
      · have same := (draftAgreesAt tgt aligned branchIndex state i prev).mpr agrees
        unfold perturbed at same
        simp only [same,beq_self_eq_true,Leading.leadingTrue]
        rw [ih _ _ _ (by omega),next]
        rw [UInt32.lt_iff_toNat_lt] at agrees
        split
        · rfl
        · omega
      · have differ := mt (draftAgreesAt tgt aligned branchIndex state i prev).mp agrees
        unfold perturbed at differ
        simp only [beq_false_of_ne (Ne.symm differ),Leading.leadingFalse]
        rw [not_or,UInt32.lt_iff_toNat_lt] at agrees
        rw [if_neg agrees.2]
        omega

end walk

structure SameAuthority (input : ProposalInput) (vin : VerificationInput) : Prop where
  stateId : vin.authoritativeState.id = input.baseState.id
  stateGeneration : vin.authoritativeState.generation = input.baseState.generation
  baseGeneration : vin.authoritativeGeneration = input.baseGeneration
  revision : vin.proposer.revision = input.provenance.proposerModel.revision

theorem sameSeed {input : ProposalInput} {vin : VerificationInput} (same : SameAuthority input vin)
    (size : vin.candidate.size = input.depth.toNat) : targetSeed vin = draftSeed input := by
  have word : UInt64.ofNat input.depth.toNat = input.depth.toUInt64 := by simp
  rw [targetSeed,draftSeed,same.stateId,same.stateGeneration,same.baseGeneration,same.revision,size,word]

theorem leadingOfDraft {cfg : CpuProposerConfig} {input : ProposalInput} {vin : VerificationInput}
    (same : SameAuthority input vin) (candidate : vin.candidate = ⟨draft cfg input⟩) :
    Leading.leading (agreements vin) = agreedLength cfg.alignedTokens input.depth input.branchIndex := by
  have size : vin.candidate.size = input.depth.toNat := by
    rw [candidate]
    exact draftLength cfg input
  have bound := input.depth.toNat_lt
  have walked := leadingDraft makeTargetModel cfg.alignedTokens input.branchIndex input.depth.toNat 0
    (SyntheticModel.seedState (draftSeed input)) 0 (by show 0 + input.depth.toNat < 2 ^ 32; omega)
  have verdicts : agreements vin = List.zipWith (· == ·) (targetFrom makeTargetModel input.depth.toNat 0
      (SyntheticModel.seedState (draftSeed input)) 0) ((draft cfg input).map Token.id) := by
    rw [agreements,targetSequence,sameSeed same size,size,UInt32.ofNat_toNat,candidate]
  rw [verdicts]
  refine walked.trans ?_
  have zero : (0 : UInt32).toNat = 0 := rfl
  rw [agreedLength,zero,Nat.sub_zero]
  split
  · rename_i whole
    rw [if_pos (.inr whole)]
  · rename_i moved
    by_cases deep : input.depth ≤ cfg.alignedTokens
    · rw [if_pos (.inl deep)]
      exact Nat.min_eq_left (UInt32.le_iff_toNat_le.mp deep)
    · rw [if_neg (not_or.mpr ⟨deep,moved⟩)]
      exact Nat.min_eq_right (Nat.le_of_lt (UInt32.lt_iff_toNat_lt.mp (UInt32.not_le.mp deep)))

end SpeculationFabric.CpuProposer

namespace SpeculationFabric

theorem verifyOutcome {input : VerificationInput} {accept : AcceptanceResult} (filled : input.candidate.tokens ≠ [])
    (tokenizer : input.candidateIdentity.tokenizer.isNull = false)
    (vocabulary : input.candidateIdentity.vocabSize = kSyntheticVocab) (answers : verify input = .ok accept) :
    accept.outcome = .fullAccept ↔ accept.acceptedPrefix = UInt32.ofNat input.candidate.size := by
  have nonempty : input.candidate.tokens.isEmpty = false := by simpa using filled
  simp only [verify,nonempty,tokenizer,vocabulary,ne_eq,not_true_eq_false,if_false,Bool.false_eq_true] at answers
  cases Except.ok.inj answers
  simp only
  constructor
  · intro full
    by_contra part
    rw [if_neg part] at full
    split at full <;> cases full
  · intro whole
    exact if_pos whole

namespace CpuProposer

theorem draftMeetsTarget (cfg : CpuProposerConfig) (input : ProposalInput) (positive : 1 ≤ input.depth)
    (bounded : input.depth ≤ 256)
    (budget : input.computeBudget = 0 ∨ input.depth.toUInt64 ≤ input.computeBudget) :
    ∃ pr candidate, propose cfg input = .ok pr ∧ pr.outcome = .success ∧ pr.candidate = some candidate ∧
      candidate.size = input.depth.toNat ∧ (∀ t ∈ candidate.tokens, t.id < 4096) ∧
      ∀ vin, SameAuthority input vin → vin.candidate = candidate →
        vin.candidateIdentity.tokenizer.isNull = false → vin.candidateIdentity.vocabSize = 4096 →
        ∃ accept, verify vin = .ok accept ∧
          (∀ i < agreedLength cfg.alignedTokens input.depth input.branchIndex, accept.perPosition[i]? = some 1) ∧
          accept.firstRejectionIndex.toNat = agreedLength cfg.alignedTokens input.depth input.branchIndex ∧
          (accept.outcome = .fullAccept ↔
            agreedLength cfg.alignedTokens input.depth input.branchIndex = input.depth.toNat) := by
  obtain ⟨pr,answer,success,_,produced⟩ := proposeWithin cfg input positive bounded budget
  refine ⟨pr,_,answer,success,produced,draftLength cfg input,?_,?_⟩
  · intro t member
    exact UInt32.lt_iff_toNat_lt.mpr (draftBelow _ _ _ _ _ _ _ t member)
  intro vin same candidate tokenizer vocabulary
  have size : vin.candidate.size = input.depth.toNat := by
    rw [candidate]
    exact draftLength cfg input
  have filled : vin.candidate.tokens ≠ [] := by
    intro empty
    have none : vin.candidate.size = 0 := congrArg List.length empty
    have least := UInt32.le_iff_toNat_le.mp positive
    have one : (1 : UInt32).toNat = 1 := rfl
    omega
  have leads := leadingOfDraft same candidate
  obtain ⟨accept,answers,judged⟩ := verifyJudged filled tokenizer vocabulary
  refine ⟨accept,answers,?_,by rw [judged.firstRejection,leads],?_⟩
  · intro i before
    rw [← leads] at before
    rw [judged.perPosition,List.getElem?_map,Leading.acceptedBefore before]
    rfl
  · have positions : (agreements vin).length = input.depth.toNat := by
      rw [agreementsLength,size,UInt32.ofNat_toNat]
    rw [verifyOutcome filled tokenizer vocabulary answers,← UInt32.toNat_inj,judged.acceptedPrefix,
      ← agreementsLength,Leading.leadingWhole,leads,positions]

theorem partlyAlignedDraft : ∃ pr candidate, propose { alignedTokens := 2 } { depth := 6 } = .ok pr ∧
    pr.candidate = some candidate ∧ candidate.size = 6 ∧ agreedLength 2 6 0 = 2 ∧ agreedLength 2 6 4095 = 6 ∧
    ∃ accept, verify { candidate := candidate, candidateIdentity := { tokenizer := ⟨9⟩, vocabSize := 4096 } } =
      .ok accept ∧ accept.firstRejectionIndex = 2 ∧ accept.outcome ≠ .fullAccept := by
  obtain ⟨pr,candidate,answers,_,produced,size,_,judged⟩ :=
    draftMeetsTarget { alignedTokens := 2 } { depth := 6 } (by decide) (by decide) (.inl rfl)
  obtain ⟨accept,verified,_,first,full⟩ := judged
    { candidate := candidate, candidateIdentity := { tokenizer := ⟨9⟩, vocabSize := 4096 } } ⟨rfl,rfl,rfl,rfl⟩ rfl rfl rfl
  refine ⟨pr,candidate,answers,produced,size,by decide,by decide,accept,verified,UInt32.toNat_inj.mp first,?_⟩
  intro all
  exact absurd (full.mp all) (by decide)

end CpuProposer

end SpeculationFabric
