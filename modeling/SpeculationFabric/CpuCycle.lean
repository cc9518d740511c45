import SpeculationFabric.CallFacts
import SpeculationFabric.CpuProposer

/-! What one cycle over the two CPU executors comes to: for each branch a draft and the
number of its tokens the verifier takes, both functions of the authority the cycle
starts from, and the first branch with the largest number. A driver is held against
this and not against another driver. -/
namespace SpeculationFabric

structure Authority where
  state : StateRef
  generation : AuthGeneration
  revision : Revision
  deriving DecidableEq, Repr

namespace Authority

variable (a : Authority)

def draftInput (depth b : UInt32) : ProposalInput :=
  { baseState := a.state
    baseGeneration := a.generation
    depth := depth
    branchIndex := b
    provenance := { proposerModel := { revision := a.revision } } }

def verdictInput (toks : List UInt32) : VerificationInput :=
  { authoritativeState := a.state
    authoritativeGeneration := a.generation
    proposer := { revision := a.revision }
    candidate := ⟨toks.map fun id => { id := id }⟩ }

def draft (depth aligned b : UInt32) : List UInt32 :=
  (CpuProposer.draft { alignedTokens := aligned } (a.draftInput depth b)).map Token.id

def taken (toks : List UInt32) : Nat := (agreements (a.verdictInput toks)).count true

theorem draftSize (depth aligned b : UInt32) : (a.draft depth aligned b).length = depth.toNat := by
  rw [draft,List.length_map,CpuProposer.draftLength]
  rfl

variable {a}

theorem proposes (input : ProposalInput) (depth aligned b : UInt32) (state : input.baseState = a.state)
    (generation : input.baseGeneration = a.generation) (revision : input.provenance.proposerModel.revision = a.revision)
    (depths : input.depth = depth) (branch : input.branchIndex = b) (free : input.computeBudget = 0)
    (positive : 0 < depth.toNat) (bounded : depth.toNat ≤ 256) :
    ∃ pr candidate, CpuProposer.propose { alignedTokens := aligned } input = .ok pr ∧ pr.outcome = .success ∧
      pr.candidate = some candidate ∧ candidate.tokens.map Token.id = a.draft depth aligned b := by
  have least : 1 ≤ input.depth := by
    rw [depths]
    exact UInt32.le_iff_toNat_le.mpr positive
  have most : input.depth ≤ 256 := by
    rw [depths]
    exact UInt32.le_iff_toNat_le.mpr bounded
  obtain ⟨pr,answers,success,_,candidate⟩ := CpuProposer.proposeWithin { alignedTokens := aligned } input least most
    (.inl free)
  refine ⟨pr,_,answers,success,candidate,?_⟩
  rw [draft]
  exact congrArg (List.map Token.id) (CpuProposer.draftAgrees _ state generation revision depths branch)

theorem agreementsOf {input : VerificationInput} {toks : List UInt32} (state : input.authoritativeState = a.state)
    (generation : input.authoritativeGeneration = a.generation) (revision : input.proposer.revision = a.revision)
    (tokens : input.candidate.tokens.map Token.id = toks) : agreements input = agreements (a.verdictInput toks) := by
  have ids : (a.verdictInput toks).candidate.tokens.map Token.id = toks := by
    simp [verdictInput,Function.comp_def]
  have size : input.candidate.size = (a.verdictInput toks).candidate.size := by
    have lengths := congrArg List.length (tokens.trans ids.symm)
    rwa [List.length_map,List.length_map] at lengths
  have seed : targetSeed input = targetSeed (a.verdictInput toks) := by
    simp only [targetSeed,state,generation,revision,size]
    rfl
  simp only [agreements,targetSequence,seed,size,tokens,ids]

theorem verifies (input : VerificationInput) {toks : List UInt32} (state : input.authoritativeState = a.state)
    (generation : input.authoritativeGeneration = a.generation) (revision : input.proposer.revision = a.revision)
    (tokens : input.candidate.tokens.map Token.id = toks) (filled : toks ≠ [])
    (tokenizer : input.candidateIdentity.tokenizer.isNull = false)
    (vocabulary : input.candidateIdentity.vocabSize = kSyntheticVocab) :
    ∃ accept, verify input = .ok accept ∧ accept.acceptedPrefix.toNat = a.taken toks := by
  have candidate : input.candidate.tokens ≠ [] := by
    intro empty
    rw [empty] at tokens
    exact filled tokens.symm
  obtain ⟨accept,answers,judged⟩ := verifyJudged candidate tokenizer vocabulary
  exact ⟨accept,answers,by rw [judged.acceptedPrefix,agreementsOf state generation revision tokens,taken]⟩

theorem takenInside (toks : List UInt32) : a.taken toks ≤ toks.length := by
  have below : a.taken toks ≤ (agreements (a.verdictInput toks)).length := List.count_le_length
  rw [agreementsLength,UInt32.toNat_ofNat'] at below
  refine below.trans ((Nat.mod_le _ _).trans ?_)
  rw [CandidateSequence.size]
  exact Nat.le_of_eq (List.length_map _)

variable (a)

def counts (depth aligned : UInt32) (branches : Nat) : List Nat :=
  (List.range branches).map fun i => a.taken (a.draft depth aligned (UInt32.ofNat i))

structure Chosen (depth aligned branches : UInt32) (winner : Nat) (count : UInt32) : Prop where
  best : FirstBest (a.counts depth aligned branches.toNat) winner
  count : count.toNat = a.taken (a.draft depth aligned (UInt32.ofNat winner))

variable {a}

theorem Chosen.unique {depth aligned branches : UInt32} {w v : Nat} {k l : UInt32}
    (one : a.Chosen depth aligned branches w k) (other : a.Chosen depth aligned branches v l) : w = v ∧ k = l := by
  have same : w = v := by
    rcases Nat.lt_trichotomy w v with less | equal | more
    · have above := other.best.first w less
      have below := one.best.most v other.best.inside
      omega
    · exact equal
    · have above := one.best.first v more
      have below := other.best.most w one.best.inside
      omega
  subst same
  exact ⟨rfl,UInt32.toNat_inj.mp (one.count.trans other.count.symm)⟩

theorem countsOf {α : Type} {results : List α} {count : α → Nat} {depth aligned : UInt32} {branches : Nat}
    (length : results.length = branches)
    (each : ∀ i x, results[i]? = some x → count x = a.taken (a.draft depth aligned (UInt32.ofNat i))) :
    results.map count = a.counts depth aligned branches := by
  apply List.ext_getElem?
  intro i
  rw [counts,List.getElem?_map,List.getElem?_map]
  cases at_ : results[i]? with
  | none =>
      rw [List.getElem?_eq_none_iff] at at_
      rw [List.getElem?_eq_none_iff.mpr (by rw [List.length_range]; omega)]
      rfl
  | some x =>
      have inside := (List.getElem?_eq_some_iff.mp at_).1
      rw [List.getElem?_range (by omega)]
      exact congrArg some (each i x at_)

theorem chosenBy {α : Type} {results : List α} (count : α → UInt32) {depth aligned branches : UInt32} {winner : Nat}
    {x : α} (length : results.length = branches.toNat)
    (each : ∀ i x, results[i]? = some x → (count x).toNat = a.taken (a.draft depth aligned (UInt32.ofNat i)))
    (best : FirstBest (results.map fun x => (count x).toNat) winner) (won : results[winner]? = some x) :
    a.Chosen depth aligned branches winner (count x) := by
  rw [countsOf length each] at best
  exact ⟨best,each winner x won⟩

end Authority

end SpeculationFabric
