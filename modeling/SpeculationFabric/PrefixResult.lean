import SpeculationFabric.CpuVerifier

/-! The verifier's report read as a prefix result. The report counts agreeing
positions wherever they stand and measures the candidate by a 32-bit word, so it is
one exactly when nothing agrees after the first disagreement and the word did not
hide the candidate's end. -/
namespace SpeculationFabric

def leadingOnes (perPosition : List UInt8) : Nat := Leading.leading (perPosition.map (fun flag => flag == 1))

structure PrefixResult (input : VerificationInput) (accept : AcceptanceResult) : Prop where
  acceptedPrefix : accept.acceptedPrefix.toNat = leadingOnes accept.perPosition
  firstRejection : accept.firstRejectionIndex = accept.acceptedPrefix
  unrejected : 0 ∉ accept.perPosition → accept.firstRejectionIndex.toNat = input.candidate.size
  full : accept.outcome = .fullAccept ↔ leadingOnes accept.perPosition = input.candidate.size
  none : accept.outcome = .rejectAll ↔ leadingOnes accept.perPosition = 0
  part : accept.outcome = .partialAccept ↔
    leadingOnes accept.perPosition ≠ input.candidate.size ∧ leadingOnes accept.perPosition ≠ 0
  generation : accept.authoritativeNextGeneration.value =
    input.authoritativeGeneration.value + UInt64.ofNat (leadingOnes accept.perPosition)
  stateGeneration : accept.authoritativeNextState.generation.value =
    input.authoritativeState.generation.value + UInt64.ofNat (leadingOnes accept.perPosition)

structure PrefixInput (input : VerificationInput) : Prop where
  ordered : ¬ Leading.LateAcceptance (agreements input)
  measured : input.candidate.size < 2^32 ∨ false ∈ agreements input

structure Classified (input : VerificationInput) (accept : AcceptanceResult) : Prop where
  filled : input.candidate.tokens ≠ []
  judged : Judged input accept
  outcome : accept.outcome = if accept.acceptedPrefix = UInt32.ofNat input.candidate.size then .fullAccept
    else if accept.acceptedPrefix = 0 then .rejectAll else .partialAccept
  stateGeneration : accept.authoritativeNextState.generation.value =
    input.authoritativeState.generation.value + accept.acceptedPrefix.toUInt64

theorem verifyClassified {input : VerificationInput} {accept : AcceptanceResult} (answered : verify input = .ok accept)
    (accepted : accept.outcome ≠ .verifierFailure) : Classified input accept := by
  have whole := answered
  unfold verify at answered
  split at answered
  · cases answered
    exact absurd rfl accepted
  · rename_i filled
    split at answered
    · cases answered
      exact absurd rfl accepted
    · rename_i tokenizer
      split at answered
      · cases answered
        exact absurd rfl accepted
      · rename_i vocabulary
        have nonempty : input.candidate.tokens ≠ [] := by simpa using filled
        obtain ⟨report,reported,judged⟩ := verifyJudged nonempty (by simpa using tokenizer)
          (by simpa using vocabulary)
        cases Except.ok.inj (reported.symm.trans whole)
        cases Except.ok.inj answered
        exact ⟨nonempty,judged,rfl,rfl⟩

section report
variable {input : VerificationInput} {accept : AcceptanceResult} (report : Classified input accept)
include report

theorem reportedFlags : accept.perPosition.map (fun flag => flag == 1) = agreements input := by
  rw [report.judged.perPosition,List.map_map]
  conv => rhs; rw [← List.map_id (agreements input)]
  apply List.map_congr_left
  intro verdict _
  cases verdict <;> rfl

theorem reportedLeading : leadingOnes accept.perPosition = Leading.leading (agreements input) := by
  rw [leadingOnes,reportedFlags report]

theorem reportedZero : 0 ∈ accept.perPosition ↔ false ∈ agreements input := by
  rw [report.judged.perPosition,List.mem_map]
  constructor
  · rintro ⟨verdict,member,zero⟩
    cases verdict with
    | true => exact absurd zero (by decide)
    | false => exact member
  · intro member
    exact ⟨false,member,rfl⟩

theorem candidatePositive : 0 < input.candidate.size := List.length_pos_iff.mpr report.filled

end report

theorem leadingAll {verdicts : List Bool} (unrejected : false ∉ verdicts) : Leading.leading verdicts = verdicts.length := by
  induction verdicts with
  | nil => rfl
  | cons v rest ih =>
      cases v with
      | true => rw [Leading.leadingTrue,ih (fun member => unrejected (List.mem_cons_of_mem _ member)),List.length_cons]
      | false => exact absurd List.mem_cons_self unrejected

theorem leadingShort {verdicts : List Bool} (rejected : false ∈ verdicts) : Leading.leading verdicts < verdicts.length := by
  induction verdicts with
  | nil => contradiction
  | cons v rest ih =>
      cases v with
      | true =>
          have later : false ∈ rest := by simpa using rejected
          rw [Leading.leadingTrue,List.length_cons]
          have := ih later
          omega
      | false => simp

section classification
variable {input : VerificationInput} {accept : AcceptanceResult} (report : Classified input accept)
include report

theorem fullCount (good : PrefixInput input)
    (counted : accept.acceptedPrefix.toNat = leadingOnes accept.perPosition) :
    accept.acceptedPrefix = UInt32.ofNat input.candidate.size ↔
      leadingOnes accept.perPosition = input.candidate.size := by
  rw [← UInt32.toNat_inj,counted]
  rcases good.measured with short | rejected
  · rw [UInt32.toNat_ofNat_of_lt' short]
  · have below := leadingShort rejected
    have cut := Nat.mod_le input.candidate.size (2^32)
    rw [agreementsLength] at below
    rw [UInt32.toNat_ofNat'] at below ⊢
    rw [reportedLeading report]
    omega

theorem classifiedBy
    (ends : accept.acceptedPrefix = UInt32.ofNat input.candidate.size ↔
      leadingOnes accept.perPosition = input.candidate.size)
    (empty : accept.acceptedPrefix = 0 ↔ leadingOnes accept.perPosition = 0) :
    (accept.outcome = .fullAccept ↔ leadingOnes accept.perPosition = input.candidate.size) ∧
    (accept.outcome = .rejectAll ↔ leadingOnes accept.perPosition = 0) ∧
    (accept.outcome = .partialAccept ↔
      leadingOnes accept.perPosition ≠ input.candidate.size ∧ leadingOnes accept.perPosition ≠ 0) := by
  have positive := candidatePositive report
  rw [report.outcome]
  split
  · rename_i full
    have whole := ends.mp full
    have some_ : leadingOnes accept.perPosition ≠ 0 := by omega
    simp [whole,whole ▸ some_]
  · rename_i notFull
    have cut : leadingOnes accept.perPosition ≠ input.candidate.size := mt ends.mpr notFull
    split
    · rename_i zero
      have none := empty.mp zero
      simp [none,positive.ne]
    · rename_i some_
      have taken : leadingOnes accept.perPosition ≠ 0 := mt empty.mpr some_
      simp [cut,taken]

end classification

theorem prefixResultExactly {input : VerificationInput} {accept : AcceptanceResult}
    (answered : verify input = .ok accept) (accepted : accept.outcome ≠ .verifierFailure) :
    PrefixResult input accept ↔ PrefixInput input := by
  have report := verifyClassified answered accepted
  have judged := report.judged
  have leads := reportedLeading report
  have length := agreementsLength input
  constructor
  · intro result
    have ordered : ¬ Leading.LateAcceptance (agreements input) := by
      rw [← Leading.countEqLeading,← judged.acceptedPrefix,result.acceptedPrefix,leads]
    refine ⟨ordered,?_⟩
    by_cases rejected : false ∈ agreements input
    · exact .inr rejected
    · -- nothing was rejected, so the index is the length the word can hold
      have index := result.unrejected (fun zero => rejected ((reportedZero report).mp zero))
      have bound := accept.firstRejectionIndex.toNat_lt
      exact .inl (by omega)
  · intro good
    have counted : accept.acceptedPrefix.toNat = leadingOnes accept.perPosition := by
      rw [judged.acceptedPrefix,(Leading.countEqLeading _).mpr good.ordered,leads]
    have index : accept.firstRejectionIndex = accept.acceptedPrefix := by
      rw [← UInt32.toNat_inj,judged.firstRejection,counted,leads]
    have word : UInt64.ofNat (leadingOnes accept.perPosition) = accept.acceptedPrefix.toUInt64 := by
      rw [← counted,← UInt64.toNat_inj,UInt32.toNat_toUInt64]
      exact UInt64.toNat_ofNat_of_lt' (accept.acceptedPrefix.toNat_lt.trans (by decide))
    have ends := fullCount report good counted
    have empty : accept.acceptedPrefix = 0 ↔ leadingOnes accept.perPosition = 0 := by
      rw [← UInt32.toNat_inj,counted]
      rfl
    obtain ⟨full,none,part⟩ := classifiedBy report ends empty
    refine ⟨counted,index,?_,full,none,part,?_,?_⟩
    · intro unrejected
      have all := fun member => unrejected ((reportedZero report).mpr member)
      have short : input.candidate.size < 2^32 := good.measured.resolve_right all
      rw [judged.firstRejection,leadingAll all,length]
      exact UInt32.toNat_ofNat_of_lt' short
    · rw [judged.nextGeneration,word]
    · rw [report.stateGeneration,word]

/- Two candidates for the input of the engine's first test request. Its target starts
3998, 3669. -/
def judgedInput (ids : List UInt32) : VerificationInput :=
  { candidate := ⟨ids.map (fun id => { id := id })⟩
    candidateIdentity := { tokenizer := ⟨9⟩, vocabSize := 4096 }
    proposer := { revision := ⟨1⟩ }
    authoritativeState := { id := ⟨7 * 0x9E3779B97F4A7C15⟩, generation := ⟨0⟩ } }

theorem hitIsPrefixResult : ∃ accept, verify (judgedInput [3998,0]) = .ok accept ∧
    accept.outcome = .partialAccept ∧ PrefixResult (judgedInput [3998,0]) accept := by
  have answer : (verify (judgedInput [3998,0])).map AcceptanceResult.outcome = .ok .partialAccept ∧
      agreements (judgedInput [3998,0]) = [true,false] := by decide +kernel
  cases answered : verify (judgedInput [3998,0]) with
  | error e =>
      rw [answered] at answer
      exact absurd answer.1 (by intro same; cases same)
  | ok accept =>
      rw [answered] at answer
      have outcome : accept.outcome = .partialAccept := Except.ok.inj answer.1
      refine ⟨accept,rfl,outcome,(prefixResultExactly answered (by rw [outcome]; decide)).mpr ⟨?_,.inl (by decide)⟩⟩
      rw [answer.2,← Leading.countEqLeading]
      rfl

theorem missIsNoPrefixResult : ∃ accept, verify (judgedInput [0,3669]) = .ok accept ∧
    accept.outcome = .partialAccept ∧ accept.perPosition = [0,1] ∧ accept.acceptedPrefix = 1 ∧
    accept.firstRejectionIndex = 0 ∧ ¬ PrefixResult (judgedInput [0,3669]) accept := by
  have answer : (verify (judgedInput [0,3669])).map (fun accept =>
      (accept.outcome,accept.perPosition,accept.acceptedPrefix,accept.firstRejectionIndex)) =
      .ok (.partialAccept,[0,1],1,0) := by decide +kernel
  cases answered : verify (judgedInput [0,3669]) with
  | error e =>
      rw [answered] at answer
      exact absurd answer (by intro same; cases same)
  | ok accept =>
      rw [answered] at answer
      obtain ⟨outcome,flags,count,index⟩ := by simpa [Except.map] using answer
      refine ⟨accept,rfl,outcome,flags,count,index,?_⟩
      intro result
      have same := result.firstRejection
      rw [count,index] at same
      exact absurd same (by decide)

end SpeculationFabric
