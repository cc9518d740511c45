import SpeculationFabric.Records
import SpeculationFabric.Leading

/-! The deterministic CPU verifier and the recurrence it runs. The verifier walks
its own target sequence and compares the candidate position by position; the walk
does not stop at a mismatch. Arithmetic is on 32- and 64-bit words throughout. -/
namespace SpeculationFabric

def kTargetModelSeed : UInt32 := 0x5A17B0C

def kStateWords : Nat := 16

def kSyntheticVocab : UInt32 := 4096

structure SyntheticModel where
  weights : List (List UInt32) := []
  bias : List UInt32 := []
  mixA : UInt32 := 0x9E3779B9
  mixB : UInt32 := 0x85EBCA6B
  deriving DecidableEq, Repr

def splitmix64Update (x : UInt64) : UInt32 × UInt64 :=
  let x := x + 0x9E3779B97F4A7C15
  let z := (x ^^^ (x >>> 30)) * 0xBF58476D1CE4E5B9
  let z := (z ^^^ (z >>> 27)) * 0x94D049BB133111EB
  let z := z ^^^ (z >>> 31)
  (z.toUInt32,x)

def drawWords : Nat → UInt64 → List UInt32 × UInt64
  | 0,x => ([],x)
  | n + 1,x =>
      let (word,x) := splitmix64Update x
      let (rest,x) := drawWords n x
      (word :: rest,x)

def drawRows : Nat → UInt64 → List (List UInt32 × UInt32)
  | 0,_ => []
  | n + 1,x =>
      let (row,x) := drawWords kStateWords x
      let (bias,x) := splitmix64Update x
      (row.map (· &&& 0xFFFF),bias &&& 0xFFFF) :: drawRows n x

def makeTargetModel : SyntheticModel :=
  let rows := drawRows kStateWords (kTargetModelSeed.toUInt64 ||| ((1 : UInt64) <<< 32))
  { weights := rows.map Prod.fst, bias := rows.map Prod.snd }

def SyntheticModel.seedState (seed : UInt64) : List UInt32 := (drawWords kStateWords seed).1

def SyntheticModel.step (m : SyntheticModel) (state : List UInt32) (prevToken : UInt32) : List UInt32 :=
  (m.bias.zip m.weights).map (fun (bias,row) =>
    (state.zip row).foldl (fun acc (word,weight) => (acc * m.mixB) ^^^ (word * weight))
      (bias ^^^ (m.mixA * prevToken)))

def SyntheticModel.token (m : SyntheticModel) (state : List UInt32) (index prevToken vocabSize : UInt32) : UInt32 :=
  let raw := state.getD 0 0 ^^^ state.getD 7 0 ^^^ state.getD 13 0 ^^^ (m.mixA * (index + 1)) ^^^ m.mixB ^^^ prevToken
  if vocabSize = 0 then 0 else raw % vocabSize

def mix64 (a b c d : UInt64) : UInt64 :=
  let x := (a * 0x9E3779B97F4A7C15) ^^^ b
  let x := (x ^^^ (x >>> 27)) * 0xBF58476D1CE4E5B9
  let x := (x ^^^ (x >>> 31)) * 0x94D049BB133111EB
  let x := (x ^^^ (x >>> 27)) + c * 0x9E3779B97F4A7C15
  let x := x ^^^ d
  let x := (x ^^^ (x >>> 30)) * 0xBF58476D1CE4E5B9
  let x := (x ^^^ (x >>> 29)) * 0x94D049BB133111EB
  x ^^^ (x >>> 32)

def targetSeed (input : VerificationInput) : UInt64 :=
  let base := (input.authoritativeState.id.value * 0x9E3779B97F4A7C15) ^^^
    (input.authoritativeState.generation.value * 0x94D049BB133111EB)
  mix64 base input.authoritativeGeneration.value input.proposer.revision.value
    (UInt64.ofNat input.candidate.size * 0x100000001B3)

structure Acceptance where
  state : List UInt32
  prev : UInt32 := 0
  acceptedPrefix : UInt32 := 0
  firstRejectionIndex : UInt32
  perPosition : List UInt8 := []
  deriving DecidableEq, Repr

def acceptPosition (tgt : SyntheticModel) (n i : UInt32) (token : Token) (a : Acceptance) : Acceptance :=
  let expected := tgt.token a.state i a.prev kSyntheticVocab
  let accepted := expected == token.id
  { state := tgt.step a.state expected
    prev := expected
    acceptedPrefix := if accepted then a.acceptedPrefix + 1 else a.acceptedPrefix
    firstRejectionIndex := if !accepted && a.firstRejectionIndex == n then i else a.firstRejectionIndex
    perPosition := a.perPosition ++ [if accepted then 1 else 0] }

def acceptFrom (tgt : SyntheticModel) (n : UInt32) : UInt32 → List Token → Acceptance → Acceptance
  | _,[],a => a
  | i,token :: rest,a => acceptFrom tgt n (i + 1) rest (acceptPosition tgt n i token a)

def acceptanceStart (input : VerificationInput) : Acceptance :=
  { state := SyntheticModel.seedState (targetSeed input)
    firstRejectionIndex := UInt32.ofNat input.candidate.size }

def acceptAll (input : VerificationInput) : Acceptance :=
  let n := UInt32.ofNat input.candidate.size
  acceptFrom makeTargetModel n 0 (input.candidate.tokens.take n.toNat) (acceptanceStart input)

def verifierFailure (input : VerificationInput) (retryable : Bool) (note : String) : AcceptanceResult :=
  { outcome := .verifierFailure
    candidateLength := UInt32.ofNat input.candidate.size
    retryable := retryable
    verifierNote := note }

def verify (input : VerificationInput) : Result AcceptanceResult :=
  if input.candidate.tokens.isEmpty then .ok (verifierFailure input true "candidate is empty")
  else if input.candidateIdentity.tokenizer.isNull then .ok (verifierFailure input true "tokenizer identity missing")
  else if input.candidateIdentity.vocabSize ≠ kSyntheticVocab then
    .ok (verifierFailure input false "vocabulary size incompatible")
  else
    let n := UInt32.ofNat input.candidate.size
    let a := acceptAll input
    let generation : StateGeneration := ⟨input.authoritativeState.generation.value + a.acceptedPrefix.toUInt64⟩
    .ok {
      outcome :=
        if a.acceptedPrefix = n then .fullAccept else if a.acceptedPrefix = 0 then .rejectAll else .partialAccept
      candidateLength := n
      acceptedPrefix := a.acceptedPrefix
      firstRejectionIndex := a.firstRejectionIndex
      perPosition := a.perPosition
      authoritativeNextGeneration := ⟨input.authoritativeGeneration.value + a.acceptedPrefix.toUInt64⟩
      authoritativeNextState := { input.authoritativeState with generation := generation }
      authoritativeNextStateGeneration := generation
      executionMeasuredNs := n.toUInt64
      verifierNote := "deterministic verifier accepted " ++ toString a.acceptedPrefix ++ "/" ++ toString n }

/- The tokens the verifier expects: the recurrence followed along its own output. -/
def targetFrom (tgt : SyntheticModel) : Nat → UInt32 → List UInt32 → UInt32 → List UInt32
  | 0,_,_,_ => []
  | count + 1,i,state,prev =>
      let expected := tgt.token state i prev kSyntheticVocab
      expected :: targetFrom tgt count (i + 1) (tgt.step state expected) expected

def targetSequence (input : VerificationInput) : List UInt32 :=
  targetFrom makeTargetModel (UInt32.ofNat input.candidate.size).toNat 0
    (SyntheticModel.seedState (targetSeed input)) 0

def agreements (input : VerificationInput) : List Bool :=
  List.zipWith (· == ·) (targetSequence input) (input.candidate.tokens.map Token.id)

theorem nextPosition {i : UInt32} (room : i.toNat + 1 < 2^32) : (i + 1).toNat = i.toNat + 1 := by
  rw [UInt32.toNat_add]
  exact Nat.mod_eq_of_lt room

theorem targetLength (tgt : SyntheticModel) (count : Nat) (i : UInt32) (state : List UInt32) (prev : UInt32) :
    (targetFrom tgt count i state prev).length = count := by
  induction count generalizing i state prev with
  | zero => rfl
  | succ count ih => simp only [targetFrom,List.length_cons,ih]

section loop
variable (tgt : SyntheticModel) (n : UInt32)

def verdictsFrom (i : UInt32) (tokens : List Token) (a : Acceptance) : List Bool :=
  List.zipWith (· == ·) (targetFrom tgt tokens.length i a.state a.prev) (tokens.map Token.id)

theorem verdictsCons (i : UInt32) (token : Token) (rest : List Token) (a : Acceptance) :
    verdictsFrom tgt i (token :: rest) a =
      (tgt.token a.state i a.prev kSyntheticVocab == token.id) ::
        verdictsFrom tgt (i + 1) rest (acceptPosition tgt n i token a) := rfl

theorem acceptPositions (tokens : List Token) (i : UInt32) (a : Acceptance) :
    (acceptFrom tgt n i tokens a).perPosition =
      a.perPosition ++ (verdictsFrom tgt i tokens a).map (fun accepted => if accepted then 1 else 0) := by
  induction tokens generalizing i a with
  | nil => simp [acceptFrom,verdictsFrom]
  | cons token rest ih =>
      rw [acceptFrom,ih,verdictsCons tgt n,List.map_cons,← List.singleton_append,← List.append_assoc]
      rfl

theorem acceptCount (tokens : List Token) (i : UInt32) (a : Acceptance) :
    (acceptFrom tgt n i tokens a).acceptedPrefix =
      a.acceptedPrefix + UInt32.ofNat ((verdictsFrom tgt i tokens a).count true) := by
  induction tokens generalizing i a with
  | nil => simp [acceptFrom,verdictsFrom]
  | cons token rest ih =>
      rw [acceptFrom,ih,verdictsCons tgt n,List.count_cons]
      cases agrees : tgt.token a.state i a.prev kSyntheticVocab == token.id with
      | true =>
          simp only [acceptPosition,agrees,if_true,beq_self_eq_true,UInt32.ofNat_add]
          rw [UInt32.add_assoc,UInt32.add_comm 1]
          rfl
      | false => simp [acceptPosition,agrees]

theorem acceptRejected (tokens : List Token) (i : UInt32) (a : Acceptance) (seen : a.firstRejectionIndex ≠ n) :
    (acceptFrom tgt n i tokens a).firstRejectionIndex = a.firstRejectionIndex := by
  induction tokens generalizing i a with
  | nil => rfl
  | cons token rest ih =>
      have kept : (acceptPosition tgt n i token a).firstRejectionIndex = a.firstRejectionIndex := by
        simp [acceptPosition,seen]
      rw [acceptFrom,ih _ _ (by rw [kept]; exact seen),kept]

theorem acceptFirstRejection (tokens : List Token) (i : UInt32) (a : Acceptance) (none : a.firstRejectionIndex = n)
    (ends : i.toNat + tokens.length = n.toNat) :
    (acceptFrom tgt n i tokens a).firstRejectionIndex.toNat =
      i.toNat + Leading.leading (verdictsFrom tgt i tokens a) := by
  induction tokens generalizing i a with
  | nil =>
      rw [acceptFrom,none]
      simpa [verdictsFrom] using ends.symm
  | cons token rest ih =>
      rw [List.length_cons] at ends
      have small : i.toNat < n.toNat := by omega
      have bound := n.toNat_lt
      have next : (i + 1).toNat = i.toNat + 1 := nextPosition (by omega)
      rw [acceptFrom,verdictsCons tgt n]
      cases agrees : tgt.token a.state i a.prev kSyntheticVocab == token.id with
      | true =>
          have kept : (acceptPosition tgt n i token a).firstRejectionIndex = n := by
            simp [acceptPosition,agrees,none]
          rw [ih _ _ kept (by omega),Leading.leadingTrue]
          omega
      | false =>
          have here : (acceptPosition tgt n i token a).firstRejectionIndex = i := by
            simp [acceptPosition,agrees,none]
          have before : i ≠ n := by
            rintro rfl
            omega
          rw [acceptRejected tgt n _ _ _ (by rw [here]; exact before),here,Leading.leadingFalse]
          rfl

end loop

theorem zipTake {α β γ : Type} (f : α → β → γ) (xs : List α) (ys : List β) (n : Nat) (short : xs.length ≤ n) :
    List.zipWith f xs (ys.take n) = List.zipWith f xs ys := by
  induction xs generalizing ys n with
  | nil => rfl
  | cons a xs ih =>
      cases ys with
      | nil => simp
      | cons b ys =>
          cases n with
          | zero => exact absurd short (by simp)
          | succ n =>
              rw [List.take_succ_cons,List.zipWith_cons_cons,List.zipWith_cons_cons,ih ys n (by simpa using short)]

structure Judged (input : VerificationInput) (accept : AcceptanceResult) : Prop where
  perPosition : accept.perPosition = (agreements input).map (fun accepted => if accepted then 1 else 0)
  acceptedPrefix : accept.acceptedPrefix.toNat = (agreements input).count true
  firstRejection : accept.firstRejectionIndex.toNat = Leading.leading (agreements input)
  nextGeneration : accept.authoritativeNextGeneration =
    ⟨input.authoritativeGeneration.value + accept.acceptedPrefix.toUInt64⟩

theorem agreementsLength (input : VerificationInput) :
    (agreements input).length = (UInt32.ofNat input.candidate.size).toNat := by
  have below : (UInt32.ofNat input.candidate.size).toNat ≤ input.candidate.size := by
    rw [UInt32.toNat_ofNat']
    exact Nat.mod_le _ _
  rw [agreements,List.length_zipWith,targetSequence,targetLength,List.length_map]
  exact Nat.min_eq_left below

theorem verdictsAgreements (input : VerificationInput) :
    verdictsFrom makeTargetModel 0 (input.candidate.tokens.take (UInt32.ofNat input.candidate.size).toNat)
      (acceptanceStart input) = agreements input := by
  have below : (UInt32.ofNat input.candidate.size).toNat ≤ input.candidate.tokens.length := by
    rw [UInt32.toNat_ofNat']
    exact Nat.mod_le _ _
  unfold verdictsFrom agreements targetSequence
  rw [List.length_take,Nat.min_eq_left below,List.map_take]
  exact zipTake _ _ _ _ (by rw [targetLength])

theorem verifyJudged {input : VerificationInput} (filled : input.candidate.tokens ≠ [])
    (tokenizer : input.candidateIdentity.tokenizer.isNull = false)
    (vocabulary : input.candidateIdentity.vocabSize = kSyntheticVocab) :
    ∃ accept, verify input = .ok accept ∧ Judged input accept := by
  have nonempty : input.candidate.tokens.isEmpty = false := by simpa using filled
  simp only [verify,nonempty,tokenizer,vocabulary,ne_eq,not_true_eq_false,if_false,Bool.false_eq_true]
  refine ⟨_,rfl,?_,?_,?_,rfl⟩
  · show (acceptAll input).perPosition = _
    rw [acceptAll,acceptPositions,verdictsAgreements]
    rfl
  · have bound : (agreements input).count true < UInt32.size :=
      List.count_le_length.trans_lt (by rw [agreementsLength]; exact UInt32.toNat_lt _)
    show (acceptAll input).acceptedPrefix.toNat = _
    rw [acceptAll,acceptCount,verdictsAgreements]
    show (0 + UInt32.ofNat _).toNat = _
    rw [UInt32.zero_add]
    exact UInt32.toNat_ofNat_of_lt' bound
  · have ends : (0 : UInt32).toNat + (input.candidate.tokens.take (UInt32.ofNat input.candidate.size).toNat).length =
        (UInt32.ofNat input.candidate.size).toNat := by
      have below := Nat.mod_le input.candidate.tokens.length (2^32)
      rw [List.length_take,UInt32.toNat_ofNat']
      show 0 + min (input.candidate.tokens.length % 2^32) input.candidate.tokens.length =
        input.candidate.tokens.length % 2^32
      omega
    have first := acceptFirstRejection makeTargetModel (UInt32.ofNat input.candidate.size) _ 0
      (acceptanceStart input) rfl ends
    rw [verdictsAgreements] at first
    exact first.trans (Nat.zero_add _)

end SpeculationFabric
