import SpeculationFabric.DraftTarget

/-! What the verifier's expectations depend on. They are drawn from the authority, as the
comment on the seed says, but also from the length of the candidate: two candidates of one
length are held against one target, two of different lengths against different ones. -/
namespace SpeculationFabric

def verdictAt (input : VerificationInput) (i : Nat) : Option UInt8 :=
  match verify input with
  | .ok accept => accept.perPosition[i]?
  | .error _ => none

def VerificationInput.about (input : VerificationInput) (c : CandidateSequence) : VerificationInput :=
  { input with candidate := c }

def SameVerdicts (input : VerificationInput) (c d : CandidateSequence) : Prop :=
  ∀ i t, (c.tokens[i]?).map Token.id = some t → (d.tokens[i]?).map Token.id = some t →
    verdictAt (input.about c) i = verdictAt (input.about d) i

def Served (input : VerificationInput) : Prop :=
  input.candidateIdentity.tokenizer.isNull = false ∧ input.candidateIdentity.vocabSize = kSyntheticVocab

theorem verdictUnserved {input : VerificationInput} (turned : ¬Served input) (i : Nat) : verdictAt input i = none := by
  rw [verdictAt,verify]
  by_cases empty : input.candidate.tokens.isEmpty
  · rw [if_pos empty]
    rfl
  rw [if_neg empty]
  by_cases null : input.candidateIdentity.tokenizer.isNull
  · rw [if_pos null]
    rfl
  rw [if_neg null,if_pos]
  · rfl
  intro vocabulary
  exact turned ⟨by simpa using null,vocabulary⟩

theorem verdictServed {input : VerificationInput} (served : Served input) (filled : input.candidate.tokens ≠ [])
    (i : Nat) : verdictAt input i =
      ((agreements input)[i]?).map fun accepted => if accepted then 1 else 0 := by
  obtain ⟨accept,answers,judged⟩ := verifyJudged filled served.1 served.2
  rw [verdictAt,answers]
  show accept.perPosition[i]? = _
  rw [judged.perPosition,List.getElem?_map]

theorem targetOfLength (input : VerificationInput) {c d : CandidateSequence} (sizes : c.size = d.size) :
    targetSequence (input.about c) = targetSequence (input.about d) := by
  have seeds : targetSeed (input.about c) = targetSeed (input.about d) := by
    show mix64 _ _ _ (UInt64.ofNat c.size * _) = mix64 _ _ _ (UInt64.ofNat d.size * _)
    rw [sizes]
    rfl
  rw [targetSequence,targetSequence,seeds]
  show targetFrom _ (UInt32.ofNat c.size).toNat _ _ _ = targetFrom _ (UInt32.ofNat d.size).toNat _ _ _
  rw [sizes]

theorem verdictOf {input : VerificationInput} (served : Served input) {i : Nat} {t : UInt32}
    (here : (input.candidate.tokens[i]?).map Token.id = some t) :
    verdictAt input i = ((targetSequence input)[i]?).map fun expected => if expected == t then 1 else 0 := by
  have filled : input.candidate.tokens ≠ [] := by
    intro empty
    rw [empty] at here
    cases here
  rw [verdictServed served filled,agreements,List.getElem?_zipWith,List.getElem?_map,here]
  cases (targetSequence input)[i]? with
  | none => rfl
  | some expected => rfl

theorem verdictsOfOneLength (input : VerificationInput) {c d : CandidateSequence} (sizes : c.size = d.size) :
    SameVerdicts input c d := by
  intro i t left right
  by_cases served : Served input
  · rw [verdictOf (show Served (input.about c) from served) left,
      verdictOf (show Served (input.about d) from served) right,targetOfLength input sizes]
  · rw [verdictUnserved (show ¬Served (input.about c) from served),
      verdictUnserved (show ¬Served (input.about d) from served)]

def drawn (k : Nat) (x : UInt64) : UInt32 := (splitmix64Update (Nat.iterate (· + 0x9E3779B97F4A7C15) k x)).1

def firstExpected (generation : UInt64) (n : Nat) : UInt32 :=
  let x := mix64 0 generation 0 (UInt64.ofNat n * 0x100000001B3)
  (drawn 0 x ^^^ drawn 7 x ^^^ drawn 13 x ^^^ 0x9E3779B9 ^^^ 0x85EBCA6B) % 4096

def bare (generation : UInt64) : VerificationInput :=
  { authoritativeGeneration := ⟨generation⟩, candidateIdentity := { tokenizer := ⟨9⟩, vocabSize := 4096 } }

theorem firstToken (x : UInt64) (tgt : SyntheticModel) :
    tgt.token (SyntheticModel.seedState x) 0 0 kSyntheticVocab =
      (drawn 0 x ^^^ drawn 7 x ^^^ drawn 13 x ^^^ tgt.mixA * 1 ^^^ tgt.mixB) % 4096 := by
  rw [SyntheticModel.token,if_neg (by decide)]
  show (_ ^^^ (0 : UInt32)) % 4096 = _
  rw [UInt32.xor_zero]
  rfl

theorem bareTarget (generation : UInt64) {n : Nat} (positive : 0 < n) (small : n < 2 ^ 32) {c : CandidateSequence}
    (size : c.size = n) : (targetSequence ((bare generation).about c))[0]? = some (firstExpected generation n) := by
  have count : (UInt32.ofNat c.size).toNat = n := by
    rw [size]
    exact UInt32.toNat_ofNat_of_lt' small
  have seed : targetSeed ((bare generation).about c) = mix64 0 generation 0 (UInt64.ofNat n * 0x100000001B3) := by
    show mix64 (0 * _ ^^^ 0 * _) generation 0 (UInt64.ofNat c.size * _) = _
    rw [size]
    rfl
  rw [targetSequence,seed]
  show (targetFrom _ (UInt32.ofNat c.size).toNat _ _ _)[0]? = _
  rw [count]
  cases n with
  | zero => cases positive
  | succ n =>
      rw [targetFrom,List.getElem?_cons_zero,firstToken]
      rfl

def fresh : Nat → List Nat → Bool
  | _,[] => true
  | marks,k :: rest => !marks.testBit k && fresh (marks ||| 2 ^ k) rest

theorem freshNodup {marks : Nat} {ks : List Nat} (passes : fresh marks ks = true) :
    ks.Nodup ∧ ∀ k ∈ ks, marks.testBit k = false := by
  induction ks generalizing marks with
  | nil => exact ⟨List.nodup_nil,fun _ member => absurd member List.not_mem_nil⟩
  | cons k rest ih =>
      rw [fresh,Bool.and_eq_true,Bool.not_eq_true'] at passes
      obtain ⟨distinct,unmarked⟩ := ih passes.2
      have later : ∀ j ∈ rest, marks.testBit j = false ∧ j ≠ k := by
        intro j member
        have bit := unmarked j member
        rw [Nat.testBit_or,Nat.testBit_two_pow,Bool.or_eq_false_iff] at bit
        exact ⟨bit.1,fun same => of_decide_eq_false bit.2 same.symm⟩
      refine ⟨List.nodup_cons.mpr ⟨fun member => (later k member).2 rfl,distinct⟩,?_⟩
      intro j member
      rcases List.mem_cons.mp member with rfl | here
      · exact passes.1
      · exact (later j here).1

/- The first tokens expected under two base generations, as one number below the least
modulus that keeps the lengths apart. -/
def lengthMark (n : Nat) : Nat := ((firstExpected 0 n).toNat + 4096 * (firstExpected 1 n).toNat) % 4881

theorem lengthMarksFresh : fresh 0 ((List.range 256).map fun n => lengthMark (n + 1)) = true := by decide +kernel

theorem lengthsApart {n m : Nat} (left : 1 ≤ n ∧ n ≤ 256) (right : 1 ≤ m ∧ m ≤ 256) (differ : n ≠ m) :
    ∃ generation, firstExpected generation n ≠ firstExpected generation m := by
  by_contra never
  rw [not_exists] at never
  have marks : lengthMark n = lengthMark m := by
    rw [lengthMark,lengthMark,not_not.mp (never 0),not_not.mp (never 1)]
  have distinct := (freshNodup lengthMarksFresh).1
  have at_ (k : Nat) (range : 1 ≤ k ∧ k ≤ 256) :
      ((List.range 256).map fun n => lengthMark (n + 1))[k - 1]? = some (lengthMark k) := by
    rw [List.getElem?_map,List.getElem?_range (by omega),Option.map_some,Nat.sub_add_cancel range.1]
  have inside : n - 1 < ((List.range 256).map fun n => lengthMark (n + 1)).length := by
    rw [List.length_map,List.length_range]
    omega
  have same := (List.getElem?_inj inside distinct).mp
    ((at_ n left).trans ((congrArg some marks).trans (at_ m right).symm))
  omega

def repeated (n : Nat) (t : UInt32) : CandidateSequence := ⟨List.replicate n { id := t }⟩

theorem repeatedSize (n : Nat) (t : UInt32) : (repeated n t).size = n := List.length_replicate

theorem repeatedFirst {n : Nat} (positive : 0 < n) (t : UInt32) :
    ((repeated n t).tokens[0]?).map Token.id = some t := by
  rw [repeated,List.getElem?_replicate,if_pos positive]
  rfl

theorem lengthShows {generation : UInt64} {n m : Nat} (left : 0 < n ∧ n < 2 ^ 32) (right : 0 < m ∧ m < 2 ^ 32)
    (differ : firstExpected generation n ≠ firstExpected generation m) :
    ¬SameVerdicts (bare generation) (repeated n (firstExpected generation n))
      (repeated m (firstExpected generation n)) := by
  intro same
  have verdict {k : Nat} (range : 0 < k ∧ k < 2 ^ 32) (t : UInt32) :
      verdictAt ((bare generation).about (repeated k t)) 0 =
        some (if firstExpected generation k == t then 1 else 0) := by
    have served : Served ((bare generation).about (repeated k t)) := ⟨rfl,rfl⟩
    have judged := verdictOf served (repeatedFirst range.1 t)
    rwa [bareTarget generation range.1 range.2 (repeatedSize k t)] at judged
  have verdicts := same 0 _ (repeatedFirst left.1 _) (repeatedFirst right.1 _)
  rw [verdict left,verdict right,beq_self_eq_true,beq_false_of_ne differ.symm] at verdicts
  exact absurd (Option.some.inj verdicts) (by decide)

theorem verdictsFollowLength (n m : Nat) :
    (n = m → ∀ input c d, c.size = n → d.size = m → SameVerdicts input c d) ∧
    (1 ≤ n ∧ n ≤ 256 → 1 ≤ m ∧ m ≤ 256 →
      (∀ input c d, c.size = n → d.size = m → SameVerdicts input c d) → n = m) := by
  constructor
  · rintro rfl input c d sizes size
    exact verdictsOfOneLength input (sizes.trans size.symm)
  · intro left right blind
    by_contra differ
    obtain ⟨generation,apart⟩ := lengthsApart left right differ
    exact lengthShows ⟨by omega,by omega⟩ ⟨by omega,by omega⟩ apart
      (blind _ _ _ (repeatedSize _ _) (repeatedSize _ _))

theorem oneLengthOneTarget : SameVerdicts (bare 0) (repeated 2 7) (repeated 2 9) ∧
    ¬ ∀ input c d, c.size = 255 → d.size = 256 → SameVerdicts input c d := by
  refine ⟨(verdictsFollowLength 2 2).1 rfl _ _ _ rfl rfl,?_⟩
  intro blind
  exact absurd ((verdictsFollowLength 255 256).2 (by decide) (by decide) blind) (by decide)

theorem longerCandidateJudgedAnew :
    verdictAt ((bare 0).about ⟨[{ id := 1645 }]⟩) 0 = some 1 ∧
    verdictAt ((bare 0).about ⟨[{ id := 1645 },{ id := 0 }]⟩) 0 = some 0 ∧
    ¬ ∀ input c d, c.tokens ≠ [] → d.tokens ≠ [] → SameVerdicts input c d := by
  have alone : verdictAt ((bare 0).about ⟨[{ id := 1645 }]⟩) 0 = some 1 := by decide +kernel
  have ahead : verdictAt ((bare 0).about ⟨[{ id := 1645 },{ id := 0 }]⟩) 0 = some 0 := by decide +kernel
  refine ⟨alone,ahead,?_⟩
  intro blind
  have same := blind (bare 0) ⟨[{ id := 1645 }]⟩ ⟨[{ id := 1645 },{ id := 0 }]⟩ (by simp) (by simp) 0 1645 rfl rfl
  rw [alone,ahead] at same
  exact absurd (Option.some.inj same) (by decide)

end SpeculationFabric
