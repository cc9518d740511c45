import SpeculationFabric.Lifecycle

/-! The model-pair decision. The checks run one after the other over a flag and a list of
reasons, with their texts; a revision difference is recorded but does not decide. -/
namespace SpeculationFabric

structure CompatReason where
  code : String
  detail : String
  fatal : Bool := true
  deriving DecidableEq, Repr

structure ModelPairCompatibilityDecision where
  compatible : Bool := false
  cacheHit : Bool := false
  reasons : List CompatReason := []
  canonicalKey : String := ""
  deriving DecidableEq, Repr

def ModelPairCompatibilityKey.canonical (key : ModelPairCompatibilityKey) : String :=
  key.proposer.canonical ++ "|" ++ key.verifier.canonical ++ "|proto=" ++ toString key.protocolVersion

def sameExecutorKind (a b : ExecutorKind) : Bool :=
  decide (a = b) || decide (a = .unknown) || decide (b = .unknown)

structure Evaluation where
  ok : Bool := true
  reasons : List CompatReason := []
  deriving DecidableEq, Repr

def Evaluation.addReason (e : Evaluation) (code detail : String) (fatal : Bool) : Evaluation :=
  { e with reasons := e.reasons ++ [⟨code,detail,fatal⟩] }

def checkTokenizer (p v : ModelIdentity) (e : Evaluation) : Evaluation :=
  if p.tokenizer ≠ v.tokenizer then
    { e.addReason "tokenizer_mismatch" ("proposer tokenizer '" ++ p.tokenizer.name ++ "' (id " ++ p.tokenizer.id.str ++
        ") differs from verifier tokenizer '" ++ v.tokenizer.name ++ "' (id " ++ v.tokenizer.id.str ++ ")") true
      with ok := false }
  else if p.tokenizer.id.isNull then
    { e.addReason "missing_tokenizer_identity" "proposer/vocabulary identity is unset" true with ok := false }
  else e

def checkVocabulary (p v : ModelIdentity) (e : Evaluation) : Evaluation :=
  if p.tokenizer.vocabSize ≠ v.tokenizer.vocabSize then
    { e.addReason "vocabulary_size_mismatch" (toString p.tokenizer.vocabSize ++ " != " ++
        toString v.tokenizer.vocabSize ++ " vocab entries") true
      with ok := false }
  else e

def checkAdapter (p v : ModelIdentity) (e : Evaluation) : Evaluation :=
  if p.adapter.isSome ≠ v.adapter.isSome then
    { e.addReason "adapter_stack_mismatch" "one model has an adapter stack and the other does not" true with ok := false }
  else match p.adapter, v.adapter with
    | some a, some b =>
        if a ≠ b then
          { e.addReason "adapter_mismatch" ("adapter '" ++ a.name ++ "' differs from '" ++ b.name ++ "'") true
            with ok := false }
        else e
    | _, _ => e

def checkExecutorKind (p v : ModelIdentity) (e : Evaluation) : Evaluation :=
  if !sameExecutorKind p.executor.kind v.executor.kind then
    { e.addReason "executor_kind_mismatch" "executors run on different device kinds" true with ok := false }
  else e

def checkCandidateProtocol (p v : ModelIdentity) (e : Evaluation) : Evaluation :=
  if p.executor.protocolVersion ≠ 0 ∧ v.executor.protocolVersion ≠ 0 ∧
      p.executor.protocolVersion ≠ v.executor.protocolVersion then
    { e.addReason "candidate_protocol_mismatch" ("proposer protocol " ++ toString p.executor.protocolVersion ++
        " != verifier protocol " ++ toString v.executor.protocolVersion) true
      with ok := false }
  else e

def checkKeyProtocol (protocolVersion : UInt32) (e : Evaluation) : Evaluation :=
  if protocolVersion = 0 then
    { e.addReason "missing_protocol_version" "key protocol version must be >= 1" true with ok := false }
  else e

def noteRevision (p v : ModelIdentity) (e : Evaluation) : Evaluation :=
  if p.model = v.model ∧ p.revision ≠ v.revision then
    e.addReason "revision_mismatch" ("same model id at different revisions (" ++ p.revision.str ++ " vs " ++
      v.revision.str ++ "): tokens remain interpretable only if the vocabulary is unchanged (it is)") false
  else e

def evaluateCompatibility (key : ModelPairCompatibilityKey) : ModelPairCompatibilityDecision :=
  let p := key.proposer
  let v := key.verifier
  let e : Evaluation := {}
  let e := checkTokenizer p v e
  let e := checkVocabulary p v e
  let e := checkAdapter p v e
  let e := checkExecutorKind p v e
  let e := checkCandidateProtocol p v e
  let e := checkKeyProtocol key.protocolVersion e
  let e := noteRevision p v e
  { compatible := e.ok
    cacheHit := false
    reasons := e.reasons
    canonicalKey := key.canonical }

def Checks (check : Evaluation → Evaluation) (passes : Prop) : Prop :=
  ∀ e, passes ∧ check e = e ∨
    ¬passes ∧ ∃ code detail, check e = { e.addReason code detail true with ok := false }

def Evaluation.InStep (e : Evaluation) : Prop := (∃ reason ∈ e.reasons, reason.fatal = true) ↔ e.ok = false

section checks
variable {check : Evaluation → Evaluation} {passes : Prop} {e : Evaluation}

theorem Checks.ok (checks : Checks check passes) : (check e).ok = true ↔ e.ok = true ∧ passes := by
  rcases checks e with ⟨passed,same⟩ | ⟨refused,code,detail,same⟩
  · rw [same]
    exact (and_iff_left passed).symm
  · rw [same]
    exact iff_of_false Bool.false_ne_true fun both => refused both.2

theorem Checks.inStep (checks : Checks check passes) (before : e.InStep) : (check e).InStep := by
  rcases checks e with ⟨_,same⟩ | ⟨_,code,detail,same⟩
  · rw [same]
    exact before
  · rw [same]
    exact iff_of_true ⟨⟨code,detail,true⟩,List.mem_append_right _ List.mem_cons_self,rfl⟩ rfl

end checks

section pair
variable (p v : ModelIdentity)

theorem tokenizerChecks : Checks (checkTokenizer p v) (p.tokenizer = v.tokenizer ∧ p.tokenizer.id.isNull = false) := by
  intro e
  unfold checkTokenizer
  split
  · rename_i different
    exact .inr ⟨fun both => different both.1,_,_,rfl⟩
  · rename_i same
    split
    · rename_i null
      exact .inr ⟨by simp [null],_,_,rfl⟩
    · rename_i present
      exact .inl ⟨⟨not_not.mp same,Bool.eq_false_iff.mpr present⟩,rfl⟩

theorem vocabularyChecks : Checks (checkVocabulary p v) (p.tokenizer.vocabSize = v.tokenizer.vocabSize) := by
  intro e
  unfold checkVocabulary
  split
  · rename_i different
    exact .inr ⟨different,_,_,rfl⟩
  · rename_i same
    exact .inl ⟨not_not.mp same,rfl⟩

theorem adapterChecks : Checks (checkAdapter p v)
    (p.adapter = none ∧ v.adapter = none ∨ ∃ a, p.adapter = some a ∧ v.adapter = some a) := by
  intro e
  unfold checkAdapter
  cases p.adapter with
  | none =>
      cases v.adapter with
      | none => exact .inl ⟨.inl ⟨rfl,rfl⟩,rfl⟩
      | some b => exact .inr ⟨by simp,_,_,rfl⟩
  | some a =>
      cases v.adapter with
      | none => exact .inr ⟨by simp,_,_,rfl⟩
      | some b =>
          by_cases same : a = b
          · subst same
            exact .inl ⟨.inr ⟨a,rfl,rfl⟩,by simp⟩
          · exact .inr ⟨by simp [Ne.symm same],"adapter_mismatch","adapter '" ++ a.name ++ "' differs from '" ++ b.name ++ "'",
              by simp [same]⟩

theorem executorKindChecks : Checks (checkExecutorKind p v)
    (p.executor.kind = v.executor.kind ∨ p.executor.kind = .unknown ∨ v.executor.kind = .unknown) := by
  intro e
  have alike : sameExecutorKind p.executor.kind v.executor.kind = true ↔
      (p.executor.kind = v.executor.kind ∨ p.executor.kind = .unknown ∨ v.executor.kind = .unknown) := by
    simp only [sameExecutorKind,Bool.or_eq_true,decide_eq_true_eq,or_assoc]
  unfold checkExecutorKind
  rw [← alike]
  cases sameExecutorKind p.executor.kind v.executor.kind with
  | false => exact .inr ⟨Bool.false_ne_true,_,_,rfl⟩
  | true => exact .inl ⟨rfl,rfl⟩

theorem candidateProtocolChecks : Checks (checkCandidateProtocol p v)
    (p.executor.protocolVersion = v.executor.protocolVersion ∨ p.executor.protocolVersion = 0 ∨
      v.executor.protocolVersion = 0) := by
  intro e
  unfold checkCandidateProtocol
  split
  · rename_i different
    exact .inr ⟨by tauto,_,_,rfl⟩
  · rename_i alike
    exact .inl ⟨by tauto,rfl⟩

theorem keyProtocolChecks (version : UInt32) : Checks (checkKeyProtocol version) (1 ≤ version.toNat) := by
  intro e
  have zero : version = 0 ↔ version.toNat = 0 := UInt32.toNat_inj.symm
  unfold checkKeyProtocol
  split
  · rename_i none
    exact .inr ⟨by rw [zero.mp none]; exact Nat.not_succ_le_zero 0,_,_,rfl⟩
  · rename_i some_
    exact .inl ⟨Nat.pos_of_ne_zero fun none => some_ (zero.mpr none),rfl⟩

theorem revisionNoted (e : Evaluation) :
    (noteRevision p v e).ok = e.ok ∧ (e.InStep → (noteRevision p v e).InStep) := by
  unfold noteRevision
  split
  · refine ⟨rfl,fun before => ?_⟩
    rw [Evaluation.InStep,Evaluation.addReason]
    simp only [List.mem_append,List.mem_singleton,or_and_right,exists_or,exists_eq_left,Bool.false_eq_true,or_false]
    exact before
  · exact ⟨rfl,id⟩

end pair

structure CompatiblePair (p v : ModelIdentity) : Prop where
  tokenizer : p.tokenizer.id = v.tokenizer.id ∧ p.tokenizer.name = v.tokenizer.name ∧
    p.tokenizer.vocabSize = v.tokenizer.vocabSize ∧ p.tokenizer.hash = v.tokenizer.hash
  identified : p.tokenizer.id.isNull = false
  adapter : p.adapter = none ∧ v.adapter = none ∨ ∃ a, p.adapter = some a ∧ v.adapter = some a
  kind : p.executor.kind = v.executor.kind ∨ p.executor.kind = .unknown ∨ v.executor.kind = .unknown
  protocol : p.executor.protocolVersion = v.executor.protocolVersion ∨ p.executor.protocolVersion = 0 ∨
    v.executor.protocolVersion = 0

theorem CompatiblePair.symm {p v : ModelIdentity} (pair : CompatiblePair p v) : CompatiblePair v p := by
  obtain ⟨⟨id,name,size,hash⟩,identified,adapter,kind,protocol⟩ := pair
  refine ⟨⟨id.symm,name.symm,size.symm,hash.symm⟩,id ▸ identified,?_,?_,?_⟩
  · rcases adapter with ⟨none,none'⟩ | ⟨a,here,there⟩
    · exact .inl ⟨none',none⟩
    · exact .inr ⟨a,there,here⟩
  · rcases kind with same | left | right
    · exact .inl same.symm
    · exact .inr (.inr left)
    · exact .inr (.inl right)
  · rcases protocol with same | left | right
    · exact .inl same.symm
    · exact .inr (.inr left)
    · exact .inr (.inl right)

theorem tokenizerEqual (p v : ModelIdentity) : p.tokenizer = v.tokenizer ↔ p.tokenizer.id = v.tokenizer.id ∧
    p.tokenizer.name = v.tokenizer.name ∧ p.tokenizer.vocabSize = v.tokenizer.vocabSize ∧
    p.tokenizer.hash = v.tokenizer.hash := by
  cases p.tokenizer
  cases v.tokenizer
  simp

theorem compatibleIff (key : ModelPairCompatibilityKey) : (evaluateCompatibility key).compatible = true ↔
    CompatiblePair key.proposer key.verifier ∧ 1 ≤ key.protocolVersion.toNat := by
  simp only [evaluateCompatibility,(revisionNoted _ _ _).1,(keyProtocolChecks _).ok,(candidateProtocolChecks _ _).ok,
    (executorKindChecks _ _).ok,(adapterChecks _ _).ok,(vocabularyChecks _ _).ok,(tokenizerChecks _ _).ok,tokenizerEqual]
  constructor
  · rintro ⟨⟨⟨⟨⟨⟨_,tokenizer,identified⟩,_⟩,adapter⟩,kind⟩,protocol⟩,version⟩
    exact ⟨⟨tokenizer,identified,adapter,kind,protocol⟩,version⟩
  · rintro ⟨⟨tokenizer,identified,adapter,kind,protocol⟩,version⟩
    exact ⟨⟨⟨⟨⟨⟨trivial,tokenizer,identified⟩,tokenizer.2.2.1⟩,adapter⟩,kind⟩,protocol⟩,version⟩

theorem fatalIff (key : ModelPairCompatibilityKey) :
    (∃ reason ∈ (evaluateCompatibility key).reasons, reason.fatal = true) ↔
      (evaluateCompatibility key).compatible = false := by
  have fresh : Evaluation.InStep {} := by simp [Evaluation.InStep]
  exact (revisionNoted _ _ _).2 ((keyProtocolChecks _).inStep ((candidateProtocolChecks _ _).inStep
    ((executorKindChecks _ _).inStep ((adapterChecks _ _).inStep ((vocabularyChecks _ _).inStep
      ((tokenizerChecks _ _).inStep fresh))))))

def ModelPairCompatibilityKey.swapped (key : ModelPairCompatibilityKey) : ModelPairCompatibilityKey :=
  { key with proposer := key.verifier, verifier := key.proposer }

theorem compatibleSymmetric (key : ModelPairCompatibilityKey) :
    (evaluateCompatibility key.swapped).compatible = (evaluateCompatibility key).compatible := by
  rw [Bool.eq_iff_iff,compatibleIff,compatibleIff]
  constructor
  · rintro ⟨pair,version⟩
    exact ⟨pair.symm,version⟩
  · rintro ⟨pair,version⟩
    exact ⟨pair.symm,version⟩

end SpeculationFabric
