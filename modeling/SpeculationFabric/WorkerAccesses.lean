import SpeculationFabric.Guarded
import SpeculationFabric.Worker

/-! The worker's two handlers once more, with the element reads they make of a
message's fields and of the candidate. None of these is checked. The worker has the
outcome the model gives it while its reads stay inside, and none otherwise; which
messages these are is said exactly. A field read twice is read once here. -/
namespace SpeculationFabric.Dist

open Wire
open Guarding
open Guarding.Guarded

def guardedProposalInput (m : Message) : Guarded ProposalInput := do
  let stateId ← element m.u64Fields pdBaseStateId
  let stateGen ← element m.u64Fields pdBaseStateGen
  let baseGen ← element m.u64Fields pdBaseGen
  let depth ← element m.u32Fields pdDepth
  let branch ← element m.u64Fields pdBranch
  let branchCount ← element m.u32Fields pdBranchCount
  let dispatch ← element m.u64Fields pdDispatch
  let attempt ← element m.u64Fields pdAttempt
  let epoch ← element m.u64Fields pdEpoch
  let request ← element m.u64Fields pdRequest
  let sequence ← element m.u64Fields pdSequence
  let revision ← element m.u64Fields pdProposerRev
  let boot ← element m.u64Fields pdProposerBoot
  pure {
    baseState := ⟨⟨stateId⟩,⟨stateGen⟩⟩
    baseGeneration := ⟨baseGen⟩
    depth := depth
    branchIndex := branch.toUInt32
    branchCount := branchCount
    deterministicSeed := dispatch ^^^ attempt
    provenance := {
      epoch := ⟨epoch⟩
      request := ⟨request⟩
      sequence := ⟨sequence⟩
      attempt := ⟨attempt⟩
      branch := ⟨branch + 1⟩
      proposerModel := { revision := ⟨revision⟩ }
      proposerBoot := ⟨boot⟩
      baseGeneration := ⟨baseGen⟩
      dispatch := ⟨dispatch⟩ } }

def proposalMessage (input : ProposalInput) (branch propogen : UInt64) : Result ProposalResult → Option Message
  | .error _ => none
  | .ok r =>
      let p := input.provenance
      some {
        type := Msg.proposalResult
        u64Fields := [p.request.value,p.sequence.value,p.attempt.value,p.epoch.value,p.dispatch.value,branch,
          p.baseGeneration.value,p.proposerBoot.value,p.proposerModel.revision.value,propogen,r.executionMeasuredNs]
        u32Fields := outcomeCode r :: input.depth :: candidateFields input.depth r.candidate }

def guardedProposalAnswer (m : Message) : Guarded (Option Message) := do
  let aligned ← element m.u32Fields pdAligned
  let input ← guardedProposalInput m
  let branch ← element m.u64Fields pdBranch
  let propogen ← element m.u64Fields pdPropogen
  pure (proposalMessage input branch propogen (CpuProposer.propose { alignedTokens := aligned } input))

def guardedVerify (input : VerificationInput) : Guarded (Result AcceptanceResult) := do
  let checked := !input.candidate.tokens.isEmpty && !input.candidateIdentity.tokenizer.isNull &&
    input.candidateIdentity.vocabSize == kSyntheticVocab
  let _ ← elements input.candidate.tokens 0 (if checked then (UInt32.ofNat input.candidate.size).toNat else 0)
  pure (verify input)

def guardedVerificationAnswer (m : Message) : Guarded Message := do
  let stateId ← element m.u64Fields vdStateId
  let stateGen ← element m.u64Fields vdStateGen
  let baseGen ← element m.u64Fields vdBaseGen
  let epoch ← element m.u64Fields vdEpoch
  let request ← element m.u64Fields vdRequest
  let sequence ← element m.u64Fields vdSequence
  let attempt ← element m.u64Fields vdAttempt
  let dispatch ← element m.u64Fields vdDispatch
  let boot ← element m.u64Fields vdProposerBoot
  let revision ← element m.u64Fields vdProposerRev
  let tokenizer ← element m.u32Fields vdTokenizer
  let vocab ← element m.u32Fields vdVocab
  let len ← element m.u32Fields vdLen
  let tokens ← elements m.u32Fields vdTokens len.toNat
  let result ← guardedVerify {
    authoritativeState := ⟨⟨stateId⟩,⟨stateGen⟩⟩
    authoritativeGeneration := ⟨baseGen⟩
    epoch := ⟨epoch⟩
    request := ⟨request⟩
    sequence := ⟨sequence⟩
    attempt := ⟨attempt⟩
    dispatch := ⟨dispatch⟩
    verifierBoot := ⟨boot⟩
    authoritativeStateGeneration := ⟨stateGen⟩
    proposer := { revision := ⟨revision⟩ }
    candidateIdentity := { tokenizer := ⟨tokenizer.toUInt64⟩, vocabSize := vocab }
    candidate := ⟨tokens.map fun id => { id := id }⟩ }
  pure {
    type := Msg.verificationResult
    u64Fields := [request,sequence,attempt,epoch,baseGen,dispatch,stateId,stateGen]
    u32Fields := verdictFields len result }

def guardedServe (frame : List UInt8) : Guarded Served :=
  match decode frame with
  | .error _ => pure .ignored
  | .ok m =>
      if m.type = Msg.shutdown then pure .stopped
      else if m.type = Msg.proposalDispatch then do
        let out ← guardedProposalAnswer m
        pure (sentFrame out)
      else if m.type = Msg.verificationDispatch then do
        let out ← guardedVerificationAnswer m
        pure (sentFrame (some out))
      else pure .ignored

theorem proposalInputSafe (m : Message) :
    (guardedProposalInput m).Safe ↔ 11 ≤ m.u64Fields.length ∧ 3 ≤ m.u32Fields.length := by
  simp only [guardedProposalInput,safeReads,exists_and_right,existsElement,safePure,and_true,pdBaseStateId,
    pdBaseStateGen,pdBaseGen,pdDepth,pdBranch,pdBranchCount,pdDispatch,pdAttempt,pdEpoch,pdRequest,pdSequence,
    pdProposerRev,pdProposerBoot]
  omega

theorem proposalAnswerSafe (m : Message) :
    (guardedProposalAnswer m).Safe ↔ 12 ≤ m.u64Fields.length ∧ 3 ≤ m.u32Fields.length := by
  rw [guardedProposalAnswer,safeThen (P := 12 ≤ m.u64Fields.length ∧ 3 ≤ m.u32Fields.length),safeElement,pdAligned]
  · omega
  intro aligned
  rw [safeThen (P := 12 ≤ m.u64Fields.length),proposalInputSafe]
  · omega
  intro input
  simp only [safeReads,exists_and_right,existsElement,safePure,and_true,pdBranch,pdPropogen]
  omega

theorem verifySafe (input : VerificationInput) : (guardedVerify input).value = some (verify input) := by
  have fits : (UInt32.ofNat input.candidate.size).toNat ≤ input.candidate.tokens.length := by
    rw [UInt32.toNat_ofNat']
    exact Nat.mod_le _ _
  rw [guardedVerify,valueBind,valueElements,if_pos]
  · rfl
  · split
    · exact .inr (by omega)
    · exact .inl rfl

def DeclaredThere (m : Message) : Prop :=
  ∀ len, m.u32Fields[vdLen]? = some len → vdTokens + len.toNat ≤ m.u32Fields.length

theorem verificationAnswerSafe (m : Message) :
    (guardedVerificationAnswer m).Safe ↔ 10 ≤ m.u64Fields.length ∧ 3 ≤ m.u32Fields.length ∧ DeclaredThere m := by
  have loop (len : UInt32) (f : List UInt32 → VerificationInput) (g : Result AcceptanceResult → Message) :
      (elements m.u32Fields vdTokens len.toNat >>= fun tokens => guardedVerify (f tokens) >>= fun result =>
        pure (g result)).Safe ↔ len.toNat = 0 ∨ vdTokens + len.toNat ≤ m.u32Fields.length := by
    rw [safeThen (P := True),safeElements,and_true]
    intro tokens
    rw [safeThen (P := True),and_true,iff_true]
    · exact safeOf (verifySafe _)
    · intro result
      rw [iff_true]
      exact safePure _
  simp only [guardedVerificationAnswer,safeReads,loop,exists_and_right,existsElement]
  simp only [DeclaredThere,vdStateId,vdStateGen,vdBaseGen,vdEpoch,vdRequest,vdSequence,vdAttempt,vdDispatch,
    vdProposerBoot,vdProposerRev,vdTokenizer,vdVocab,vdLen,vdTokens]
  constructor
  · rintro ⟨_,_,_,_,_,_,_,_,u64s,_,_,_,len,found,inside⟩
    have there : 2 < m.u32Fields.length := (existsElement _ _).mp ⟨len,found⟩
    refine ⟨by omega,by omega,?_⟩
    intro other same
    cases found.symm.trans same
    omega
  · rintro ⟨u64s,u32s,declared⟩
    obtain ⟨len,found⟩ := (existsElement m.u32Fields 2).mpr (by omega)
    refine ⟨by omega,by omega,by omega,by omega,by omega,by omega,by omega,by omega,by omega,by omega,by omega,
      by omega,len,found,.inr (declared len found)⟩

def WorkerFields (frame : List UInt8) : Prop :=
  ∀ m, decode frame = .ok m →
    (m.type = Msg.proposalDispatch → 12 ≤ m.u64Fields.length ∧ 3 ≤ m.u32Fields.length) ∧
    (m.type = Msg.verificationDispatch →
      10 ≤ m.u64Fields.length ∧ 3 ≤ m.u32Fields.length ∧ DeclaredThere m)

theorem serveSafe (frame : List UInt8) : (guardedServe frame).Safe ↔ WorkerFields frame := by
  rw [guardedServe]
  cases decoded : decode frame with
  | error e => simp [WorkerFields,decoded]
  | ok m =>
      simp only [WorkerFields,decoded,Except.ok.injEq,forall_eq']
      by_cases stops : m.type = Msg.shutdown
      · simp [stops,Msg.shutdown,Msg.proposalDispatch,Msg.verificationDispatch]
      by_cases proposes : m.type = Msg.proposalDispatch
      · rw [if_neg stops,if_pos proposes,safeThen (P := True),proposalAnswerSafe]
        · simp [proposes,Msg.proposalDispatch,Msg.verificationDispatch]
        · simp
      by_cases verifies : m.type = Msg.verificationDispatch
      · rw [if_neg stops,if_neg proposes,if_pos verifies,safeThen (P := True),verificationAnswerSafe]
        · simp [verifies,Msg.proposalDispatch,Msg.verificationDispatch]
        · simp
      · simp [stops,proposes,verifies]

theorem fieldsThere {A : Type} {fields : List A} {n : Nat} (enough : n ≤ fields.length) (i : Nat) (below : i < n) :
    ∃ v, fields[i]? = some v := (existsElement fields i).mpr (by omega)

theorem proposalInputReads {m : Message} (u64s : 11 ≤ m.u64Fields.length) (u32s : 3 ≤ m.u32Fields.length) :
    ∃ input, (guardedProposalInput m).value = some input ∧ proposalInputOf m = some input := by
  have at64 := fieldsThere u64s
  have at32 := fieldsThere u32s
  obtain ⟨request,r0⟩ := at64 pdRequest (by decide)
  obtain ⟨sequence,r1⟩ := at64 pdSequence (by decide)
  obtain ⟨attempt,r2⟩ := at64 pdAttempt (by decide)
  obtain ⟨epoch,r3⟩ := at64 pdEpoch (by decide)
  obtain ⟨stateId,r4⟩ := at64 pdBaseStateId (by decide)
  obtain ⟨stateGen,r5⟩ := at64 pdBaseStateGen (by decide)
  obtain ⟨baseGen,r6⟩ := at64 pdBaseGen (by decide)
  obtain ⟨revision,r7⟩ := at64 pdProposerRev (by decide)
  obtain ⟨dispatch,r8⟩ := at64 pdDispatch (by decide)
  obtain ⟨branch,r9⟩ := at64 pdBranch (by decide)
  obtain ⟨boot,r10⟩ := at64 pdProposerBoot (by decide)
  obtain ⟨depth,w0⟩ := at32 pdDepth (by decide)
  obtain ⟨branchCount,w2⟩ := at32 pdBranchCount (by decide)
  simp only [guardedProposalInput,valueBind,valueElement,valuePure,r0,r1,r2,r3,r4,r5,r6,r7,r8,r9,r10,w0,w2,
    Option.bind_some]
  simp only [proposalInputOf,r0,r1,r2,r3,r4,r5,r6,r7,r8,r9,r10,w0,w2,bind,Option.bind_some]
  exact ⟨_,rfl,rfl⟩

theorem proposalAnswerMissing {m : Message} (short : ¬(12 ≤ m.u64Fields.length ∧ 3 ≤ m.u32Fields.length)) :
    proposalAnswer m = none := by
  by_cases u64s : 12 ≤ m.u64Fields.length
  · have missing : m.u32Fields[pdBranchCount]? = none := List.getElem?_eq_none (by rw [pdBranchCount]; omega)
    simp only [proposalAnswer,proposalInputOf,missing,bind,Option.bind_none,Option.bind_fun_none]
  · have missing : m.u64Fields[pdPropogen]? = none := List.getElem?_eq_none (by rw [pdPropogen]; omega)
    simp only [proposalAnswer,missing,bind,Option.bind_none,Option.bind_fun_none]

theorem proposalAnswerReads (m : Message) : (guardedProposalAnswer m).value.join = proposalAnswer m := by
  by_cases fits : 12 ≤ m.u64Fields.length ∧ 3 ≤ m.u32Fields.length
  · obtain ⟨input,guarded,read⟩ := proposalInputReads (m := m) (by omega) fits.2
    obtain ⟨aligned,atAligned⟩ := fieldsThere fits.2 pdAligned (by decide)
    obtain ⟨branch,atBranch⟩ := fieldsThere fits.1 pdBranch (by decide)
    obtain ⟨propogen,atPropogen⟩ := fieldsThere fits.1 pdPropogen (by decide)
    simp only [guardedProposalAnswer,valueBind,valueElement,valuePure,guarded,atAligned,atBranch,atPropogen,
      Option.bind_some,Option.join_some]
    simp only [proposalAnswer,read,atAligned,atBranch,atPropogen,bind,Option.bind_some]
    cases CpuProposer.propose { alignedTokens := aligned } input with
    | error e => rfl
    | ok r => rfl
  · have outside : (guardedProposalAnswer m).value = none :=
      Option.not_isSome_iff_eq_none.mp fun reached => fits ((proposalAnswerSafe m).mp ((safeValue _).mpr reached))
    rw [outside,proposalAnswerMissing fits]
    rfl

theorem verificationAnswerMissing {m : Message}
    (short : ¬(10 ≤ m.u64Fields.length ∧ 3 ≤ m.u32Fields.length ∧ DeclaredThere m)) : verificationAnswer m = none := by
  by_cases u64s : 10 ≤ m.u64Fields.length
  · by_cases u32s : 3 ≤ m.u32Fields.length
    · have above : ¬DeclaredThere m := fun declared => short ⟨u64s,u32s,declared⟩
      simp only [DeclaredThere,not_forall,exists_prop] at above
      obtain ⟨len,found,outside⟩ := above
      have missing : readFields m.u32Fields vdTokens len.toNat = none := by
        rw [readFields,if_neg]
        rintro (zero | inside)
        · rw [vdTokens] at outside
          omega
        · exact outside inside
      simp only [verificationAnswer,verificationInputOf,found,missing,bind,Option.bind_none,Option.bind_some,
        Option.bind_fun_none]
    · have missing : m.u32Fields[vdLen]? = none := List.getElem?_eq_none (by rw [vdLen]; omega)
      simp only [verificationAnswer,verificationInputOf,missing,bind,Option.bind_none,Option.bind_fun_none]
  · have missing : m.u64Fields[vdProposerBoot]? = none := List.getElem?_eq_none (by rw [vdProposerBoot]; omega)
    simp only [verificationAnswer,verificationInputOf,missing,bind,Option.bind_none,Option.bind_fun_none]

theorem verificationAnswerReads (m : Message) : (guardedVerificationAnswer m).value = verificationAnswer m := by
  by_cases fits : 10 ≤ m.u64Fields.length ∧ 3 ≤ m.u32Fields.length ∧ DeclaredThere m
  · have at64 := fieldsThere fits.1
    have at32 := fieldsThere fits.2.1
    obtain ⟨request,r0⟩ := at64 vdRequest (by decide)
    obtain ⟨sequence,r1⟩ := at64 vdSequence (by decide)
    obtain ⟨attempt,r2⟩ := at64 vdAttempt (by decide)
    obtain ⟨epoch,r3⟩ := at64 vdEpoch (by decide)
    obtain ⟨stateId,r4⟩ := at64 vdStateId (by decide)
    obtain ⟨stateGen,r5⟩ := at64 vdStateGen (by decide)
    obtain ⟨baseGen,r6⟩ := at64 vdBaseGen (by decide)
    obtain ⟨revision,r7⟩ := at64 vdProposerRev (by decide)
    obtain ⟨dispatch,r8⟩ := at64 vdDispatch (by decide)
    obtain ⟨boot,r9⟩ := at64 vdProposerBoot (by decide)
    obtain ⟨tokenizer,w0⟩ := at32 vdTokenizer (by decide)
    obtain ⟨vocab,w1⟩ := at32 vdVocab (by decide)
    obtain ⟨len,w2⟩ := at32 vdLen (by decide)
    have inside := Or.inr (a := len.toNat = 0) (fits.2.2 len w2)
    simp only [guardedVerificationAnswer,valueBind,valueElement,valuePure,valueElements,verifySafe,r0,r1,r2,r3,r4,r5,r6,
      r7,r8,r9,w0,w1,w2,if_pos inside,Option.bind_some]
    simp only [verificationAnswer,verificationInputOf,readFields,r0,r1,r2,r3,r4,r5,r6,r7,r8,r9,w0,w1,w2,if_pos inside,
      bind,Option.bind_some]
  · have outside : (guardedVerificationAnswer m).value = none :=
      Option.not_isSome_iff_eq_none.mp fun reached => fits ((verificationAnswerSafe m).mp ((safeValue _).mpr reached))
    rw [outside,verificationAnswerMissing fits]

theorem serveReads (frame : List UInt8) : (guardedServe frame).value.getD .undefined = serve frame := by
  rw [guardedServe,serve]
  cases decode frame with
  | error e => rfl
  | ok m =>
      by_cases stops : m.type = Msg.shutdown
      · simp only [stops,if_true,valuePure,Option.getD_some]
      by_cases proposes : m.type = Msg.proposalDispatch
      · simp only [if_neg stops,if_pos proposes,← proposalAnswerReads,valueBind,valuePure]
        cases (guardedProposalAnswer m).value with
        | none => rfl
        | some out => rfl
      by_cases verifies : m.type = Msg.verificationDispatch
      · simp only [if_neg stops,if_neg proposes,if_pos verifies,← verificationAnswerReads,valueBind,valuePure]
        cases (guardedVerificationAnswer m).value with
        | none => rfl
        | some out => rfl
      · simp only [if_neg stops,if_neg proposes,if_neg verifies,valuePure,Option.getD_some]

end SpeculationFabric.Dist
