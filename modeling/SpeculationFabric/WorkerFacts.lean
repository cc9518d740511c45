import SpeculationFabric.CoordinatorFacts

/-! What a worker answers to the dispatches of a coordinator: the input it reads from
the fields is the one they were filled from, and its answer carries the dispatch's own
authority. Which field is read where is settled here once. -/
namespace SpeculationFabric.Dist

open Wire

def dispatchedInput (r : CReq) (d : Drive) (boot : UInt64) : ProposalInput :=
  { baseState := r.authState
    baseGeneration := r.authGen
    depth := d.depth
    branchIndex := d.b
    branchCount := d.branches
    deterministicSeed := (1000 + d.reqid + d.b.toUInt64) ^^^ r.attempt.value
    provenance := {
      epoch := r.epoch
      request := ⟨d.reqid⟩
      sequence := r.seq
      attempt := r.attempt
      branch := ⟨d.b.toUInt64 + 1⟩
      proposerModel := { revision := ⟨1⟩ }
      proposerBoot := ⟨boot⟩
      baseGeneration := r.authGen
      dispatch := ⟨1000 + d.reqid + d.b.toUInt64⟩ } }

def proposalResultMessage (r : CReq) (d : Drive) (boot : UInt64) (res : ProposalResult) : Message :=
  { type := Msg.proposalResult
    u64Fields := [d.reqid,r.seq.value,r.attempt.value,r.epoch.value,1000 + d.reqid + d.b.toUInt64,d.b.toUInt64,
      r.authGen.value,boot,1,r.propGen,res.executionMeasuredNs]
    u32Fields := outcomeCode res :: d.depth :: candidateFields d.depth res.candidate }

theorem proposalInputRead (r : CReq) (d : Drive) (boot : UInt64) :
    proposalInputOf (proposalDispatch r d boot) = some (dispatchedInput r d boot) := by
  calc proposalInputOf (proposalDispatch r d boot)
      = some { dispatchedInput r d boot with branchIndex := d.b.toUInt64.toUInt32 } := rfl
    _ = some (dispatchedInput r d boot) := by
        rw [UInt32.toUInt32_toUInt64]
        rfl

theorem proposalAnswered {r : CReq} {d : Drive} {boot : UInt64} {res : ProposalResult}
    (proposes : CpuProposer.propose { alignedTokens := d.aligned } (dispatchedInput r d boot) = .ok res) :
    proposalAnswer (proposalDispatch r d boot) = some (proposalResultMessage r d boot res) := by
  have aligned : (proposalDispatch r d boot).u32Fields[pdAligned]? = some d.aligned := rfl
  have propogen : (proposalDispatch r d boot).u64Fields[pdPropogen]? = some r.propGen := rfl
  have branch : (proposalDispatch r d boot).u64Fields[pdBranch]? = some d.b.toUInt64 := rfl
  simp only [proposalAnswer,aligned,proposalInputRead,propogen,branch,proposes,bind,Option.bind_some]
  rfl

theorem proposalServed (r : CReq) (d : Drive) (boot : UInt64) :
    serve (layout (proposalDispatch r d boot)) = sentFrame (proposalAnswer (proposalDispatch r d boot)) := by
  rw [serve,layoutDecodes (proposalDispatchConforms r d boot)]
  rfl

theorem sentConforming {out : Message} (sound : Conforming out) : sentFrame (some out) = .sent (layout out) := by
  rw [sentFrame,conformingEncodes sound]

theorem sentEncoded {out : Message} {frame : List UInt8} (sent : sentFrame (some out) = .sent frame) :
    encode out = .ok frame := by
  rw [sentFrame] at sent
  split at sent
  · cases sent
  · rename_i bytes encoded
    cases sent
    exact encoded

/- The proposer never reports an error of its own, and succeeds on every depth it can
answer with a message. -/
theorem proposeAnswers (aligned : UInt32) (r : CReq) (d : Drive) (boot : UInt64) :
    ∃ res, CpuProposer.propose { alignedTokens := aligned } (dispatchedInput r d boot) = .ok res ∧
      (d.depth = 0 → outcomeCode res = kOutcomeNonRetryable) ∧
      (0 < d.depth.toNat → d.depth.toNat ≤ 256 → outcomeCode res = kOutcomeSuccess ∧ res.candidate =
        some ⟨CpuProposer.draft { alignedTokens := aligned } (dispatchedInput r d boot)⟩) ∧
      (candidateFields d.depth res.candidate).length = d.depth.toNat := by
  have depth : (dispatchedInput r d boot).depth = d.depth := rfl
  rw [CpuProposer.propose,depth]
  split
  · rename_i zero
    refine ⟨_,rfl,fun _ => rfl,?_,?_⟩
    · intro positive
      rw [zero] at positive
      cases positive
    · rw [zero]
      rfl
  rename_i positive
  split
  · rename_i deep
    refine ⟨_,rfl,fun zero => absurd zero positive,?_,?_⟩
    · intro _ bounded
      have above := UInt32.lt_iff_toNat_lt.mp deep
      have shown : (256 : UInt32).toNat = 256 := rfl
      omega
    · exact List.length_replicate
  · rw [if_neg (by simp [dispatchedInput])]
    refine ⟨_,rfl,fun zero => absurd zero positive,fun _ _ => ⟨rfl,rfl⟩,?_⟩
    exact (List.length_map _).trans (CpuProposer.draftLength _ _)

theorem proposalResultConforms {r : CReq} {d : Drive} {boot : UInt64} {res : ProposalResult}
    (fits : (candidateFields d.depth res.candidate).length ≤ 62) : Conforming (proposalResultMessage r d boot res) :=
  typedConforms Msg.proposalResult rfl rfl (by decide) (by simp [proposalResultMessage])
    (by simp only [proposalResultMessage,List.length_cons]; omega) (by simp [proposalResultMessage])

theorem proposalFrame {r : CReq} {d : Drive} {boot : UInt64} {frame : List UInt8}
    (answers : serve (layout (proposalDispatch r d boot)) = .sent frame) :
    ∃ res, decode frame = .ok (proposalResultMessage r d boot res) ∧
      (outcomeCode res = kOutcomeSuccess ↔ d.depth ≠ 0) := by
  obtain ⟨res,proposes,failed,succeeded,length⟩ := proposeAnswers d.aligned r d boot
  rw [proposalServed,proposalAnswered proposes] at answers
  have encoded := sentEncoded answers
  obtain ⟨_,_,limit,_,same⟩ := (encodeExact _ _).mp encoded
  have fits : (candidateFields d.depth res.candidate).length ≤ 62 := by
    simp only [proposalResultMessage,List.length_cons] at limit
    omega
  refine ⟨res,?_,?_⟩
  · rw [← same]
    exact layoutDecodes (proposalResultConforms fits)
  · constructor
    · rintro success zero
      rw [failed zero] at success
      cases success
    · intro positive
      have above : 0 < d.depth.toNat := Nat.pos_of_ne_zero (fun zero => positive (UInt32.toNat_inj.mp zero))
      exact (succeeded above (by omega)).1

def dispatchedVerification (r : CReq) (d : Drive) (toks : List UInt32) (boot : UInt64) : VerificationInput :=
  { authoritativeState := r.authState
    authoritativeGeneration := r.authGen
    epoch := r.epoch
    request := ⟨d.reqid⟩
    sequence := r.seq
    attempt := r.attempt
    dispatch := ⟨2000 + d.reqid + d.b.toUInt64⟩
    verifierBoot := ⟨boot⟩
    authoritativeStateGeneration := r.authState.generation
    proposer := { revision := ⟨1⟩ }
    candidateIdentity := { tokenizer := ⟨9⟩, vocabSize := 4096 }
    candidate := ⟨toks.map fun id => { id := id }⟩ }

def verificationResultMessage (r : CReq) (d : Drive) (res : AcceptanceResult) : Message :=
  { type := Msg.verificationResult
    u64Fields := [d.reqid,r.seq.value,r.attempt.value,r.epoch.value,r.authGen.value,2000 + d.reqid + d.b.toUInt64,
      r.authState.id.value,r.authState.generation.value]
    u32Fields := verdictFields d.depth (.ok res) }

theorem verificationResultConforms (r : CReq) (d : Drive) (res : AcceptanceResult) :
    Conforming (verificationResultMessage r d res) :=
  typedConforms Msg.verificationResult rfl rfl (by decide) (by simp [verificationResultMessage])
    (by simp [verificationResultMessage,verdictFields]) (by simp [verificationResultMessage])

theorem readFieldsAll (front : List UInt32) {toks : List UInt32} {start count : Nat} (starts : front.length = start)
    (size : toks.length = count) : readFields (front ++ toks) start count = some toks := by
  subst starts size
  rw [readFields,if_pos (.inr (by rw [List.length_append])),List.drop_left,List.take_length]

theorem verificationInputRead {r : CReq} {d : Drive} {toks : List UInt32} {boot : UInt64}
    (size : toks.length = d.depth.toNat) :
    verificationInputOf (verificationDispatch r d toks boot) = some (dispatchedVerification r d toks boot) := by
  have tokens : readFields (verificationDispatch r d toks boot).u32Fields vdTokens d.depth.toNat = some toks :=
    readFieldsAll [9,4096,d.depth] rfl size
  calc verificationInputOf (verificationDispatch r d toks boot)
      = (readFields (verificationDispatch r d toks boot).u32Fields vdTokens d.depth.toNat).bind
          (fun read => some (dispatchedVerification r d read boot)) := rfl
    _ = some (dispatchedVerification r d toks boot) := by rw [tokens,Option.bind_some]

theorem verificationServed {r : CReq} {d : Drive} {toks : List UInt32} {boot : UInt64} {res : AcceptanceResult}
    (size : toks.length = d.depth.toNat) (shallow : d.depth.toNat ≤ 61)
    (verifies : verify (dispatchedVerification r d toks boot) = .ok res) :
    serve (layout (verificationDispatch r d toks boot)) = .sent (layout (verificationResultMessage r d res)) := by
  have length : (verificationDispatch r d toks boot).u32Fields[vdLen]? = some d.depth := rfl
  have answer : verificationAnswer (verificationDispatch r d toks boot) = some (verificationResultMessage r d res) := by
    simp only [verificationAnswer,verificationInputRead size,length,verifies,bind,Option.bind_some]
    rfl
  rw [serve,layoutDecodes (verificationDispatchConforms r d boot (by omega))]
  calc sentFrame (verificationAnswer (verificationDispatch r d toks boot))
      = sentFrame (some (verificationResultMessage r d res)) := by rw [answer]
    _ = .sent (layout (verificationResultMessage r d res)) := sentConforming (verificationResultConforms r d res)

end SpeculationFabric.Dist
