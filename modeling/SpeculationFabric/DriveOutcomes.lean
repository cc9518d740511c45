import SpeculationFabric.CoordinatorRuns

/-! One `drive_cycle` call from any coordinator state to its return. Every exit before
the last branch leaves the request's authority as it was, and the one exit after it
moves all four authority fields by the accepted count. -/
namespace SpeculationFabric.Dist

open Wire

/- A failed send or receive, or a frame that decodes and carries every field its reader
looks at, with an accepted count inside the depth. -/
def CompleteReply : Phase → Reply → Prop
  | .proposing d,.frame bytes => ∃ pr, decode bytes = .ok pr ∧ 11 ≤ pr.u64Fields.length ∧
      2 + d.depth.toNat ≤ pr.u32Fields.length
  | .verifying d _,.frame bytes => ∃ vr, decode bytes = .ok vr ∧ 8 ≤ vr.u64Fields.length ∧
      4 ≤ vr.u32Fields.length ∧ ∀ accepted, vr.u32Fields[vrAccepted]? = some accepted → accepted ≤ d.depth
  | .proposing _,_ | .verifying _ _,_ => True
  | _,_ => False

def Complete (c : Coordinator) : Event → Prop
  | .reply r => CompleteReply c.phase r
  | _ => False

def Candidate (before after : List Output) (toks : List UInt32) : Prop :=
  ∃ middle m, after = before ++ middle ∧ .toVerifier m ∈ middle ∧ m.u32Fields.drop vdTokens = toks

structure Grown (r s : CReq) (tokens : List UInt32) (k : UInt32) : Prop where
  committed : s.committed = r.committed ++ tokens
  count : tokens.length = k.toNat
  authGen : s.authGen.value = r.authGen.value + k.toUInt64
  stateId : s.authState.id = r.authState.id
  generation : s.authState.generation.value = r.authState.generation.value + k.toUInt64
  stateGen : r.stateGen = r.authState.generation → s.stateGen.value = r.stateGen.value + k.toUInt64
  together : s.stateGen = s.authState.generation

def Settled (c t : Coordinator) (reqid : UInt64) : DriveResult → Prop
  | .failed _ => Unmoved (c.request reqid) (t.request reqid)
  | .ok k _ _ => ∃ toks, Candidate c.log t.log toks ∧ Grown (c.request reqid) (t.request reqid) (toks.take k.toNat) k

def Returned (c t : Coordinator) (reqid : UInt64) (result : DriveResult) : Prop :=
  t.phase = .waiting ∧ ∃ middle, t.log = c.log ++ middle ++
    [.submitted reqid result,.toDriver (driverMessage (t.request reqid) reqid result)]

theorem Candidate.later {before after : List Output} {toks : List UInt32} (sent : Candidate before after toks)
    (more : List Output) : Candidate before (after ++ more) toks := by
  obtain ⟨middle,m,rfl,member,fields⟩ := sent
  exact ⟨middle ++ more,m,by rw [List.append_assoc],List.mem_append_left _ member,fields⟩

theorem readProposalDefined (c : Coordinator) {d : Drive} {pr : Message} (u64s : 11 ≤ pr.u64Fields.length)
    (u32s : 2 + d.depth.toNat ≤ pr.u32Fields.length) : ∃ t, c.readProposal d pr = some t := by
  have atTokens : readFields pr.u32Fields prTokens d.depth.toNat =
      some ((pr.u32Fields.drop prTokens).take d.depth.toNat) := if_pos (.inr u32s)
  by_cases passes : ProposalCurrent c d pr ∧ pr.u32Fields[prOutcome]? = some kOutcomeSuccess
  · exact ⟨_,readProposalGoes passes.1 passes.2 atTokens⟩
  · obtain ⟨why,refused⟩ := readProposalStale u64s (by omega) passes
    exact ⟨_,refused⟩

theorem readVerdictDefined (c : Coordinator) (d : Drive) (toks : List UInt32) {vr : Message}
    (u64s : 8 ≤ vr.u64Fields.length) (u32s : 4 ≤ vr.u32Fields.length) : ∃ t, c.readVerdict d toks vr = some t := by
  have u64At : ∀ i, i < 8 → ∃ v, vr.u64Fields[i]? = some v :=
    fun i small => ⟨_,List.getElem?_eq_getElem (by omega)⟩
  have u32At : ∀ i, i < 4 → ∃ v, vr.u32Fields[i]? = some v :=
    fun i small => ⟨_,List.getElem?_eq_getElem (by omega)⟩
  obtain ⟨epoch,atEpoch⟩ := u64At vrEpoch (by decide)
  obtain ⟨attempt,atAttempt⟩ := u64At vrAttempt (by decide)
  obtain ⟨basegen,atBase⟩ := u64At vrBaseGen (by decide)
  obtain ⟨accepted,atAccepted⟩ := u32At vrAccepted (by decide)
  obtain ⟨firstrej,atFirst⟩ := u32At vrFirstRej (by decide)
  obtain ⟨outcome,atOutcome⟩ := u32At vrOutcome (by decide)
  simp only [Coordinator.readVerdict,atEpoch,atAttempt,atBase,atAccepted,atFirst,atOutcome,bind,Option.bind_some]
  split
  · exact ⟨_,rfl⟩
  · exact ⟨_,rfl⟩

structure InLoop (c t : Coordinator) (d : Drive) : Prop where
  unmoved : Unmoved (c.request d.reqid) (t.request d.reqid)
  log : ∃ middle, t.log = c.log ++ middle
  judged : ∀ br ∈ d.brs, Candidate c.log t.log br.toks ∧ br.toks.length = d.depth.toNat ∧ br.accepted ≤ d.depth

theorem InLoop.sent {c t u : Coordinator} {d : Drive} (inside : InLoop c t d) {more : List Output}
    (log : u.log = t.log ++ more) (unmoved : Unmoved (t.request d.reqid) (u.request d.reqid)) : InLoop c u d := by
  refine ⟨inside.unmoved.trans unmoved,?_,?_⟩
  · obtain ⟨middle,before⟩ := inside.log
    exact ⟨middle ++ more,by rw [log,before,List.append_assoc]⟩
  · intro br member
    obtain ⟨sent,rest⟩ := inside.judged br member
    exact ⟨log ▸ sent.later more,rest⟩

inductive Progress (c : Coordinator) (call : Drive) (n : Nat) (t : Coordinator) : Prop where
  | proposing (d : Drive) (waits : t.phase = .proposing d) (same : { d with brs := [] } = call)
      (more : d.brs.length < call.branches.toNat) (inside : InLoop c t d) (count : n = 2 * d.brs.length)
  | verifying (d : Drive) (toks : List UInt32) (waits : t.phase = .verifying d toks)
      (same : { d with brs := [] } = call) (more : d.brs.length < call.branches.toNat) (inside : InLoop c t d)
      (count : n = 2 * d.brs.length + 1) (size : toks.length = d.depth.toNat) (sent : Candidate c.log t.log toks)
  | returned (result : DriveResult) (back : Returned c t call.reqid result) (settled : Settled c t call.reqid result)

theorem failedProgress {c t : Coordinator} {d call : Drive} {why : String} (n : Nat) (short : Short why)
    (same : { d with brs := [] } = call) (inside : InLoop c t d) : Progress c call n (t.finish d (.failed why)) := by
  obtain ⟨middle,before⟩ := inside.log
  subst same
  rw [finishFailed t d short]
  exact .returned (.failed why) ⟨rfl,middle,by rw [before]; rfl⟩ inside.unmoved

theorem commitGrown {r s : CReq} {toks : List UInt32} {accepted : UInt32} (unmoved : Unmoved r s)
    (fits : accepted.toNat ≤ toks.length) : Grown r (s.commit toks accepted) (toks.take accepted.toNat) accepted := by
  refine ⟨?_,?_,?_,?_,?_,?_,rfl⟩
  · rw [CReq.commit,unmoved.committed]
  · rw [List.length_take,Nat.min_eq_left fits]
  · rw [CReq.commit,unmoved.authGen]
  · rw [CReq.commit,unmoved.authState]
  · rw [CReq.commit,unmoved.authState]
  · intro level
    rw [CReq.commit,unmoved.authState,level]

theorem concludeProgress {c t : Coordinator} {d call : Drive} (n : Nat) (some_ : 0 < d.brs.length)
    (same : { d with brs := [] } = call) (inside : InLoop c t d) : Progress c call n (t.conclude d) := by
  obtain ⟨win,won⟩ : ∃ win, d.brs[winningBr d.brs]? = some win := ⟨_,List.getElem?_eq_getElem (winningInside some_)⟩
  obtain ⟨sent,size,accepted⟩ := inside.judged win (List.mem_of_getElem? won)
  have fits : win.accepted.toNat ≤ win.toks.length := size ▸ accepted
  obtain ⟨middle,before⟩ := inside.log
  have unmoved := inside.unmoved
  subst same
  simp only [Coordinator.conclude,won]
  rw [if_pos fits,finishOk]
  have after := requestStoreSelf t d.reqid ((t.request d.reqid).commit win.toks win.accepted)
  refine .returned (.ok win.accepted win.branch win.firstrej) ⟨rfl,middle,?_⟩ ⟨win.toks,?_,?_⟩
  · exact congrArg (· ++ _) before
  · exact sent.later _
  · exact after.symm ▸ commitGrown unmoved fits

theorem advanceProgress {c t : Coordinator} {d call : Drive} (some_ : 0 < call.branches.toNat)
    (same : { d with brs := [] } = call) (room : d.brs.length ≤ call.branches.toNat) (inside : InLoop c t d) :
    Progress c call (2 * d.brs.length) (t.advance d) := by
  have branches : d.branches = call.branches := by rw [← same]
  rw [Coordinator.advance,branches]
  split
  · rename_i more
    rw [openBranchSends]
    refine .proposing d rfl same more (inside.sent rfl ?_) rfl
    have here := requestStoreSelf t d.reqid (t.request d.reqid).counted
    exact here.symm ▸ countedUnmoved _
  · exact concludeProgress _ (by omega) same inside

theorem proposerProgress {c t : Coordinator} {d call : Drive} {r : Reply} (shallow : d.depth.toNat ≤ 61)
    (same : { d with brs := [] } = call) (more : d.brs.length < call.branches.toNat) (inside : InLoop c t d)
    (complete : CompleteReply (.proposing d) r) : Progress c call (2 * d.brs.length + 1) (t.proposerReply d r) := by
  cases r with
  | sendFailed => exact failedProgress _ (by rw [Short]; decide +kernel) same inside
  | recvFailed => exact failedProgress _ (by rw [Short]; decide +kernel) same inside
  | frame bytes =>
      obtain ⟨pr,decoded,u64s,u32s⟩ := complete
      obtain ⟨u,found⟩ := readProposalDefined t u64s u32s
      simp only [Coordinator.proposerReply,decoded,found,Option.getD_some]
      obtain ⟨why,_,short,rfl⟩ | ⟨toks,_,_,tokens,rfl⟩ := readProposalCases found
      · exact failedProgress _ short same inside
      · have size := readFieldsLength tokens
        obtain ⟨middle,before⟩ := inside.log
        rw [sendConforming _ _ _ (verificationDispatchConforms _ _ _ (size ▸ shallow))]
        refine .verifying d toks rfl same more (inside.sent rfl (Unmoved.refl _)) rfl size ?_
        exact ⟨middle ++ [_],_,by rw [before,List.append_assoc],List.mem_append_right _ (List.mem_singleton_self _),rfl⟩

theorem verifierProgress {c t : Coordinator} {d call : Drive} {toks : List UInt32} {r : Reply}
    (same : { d with brs := [] } = call) (more : d.brs.length < call.branches.toNat) (inside : InLoop c t d)
    (size : toks.length = d.depth.toNat) (sent : Candidate c.log t.log toks)
    (complete : CompleteReply (.verifying d toks) r) :
    Progress c call (2 * d.brs.length + 2) (t.verifierReply d toks r) := by
  cases r with
  | sendFailed => exact failedProgress _ (by rw [Short]; decide +kernel) same inside
  | recvFailed => exact failedProgress _ (by rw [Short]; decide +kernel) same inside
  | frame bytes =>
      obtain ⟨vr,decoded,u64s,u32s,bounded⟩ := complete
      obtain ⟨u,found⟩ := readVerdictDefined t d toks u64s u32s
      simp only [Coordinator.verifierReply,decoded,found,Option.getD_some]
      obtain ⟨reason,_,short,rfl⟩ | ⟨br,_,_,tokens,accepted,rfl⟩ := readVerdictCases found
      · exact failedProgress _ short same inside
      · have judged : InLoop c t (d.recorded br) := by
          refine ⟨inside.unmoved,inside.log,?_⟩
          intro other member
          rcases List.mem_append.mp member with old | new
          · exact inside.judged other old
          · cases List.mem_singleton.mp new
            exact ⟨tokens ▸ sent,tokens ▸ size,bounded _ accepted⟩
        have length : (d.recorded br).brs.length = d.brs.length + 1 := by
          rw [Drive.recorded,List.length_append]
          rfl
        have next := advanceProgress (by omega) (d := d.recorded br) same (by omega) judged
        rw [length] at next
        exact next

theorem driveProgress {c t : Coordinator} {reqid : UInt64} {depth branches aligned : UInt32} {events : List Event}
    (some_ : 0 < branches.toNat) (shallow : depth.toNat ≤ 61)
    (run : CoordinatorRun Complete (c.driveCycle reqid depth branches aligned) events t) :
    Progress c ⟨reqid,depth,branches,aligned,[]⟩ events.length t := by
  refine Runs.recorded (P := fun past v => Progress c ⟨reqid,depth,branches,aligned,[]⟩ past.length v) run ?_ ?_
  · apply advanceProgress (d := ⟨reqid,depth,branches,aligned,[]⟩) some_ rfl (Nat.zero_le _)
    refine ⟨?_,⟨[],(List.append_nil _).symm⟩,by simp⟩
    rw [requestStoreSelf]
    exact ⟨rfl,rfl,rfl,rfl⟩
  · intro past v e w before complete taken
    rw [List.length_append]
    cases e with
    | connection hello => cases complete
    | driverFrame frame => cases complete
    | reply r =>
        cases before with
        | proposing d waits same more inside count =>
            simp only [Complete,waits] at complete
            simp only [Coordinator.step,waits,Option.some.injEq] at taken
            subst taken
            rw [count]
            have depths : d.depth = depth := congrArg Drive.depth same
            exact proposerProgress (depths ▸ shallow) same more inside complete
        | verifying d toks waits same more inside count size sent =>
            simp only [Complete,waits] at complete
            simp only [Coordinator.step,waits,Option.some.injEq] at taken
            subst taken
            rw [count]
            exact verifierProgress same more inside size sent complete
        | returned result back settled =>
            simp only [Complete,back.1] at complete
            exact complete.elim

theorem cyclesAllOrNothing :
    (∀ (c : Coordinator) (reqid : UInt64) (depth branches aligned : UInt32) (events : List Event) (t : Coordinator),
      0 < branches.toNat → depth.toNat ≤ 61 →
      CoordinatorRun Complete (c.driveCycle reqid depth branches aligned) events t →
      (((∃ d, t.phase = .proposing d) ∨ ∃ d toks, t.phase = .verifying d toks) ∧
        events.length < 2 * branches.toNat ∧ Unmoved (c.request reqid) (t.request reqid)) ∨
      ∃ result, Returned c t reqid result ∧ Settled c t reqid result) ∧
    ∀ (proposerBoot verifierBoot : UInt64) (events : List Event) (t : Coordinator),
      CoordinatorRun (fun _ _ => True) (.start proposerBoot verifierBoot) events t →
      ∀ id r, t.requests.lookup id = some r → Level r := by
  constructor
  · intro c reqid depth branches aligned events t some_ shallow run
    cases driveProgress some_ shallow run with
    | proposing d waits same more inside count =>
        have id : d.reqid = reqid := congrArg Drive.reqid same
        simp only at more
        exact .inl ⟨.inl ⟨d,waits⟩,by omega,id ▸ inside.unmoved⟩
    | verifying d toks waits same more inside count =>
        have id : d.reqid = reqid := congrArg Drive.reqid same
        simp only at more
        exact .inl ⟨.inr ⟨d,toks,waits⟩,by omega,id ▸ inside.unmoved⟩
    | returned result back settled => exact .inr ⟨result,back,settled⟩
  · intro proposerBoot verifierBoot events t run id r inside
    exact ((reachableSound run).steady.standing id r inside).level

def completeCheck (c : Coordinator) : Event → Bool
  | .reply (.frame bytes) =>
      match c.phase,decode bytes with
      | .proposing d,.ok pr => decide (11 ≤ pr.u64Fields.length ∧ 2 + d.depth.toNat ≤ pr.u32Fields.length)
      | .verifying d _,.ok vr => decide (8 ≤ vr.u64Fields.length ∧ 4 ≤ vr.u32Fields.length) &&
          (vr.u32Fields[vrAccepted]?).all fun accepted => decide (accepted ≤ d.depth)
      | _,_ => false
  | _ => false

theorem completeChecked (c : Coordinator) (e : Event) (passed : completeCheck c e = true) : Complete c e := by
  unfold completeCheck at passed
  split at passed
  · rename_i bytes
    split at passed
    · rename_i d pr waits reads
      simp only [Complete,waits]
      exact ⟨pr,reads,of_decide_eq_true passed⟩
    · rename_i d toks vr waits reads
      obtain ⟨long,within⟩ := (Bool.and_eq_true _ _).mp passed
      obtain ⟨u64s,u32s⟩ := of_decide_eq_true long
      simp only [Complete,waits]
      exact ⟨vr,reads,u64s,u32s,fun accepted at_ => of_decide_eq_true ((Option.all_eq_true _ _).mp within accepted at_)⟩
    · contradiction
  · contradiction

/- Two branches of two tokens, from the record a submission writes. The proposer aligns
the first token, and the verifier takes it and nothing else. -/
def submittedStart : Coordinator := (Coordinator.start 7 8).store 42 (({} : CReq).submitted 42 ⟨1⟩)

def twoBranchReplies : List Event :=
  [fromWorker { type := Msg.proposalResult, u64Fields := [42,43,1,1,1042,0,0,7,1,1,2], u32Fields := [0,2,397,1784] },
    fromWorker { type := Msg.verificationResult, u64Fields := [42,43,1,1,0,2042,17661420568835545970,0]
                 u32Fields := [1,1,2,1] },
    fromWorker { type := Msg.proposalResult, u64Fields := [42,43,1,1,1043,1,0,7,1,2,2], u32Fields := [0,2,397,1785] },
    fromWorker { type := Msg.verificationResult, u64Fields := [42,43,1,1,0,2043,17661420568835545970,0]
                 u32Fields := [1,1,2,1] }]

def twoBranchExec : Option Coordinator :=
  Runs.exec Coordinator.step completeCheck (submittedStart.driveCycle 42 2 2 1) twoBranchReplies

theorem twoBranchFinishes : twoBranchExec.isSome := by decide +kernel

def twoBranchDone : Coordinator := twoBranchExec.get twoBranchFinishes

theorem twoBranchRun : CoordinatorRun Complete (submittedStart.driveCycle 42 2 2 1) twoBranchReplies twoBranchDone :=
  Runs.ofExec completeChecked (Option.some_get twoBranchFinishes).symm

theorem twoBranchLog : twoBranchDone.log.dropLast.getLast? = some (.submitted 42 (.ok 1 1 1)) := by decide +kernel

theorem twoBranchesSettle :
    Returned submittedStart twoBranchDone 42 (.ok 1 1 1) ∧ Settled submittedStart twoBranchDone 42 (.ok 1 1 1) ∧
    (submittedStart.request 42).committed = [] ∧ (twoBranchDone.request 42).committed = [397] ∧
    Level firstRecord := by
  have level := cyclesAllOrNothing.2 7 8 firstCommit afterFirst (runFromRun firstCommitRuns) 42 firstRecord
    afterFirstState.2.1
  obtain ⟨_,short,_⟩ | ⟨result,back,settled⟩ :=
    cyclesAllOrNothing.1 submittedStart 42 2 2 1 _ _ (by decide) (by decide) twoBranchRun
  · exact absurd short (by decide)
  · obtain ⟨middle,log⟩ := back.2
    have same := twoBranchLog
    rw [log,List.append_cons,List.dropLast_concat,List.getLast?_concat] at same
    cases same
    exact ⟨back,settled,by decide +kernel,by decide +kernel,level⟩

end SpeculationFabric.Dist
