import SpeculationFabric.WorkedCycle

/-! How deep a draft the control plane can carry. A cycle builds four messages for each
branch, two at the coordinator and two at the workers, and two of them hold the draft
beside fields of their own. The shorter room of the two is that of the verification
dispatch, and it is less than what the proposer takes on. -/
namespace SpeculationFabric.Dist

open Wire

def Coordinator.verdictAsked (c : Coordinator) (d : Drive) (toks : List UInt32) : Message :=
  verificationDispatch (c.request d.reqid) d toks c.verifierBoot

/- What is built while the coordinator is in this state: the dispatch it has just sent,
the worker's answer to it, and what the coordinator makes of that answer. -/
inductive Built (c : Coordinator) : Message → Prop where
  | proposalDispatch (d : Drive) (waits : c.phase = .proposing d) : Built c (c.asked d)
  | proposalResult (d : Drive) (pr : Message) (waits : c.phase = .proposing d)
      (answers : proposalAnswer (c.asked d) = some pr) : Built c pr
  | verificationDispatch (d : Drive) (pr : Message) (toks : List UInt32) (waits : c.phase = .proposing d)
      (answers : proposalAnswer (c.asked d) = some pr) (current : ProposalCurrent c d pr)
      (success : pr.u32Fields[prOutcome]? = some kOutcomeSuccess)
      (tokens : readFields pr.u32Fields prTokens d.depth.toNat = some toks) : Built c (c.verdictAsked d toks)
  | verificationResult (d : Drive) (toks : List UInt32) (vr : Message) (waits : c.phase = .verifying d toks)
      (answers : verificationAnswer (c.verdictAsked d toks) = some vr) : Built c vr

def Carried (c : Coordinator) : Prop :=
  c.phase ≠ .undefined ∧ ∀ m, Built c m → ∃ frame, encode m = .ok frame

/- The replies of the workers themselves: a lost connection, or the answer to the frame
that went out last. -/
def ByWorkers (c : Coordinator) : Event → Prop
  | .reply (.frame bytes) => ∃ m frame, (c.log.getLast? = some (.toProposer m) ∨ c.log.getLast? = some (.toVerifier m)) ∧
      encode m = .ok frame ∧ serve frame = .sent bytes
  | .reply _ => True
  | _ => False

structure Awaiting (c : Coordinator) : Prop where
  proposal : ∀ d, c.phase = .proposing d → c.log.getLast? = some (.toProposer (c.asked d))
  verdict : ∀ d toks, c.phase = .verifying d toks → c.log.getLast? = some (.toVerifier (c.verdictAsked d toks))

theorem restAwaiting {c : Coordinator} (rests : c.phase = .waiting ∨ c.phase = .undefined) : Awaiting c := by
  constructor
  · intro d waits
    rw [waits] at rests
    rcases rests with no | no <;> cases no
  · intro d toks waits
    rw [waits] at rests
    rcases rests with no | no <;> cases no

theorem failedAwaiting (c : Coordinator) (d : Drive) {why : String} (short : Short why) :
    Awaiting (c.finish d (.failed why)) := by
  rw [finishFailed c d short]
  exact restAwaiting (.inl rfl)

theorem advanceAwaiting (c : Coordinator) (d : Drive) : Awaiting (c.advance d) := by
  obtain ⟨_,opens⟩ | undefined | ⟨win,_,_,concludes⟩ := advanceCases c d
  · rw [opens]
    have waits : (c.openBranch d).phase = .proposing d := by rw [openBranchSends]
    constructor
    · intro e same
      rw [waits] at same
      cases same
      exact openBranchAsks c d
    · intro e toks same
      rw [waits] at same
      cases same
  · rw [undefined]
    exact restAwaiting (.inr rfl)
  · rw [concludes,finishOk]
    exact restAwaiting (.inl rfl)

theorem questionedAwaiting (c : Coordinator) (d : Drive) (toks : List UInt32) : Awaiting (c.questioned d toks) := by
  constructor
  · intro e same
    cases same
  · intro e read same
    cases same
    exact List.getLast?_concat

theorem replyAwaiting {c t : Coordinator} {r : Reply} (taken : c.step (.reply r) = some t) : Awaiting t := by
  obtain ⟨waits,_⟩ | ⟨_,_,_,_,_,_,same,_⟩ | ⟨d,r',_,_,rfl⟩ | ⟨d,toks,r',_,_,rfl⟩ := stepCases taken
  · simp only [Coordinator.step,waits] at taken
    cases taken
  · cases same
  · obtain undefined | ⟨why,short,failed⟩ | ⟨toks,_,asks⟩ := proposerReplyCases c d r'
    · rw [undefined]
      exact restAwaiting (.inr rfl)
    · rw [failed]
      exact failedAwaiting c d short
    · rw [asks]
      exact questionedAwaiting c d toks
  · obtain undefined | ⟨why,short,failed⟩ | ⟨_,_,br,_,_,_,_,_,_,next⟩ := verifierReplyCases c d toks r'
    · rw [undefined]
      exact restAwaiting (.inr rfl)
    · rw [failed]
      exact failedAwaiting c d short
    · rw [next]
      exact advanceAwaiting c _

theorem proposalBuilt (c : Coordinator) (d : Drive) : ∃ res,
    proposalAnswer (c.asked d) = some (proposalResultMessage (c.request d.reqid) d c.proposerBoot res) ∧
      (candidateFields d.depth res.candidate).length = d.depth.toNat ∧
      (0 < d.depth.toNat → d.depth.toNat ≤ 256 → outcomeCode res = kOutcomeSuccess) := by
  obtain ⟨res,proposes,_,succeeds,length⟩ := proposeAnswers d.aligned (c.request d.reqid) d c.proposerBoot
  exact ⟨res,proposalAnswered proposes,length,fun positive bounded => (succeeds positive bounded).1⟩

theorem verdictBuilt (c : Coordinator) {d : Drive} {toks : List UInt32} (size : toks.length = d.depth.toNat) :
    ∃ res, verify (dispatchedVerification (c.request d.reqid) d toks c.verifierBoot) = .ok res ∧
      verificationAnswer (c.verdictAsked d toks) = some (verificationResultMessage (c.request d.reqid) d res) := by
  obtain ⟨res,verifies⟩ : ∃ res, verify (dispatchedVerification (c.request d.reqid) d toks c.verifierBoot) = .ok res := by
    rw [verify]
    split
    · exact ⟨_,rfl⟩
    split
    · exact ⟨_,rfl⟩
    split
    · exact ⟨_,rfl⟩
    · exact ⟨_,rfl⟩
  have length : (c.verdictAsked d toks).u32Fields[vdLen]? = some d.depth := rfl
  refine ⟨res,verifies,?_⟩
  simp only [Coordinator.verdictAsked,verificationAnswer,verificationInputRead size,bind,Option.bind_some] at length ⊢
  simp only [length,verifies,Option.bind_some]
  rfl

theorem builtProposing {c : Coordinator} {d : Drive} {m : Message} (waits : c.phase = .proposing d) (built : Built c m) :
    m = c.asked d ∨ proposalAnswer (c.asked d) = some m ∨
      ∃ toks, toks.length = d.depth.toNat ∧ m = c.verdictAsked d toks := by
  cases built with
  | proposalDispatch e also =>
      cases waits.symm.trans also
      exact .inl rfl
  | proposalResult e pr also answers =>
      cases waits.symm.trans also
      exact .inr (.inl answers)
  | verificationDispatch e pr toks also answers current success tokens =>
      cases waits.symm.trans also
      exact .inr (.inr ⟨toks,readFieldsLength tokens,rfl⟩)
  | verificationResult e toks vr also answers => cases waits.symm.trans also

theorem builtVerifying {c : Coordinator} {d : Drive} {toks : List UInt32} {m : Message}
    (waits : c.phase = .verifying d toks) (built : Built c m) :
    verificationAnswer (c.verdictAsked d toks) = some m := by
  cases built with
  | proposalDispatch e also => cases waits.symm.trans also
  | proposalResult e pr also answers => cases waits.symm.trans also
  | verificationDispatch e pr read also answers current success tokens => cases waits.symm.trans also
  | verificationResult e read vr also answers =>
      cases waits.symm.trans also
      exact answers

theorem restCarried {c : Coordinator} (waits : c.phase = .waiting) : Carried c := by
  constructor
  · rw [waits]
    nofun
  · intro m built
    cases built with
    | proposalDispatch e also => cases waits.symm.trans also
    | proposalResult e pr also answers => cases waits.symm.trans also
    | verificationDispatch e pr read also answers current success tokens => cases waits.symm.trans also
    | verificationResult e read vr also answers => cases waits.symm.trans also

theorem progressCarried {c t : Coordinator} {call : Drive} {n : Nat} (shallow : call.depth.toNat ≤ 61)
    (progress : Progress c call n t) : Carried t := by
  have depths {d : Drive} (same : { d with brs := [] } = call) : d.depth.toNat ≤ 61 := by
    rw [← same] at shallow
    exact shallow
  cases progress with
  | proposing d waits same more inside count =>
      have room := depths same
      constructor
      · rw [waits]
        nofun
      intro m built
      rcases builtProposing waits built with rfl | answers | ⟨toks,size,rfl⟩
      · exact ⟨_,conformingEncodes (proposalDispatchConforms _ _ _)⟩
      · obtain ⟨res,made,length,_⟩ := proposalBuilt t d
        cases Option.some.inj (made.symm.trans answers)
        exact ⟨_,conformingEncodes (proposalResultConforms (by omega))⟩
      · exact ⟨_,conformingEncodes (verificationDispatchConforms _ _ _ (by omega))⟩
  | verifying d toks waits same more inside count size sent =>
      constructor
      · rw [waits]
        nofun
      intro m built
      obtain ⟨res,_,made⟩ := verdictBuilt t size
      cases Option.some.inj (made.symm.trans (builtVerifying waits built))
      exact ⟨_,conformingEncodes (verificationResultConforms _ _ _)⟩
  | returned result back settled => exact restCarried back.1

theorem proposalComplete {c : Coordinator} {d : Drive} {bytes : List UInt8} (waits : c.phase = .proposing d)
    (awaiting : Awaiting c) (replies : ByWorkers c (.reply (.frame bytes))) :
    CompleteReply (.proposing d) (.frame bytes) := by
  obtain ⟨m,frame,last,encoded,serves⟩ := replies
  have out : m = c.asked d := by
    rw [awaiting.proposal d waits] at last
    rcases last with same | same
    · cases same
      rfl
    · cases same
  subst out
  cases (conformingEncodes (proposalDispatchConforms _ _ _)).symm.trans encoded
  obtain ⟨res,made,length,_⟩ := proposalBuilt c d
  have written : encode (proposalResultMessage (c.request d.reqid) d c.proposerBoot res) = .ok bytes := by
    have answers := proposalServed (c.request d.reqid) d c.proposerBoot
    rw [show proposalAnswer (proposalDispatch (c.request d.reqid) d c.proposerBoot) = _ from made] at answers
    exact sentEncoded (answers.symm.trans serves)
  obtain ⟨_,_,limit,_,rfl⟩ := (encodeExact _ _).mp written
  have fits : (candidateFields d.depth res.candidate).length ≤ 62 := by
    simp only [proposalResultMessage,List.length_cons] at limit
    omega
  refine ⟨_,layoutDecodes (proposalResultConforms fits),?_,?_⟩
  · simp [proposalResultMessage]
  · simp only [proposalResultMessage,List.length_cons]
    omega

theorem verdictComplete {c : Coordinator} {d : Drive} {toks : List UInt32} {bytes : List UInt8}
    (shallow : d.depth.toNat ≤ 61) (positive : 0 < d.depth.toNat) (size : toks.length = d.depth.toNat)
    (waits : c.phase = .verifying d toks) (awaiting : Awaiting c) (replies : ByWorkers c (.reply (.frame bytes))) :
    CompleteReply (.verifying d toks) (.frame bytes) := by
  obtain ⟨m,frame,last,encoded,serves⟩ := replies
  have out : m = c.verdictAsked d toks := by
    rw [awaiting.verdict d toks waits] at last
    rcases last with same | same
    · cases same
    · cases same
      rfl
  subst out
  cases (conformingEncodes (verificationDispatchConforms _ _ _ (by omega))).symm.trans encoded
  have filled : toks ≠ [] := by
    rintro rfl
    rw [List.length_nil] at size
    omega
  have ids : (toks.map fun id => ({ id := id } : Token)).map Token.id = toks := by simp [Function.comp_def]
  obtain ⟨res,verifies,count⟩ := Authority.verifies (a := (c.request d.reqid).authority)
    (dispatchedVerification (c.request d.reqid) d toks c.verifierBoot) rfl rfl rfl ids filled rfl rfl
  have answers : serve (layout (c.verdictAsked d toks)) = _ := verificationServed size shallow verifies
  cases answers.symm.trans serves
  refine ⟨_,layoutDecodes (verificationResultConforms _ _ _),?_,?_,?_⟩
  · simp [verificationResultMessage]
  · simp [verificationResultMessage,verdictFields]
  · intro accepted reads
    cases Option.some.inj reads
    rw [UInt32.le_iff_toNat_le,count,← size]
    exact Authority.takenInside _

theorem workersProgress {c t : Coordinator} {reqid : UInt64} {depth branches aligned : UInt32} {events : List Event}
    (some_ : 0 < branches.toNat) (positive : 0 < depth.toNat) (shallow : depth.toNat ≤ 61)
    (run : CoordinatorRun ByWorkers (c.driveCycle reqid depth branches aligned) events t) :
    Progress c ⟨reqid,depth,branches,aligned,[]⟩ events.length t ∧ Awaiting t := by
  refine Runs.recorded (P := fun past v => Progress c ⟨reqid,depth,branches,aligned,[]⟩ past.length v ∧ Awaiting v)
    run ⟨driveProgress some_ shallow .nil,advanceAwaiting _ _⟩ ?_
  rintro past v e w ⟨before,awaiting⟩ replies taken
  rw [List.length_append]
  cases e with
  | connection hello => cases replies
  | driverFrame frame => cases replies
  | reply r =>
      refine ⟨?_,replyAwaiting taken⟩
      cases before with
      | proposing d waits same more inside count =>
          have depths : d.depth = depth := congrArg Drive.depth same
          simp only [Coordinator.step,waits,Option.some.injEq] at taken
          subst taken
          rw [count]
          refine proposerProgress (depths ▸ shallow) same more inside ?_
          cases r with
          | sendFailed => trivial
          | recvFailed => trivial
          | frame bytes => exact proposalComplete waits awaiting replies
      | verifying d toks waits same more inside count size sent =>
          have depths : d.depth = depth := congrArg Drive.depth same
          simp only [Coordinator.step,waits,Option.some.injEq] at taken
          subst taken
          rw [count]
          refine verifierProgress same more inside size sent ?_
          cases r with
          | sendFailed => trivial
          | recvFailed => trivial
          | frame bytes => exact verdictComplete (depths ▸ shallow) (depths ▸ positive) size waits awaiting replies
      | returned result back settled =>
          simp only [Coordinator.step,back.1] at taken
          cases taken

theorem deepNotCarried {c : Coordinator} {d : Drive} (waits : c.phase = .proposing d) (deep : 61 < d.depth.toNat)
    (bounded : d.depth.toNat ≤ 256) : ¬Carried c := by
  rintro ⟨_,carried⟩
  obtain ⟨res,made,length,succeeds⟩ := proposalBuilt c d
  obtain ⟨frame,written⟩ := carried _ (.proposalResult d _ waits made)
  obtain ⟨_,_,limit,_⟩ := (encodeExact _ _).mp written
  have fits : d.depth.toNat + 2 ≤ 64 := by
    simp only [proposalResultMessage,List.length_cons,length] at limit
    omega
  have tokens : readFields (proposalResultMessage (c.request d.reqid) d c.proposerBoot res).u32Fields prTokens
      d.depth.toNat = some (candidateFields d.depth res.candidate) := readFieldsAll [outcomeCode res,d.depth] rfl length
  have success := succeeds (by omega) bounded
  obtain ⟨question,asked⟩ := carried _ (.verificationDispatch d _ _ waits made ⟨rfl,rfl,rfl,rfl,rfl⟩
    (congrArg some success) tokens)
  obtain ⟨_,_,room,_⟩ := (encodeExact _ _).mp asked
  simp only [Coordinator.verdictAsked,verificationDispatch,List.length_cons,length] at room
  omega

theorem driveOpens (c : Coordinator) (reqid : UInt64) (depth aligned : UInt32) {branches : UInt32}
    (some_ : 0 < branches.toNat) :
    (c.driveCycle reqid depth branches aligned).phase = .proposing ⟨reqid,depth,branches,aligned,[]⟩ := by
  have opens : c.driveCycle reqid depth branches aligned = Coordinator.openBranch _ ⟨reqid,depth,branches,aligned,[]⟩ :=
    if_pos some_
  rw [opens,openBranchSends]

theorem depthsCarriedExactly (c t : Coordinator) (frame : Option (List UInt8)) (reqid : UInt64)
    (depth branches aligned : UInt32) (submits : Submits frame reqid depth branches aligned)
    (taken : c.step (.driverFrame frame) = some t) (some_ : 1 ≤ branches) (positive : 1 ≤ depth) (bounded : depth ≤ 256) :
    (∀ events u, CoordinatorRun ByWorkers t events u → Carried u) ↔ depth ≤ 61 := by
  cases submitTaken taken submits
  have one : (1 : UInt32).toNat = 1 := rfl
  have many : 0 < branches.toNat := UInt32.le_iff_toNat_le.mp some_
  have deep : 0 < depth.toNat := UInt32.le_iff_toNat_le.mp positive
  constructor
  · intro carried
    by_contra deeper
    have start := carried [] _ .nil
    have above : 61 < depth.toNat := UInt32.lt_iff_toNat_lt.mp (UInt32.not_le.mp deeper)
    exact deepNotCarried (driveOpens _ reqid depth aligned many) above (UInt32.le_iff_toNat_le.mp bounded) start
  · intro shallow events u run
    have room : depth.toNat ≤ 61 := UInt32.le_iff_toNat_le.mp shallow
    exact progressCarried room (workersProgress many deep room run).1

theorem submissionConforms (reqid : UInt64) (depth branches aligned : UInt32) :
    Conforming (submission reqid depth branches aligned) :=
  typedConforms Msg.submitRequest rfl rfl (by decide) (by simp [submission]) (by simp [submission]) (by simp [submission])

theorem submissionSubmits (reqid : UInt64) (depth branches aligned : UInt32) :
    Submits (some (layout (submission reqid depth branches aligned))) reqid depth branches aligned :=
  ⟨_,_,rfl,layoutDecodes (submissionConforms reqid depth branches aligned),rfl,rfl,rfl,rfl,rfl⟩

theorem submissionTaken (reqid : UInt64) (depth branches aligned : UInt32) :
    ∃ t, (Coordinator.start 7 8).step (fromDriver (submission reqid depth branches aligned)) = some t :=
  ⟨_,rfl⟩

theorem sixtyOneCarried : ∃ t, (Coordinator.start 7 8).step (fromDriver (submission 42 61 3 5)) = some t ∧
    ∀ events u, CoordinatorRun ByWorkers t events u → Carried u := by
  obtain ⟨t,taken⟩ := submissionTaken 42 61 3 5
  refine ⟨t,taken,?_⟩
  exact (depthsCarriedExactly _ t _ 42 61 3 5 (submissionSubmits 42 61 3 5) taken (by decide) (by decide)
    (by decide)).mpr (by decide)

theorem sixtyTwoRefused : ∃ t, (Coordinator.start 7 8).step (fromDriver (submission 42 62 1 0)) = some t ∧
    CoordinatorRun ByWorkers t [] t ∧ ¬Carried t := by
  obtain ⟨t,taken⟩ := submissionTaken 42 62 1 0
  refine ⟨t,taken,.nil,?_⟩
  cases submitTaken taken (submissionSubmits 42 62 1 0)
  exact deepNotCarried (driveOpens _ 42 62 0 (by decide)) (by decide) (by decide)

end SpeculationFabric.Dist
