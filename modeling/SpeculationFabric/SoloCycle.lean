import SpeculationFabric.CpuCycle
import SpeculationFabric.Isolation

/-! One `run_cycle` call with nothing in between, over functions as executors. A fixed
policy plans its own depth and branch count, every proposal is made before the first
verification, and with the CPU executors the call settles on the first best branch. -/
namespace SpeculationFabric

section turns
variable (propose : ProposalInput → Result ProposalResult) (verify : VerificationInput → Result AcceptanceResult)
  (settledAt : UInt64)

def Call.turn : Call → Option CallAction
  | .proposing _ => some .proposalInput
  | .proposalSent _ pin => some (.proposalResult (propose pin))
  | .verifying _ => some .verificationInput
  | .verificationSent _ vin => some (.verificationResult (verify vin))
  | .settling _ => some (.settle settledAt)
  | .returned _ _ | .undefined _ => none

def System.turn (index : Nat) (s : System) : Option System := do
  let call ← s.calls[index]?
  let action ← call.turn propose verify settledAt
  s.step (.call index action)

def System.holding (s : System) (index : Nat) (held : Call × Fabric) : System :=
  ⟨held.2,s.calls.set index held.1⟩

variable {propose verify settledAt} {s : System} {index : Nat} (inside : index < s.calls.length)
include inside

theorem holdingCall (held : Call × Fabric) : (s.holding index held).calls[index]? = some held.1 :=
  List.getElem?_set_self inside

theorem turnTaken {call : Call} {f : Fabric} {action : CallAction} {next : Call × Fabric}
    (turns : call.turn propose verify settledAt = some action) (steps : call.step f action = some next) :
    (s.holding index (call,f)).turn propose verify settledAt index = some (s.holding index next) := by
  have here : (s.holding index (call,f)).calls[index]? = some call := holdingCall inside (call,f)
  simp only [System.turn,here,turns,System.step,bind,Option.bind_some]
  simp only [System.holding,steps,List.set_set,Option.bind_some]

theorem turnEnds {id : RequestId} {answer : Result CycleOutcome} {f : Fabric} :
    (s.holding index (.returned id answer,f)).turn propose verify settledAt index = none := by
  have here := holdingCall inside (.returned id answer,f)
  simp only [System.turn,here,Call.turn,bind,Option.bind_some,Option.bind_none]

end turns

def RequestState.authority (rs : RequestState) : Authority := ⟨rs.authState,rs.authGen,rs.req.draftModel.revision⟩

structure Ready (a : Authority) (rs : RequestState) : Prop where
  state : rs.authState = a.state
  generation : rs.authGen = a.generation
  revision : rs.req.draftModel.revision = a.revision
  tokenizer : rs.req.draftModel.tokenizer.id.isNull = false

structure Drafted (a : Authority) (depth aligned : UInt32) (i : Nat) (br : BranchResult) : Prop where
  branch : br.branch = branchIdAt (UInt32.ofNat i)
  revision : br.proposerModel.revision = a.revision
  candidate : ∃ candidate, br.pr.candidate = some candidate ∧
    candidate.tokens.map Token.id = a.draft depth aligned (UInt32.ofNat i)

def Cycle.proposedNext (c : Cycle) (pin : ProposalInput) (pr : ProposalResult) : Cycle :=
  { c with
    pins := c.pins ++ [pin]
    proposed := c.proposed ++ [⟨pr,branchIdAt (UInt32.ofNat c.proposed.length),pin.provenance.proposerModel⟩] }

def Cycle.acceptedNext (c : Cycle) (vin : VerificationInput) (accept : AcceptanceResult) : Cycle :=
  { c with vins := c.vins ++ [vin], accepted := c.accepted ++ [accept] }

theorem proposalReturnedOk (c : Cycle) (pin : ProposalInput) (pr : ProposalResult) :
    c.proposalReturned pin (.ok pr) =
      if c.proposed.length + 1 < c.planned.branchCount.toNat then .proposing (c.proposedNext pin pr)
      else .verifying (c.proposedNext pin pr) := by
  simp only [Cycle.proposalReturned,Cycle.proposedNext,List.length_append,List.length_singleton]

theorem verificationReturnedOk (c : Cycle) (vin : VerificationInput) (accept : AcceptanceResult) :
    c.verificationReturned vin (.ok accept) =
      if c.accepted.length + 1 < c.proposed.length then .verifying (c.acceptedNext vin accept)
      else .settling (c.acceptedNext vin accept) := by
  simp only [Cycle.verificationReturned,Cycle.acceptedNext,List.length_append,List.length_singleton]

def System.cpuTurn (aligned : UInt32) (settledAt : UInt64) (index : Nat) : System → Option System :=
  System.turn (CpuProposer.propose { alignedTokens := aligned }) verify settledAt index

theorem draftedNext {a : Authority} {depth aligned : UInt32} {c : Cycle} {pin : ProposalInput} {pr : ProposalResult}
    (drafted : ∀ i br, c.proposed[i]? = some br → Drafted a depth aligned i br)
    (recorded : Drafted a depth aligned c.proposed.length
      ⟨pr,branchIdAt (UInt32.ofNat c.proposed.length),pin.provenance.proposerModel⟩) :
    ∀ i br, (c.proposedNext pin pr).proposed[i]? = some br → Drafted a depth aligned i br := by
  intro i br at_
  rcases appendedAt at_ with old | ⟨rfl,rfl⟩
  · exact drafted i br old
  · exact recorded

theorem countedNext {a : Authority} {depth aligned : UInt32} {c : Cycle} {vin : VerificationInput}
    {accept : AcceptanceResult}
    (counted : ∀ i report, c.accepted[i]? = some report →
      report.acceptedPrefix.toNat = a.taken (a.draft depth aligned (UInt32.ofNat i)))
    (count : accept.acceptedPrefix.toNat = a.taken (a.draft depth aligned (UInt32.ofNat c.accepted.length))) :
    ∀ i report, (c.acceptedNext vin accept).accepted[i]? = some report →
      report.acceptedPrefix.toNat = a.taken (a.draft depth aligned (UInt32.ofNat i)) := by
  intro i report at_
  rcases appendedAt at_ with old | ⟨rfl,rfl⟩
  · exact counted i report old
  · exact count

section cpu
variable {a : Authority} {depth : UInt32} (aligned : UInt32) (settledAt : UInt64) {s : System} {index : Nat} {f : Fabric}
  {rs : RequestState} {c : Cycle} (inside : index < s.calls.length) (ready : Ready a rs)
  (positive : 0 < depth.toNat) (bounded : depth.toNat ≤ 256) (found : f.find c.request = some rs)
include inside ready positive found

include bounded in
theorem proposalRound (depths : c.planned.depth = depth) :
    ∃ pin pr, Drafted a depth aligned c.proposed.length
        ⟨pr,branchIdAt (UInt32.ofNat c.proposed.length),pin.provenance.proposerModel⟩ ∧
      Runs.Leads (System.cpuTurn aligned settledAt index) 2 (s.holding index (.proposing c,f))
        (s.holding index (c.proposalReturned pin (.ok pr),f)) := by
  have sends : (Call.proposing c).step f .proposalInput =
      some (.proposalSent c (proposalInput rs c.request c.planned (UInt32.ofNat c.proposed.length)),f) := by
    simp only [Call.step,entryFound found]
  obtain ⟨pr,candidate,answers,_,produced,ids⟩ := Authority.proposes (a := a)
    (proposalInput rs c.request c.planned (UInt32.ofNat c.proposed.length)) depth aligned
    (UInt32.ofNat c.proposed.length) ready.state ready.generation ready.revision depths rfl rfl positive bounded
  refine ⟨proposalInput rs c.request c.planned (UInt32.ofNat c.proposed.length),pr,
    ⟨rfl,ready.revision,candidate,produced,ids⟩,.step (turnTaken inside rfl sends)
    (.step (turnTaken inside rfl ?_) .here)⟩
  simp only [Call.step,answers]

include bounded in
theorem proposalRounds (n : Nat) (depths : c.planned.depth = depth)
    (left : c.proposed.length + (n + 1) = c.planned.branchCount.toNat)
    (drafted : ∀ i br, c.proposed[i]? = some br → Drafted a depth aligned i br) :
    ∃ c' : Cycle, Runs.Leads (System.cpuTurn aligned settledAt index) (2 * (n + 1)) (s.holding index (.proposing c,f))
        (s.holding index (.verifying c',f)) ∧
      c'.request = c.request ∧ c'.planned = c.planned ∧ c'.accepted = c.accepted ∧
      c'.proposed.length = c.planned.branchCount.toNat ∧
      ∀ i br, c'.proposed[i]? = some br → Drafted a depth aligned i br := by
  induction n generalizing c with
  | zero =>
      obtain ⟨pin,pr,recorded,leads⟩ := proposalRound aligned settledAt inside ready positive bounded found depths
      rw [proposalReturnedOk,if_neg (by omega)] at leads
      exact ⟨_,leads,rfl,rfl,rfl,by rw [Cycle.proposedNext,List.length_append]; exact left,draftedNext drafted recorded⟩
  | succ n ih =>
      obtain ⟨pin,pr,recorded,leads⟩ := proposalRound aligned settledAt inside ready positive bounded found depths
      rw [proposalReturnedOk,if_pos (by omega)] at leads
      have next : (c.proposedNext pin pr).proposed.length = c.proposed.length + 1 := by
        rw [Cycle.proposedNext,List.length_append]
        rfl
      have remaining : (c.proposedNext pin pr).proposed.length + (n + 1) =
          (c.proposedNext pin pr).planned.branchCount.toNat := by
        rw [next,Nat.add_assoc,Nat.add_comm 1]
        exact left
      obtain ⟨c',rest,request,planned,accepted,full,all⟩ := ih (c := c.proposedNext pin pr) found depths remaining
        (draftedNext drafted recorded)
      refine ⟨c',?_,request,planned,accepted,full,all⟩
      have whole := leads.trans rest
      rwa [show 2 + 2 * (n + 1) = 2 * (n + 1 + 1) by omega] at whole

theorem verificationRound {br : BranchResult} (at_ : c.proposed[c.accepted.length]? = some br)
    (drafted : Drafted a depth aligned c.accepted.length br) :
    ∃ vin accept, accept.acceptedPrefix.toNat = a.taken (a.draft depth aligned (UInt32.ofNat c.accepted.length)) ∧
      Runs.Leads (System.cpuTurn aligned settledAt index) 2 (s.holding index (.verifying c,f))
        (s.holding index (c.verificationReturned vin (.ok accept),f)) := by
  obtain ⟨candidate,produced,ids⟩ := drafted.candidate
  have sends : (Call.verifying c).step f .verificationInput =
      some (.verificationSent c (verificationInput rs c.request c.planned br candidate),f) := by
    simp only [Call.step,Cycle.verificationSection,at_,entryFound found,produced,bind,Option.bind_some]
  have filled : a.draft depth aligned (UInt32.ofNat c.accepted.length) ≠ [] := by
    intro empty
    have size := a.draftSize depth aligned (UInt32.ofNat c.accepted.length)
    rw [empty,List.length_nil] at size
    omega
  obtain ⟨accept,answers,count⟩ := Authority.verifies (a := a)
    (verificationInput rs c.request c.planned br candidate) ready.state ready.generation drafted.revision ids filled
    ready.tokenizer rfl
  refine ⟨verificationInput rs c.request c.planned br candidate,accept,count,.step (turnTaken inside rfl sends)
    (.step (turnTaken inside rfl ?_) .here)⟩
  simp only [Call.step,answers]

theorem verificationRounds (n : Nat) (left : c.accepted.length + (n + 1) = c.proposed.length)
    (drafted : ∀ i br, c.proposed[i]? = some br → Drafted a depth aligned i br)
    (counted : ∀ i accept, c.accepted[i]? = some accept →
      accept.acceptedPrefix.toNat = a.taken (a.draft depth aligned (UInt32.ofNat i))) :
    ∃ c' : Cycle, Runs.Leads (System.cpuTurn aligned settledAt index) (2 * (n + 1)) (s.holding index (.verifying c,f))
        (s.holding index (.settling c',f)) ∧
      c'.request = c.request ∧ c'.proposed = c.proposed ∧ c'.accepted.length = c.proposed.length ∧
      ∀ i accept, c'.accepted[i]? = some accept →
        accept.acceptedPrefix.toNat = a.taken (a.draft depth aligned (UInt32.ofNat i)) := by
  induction n generalizing c with
  | zero =>
      have at_ := List.getElem?_eq_getElem (show c.accepted.length < c.proposed.length by omega)
      obtain ⟨vin,accept,count,leads⟩ := verificationRound aligned settledAt inside ready positive found at_ (drafted _ _ at_)
      rw [verificationReturnedOk,if_neg (by omega)] at leads
      exact ⟨_,leads,rfl,rfl,by rw [Cycle.acceptedNext,List.length_append]; exact left,countedNext counted count⟩
  | succ n ih =>
      have at_ := List.getElem?_eq_getElem (show c.accepted.length < c.proposed.length by omega)
      obtain ⟨vin,accept,count,leads⟩ := verificationRound aligned settledAt inside ready positive found at_ (drafted _ _ at_)
      rw [verificationReturnedOk,if_pos (by omega)] at leads
      have next : (c.acceptedNext vin accept).accepted.length = c.accepted.length + 1 := by
        rw [Cycle.acceptedNext,List.length_append]
        rfl
      have remaining : (c.acceptedNext vin accept).accepted.length + (n + 1) =
          (c.acceptedNext vin accept).proposed.length := by
        rw [next,Nat.add_assoc,Nat.add_comm 1]
        exact left
      obtain ⟨c',rest,request,proposed,full,all⟩ := ih (c := c.acceptedNext vin accept) found remaining drafted
        (countedNext counted count)
      refine ⟨c',?_,request,proposed,full,all⟩
      have whole := leads.trans rest
      rwa [show 2 + 2 * (n + 1) = 2 * (n + 1 + 1) by omega] at whole

end cpu

structure CpuSettled (a : Authority) (depth aligned branches : UInt32) (w : Nat) (k : UInt32) (o : CycleOutcome)
    (rs rs' : RequestState) : Prop where
  chosen : a.Chosen depth aligned branches w k
  branch : o.branch = branchIdAt (UInt32.ofNat w)
  committed : rs'.committed = rs.committed ++ (a.draft depth aligned (UInt32.ofNat w)).take k.toNat
  authGen : rs'.authGen = ⟨rs.authGen.value + k.toUInt64⟩
  authState : rs'.authState = { rs.authState with generation := ⟨rs.authState.generation.value + k.toUInt64⟩ }

theorem cpuSettles {a : Authority} {depth aligned branches : UInt32} {f : Fabric} {rs : RequestState} {c : Cycle}
    (found : f.find c.request = some rs) (live : rs.terminal = false ∧ rs.cancelled = false)
    (some_ : 0 < branches.toNat) (length : c.proposed.length = branches.toNat)
    (full : c.accepted.length = c.proposed.length)
    (drafted : ∀ i br, c.proposed[i]? = some br → Drafted a depth aligned i br)
    (counted : ∀ i accept, c.accepted[i]? = some accept →
      accept.acceptedPrefix.toNat = a.taken (a.draft depth aligned (UInt32.ofNat i))) (settledAt : UInt64) :
    ∃ o f' w k rs', (Call.settling c).step f (.settle settledAt) = some (.returned c.request (.ok o),f') ∧
      f'.find c.request = some rs' ∧ CpuSettled a depth aligned branches w k o rs rs' := by
  have filled : 0 < c.accepted.length := by omega
  have small := branches.toNat_lt
  have best : FirstBest (c.accepted.map fun accept => accept.acceptedPrefix.toNat)
      (selectWinner c.accepted c.proposed) := by
    refine selectWinnerFirstBest filled (countedRising (by omega) ?_)
    intro i inside
    have present := List.getElem?_eq_getElem (show i < c.proposed.length by omega)
    rw [List.getD_eq_getElem?_getD,present]
    exact (drafted i _ present).branch
  have inside := winnerInside c.proposed filled
  have acceptance := List.getElem?_eq_getElem inside
  have winner := List.getElem?_eq_getElem (full ▸ inside)
  have chosen := Authority.chosenBy AcceptanceResult.acceptedPrefix (full.trans length) counted best acceptance
  obtain ⟨candidate,produced,ids⟩ := (drafted _ _ winner).candidate
  have size : candidate.size = (a.draft depth aligned (UInt32.ofNat (selectWinner c.accepted c.proposed))).length := by
    rw [← ids,List.length_map]
    rfl
  obtain ⟨answer,f',settles⟩ := settleAnswers winner acceptance produced
    (by rw [size,counted _ _ acceptance]; exact Authority.takenInside _) f settledAt
  have taken : (Call.settling c).step f (.settle settledAt) = some (.returned c.request answer,f') := by
    simp only [Call.step,Cycle.settlementSection,settles]
  cases settlement settles with
  | missing absent => cases absent.symm.trans found
  | stale there closed =>
      cases there.symm.trans found
      rw [live.1,live.2] at closed
      simp at closed
  | settled there facts _ branch stored =>
      cases there.symm.trans found
      cases facts.winner.symm.trans winner
      cases facts.acceptance.symm.trans acceptance
      cases facts.produced.symm.trans produced
      refine ⟨_,f',_,_,_,taken,stored,chosen,branch.trans (drafted _ _ winner).branch,?_,facts.advanced.authGen,
        facts.advanced.authState⟩
      rw [facts.advanced.committed,List.map_take,ids]

structure FixedPolicy (policy : ProposalPolicy) (depth branches : UInt32) : Prop where
  adaptive : policy.adaptiveDepthEnabled = false
  latency : policy.latencyClass ≠ .interactive
  depth : policy.maxDepth = depth
  branches : policy.maxBranches = branches

/- Both executors are registered and the request has no deadline; nothing else keeps an
admitted cycle from starting. -/
structure Startable (f : Fabric) (rs : RequestState) : Prop where
  admitted : Admitted f rs
  deadline : rs.req.deadlineNs = none
  proposer : f.cfg.proposer = true
  verifier : f.cfg.verifier = true

theorem planFixed {f : Fabric} {id : RequestId} {rs : RequestState} {depth branches : UInt32} (now eventNow : UInt64)
    (found : f.find id = some rs) (startable : Startable f rs)
    (fixed : FixedPolicy f.scheduler.policy depth branches) (positive : 0 < depth.toNat) (some_ : 0 < branches.toNat) :
    ∃ p machine, f.planCycle now eventNow id = (.inr p,f.store id { rs with cycle := machine }) ∧
      p.depth = depth ∧ p.branchCount = branches := by
  have inTime : deadlinePassed rs now = false := by rw [deadlinePassed,startable.deadline]
  have compatible : (pairDecision rs.refreshed).compatible = true := startable.admitted.compatible
  have unblocked : (f.backpressure rs.refreshed).blocked = false := startable.admitted.unblocked
  have admits : f.planCycle now eventNow id = f.admitCycle eventNow id rs.refreshed := by
    simp only [Fabric.planCycle,found,startable.admitted.live.1,startable.admitted.live.2,inTime,Bool.false_eq_true,
      if_false]
  have plans : ∃ p machine, f.admitCycle eventNow id rs.refreshed = (.inr p,f.store id { rs with cycle := machine }) ∧
      p.depth = max 1 (f.scheduler.planProposal rs.req rs.authGen 0 0 0.0).depth ∧
      p.branchCount = max 1 (f.scheduler.planProposal rs.req rs.authGen 0 0 0.0).branchCount := by
    simp only [Fabric.admitCycle,compatible,unblocked,startable.proposer,startable.verifier,Bool.not_true,Bool.or_self,
      Bool.false_eq_true,if_false]
    exact ⟨_,_,rfl,rfl,rfl⟩
  obtain ⟨p,machine,same,depths,counts⟩ := plans
  refine ⟨p,machine,admits.trans same,?_,?_⟩
  · rw [depths]
    simp only [SpeculationScheduler.planProposal,fixed.adaptive,fixed.latency,fixed.depth,ne_eq,not_true_eq_false,
      Bool.false_eq_true,if_false,maxOneSelf positive]
  · rw [counts]
    simp only [SpeculationScheduler.planProposal,fixed.branches,maxOneSelf some_]

theorem holdingSelf (s : System) (call : Call) (f : Fabric) :
    (⟨f,s.calls ++ [call]⟩ : System).holding s.calls.length (call,f) = ⟨f,s.calls ++ [call]⟩ := by
  simp [System.holding]

theorem cpuCall {s : System} {index : Nat} {f : Fabric} {id : RequestId} {rs : RequestState} {p : Planned}
    {a : Authority} {depth branches : UInt32} (aligned : UInt32) (settledAt : UInt64) (inside : index < s.calls.length)
    (found : f.find id = some rs) (live : rs.terminal = false ∧ rs.cancelled = false) (ready : Ready a rs)
    (positive : 0 < depth.toNat) (bounded : depth.toNat ≤ 256) (some_ : 0 < branches.toNat) (depths : p.depth = depth)
    (counts : p.branchCount = branches) :
    ∃ o f' w k rs', Runs.Leads (System.cpuTurn aligned settledAt index) (4 * branches.toNat + 1)
        (s.holding index (.proposing { request := id, planned := p },f)) (s.holding index (.returned id (.ok o),f')) ∧
      f'.find id = some rs' ∧ CpuSettled a depth aligned branches w k o rs rs' := by
  obtain ⟨n,total⟩ : ∃ n, branches.toNat = n + 1 := ⟨branches.toNat - 1,by omega⟩
  obtain ⟨c,proposals,rfl,plan,none,length,drafted⟩ := proposalRounds (c := { request := id, planned := p }) aligned
    settledAt inside ready positive bounded found n depths (by rw [counts,total]; exact Nat.zero_add _) (by simp)
  rw [counts] at length
  obtain ⟨c',verifications,request,same,full,counted⟩ := verificationRounds (c := c) aligned settledAt inside ready
    positive found n (by rw [none,length,total]; exact Nat.zero_add _) drafted (by simp [none])
  rw [← request] at found
  obtain ⟨o,f',w,k,rs',settles,stored,settled⟩ := cpuSettles found live some_ (same ▸ length) (same ▸ full)
    (same ▸ drafted) counted settledAt
  rw [request] at settles stored
  refine ⟨o,f',w,k,rs',?_,stored,settled⟩
  have whole := (proposals.trans verifications).trans (.step (turnTaken inside rfl settles) .here)
  rwa [show 2 * (n + 1) + 2 * (n + 1) + (0 + 1) = 4 * branches.toNat + 1 by omega] at whole

theorem soloCycle {s : System} {id : RequestId} {rs : RequestState} {a : Authority} {depth branches : UInt32}
    (aligned : UInt32) (now eventNow settledAt : UInt64) (found : s.fabric.find id = some rs)
    (startable : Startable s.fabric rs) (fixed : FixedPolicy s.fabric.scheduler.policy depth branches)
    (state : rs.authState = a.state) (generation : rs.authGen = a.generation)
    (revision : rs.req.draftModel.revision = a.revision) (positive : 0 < depth.toNat) (bounded : depth.toNat ≤ 256)
    (some_ : 0 < branches.toNat) :
    ∃ s₁ t o rs' w k, s.step (.runCycle now eventNow id) = some s₁ ∧
      Runs.Leads (System.cpuTurn aligned settledAt s.calls.length) (4 * branches.toNat + 1) s₁ t ∧
      t.cpuTurn aligned settledAt s.calls.length = none ∧
      t.calls[s.calls.length]? = some (.returned id (.ok o)) ∧ t.fabric.find id = some rs' ∧
      CpuSettled a depth aligned branches w k o rs rs' := by
  obtain ⟨p,machine,planned,depths,counts⟩ := planFixed now eventNow found startable fixed positive some_
  have tokenizer := compatibleTokenizer startable.admitted.compatible
  have begins : s.step (.runCycle now eventNow id) = some ⟨s.fabric.store id { rs with cycle := machine },
      s.calls ++ [.proposing { request := id, planned := p }]⟩ := by
    simp only [System.step,planned,begun]
  have inside : s.calls.length < (s.calls ++ [Call.proposing { request := id, planned := p }]).length := by
    rw [List.length_append]
    exact Nat.lt_succ_self _
  obtain ⟨o,f',w,k,rs',leads,stored,settled⟩ := cpuCall (a := a)
    (s := ⟨s.fabric.store id { rs with cycle := machine },s.calls ++ [.proposing { request := id, planned := p }]⟩)
    aligned settledAt inside (findStoreSelf s.fabric id { rs with cycle := machine }) startable.admitted.live
    ⟨state,generation,revision,tokenizer⟩ positive bounded some_ depths counts
  rw [holdingSelf] at leads
  exact ⟨_,_,o,rs',w,k,begins,leads,turnEnds inside,holdingCall inside _,stored,
    settled.chosen,settled.branch,settled.committed,settled.authGen,settled.authState⟩

end SpeculationFabric
