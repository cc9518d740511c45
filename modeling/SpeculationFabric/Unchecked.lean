import SpeculationFabric.Sections
import SpeculationFabric.CpuProposer
import SpeculationFabric.Isolation

/-! What the engine takes from its executors without looking. Settlement subtracts and
reads with the prefix the winning verifier claims; verification reads the candidate of
every branch, also of one whose proposal failed. Both are exact: what goes wrong, and
on which answers. -/
namespace SpeculationFabric

def Wins (c : Cycle) (accept : AcceptanceResult) (candidate : CandidateSequence) : Prop :=
  ∃ w won, FirstBest (c.accepted.map (fun accept => accept.acceptedPrefix.toNat)) w ∧ c.proposed[w]? = some won ∧
    c.accepted[w]? = some accept ∧ won.pr.candidate = some candidate

structure SafeSettlement (s s' : System) (index : Nat) (id : RequestId) (accept : AcceptanceResult)
    (candidate : CandidateSequence) : Prop where
  defined : s'.calls[index]? ≠ some (.undefined id)
  within : ∀ rs rs', s.fabric.find id = some rs → s'.fabric.find id = some rs' →
    rs'.committed.length ≤ rs.committed.length + candidate.size
  guarded : candidate.size < accept.acceptedPrefix.toNat →
    ∀ rs rs', s.fabric.find id = some rs → s'.fabric.find id = some rs' →
      rs'.committed = rs.committed ∧ rs'.authGen = rs.authGen ∧ rs'.authState = rs.authState
  balanced : ∀ o, s'.calls[index]? = some (.returned id (.ok o)) →
    o.acceptedTokens.toNat + o.rejectedTokens.toNat = o.proposedTokens.toNat

theorem settleBranchTokens {rs proposed keep candidate prop outcome o rs'} {count len : UInt32}
    (ok : settleBranch rs proposed keep candidate prop outcome count (len - count) len = some (o,rs')) :
    o.acceptedTokens = count ∧ o.rejectedTokens = len - count ∧ o.proposedTokens = outcome.proposedTokens := by
  have accepted : ∀ event kind rejected, settleAccepted rs proposed keep candidate prop outcome event kind count
      rejected = some (o,rs') →
      o.acceptedTokens = count ∧ o.rejectedTokens = rejected ∧ o.proposedTokens = outcome.proposedTokens := by
    intro event kind rejected taken
    have left := settleAcceptedAs taken
    exact ⟨left.acceptedTokens,left.rejectedTokens,left.proposedTokens⟩
  rcases settleBranchCases ok with ⟨rfl,taken⟩ | ⟨_,_,taken⟩ | ⟨_,rfl,refused⟩
  · rw [UInt32.sub_self]
    exact accepted _ _ _ taken
  · exact accepted _ _ _ taken
  · cases refused
    exact ⟨rfl,(UInt32.sub_zero len).symm,phaseTokens _ _⟩

theorem balancedIff (count len : UInt32) : count.toNat + (len - count).toNat = len.toNat ↔ count ≤ len := by
  have small := count.toNat_lt
  have small' := len.toNat_lt
  rw [UInt32.le_iff_toNat_le,UInt32.toNat_sub]
  omega

theorem lengthWord (candidate : CandidateSequence) : (UInt32.ofNat candidate.size).toNat ≤ candidate.size := by
  rw [UInt32.toNat_ofNat']
  exact Nat.mod_le _ _

theorem settlingStep {s s' : System} {index : Nat} {now : UInt64} {c : Cycle}
    (ready : s.calls[index]? = some (.settling c)) (settles : s.step (.call index (.settle now)) = some s') :
    (∃ answer w, settleDecision c (s.fabric.find c.request) = some (answer,w) ∧
      s'.fabric = s.fabric.write now c.request w ∧ s'.calls[index]? = some (.returned c.request answer)) ∨
    settleDecision c (s.fabric.find c.request) = none ∧ s'.fabric = s.fabric ∧
      s'.calls[index]? = some (.undefined c.request) := by
  have inside := (List.getElem?_eq_some_iff.mp ready).1
  simp only [System.step,ready,bind,Option.bind_some,Call.step] at settles
  cases Option.some.inj settles
  unfold Cycle.settlementSection
  rw [settleSection]
  cases decided : settleDecision c (s.fabric.find c.request) with
  | none => exact .inr ⟨rfl,rfl,List.getElem?_set_self inside⟩
  | some d => exact .inl ⟨d.1,d.2,rfl,rfl,List.getElem?_set_self inside⟩

section settlements
variable {s s' : System} {index : Nat} {now : UInt64} {c : Cycle} {rs : RequestState} {accept : AcceptanceResult}
  {candidate : CandidateSequence}

theorem closedSettlementSafe (ready : s.calls[index]? = some (.settling c)) (found : s.fabric.find c.request = some rs)
    (closed : rs.terminal = true ∨ rs.cancelled = true) (settles : s.step (.call index (.settle now)) = some s') :
    SafeSettlement s s' index c.request accept candidate := by
  have stale : (rs.terminal || rs.cancelled) = true := by simpa using closed
  rcases settlingStep ready settles with ⟨answer,w,decided,written,returned⟩ | ⟨undecided,_,_⟩
  · simp only [found,settleDecision,stale,if_true] at decided
    cases Option.some.inj decided
    have kept : ∀ rs', s'.fabric.find c.request = some rs' → ∃ events, rs' = { rs with events := events } := by
      intro rs' stored
      rw [written,writeSelf,found] at stored
      exact ⟨_,(Option.some.inj stored).symm⟩
    refine ⟨?_,?_,?_,?_⟩
    · rw [returned]
      intro no
      cases no
    · intro before after held stored
      cases Option.some.inj (found.symm.trans held)
      obtain ⟨events,rfl⟩ := kept after stored
      exact Nat.le_add_right _ _
    · intro _ before after held stored
      cases Option.some.inj (found.symm.trans held)
      obtain ⟨events,rfl⟩ := kept after stored
      exact ⟨rfl,rfl,rfl⟩
    · intro o ended
      cases Option.some.inj (returned.symm.trans ended)
      rfl
  · simp only [found,settleDecision,stale,if_true] at undecided
    contradiction

theorem winsSelected {x : Executors} (facts : CallFacts x (.settling c)) (wins : Wins c accept candidate) :
    ∃ won, c.proposed[selectWinner c.accepted c.proposed]? = some won ∧
      c.accepted[selectWinner c.accepted c.proposed]? = some accept ∧ won.pr.candidate = some candidate := by
  obtain ⟨w,won,best,winner,acceptance,produced⟩ := wins
  cases (winnerFirstBest facts).unique best
  exact ⟨won,winner,acceptance,produced⟩

theorem liveBranch {won : BranchResult} {answer : Result CycleOutcome} {w : Write}
    (winner : c.proposed[selectWinner c.accepted c.proposed]? = some won)
    (acceptance : c.accepted[selectWinner c.accepted c.proposed]? = some accept)
    (produced : won.pr.candidate = some candidate) (live : rs.terminal = false ∧ rs.cancelled = false)
    (decided : settleDecision c (some rs) = some (answer,w)) :
    ∃ machine prop outcome o mid, settleBranch { rs with cycle := machine } c.proposed won.branch candidate prop outcome
        accept.acceptedPrefix (UInt32.ofNat candidate.size - accept.acceptedPrefix) (UInt32.ofNat candidate.size) =
          some (o,mid) ∧
      outcome.proposedTokens = UInt32.ofNat candidate.size ∧ answer = .ok o ∧
      w.record = some { mid with cycle := ⟨.ready⟩, completedCycles := mid.completedCycles + 1 } ∧
      w.counts = settledCounts o.outcome (UInt32.ofNat candidate.size) accept.acceptedPrefix
        (UInt32.ofNat candidate.size - accept.acceptedPrefix) := by
  have opened : (rs.terminal || rs.cancelled) = false := by rw [live.1,live.2]; rfl
  simp only [settleDecision,opened,Bool.false_eq_true,if_false,winner,acceptance,produced,bind,Option.bind_some,
    Option.bind_eq_some_iff] at decided
  obtain ⟨⟨o,mid⟩,branch,last⟩ := decided
  cases Option.some.inj last
  exact ⟨_,_,_,o,mid,branch,rfl,rfl,rfl,rfl⟩

theorem liveDecision {won : BranchResult} {answer : Result CycleOutcome} {w : Write}
    (winner : c.proposed[selectWinner c.accepted c.proposed]? = some won)
    (acceptance : c.accepted[selectWinner c.accepted c.proposed]? = some accept)
    (produced : won.pr.candidate = some candidate) (live : rs.terminal = false ∧ rs.cancelled = false)
    (decided : settleDecision c (some rs) = some (answer,w)) :
    ∃ o written, answer = .ok o ∧ w.record = some written ∧
      o.acceptedTokens = accept.acceptedPrefix ∧
      o.rejectedTokens = UInt32.ofNat candidate.size - accept.acceptedPrefix ∧
      o.proposedTokens = UInt32.ofNat candidate.size ∧
      written.committed = rs.committed ++ (candidate.tokens.take accept.acceptedPrefix.toNat).map Token.id ∧
      w.counts = settledCounts o.outcome (UInt32.ofNat candidate.size) accept.acceptedPrefix
        (UInt32.ofNat candidate.size - accept.acceptedPrefix) := by
  obtain ⟨_,_,_,o,mid,branch,length,answered,record,counts⟩ := liveBranch winner acceptance produced live decided
  obtain ⟨taken,rejected,proposed⟩ := settleBranchTokens branch
  obtain ⟨advanced,_⟩ := settleBranchAdvanced branch
  exact ⟨o,_,answered,record,taken,rejected,proposed.trans length,advanced.committed,counts⟩

theorem liveSettlementSafe {x : Executors} (facts : CallFacts x (.settling c))
    (ready : s.calls[index]? = some (.settling c)) (found : s.fabric.find c.request = some rs)
    (live : rs.terminal = false ∧ rs.cancelled = false) (wins : Wins c accept candidate)
    (settles : s.step (.call index (.settle now)) = some s') :
    SafeSettlement s s' index c.request accept candidate ↔ accept.acceptedPrefix ≤ UInt32.ofNat candidate.size := by
  obtain ⟨won,winner,acceptance,produced⟩ := winsSelected facts wins
  rcases settlingStep ready settles with ⟨answer,w,decided,written,returned⟩ | ⟨undecided,_,undefined⟩
  · rw [found] at decided
    obtain ⟨o,record,rfl,stored,taken,rejected,proposed,committed,_⟩ :=
      liveDecision winner acceptance produced live decided
    have sum : o.acceptedTokens.toNat + o.rejectedTokens.toNat = o.proposedTokens.toNat ↔
        accept.acceptedPrefix ≤ UInt32.ofNat candidate.size := by
      rw [taken,rejected,proposed]
      exact balancedIff _ _
    constructor
    · intro safe
      exact sum.mp (safe.balanced o returned)
    · intro fits
      have inside : accept.acceptedPrefix.toNat ≤ candidate.size :=
        (UInt32.le_iff_toNat_le.mp fits).trans (lengthWord candidate)
      refine ⟨?_,?_,?_,?_⟩
      · rw [returned]
        intro no
        cases no
      · intro before after held after'
        cases Option.some.inj (found.symm.trans held)
        rw [written,writeSelf,stored] at after'
        obtain ⟨events,heard⟩ := heardSame record (w.note.map (s.fabric.event now c.request))
        have same : after.committed = record.committed := by
          cases Option.some.inj after'
          dsimp only
          rw [heard]
        rw [same,committed,List.length_append,List.length_map,List.length_take]
        have size : candidate.size = candidate.tokens.length := rfl
        omega
      · intro beyond
        omega
      · intro o' ended
        cases Option.some.inj (returned.symm.trans ended)
        exact sum.mpr fits
  · constructor
    · intro safe
      exact absurd undefined safe.defined
    · intro fits
      -- a prefix that fits is read to its end, so there would be an answer
      have inside : accept.acceptedPrefix.toNat ≤ candidate.size :=
        (UInt32.le_iff_toNat_le.mp fits).trans (lengthWord candidate)
      obtain ⟨answer,f',settled⟩ := settleAnswers winner acceptance produced inside s.fabric now
      rw [settleSection,undecided] at settled
      contradiction

end settlements

theorem settlementSafeExactly {x : Executors} {cfg : Config} {actions : List Action} {s s' : System} {index : Nat}
    {now : UInt64} {c : Cycle} {rs : RequestState} {accept : AcceptanceResult} {candidate : CandidateSequence}
    (run : Run x (.start cfg) actions s) (ready : s.calls[index]? = some (.settling c))
    (found : s.fabric.find c.request = some rs) (wins : Wins c accept candidate)
    (settles : s.step (.call index (.settle now)) = some s') :
    SafeSettlement s s' index c.request accept candidate ↔
      rs.terminal = true ∨ rs.cancelled = true ∨ accept.acceptedPrefix ≤ UInt32.ofNat candidate.size := by
  have facts := callFacts run _ (List.mem_of_getElem? ready)
  by_cases closed : rs.terminal = true ∨ rs.cancelled = true
  · constructor
    · intro _
      exact closed.elim .inl (fun cancelled => .inr (.inl cancelled))
    · intro _
      exact closedSettlementSafe ready found closed settles
  · have live : rs.terminal = false ∧ rs.cancelled = false := by simpa using closed
    rw [liveSettlementSafe facts ready found live wins settles,live.1,live.2]
    simp

theorem settlementPosed {x : Executors} {cfg : Config} {actions : List Action} {s : System} {index : Nat} {c : Cycle}
    (run : Run x (.start cfg) actions s) (ready : s.calls[index]? = some (.settling c)) :
    (∃ rs, s.fabric.find c.request = some rs) ∧ ∃ accept candidate, Wins c accept candidate := by
  have member := List.mem_of_getElem? ready
  have facts := callFacts run _ member
  obtain ⟨won,accept,_,_,candidate,winner,acceptance,_,_,produced,_⟩ := winnerFacts facts
  refine ⟨Option.isSome_iff_exists.mp ((registry run).registered _ member rfl),accept,candidate,?_⟩
  exact ⟨_,won,winnerFirstBest facts,winner,acceptance,produced⟩

def claiming (ids : List UInt32) (n : UInt32) : List Action :=
  [.submit 1 (makeReq ⟨100⟩ []),.runCycle 2 2 ⟨100⟩] ++ oneBranchAnswers 0 (proposedTokens ids) (acceptedFirst n)

def claimed (ids : List UInt32) (n : UInt32) : Option System :=
  runOf (drafts ids) (accepts n) (.start {}) (claiming ids n)

def withinClaim : System := (claimed [5,6] 2).get (by decide +kernel)

def withinSettled : System := (withinClaim.step (.call 0 (.settle 3))).get (by decide +kernel)

theorem claimWithinSafe : ∃ c accept candidate, withinClaim.calls[0]? = some (.settling c) ∧ Wins c accept candidate ∧
    SafeSettlement withinClaim withinSettled 0 c.request accept candidate := by
  have run : Run (.functions (drafts [5,6]) (accepts 2)) (.start {}) (claiming [5,6] 2) withinClaim :=
    runOfRun (by decide +kernel)
  obtain ⟨c,ready⟩ := readyCall (by decide +kernel : ((withinClaim.calls[0]?).bind Call.ready).isSome)
  have answers : ((withinClaim.calls[0]?).bind Call.ready).map (fun c => (c.accepted,c.proposed.map BranchResult.pr)) =
      some ([acceptedFirst 2],[proposedTokens [5,6]]) := by decide +kernel
  rw [ready] at answers
  obtain ⟨accepted,proposed⟩ := Prod.mk.inj (Option.some.inj answers)
  obtain ⟨⟨rs,found⟩,accept,candidate,wins⟩ := settlementPosed run ready
  have fits : accept.acceptedPrefix ≤ UInt32.ofNat candidate.size := by
    obtain ⟨w,won,_,winner,acceptance,produced⟩ := wins
    have one := List.mem_of_getElem? acceptance
    have other := List.mem_map_of_mem (f := BranchResult.pr) (List.mem_of_getElem? winner)
    rw [accepted,List.mem_singleton] at one
    rw [proposed,List.mem_singleton] at other
    rw [other] at produced
    cases Option.some.inj produced
    rw [one]
    decide
  have settles : withinClaim.step (.call 0 (.settle 3)) = some withinSettled := (Option.some_get _).symm
  exact ⟨c,accept,candidate,ready,wins,(settlementSafeExactly run ready found wins settles).mpr (.inr (.inr fits))⟩

def beyondClaim : System := (claimed [5,6] 3).get (by decide +kernel)

def beyondSettled : System := (beyondClaim.step (.call 0 (.settle 3))).get (by decide +kernel)

def Call.lost : Call → Option RequestId
  | .undefined id => some id
  | _ => none

theorem claimBeyondUnsafe : ∃ c accept candidate,
    Run (.functions (drafts [5,6]) (accepts 3)) (.start {}) (claiming [5,6] 3) beyondClaim ∧
    beyondClaim.calls[0]? = some (.settling c) ∧ Wins c accept candidate ∧
    beyondClaim.step (.call 0 (.settle 3)) = some beyondSettled ∧
    ¬ SafeSettlement beyondClaim beyondSettled 0 c.request accept candidate := by
  have run : Run (.functions (drafts [5,6]) (accepts 3)) (.start {}) (claiming [5,6] 3) beyondClaim :=
    runOfRun (by decide +kernel)
  obtain ⟨c,ready⟩ := readyCall (by decide +kernel : ((beyondClaim.calls[0]?).bind Call.ready).isSome)
  have request : ((beyondClaim.calls[0]?).bind Call.ready).map Cycle.request = some ⟨100⟩ := by decide +kernel
  rw [ready] at request
  have here : c.request = ⟨100⟩ := Option.some.inj request
  obtain ⟨_,accept,candidate,wins⟩ := settlementPosed run ready
  have gone : (beyondSettled.calls[0]?).bind Call.lost = some ⟨100⟩ := by decide +kernel
  obtain ⟨call,at_,lost⟩ := Option.bind_eq_some_iff.mp gone
  refine ⟨c,accept,candidate,run,ready,wins,(Option.some_get _).symm,?_⟩
  intro safe
  cases call with
  | undefined id =>
      cases Option.some.inj lost
      rw [here] at safe
      exact safe.defined at_
  | _ => contradiction

def Lacks (b : Nat) (pr : ProposalResult) (call : Call) : Prop :=
  pr.candidate = none ∧ ∃ c br, call.cycle = some c ∧ c.proposed[b]? = some br ∧ br.pr = pr

section lacking
variable {x : Executors} {b : Nat} {pr : ProposalResult}

theorem Lacks.proposed {c : Cycle} {pin : ProposalInput} {answer : ProposalResult}
    (lacks : Lacks b pr (.proposalSent c pin)) : Lacks b pr (c.proposalReturned pin (.ok answer)) := by
  obtain ⟨missing,_,br,held,at_,same⟩ := lacks
  cases Option.some.inj held
  obtain ⟨_,rfl,goes | goes⟩ := proposedGoes c pin answer <;> rw [goes] <;>
    exact ⟨missing,_,br,rfl,appendedKeeps at_ _,same⟩

theorem Lacks.verified {c : Cycle} {vin : VerificationInput} {accept : AcceptanceResult}
    (lacks : Lacks b pr (.verificationSent c vin)) : Lacks b pr (c.verificationReturned vin (.ok accept)) := by
  obtain ⟨missing,_,br,held,at_,same⟩ := lacks
  cases Option.some.inj held
  obtain ⟨_,rfl,goes | goes⟩ := verifiedGoes c vin accept <;> rw [goes] <;> exact ⟨missing,_,br,rfl,at_,same⟩

theorem lacksUnsettled {c : Cycle} (facts : CallFacts x (.settling c)) : ¬ Lacks b pr (.settling c) := by
  rintro ⟨missing,_,br,held,at_,same⟩
  cases Option.some.inj held
  obtain ⟨cycle,_,all,_⟩ := facts
  have inside : b < c.accepted.length := by
    rw [all]
    exact (List.getElem?_eq_some_iff.mp at_).1
  obtain ⟨_,br',_,there,candidate,_⟩ := cycle.verification b _ (List.getElem?_eq_getElem inside)
  cases Option.some.inj (at_.symm.trans there)
  rw [same,missing] at candidate
  contradiction

theorem lacksStep {f f' : Fabric} {call next : Call} {action : CallAction} (facts : CallFacts x call)
    (lacks : Lacks b pr call) (taken : call.step f action = some (next,f')) :
    Lacks b pr next ∨ next = .undefined call.request ∨
    ∃ e, next = .returned call.request (.error e) ∧
      (action = .proposalResult (.error e) ∨ action = .verificationResult (.error e)) := by
  cases callStep taken with
  | asks c => exact .inl lacks
  | proposalFailed c pin e => exact .inr (.inr ⟨e,rfl,.inl rfl⟩)
  | proposed c pin answer => exact .inl lacks.proposed
  | sends at_ produced => exact .inl lacks
  | finds at_ absent => exact .inr (.inl rfl)
  | verificationFailed c vin e => exact .inr (.inr ⟨e,rfl,.inr rfl⟩)
  | verified c vin accept => exact .inl lacks.verified
  | settles settled => exact absurd lacks (lacksUnsettled facts)
  | undecided nothing => exact absurd lacks (lacksUnsettled facts)

def Unreported (b : Nat) (pr : ProposalResult) (id : RequestId) (call : Call) : Prop :=
  call.request = id ∧ (Lacks b pr call ∨ call = .undefined id ∨ ∃ e, call = .returned id (.error e))

theorem unreportedStep {s s' : System} {a : Action} {index : Nat} {id : RequestId}
    (facts : ∀ call ∈ s.calls, CallFacts x call) (taken : s.step a = some s')
    (before : ∃ call, s.calls[index]? = some call ∧ Unreported b pr id call) :
    ∃ call, s'.calls[index]? = some call ∧ Unreported b pr id call := by
  obtain ⟨call,at_,rfl,held⟩ := before
  rcases stepCallTo taken at_ with ⟨kept,_⟩ | ⟨action,next,_,moved,at'⟩
  · exact ⟨call,kept,rfl,held⟩
  · obtain ⟨request,ongoing⟩ := callStays moved
    refine ⟨next,at',request,?_⟩
    rcases held with lacks | gone | ⟨e,gone⟩
    · rcases lacksStep (facts call (List.mem_of_getElem? at_)) lacks moved with still | lost | ⟨e,failed,_⟩
      · exact .inl still
      · exact .inr (.inl lost)
      · exact .inr (.inr ⟨e,failed⟩)
    · rw [gone] at ongoing
      contradiction
    · rw [gone] at ongoing
      contradiction

theorem unreportedRun {s t : System} {actions : List Action} {index : Nat} {id : RequestId}
    (run : Run x s actions t) (facts : ∀ call ∈ s.calls, CallFacts x call)
    (before : ∃ call, s.calls[index]? = some call ∧ Unreported b pr id call) :
    ∃ call, t.calls[index]? = some call ∧ Unreported b pr id call := by
  have both : (∀ call ∈ t.calls, CallFacts x call) ∧ ∃ call, t.calls[index]? = some call ∧ Unreported b pr id call := by
    refine Runs.invariant (P := fun u => (∀ call ∈ u.calls, CallFacts x call) ∧
      ∃ call, u.calls[index]? = some call ∧ Unreported b pr id call) run ⟨facts,before⟩ ?_
    rintro u a v ⟨facts,held⟩ allowed taken
    exact ⟨callFactsStep taken allowed facts,unreportedStep facts taken held⟩
  exact both.2

def Call.left : Call → Nat
  | .proposing c => 2 * (c.planned.branchCount.toNat - c.proposed.length) + 2 * c.planned.branchCount.toNat + 2
  | .proposalSent c _ => 2 * (c.planned.branchCount.toNat - c.proposed.length) + 2 * c.planned.branchCount.toNat + 1
  | .verifying c => 2 * (c.proposed.length - c.accepted.length) + 1
  | .verificationSent c _ => 2 * (c.proposed.length - c.accepted.length)
  | .settling _ => 1
  | .returned _ _ | .undefined _ => 0

structure Answering (x : Executors) : Prop where
  propose : ∀ pin, ∃ pr, x.propose pin (.ok pr)
  verify : ∀ vin, ∃ accept, x.verify vin (.ok accept)

theorem proposalLeft {c : Cycle} {pin : ProposalInput} (pr : ProposalResult) (facts : CallFacts x (.proposalSent c pin)) :
    (c.proposalReturned pin (.ok pr)).left < (Call.proposalSent c pin).left := by
  obtain ⟨_,none,room⟩ := facts
  obtain ⟨_,rfl,goes | goes⟩ := proposedGoes c pin pr
  · simp only [goes,Call.left,List.length_append,List.length_singleton]
    omega
  · simp only [goes,Call.left,List.length_append,List.length_singleton,none,List.length_nil]
    omega

theorem verificationLeft {c : Cycle} {vin : VerificationInput} (accept : AcceptanceResult)
    (facts : CallFacts x (.verificationSent c vin)) :
    (c.verificationReturned vin (.ok accept)).left < (Call.verificationSent c vin).left := by
  obtain ⟨_,_,br,at_,_⟩ := facts
  have room := (List.getElem?_eq_some_iff.mp at_).1
  obtain ⟨_,rfl,goes | goes⟩ := verifiedGoes c vin accept
  · simp only [goes,Call.left,List.length_append,List.length_singleton]
    omega
  · simp only [goes,Call.left]
    omega

theorem callMoves {s : System} {index : Nat} {call : Call} (answers : Answering x) (at_ : s.calls[index]? = some call)
    (active : call.cycle.isSome) (facts : CallFacts x call) :
    ∃ action next f', x.admits s (.call index action) ∧ call.step s.fabric action = some (next,f') ∧
      next.left < call.left ∧ ∀ e, action ≠ .proposalResult (.error e) ∧ action ≠ .verificationResult (.error e) := by
  cases call with
  | proposing c =>
      refine ⟨.proposalInput,_,_,trivial,rfl,?_,by simp⟩
      simp only [Call.left]
      omega
  | proposalSent c pin =>
      obtain ⟨pr,answer⟩ := answers.propose pin
      refine ⟨.proposalResult (.ok pr),_,_,?_,rfl,proposalLeft pr facts,by simp⟩
      intro c' pin' sent
      cases Option.some.inj (at_.symm.trans sent)
      exact answer
  | verifying c =>
      obtain ⟨_,_,room⟩ := facts
      have present := List.getElem?_eq_getElem room
      refine ⟨.verificationInput,?_⟩
      simp only [Call.step,Cycle.verificationSection,present,bind,Option.bind_some]
      split
      · refine ⟨_,_,trivial,rfl,?_,by simp⟩
        simp only [Call.left]
        omega
      · refine ⟨_,_,trivial,rfl,?_,by simp⟩
        simp only [Call.left]
        omega
  | verificationSent c vin =>
      obtain ⟨accept,answer⟩ := answers.verify vin
      refine ⟨.verificationResult (.ok accept),_,_,?_,rfl,verificationLeft accept facts,by simp⟩
      intro c' vin' sent
      cases Option.some.inj (at_.symm.trans sent)
      exact answer
  | settling c =>
      refine ⟨.settle 0,_,_,trivial,rfl,?_,by simp⟩
      split <;> exact Nat.one_pos
  | returned id answer => contradiction
  | undefined id => contradiction

theorem lacksLost (answers : Answering x) : ∀ (n : Nat) {s : System} {index : Nat} {call : Call}, call.left < n →
    s.calls[index]? = some call → Lacks b pr call → (∀ call ∈ s.calls, CallFacts x call) →
    ∃ actions t, Run x s actions t ∧ t.calls[index]? = some (.undefined call.request) := by
  intro n
  induction n with
  | zero =>
      intro s index call none
      omega
  | succ n ih =>
      intro s index call few at_ lacks facts
      have own := facts call (List.mem_of_getElem? at_)
      have active : call.cycle.isSome := by
        obtain ⟨_,c,_,active,_⟩ := lacks
        rw [active]
        rfl
      obtain ⟨action,next,f',allowed,moved,less,results⟩ := callMoves answers at_ active own
      obtain ⟨taken,there⟩ := callTaken at_ moved
      rcases lacksStep own lacks moved with still | lost | ⟨e,_,failed⟩
      · obtain ⟨actions,t,rest,gone⟩ := ih (by omega) there still (callFactsStep taken allowed facts)
        rw [(callStays moved).1] at gone
        exact ⟨_,t,Runs.cons allowed taken rest,gone⟩
      · exact ⟨_,_,.snoc .nil allowed taken,there.trans (congrArg some lost)⟩
      · rcases failed with failed | failed
        · exact absurd failed (results e).1
        · exact absurd failed (results e).2

end lacking

structure FailureReported (s t : System) (index : Nat) (id : RequestId) (pr : ProposalResult) : Prop where
  reported : ∃ o, t.calls[index]? = some (.returned id (.ok o)) ∧ o.outcome =
    if pr.outcome = .retryableFailure then .proposalRetryableFailure else .proposalNonRetryableFailure
  kept : ∀ rs, s.fabric.find id = some rs → ∃ rs', t.fabric.find id = some rs' ∧ rs'.committed = rs.committed ∧
    rs'.authGen = rs.authGen ∧ rs'.authState = rs.authState ∧ rs'.proposals = rs.proposals

theorem failedProposalNeverReported {x : Executors} {cfg : Config} {actions : List Action} {s : System} {index : Nat}
    {call : Call} {b : Nat} {pr : ProposalResult} (run : Run x (.start cfg) actions s)
    (at_ : s.calls[index]? = some call) (lacks : Lacks b pr call) :
    (∀ more t, Run x s more t → ¬ FailureReported s t index call.request pr) ∧
    (Answering x → ∃ more t, Run x s more t ∧ t.calls[index]? = some (.undefined call.request)) := by
  have facts := callFacts run
  constructor
  · intro more t rest failure
    obtain ⟨o,ended,_⟩ := failure.reported
    obtain ⟨last,there,_,held⟩ := unreportedRun rest facts ⟨call,at_,rfl,.inl lacks⟩
    cases Option.some.inj (ended.symm.trans there)
    rcases held with ⟨_,c,_,active,_⟩ | gone | ⟨e,gone⟩
    · contradiction
    · contradiction
    · cases gone
  · intro answers
    exact lacksLost answers _ (Nat.lt_succ_self _) at_ lacks facts

def tooDeep : Config := { policy := { maxDepth := 257, adaptiveDepthEnabled := false } }

def deepDraft (pin : ProposalInput) : Result ProposalResult := CpuProposer.propose {} pin

def deepFailure : ProposalResult :=
  CpuProposer.proposerFailure .nonRetryableFailure .invalidDepth "proposal depth exceeds synthetic model bound"

def deepActions : List Action :=
  [.submit 1 (makeReq ⟨100⟩ []),.runCycle 2 2 ⟨100⟩,.call 0 .proposalInput,.call 0 (.proposalResult (.ok deepFailure))]

def deepSystem : System := (runOf deepDraft (accepts 1) (.start tooDeep) deepActions).get (by decide +kernel)

def deepRead : System := (deepSystem.step (.call 0 .verificationInput)).get (by decide +kernel)

theorem deepRun : Run (.functions deepDraft (accepts 1)) (.start tooDeep) deepActions deepSystem :=
  runOfRun (by decide +kernel)

theorem deepLacks : ∃ call, deepSystem.calls[0]? = some call ∧ call.request = ⟨100⟩ ∧ Lacks 0 deepFailure call := by
  have seen : ((deepSystem.calls[0]?).bind Call.cycle).map (fun c => (c.request,c.proposed.map BranchResult.pr)) =
      some (⟨100⟩,[deepFailure]) := by decide +kernel
  obtain ⟨c,held,both⟩ := Option.map_eq_some_iff.mp seen
  obtain ⟨call,at_,active⟩ := Option.bind_eq_some_iff.mp held
  obtain ⟨request,results⟩ := Prod.mk.inj both
  obtain ⟨br,first,same⟩ := Option.map_eq_some_iff.mp
    ((List.getElem?_map (f := BranchResult.pr)).symm.trans (congrArg (fun rs => rs[0]?) results))
  refine ⟨call,at_,?_,rfl,c,br,active,first,same⟩
  rw [← request]
  cases call with
  | returned id answer => contradiction
  | undefined id => contradiction
  | _ => cases Option.some.inj active; rfl

theorem deepUnreported : ∃ call, deepSystem.calls[0]? = some call ∧ Lacks 0 deepFailure call ∧
    ∀ more t, Run (.functions deepDraft (accepts 1)) deepSystem more t →
      ¬ FailureReported deepSystem t 0 ⟨100⟩ deepFailure := by
  obtain ⟨call,at_,request,lacks⟩ := deepLacks
  refine ⟨call,at_,lacks,?_⟩
  rw [← request]
  exact (failedProposalNeverReported deepRun at_ lacks).1

/- The bundled proposer reports a failure here, which is no error of the call, and the
candidate is read all the same. -/
theorem deepCandidateRead : ∃ call, Run (.functions deepDraft (accepts 1)) (.start tooDeep) deepActions deepSystem ∧
    deepSystem.calls[0]? = some call ∧ Lacks 0 deepFailure call ∧
    deepSystem.step (.call 0 .verificationInput) = some deepRead ∧ deepRead.calls[0]? = some (.undefined ⟨100⟩) := by
  obtain ⟨call,at_,_,lacks⟩ := deepLacks
  have gone : (deepRead.calls[0]?).bind Call.lost = some ⟨100⟩ := by decide +kernel
  refine ⟨call,deepRun,at_,lacks,(Option.some_get _).symm,?_⟩
  obtain ⟨last,there,lost⟩ := Option.bind_eq_some_iff.mp gone
  rw [there]
  cases last with
  | undefined id =>
      cases Option.some.inj lost
      rfl
  | _ => contradiction

end SpeculationFabric
