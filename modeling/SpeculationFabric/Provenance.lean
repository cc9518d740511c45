import SpeculationFabric.Pairs

/-! What a recorded proposal says of the work it came from. The authority of the input is
written when a branch is dispatched; the record of the proposal is built anew at
settlement, from the request as it stands then, and four fields of it are left at
their defaults. -/
namespace SpeculationFabric

structure PinsBuilt (c : Cycle) : Prop where
  lockstep : c.pins.length = c.proposed.length
  built : ∀ (i : Nat) (pin : ProposalInput), c.pins[i]? = some pin →
    ∃ held, pin = proposalInput held c.request c.planned (UInt32.ofNat i)
  models : ∀ (i : Nat) (pin : ProposalInput) (br : BranchResult), c.pins[i]? = some pin → c.proposed[i]? = some br →
    br.proposerModel = pin.provenance.proposerModel

def CallBuilt : Call → Prop
  | .proposing c | .verifying c | .verificationSent c _ | .settling c => PinsBuilt c
  | .proposalSent c pin =>
      PinsBuilt c ∧ ∃ held, pin = proposalInput held c.request c.planned (UInt32.ofNat c.proposed.length)
  | .returned _ _ | .undefined _ => True

theorem begunBuilt (id : RequestId) (plan : Sum (Result CycleOutcome) Planned) : CallBuilt (begun id plan) := by
  cases plan with
  | inl answer => trivial
  | inr p =>
      refine ⟨rfl,?_,?_⟩
      · intro i pin at_
        exact absurd at_ (by simp)
      · intro i pin br at_
        exact absurd at_ (by simp)

theorem answeredBuilt {c : Cycle} {pin : ProposalInput} (built : PinsBuilt c)
    (last : ∃ held, pin = proposalInput held c.request c.planned (UInt32.ofNat c.proposed.length)) (pr : ProposalResult) :
    PinsBuilt { c with
      pins := c.pins ++ [pin]
      proposed := c.proposed ++
        [⟨pr,branchIdAt (UInt32.ofNat c.proposed.length),pin.provenance.proposerModel⟩] } := by
  refine ⟨?_,?_,?_⟩
  · simp only [List.length_append,List.length_singleton,built.lockstep]
  · intro i asked at_
    rcases appendedAt at_ with old | ⟨rfl,rfl⟩
    · exact built.built i asked old
    · rw [built.lockstep]
      exact last
  · intro i asked br at_ result
    rcases appendedAt at_ with old | ⟨rfl,rfl⟩
    · rcases appendedAt result with earlier | ⟨rfl,_⟩
      · exact built.models i asked br old earlier
      · have inside := (List.getElem?_eq_some_iff.mp old).1
        rw [built.lockstep] at inside
        exact absurd inside (Nat.lt_irrefl _)
    · rcases appendedAt result with earlier | ⟨_,rfl⟩
      · have inside := (List.getElem?_eq_some_iff.mp earlier).1
        rw [built.lockstep] at inside
        exact absurd inside (Nat.lt_irrefl _)
      · rfl

theorem callBuiltKept {f f' : Fabric} {call next : Call} {action : CallAction}
    (taken : call.step f action = some (next,f')) (built : CallBuilt call) : CallBuilt next := by
  cases callStep taken with
  | asks c => exact ⟨built,_,rfl⟩
  | proposed c pin pr =>
      have grown := answeredBuilt built.1 built.2 pr
      obtain ⟨_,rfl,goes | goes⟩ := proposedGoes c pin pr <;> rw [goes] <;> exact grown
  | sends at_ produced => exact built
  | verified c vin accept =>
      have same : PinsBuilt { c with vins := c.vins ++ [vin], accepted := c.accepted ++ [accept] } :=
        ⟨built.lockstep,built.built,built.models⟩
      obtain ⟨_,rfl,goes | goes⟩ := verifiedGoes c vin accept <;> rw [goes] <;> exact same
  | _ => trivial

theorem callsBuilt {x : Executors} {cfg : Config} {actions : List Action} {s : System}
    (run : Run x (.start cfg) actions s) : ∀ call ∈ s.calls, CallBuilt call := by
  refine Runs.invariant (P := fun u => ∀ call ∈ u.calls, CallBuilt call) run
    (by intro call member; cases member) ?_
  intro u a v all allowed taken
  exact everyCallKept taken allowed all (fun _ _ id => begunBuilt id _)
    (fun _ _ _ _ _ _ _ stepped built => callBuiltKept stepped built)

structure Faithful (prop : Proposal) (pin : ProposalInput) : Prop where
  provenance : prop.provenance = pin.provenance
  baseState : prop.baseState = pin.baseState

/- The input carries nothing in the fields that settlement leaves out. The cycle number is a 32-bit sum. -/
structure Unwritten (held : RequestState) (p : Planned) : Prop where
  cycle : held.completedCycles + 1 = 0
  proposerModel : held.req.draftModel = {}
  baseGeneration : held.authGen = ⟨0⟩
  dispatch : p.plan.dispatch = ⟨0⟩

structure AsDispatched (held rs : RequestState) : Prop where
  epoch : rs.epoch = held.epoch
  sequence : rs.req.sequence = held.req.sequence
  attempt : rs.attempt = held.attempt
  authState : rs.authState = held.authState

theorem cycleNumbers (m n : UInt32) : (⟨m.toUInt64⟩ : CycleId) = ⟨n.toUInt64⟩ ↔ m = n := by
  rw [StrongId.mk.injEq,UInt32.toUInt64_inj]

theorem faithfulIff (held rs : RequestState) (id : RequestId) (p : Planned) (b : UInt32) (pr : ProposalResult)
    (candidate : CandidateSequence) (count : UInt32) :
    Faithful (settledProposal rs id (branchIdAt b) pr candidate count) (proposalInput held id p b) ↔
      Unwritten held p ∧ AsDispatched held rs := by
  have cycle : (⟨0⟩ : CycleId) = ⟨(held.completedCycles + 1).toUInt64⟩ ↔ held.completedCycles + 1 = 0 :=
    (cycleNumbers 0 _).trans eq_comm
  constructor
  · rintro ⟨provenance,baseState⟩
    simp only [settledProposal,proposalInput,ProposalProvenance.mk.injEq] at provenance
    obtain ⟨epoch,_,sequence,attempt,_,number,_,_,model,generation,dispatch⟩ := provenance
    exact ⟨⟨cycle.mp number,model.symm,generation.symm,dispatch.symm⟩,epoch,sequence,attempt,baseState⟩
  · rintro ⟨⟨number,model,generation,dispatch⟩,epoch,sequence,attempt,state⟩
    refine ⟨?_,state⟩
    simp only [settledProposal,proposalInput,epoch,sequence,attempt,number,model,generation,dispatch]
    rfl

theorem recordedProvenanceWhen {x : Executors} {cfg : Config} {actions : List Action} {s s' : System} {index : Nat}
    {now : UInt64} {c : Cycle} {o : CycleOutcome} (run : Run x (.start cfg) actions s)
    (ready : s.calls[index]? = some (.settling c)) (settles : s.step (.call index (.settle now)) = some s')
    (returned : s'.calls[index]? = some (.returned c.request (.ok o))) (kind : SettledKind o.outcome) :
    ∃ rs rs' prop pin held, s.fabric.find c.request = some rs ∧ s'.fabric.find c.request = some rs' ∧
      rs'.proposals = rs.proposals ++ [prop] ∧ c.pins[selectWinner c.accepted c.proposed]? = some pin ∧
      pin = proposalInput held c.request c.planned (UInt32.ofNat (selectWinner c.accepted c.proposed)) ∧
      (Faithful prop pin ↔ Unwritten held c.planned ∧ AsDispatched held rs) ∧
      (c.request.isNull = false → ¬Faithful prop pin) := by
  have member := List.mem_of_getElem? ready
  have facts := callFacts run _ member
  have built : PinsBuilt c := callsBuilt run _ member
  obtain ⟨won,_,pin,_,_,winner,_,asked,_⟩ := winnerFacts facts
  obtain ⟨held,input⟩ := built.built _ pin asked
  have outcome := settlement (returnedSettles ready settles returned)
  generalize s'.fabric = f' at outcome ⊢
  cases outcome with
  | stale _ _ stale =>
      rw [stale] at kind
      cases kind
  | settled found settled _ _ stored =>
      cases Option.some.inj (settled.winner.symm.trans winner)
      have branch := (facts.1.proposal _ won winner).1
      have proposals := settled.advanced.proposals
      rw [branch] at proposals
      refine ⟨_,_,_,pin,held,found,stored,proposals,asked,input,?_,?_⟩
      · rw [input]
        exact faithfulIff _ _ _ _ _ _ _ _
      · intro real faithful
        rw [input,faithfulIff] at faithful
        obtain ⟨rs,present,pair,models⟩ := everyCallPaired run _ member rfl real
        have model := built.models _ pin won asked winner
        rw [models won (List.mem_of_getElem? winner),input] at model
        have blank : rs.req.draftModel = {} := model.trans faithful.1.proposerModel
        have identified := pair.identified
        rw [blank] at identified
        exact absurd identified (by decide)

def onceActions : List Action :=
  .submit 1 (makeReq ⟨100⟩ []) :: .runCycle 2 2 ⟨100⟩ :: oneBranchAnswers 0 (proposedTokens [5]) (acceptedFirst 1)

def onceReady : System := (runOf (drafts [5]) (accepts 1) (.start {}) onceActions).get (by decide +kernel)

def onceSettled : System := (onceReady.step (.call 0 (.settle 3))).get (by decide +kernel)

def Call.settledKind (call : Call) : Option CycleOutcomeKind :=
  call.answer.bind fun back => back.2.toOption.map CycleOutcome.outcome

theorem onceUnfaithful : ∃ c rs' prop pin, onceReady.calls[0]? = some (.settling c) ∧
    onceSettled.fabric.find c.request = some rs' ∧ prop ∈ rs'.proposals ∧
    c.pins[selectWinner c.accepted c.proposed]? = some pin ∧ ¬Faithful prop pin := by
  have run : Run (.functions (drafts [5]) (accepts 1)) (.start {}) onceActions onceReady := runOfRun (by decide +kernel)
  obtain ⟨c,ready⟩ := readyCall (by decide +kernel : ((onceReady.calls[0]?).bind Call.ready).isSome)
  have request : ((onceReady.calls[0]?).bind Call.ready).map Cycle.request = some ⟨100⟩ := by decide +kernel
  rw [ready] at request
  have request : c.request = ⟨100⟩ := Option.some.inj request
  obtain ⟨answer,returned⟩ := answeredCall
    (by decide +kernel : ((onceSettled.calls[0]?).bind Call.answer).map Prod.fst = some ⟨100⟩)
  have settles : onceReady.step (.call 0 (.settle 3)) = some onceSettled := (Option.some_get _).symm
  have kind : (onceSettled.calls[0]?).bind Call.settledKind = some .verificationSuccessFullAccept := by decide +kernel
  rw [returned] at kind
  cases answer with
  | error e => cases kind
  | ok o =>
      have full : o.outcome = .verificationSuccessFullAccept := Option.some.inj kind
      obtain ⟨rs,rs',prop,pin,_,_,stored,proposals,asked,_,_,never⟩ := recordedProvenanceWhen run ready settles
        (request ▸ returned) (full ▸ .full)
      refine ⟨c,rs',prop,pin,ready,stored,?_,asked,never (by rw [request]; decide)⟩
      rw [proposals]
      exact List.mem_append_right _ (List.mem_singleton_self prop)

theorem onceCycleUnrecorded : Run (.functions (drafts [5]) (accepts 1)) (.start {}) onceActions onceReady ∧
    onceReady.step (.call 0 (.settle 3)) = some onceSettled ∧
    ∃ c pin rs' prop, onceReady.calls[0]? = some (.settling c) ∧
      c.pins[selectWinner c.accepted c.proposed]? = some pin ∧ onceSettled.fabric.find ⟨100⟩ = some rs' ∧
      rs'.proposals[0]? = some prop ∧ ¬Faithful prop pin := by
  refine ⟨runOfRun (by decide +kernel),(Option.some_get _).symm,?_⟩
  obtain ⟨c,ready⟩ := readyCall (by decide +kernel : ((onceReady.calls[0]?).bind Call.ready).isSome)
  have asked : ((onceReady.calls[0]?).bind Call.ready).bind (fun c =>
      (c.pins[selectWinner c.accepted c.proposed]?).map fun pin => pin.provenance.cycle) = some ⟨1⟩ := by decide +kernel
  have recorded : (onceSettled.fabric.find ⟨100⟩).bind (fun rs =>
      (rs.proposals[0]?).map fun prop => prop.provenance.cycle) = some ⟨0⟩ := by decide +kernel
  rw [ready] at asked
  obtain ⟨pin,at_,one⟩ := Option.map_eq_some_iff.mp asked
  obtain ⟨rs',found,there⟩ := Option.bind_eq_some_iff.mp recorded
  obtain ⟨prop,first,zero⟩ := Option.map_eq_some_iff.mp there
  refine ⟨c,pin,rs',prop,ready,at_,found,first,?_⟩
  intro faithful
  rw [faithful.provenance,one] at zero
  exact absurd zero (by decide)

end SpeculationFabric
