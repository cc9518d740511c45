import SpeculationFabric.CallFacts

/-! A cycle that runs alone on its request. Other requests may be used freely in
between, by any number of calls. The record the cycle settles on is then the one it
was planned on, and every input it handed out was built from that record. -/
namespace SpeculationFabric

def sparing (id : RequestId) (own : Nat) (s : System) : Action → Prop
  | .submit _ req => req.id ≠ id
  | .cancel _ target _ => target ≠ id
  | .complete _ target => target ≠ id
  | .rollback _ target _ => target ≠ id
  | .retry _ target => target ≠ id
  | .rollEpoch => True
  | .emitEvent _ target _ _ _ => target ≠ id
  | .runCycle _ _ target => target ≠ id
  | .call index _ => index = own ∨ ∀ call, s.calls[index]? = some call → call.request ≠ id

abbrev RunAlone (x : Executors) (id : RequestId) (own : Nat) (s : System) (actions : List Action) (t : System) :
    Prop :=
  Runs.Trace System.step (fun u a => x.admits u a ∧ sparing id own u a) s actions t

def SameRecord (base rs : RequestState) : Prop :=
  ∃ machine events, rs = { base with cycle := machine, events := events }

theorem SameRecord.noted {base rs : RequestState} (same : SameRecord base rs) (events : List Event) :
    SameRecord base { rs with events := events } := by
  obtain ⟨machine,_,rfl⟩ := same
  exact ⟨machine,events,rfl⟩

theorem sparingEffect {s : System} {id : RequestId} {own : Nat} {a : Action} {rs rs' : RequestState}
    (effect : Effect s id a rs rs') (spared : sparing id own s a) :
    (∃ events, rs' = { rs with events := events }) ∨ ∃ now, a = .call own (.settle now) := by
  cases effect with
  | noted _ _ events => exact .inl ⟨events,rfl⟩
  | resubmitted events same null => exact absurd same spared
  | cancelled events live => exact absurd rfl spared
  | completed events => exact absurd rfl spared
  | rolledBack events => exact absurd rfl spared
  | retried events live below => exact absurd rfl spared
  | planned machine events live => exact absurd rfl spared
  | settled call same facts =>
      rcases spared with rfl | other
      · exact .inr ⟨_,rfl⟩
      · exact absurd same (other _ call)

def askedFrom (base : RequestState) (id : RequestId) (pin : ProposalInput) : Prop :=
  ∃ rs p b, SameRecord base rs ∧ pin = proposalInput rs id p b

def sentFrom (base : RequestState) (id : RequestId) (vin : VerificationInput) : Prop :=
  ∃ rs p br candidate, SameRecord base rs ∧ vin = verificationInput rs id p br candidate

structure Alone (id : RequestId) (own : Nat) (base : RequestState) (s : System) : Prop where
  call : ∃ call, s.calls[own]? = some call ∧ call.request = id ∧
    (call.cycle.isSome → (∃ rs, s.fabric.find id = some rs ∧ SameRecord base rs) ∧
      InputsSatisfy (askedFrom base id) (sentFrom base id) call)

theorem settleEnds {f f' : Fabric} {call next : Call} {now : UInt64}
    (taken : call.step f (.settle now) = some (next,f')) : next.cycle = none := by
  cases callStep taken with
  | settles settled => rfl
  | undecided nothing => rfl

theorem aloneStep {x : Executors} {id : RequestId} {own : Nat} {base : RequestState} {s s' : System} {a : Action}
    (before : Alone id own base s) (allowed : x.admits s a ∧ sparing id own s a) (taken : s.step a = some s') :
    Alone id own base s' := by
  obtain ⟨call,at_,request,held⟩ := before.call
  -- unless the call itself settles, the record only gathers events
  have record : (∀ now, a ≠ .call own (.settle now)) → (∃ rs, s.fabric.find id = some rs ∧ SameRecord base rs) →
      ∃ rs, s'.fabric.find id = some rs ∧ SameRecord base rs := by
    rintro other ⟨rs,found,same⟩
    obtain ⟨rs',stored,effect⟩ := stepEffect taken found
    rcases sparingEffect effect allowed.2 with ⟨events,rfl⟩ | ⟨now,settles⟩
    · exact ⟨_,stored,same.noted events⟩
    · exact absurd settles (other now)
  rcases stepCallTo taken at_ with ⟨stays,noCall⟩ | ⟨action,next,rfl,stepped,moved⟩
  · refine ⟨call,stays,request,fun active => ?_⟩
    exact ⟨record (fun now => noCall (.settle now)) (held active).1,(held active).2⟩
  · obtain ⟨stays,ongoing⟩ := callStays stepped
    refine ⟨next,moved,stays.trans request,fun active => ?_⟩
    have notSettle : ∀ now, Action.call own action ≠ .call own (.settle now) := by
      intro now same
      cases same
      rw [settleEnds stepped] at active
      contradiction
    obtain ⟨⟨rs,found,same⟩,inputs⟩ := held ongoing
    refine ⟨record notSettle ⟨rs,found,same⟩,?_⟩
    exact inputsStep (by rw [request]; exact found) (fun p b => ⟨rs,p,b,same,by rw [request]⟩)
      (fun p br candidate => ⟨rs,p,br,candidate,same,by rw [request]⟩) stepped inputs

structure Admitted (f : Fabric) (rs : RequestState) : Prop where
  live : rs.terminal = false ∧ rs.cancelled = false
  compatible : (pairDecision rs).compatible = true
  unblocked : (f.backpressure rs).blocked = false

theorem compatibleTokenizer {rs : RequestState} (compatible : (pairDecision rs).compatible = true) :
    rs.req.draftModel.tokenizer.id.isNull = false :=
  ((compatibleIff _).mp compatible).1.identified

theorem planAdmits {f : Fabric} {now eventNow : UInt64} {id : RequestId} {p : Planned}
    (planned : (f.planCycle now eventNow id).1 = .inr p) :
    ∃ rs machine, f.find id = some rs ∧ Admitted f rs ∧
      (f.planCycle now eventNow id).2.find id = some { rs with cycle := machine } := by
  obtain ⟨rs,goes⟩ := planGoes planned
  refine ⟨rs,rs.refreshed.cycle.applyAll [.planProposal,.reserveProposal,.dispatchProposal],goes.found,
    ⟨goes.live,goes.compatible,goes.unblocked⟩,?_⟩
  rw [goes.left]
  exact findStoreSelf _ _ _

theorem runCycleStep {id : RequestId} {now eventNow : UInt64} {s s' : System}
    (begins : s.step (.runCycle now eventNow id) = some s') :
    s'.fabric = (s.fabric.planCycle now eventNow id).2 ∧
    s'.calls[s.calls.length]? = some (begun id (s.fabric.planCycle now eventNow id).1) := by
  have same : (⟨(s.fabric.planCycle now eventNow id).2,s.calls ++ [begun id (s.fabric.planCycle now eventNow id).1]⟩ :
      System) = s' := Option.some.inj begins
  rw [← same]
  exact ⟨rfl,List.getElem?_concat_length⟩

theorem aloneBegins {id : RequestId} {now eventNow : UInt64} {s s' : System} {p : Planned}
    (begins : s.step (.runCycle now eventNow id) = some s')
    (planned : (s.fabric.planCycle now eventNow id).1 = .inr p) :
    ∃ base, s.fabric.find id = some base ∧ Admitted s.fabric base ∧ Alone id s.calls.length base s' := by
  obtain ⟨base,machine,found,admitted,stored⟩ := planAdmits planned
  obtain ⟨fabric,call⟩ := runCycleStep begins
  rw [← fabric] at stored
  rw [planned] at call
  refine ⟨base,found,admitted,_,call,rfl,fun _ => ⟨⟨_,stored,machine,base.events,rfl⟩,?_,?_⟩⟩
  · intro pin member
    cases member
  · intro vin member
    cases member

structure AloneUntil (id : RequestId) (s₀ : System) (c : Cycle) (s₂ : System) (base : RequestState) : Prop where
  found : s₀.fabric.find id = some base
  admitted : Admitted s₀.fabric base
  request : c.request = id
  record : ∃ rs, s₂.fabric.find id = some rs ∧ SameRecord base rs
  pins : ∀ pin ∈ c.pins, askedFrom base id pin
  vins : ∀ vin ∈ c.vins, sentFrom base id vin

theorem endedStays {x : Executors} {own : Nat} {s t : System} {actions : List Action} {id : RequestId} {call : Call}
    (run : RunAlone x id own s actions t) (at_ : s.calls[own]? = some call) (ended : call.cycle = none) :
    t.calls[own]? = some call := by
  refine Runs.invariant (P := fun u => u.calls[own]? = some call) run at_ ?_
  intro u a v before _ taken
  rcases stepCallTo taken before with ⟨stays,_⟩ | ⟨action,next,_,stepped,_⟩
  · exact stays
  · have ongoing := (callStays stepped).2
    rw [ended] at ongoing
    contradiction

theorem aloneUntil {x : Executors} {id : RequestId} {now eventNow : UInt64} {s₀ s₁ s₂ : System}
    {middle : List Action} {c : Cycle} (begins : s₀.step (.runCycle now eventNow id) = some s₁)
    (alone : RunAlone x id s₀.calls.length s₁ middle s₂)
    (ready : s₂.calls[s₀.calls.length]? = some (.settling c)) : ∃ base, AloneUntil id s₀ c s₂ base := by
  cases planned : (s₀.fabric.planCycle now eventNow id).1 with
  | inl answer =>
      -- the call ended where it began, so it cannot be about to settle
      have call := (runCycleStep begins).2
      rw [planned] at call
      have still := endedStays alone call rfl
      cases Option.some.inj (ready.symm.trans still)
  | inr p =>
      obtain ⟨base,found,admitted,start⟩ := aloneBegins begins planned
      have reached : Alone id s₀.calls.length base s₂ :=
        Runs.invariant alone start (fun u a v before allowed taken => aloneStep before allowed taken)
      obtain ⟨call,at_,request,held⟩ := reached.call
      cases Option.some.inj (ready.symm.trans at_)
      obtain ⟨record,pins,vins⟩ := held rfl
      exact ⟨base,found,admitted,request,record,pins,vins⟩

def ownSection (own : Nat) : Action → Bool
  | .call index _ => decide (index = own)
  | _ => false

def aloneOf (propose : ProposalInput → Result ProposalResult) (verify : VerificationInput → Result AcceptanceResult)
    (own : Nat) (s : System) (actions : List Action) : Option System :=
  Runs.exec System.step (fun u a => answersAs propose verify u a && ownSection own a) s actions

theorem aloneOfRun {propose verify} {own : Nat} {s : System} {actions : List Action} (id : RequestId)
    (finishes : (aloneOf propose verify own s actions).isSome) :
    RunAlone (.functions propose verify) id own s actions ((aloneOf propose verify own s actions).get finishes) := by
  refine Runs.ofExec ?_ (Option.some_get finishes).symm
  intro u a passed
  obtain ⟨answers,ours⟩ := Bool.and_eq_true_iff.mp passed
  refine ⟨answersAdmitted u a answers,?_⟩
  cases a with
  | call index action => exact .inl (of_decide_eq_true ours)
  | _ => contradiction

def Call.ready : Call → Option Cycle
  | .settling c => some c
  | _ => none

theorem readyCall {s : System} {index : Nat} (ready : ((s.calls[index]?).bind Call.ready).isSome) :
    ∃ c, s.calls[index]? = some (.settling c) := by
  cases at_ : s.calls[index]? with
  | none =>
      rw [at_] at ready
      contradiction
  | some call =>
      rw [at_] at ready
      cases call with
      | settling c => exact ⟨c,rfl⟩
      | _ => contradiction

def Call.answer : Call → Option (RequestId × Result CycleOutcome)
  | .returned request answer => some (request,answer)
  | _ => none

theorem answeredCall {s : System} {index : Nat} {id : RequestId}
    (back : ((s.calls[index]?).bind Call.answer).map Prod.fst = some id) :
    ∃ answer, s.calls[index]? = some (.returned id answer) := by
  obtain ⟨⟨request,answer⟩,bound,same⟩ := Option.map_eq_some_iff.mp back
  obtain ⟨call,present,reported⟩ := Option.bind_eq_some_iff.mp bound
  cases call with
  | returned request' answer' =>
      cases Option.some.inj reported
      cases same
      exact ⟨answer,present⟩
  | _ => contradiction

end SpeculationFabric
