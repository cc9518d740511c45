import SpeculationFabric.Isolation

/-! Which model pairs reach an executor. Planning checks the pair in one section and the
executors are called from later ones; the request's pair cannot change in between.
Nothing here speaks about what the executors answer. -/
namespace SpeculationFabric

/- A registered request keeps its models, unless its id is null. -/
theorem effectRequest {s : System} {id : RequestId} {a : Action} {rs rs' : RequestState}
    (effect : Effect s id a rs rs') (named : rs.req.id = id) (real : id.isNull = false) : rs'.req = rs.req := by
  cases effect with
  | resubmitted events same null =>
      rw [named,real] at null
      contradiction
  | settled call same facts => exact facts.advanced.req
  | _ => rfl

def PairedInputs (draft target : ModelIdentity) : Call → Prop
  | .proposing c | .verifying c | .settling c => ∀ br ∈ c.proposed, br.proposerModel = draft
  | .proposalSent c pin => (∀ br ∈ c.proposed, br.proposerModel = draft) ∧
      pin.provenance.request = c.request ∧ pin.provenance.proposerModel = draft
  | .verificationSent c vin => (∀ br ∈ c.proposed, br.proposerModel = draft) ∧
      vin.request = c.request ∧ vin.proposer = draft ∧ vin.verifier = target
  | .returned _ _ | .undefined _ => True

theorem pairedStep {f f' : Fabric} {call next : Call} {action : CallAction} {rs : RequestState}
    (found : f.find call.request = some rs) (taken : call.step f action = some (next,f'))
    (paired : PairedInputs rs.req.draftModel rs.req.targetModel call) :
    PairedInputs rs.req.draftModel rs.req.targetModel next := by
  cases callStep taken with
  | asks c =>
      have entry : f.entry c.request = (rs,f) := entryFound found
      rw [entry]
      exact ⟨paired,rfl,rfl⟩
  | proposed c pin pr =>
      obtain ⟨models,_,model⟩ := paired
      obtain ⟨_,rfl,goes | goes⟩ := proposedGoes c pin pr <;> rw [goes] <;> exact everyAppended models model
  | @sends c br candidate at_ produced =>
      have entry : f.entry c.request = (rs,f) := entryFound found
      rw [entry]
      exact ⟨paired,rfl,paired br (List.mem_of_getElem? at_),rfl⟩
  | verified c vin accept =>
      obtain ⟨models,_⟩ := paired
      obtain ⟨_,rfl,goes | goes⟩ := verifiedGoes c vin accept <;> rw [goes] <;> exact models
  | _ => trivial

def Paired (s : System) (call : Call) : Prop :=
  call.cycle.isSome → call.request.isNull = false → ∃ rs, s.fabric.find call.request = some rs ∧
    CompatiblePair rs.req.draftModel rs.req.targetModel ∧ PairedInputs rs.req.draftModel rs.req.targetModel call

theorem begunPaired {s s' : System} {now eventNow : UInt64} {id : RequestId}
    (begins : s.step (.runCycle now eventNow id) = some s') :
    Paired s' (begun id (s.fabric.planCycle now eventNow id).1) := by
  intro active _
  obtain ⟨p,planned⟩ := activePlanned active
  obtain ⟨rs,machine,_,admitted,stored⟩ := planAdmits planned
  rw [← (runCycleStep begins).1] at stored
  rw [planned]
  refine ⟨_,stored,((compatibleIff _).mp admitted.compatible).1,?_⟩
  intro br member
  cases member

theorem pairedKept {s s' : System} {a : Action} (registry : Registry s) (taken : s.step a = some s')
    (before : ∀ call ∈ s.calls, Paired s call) : ∀ call ∈ s'.calls, Paired s' call := by
  -- the record a call works for keeps its request over the step
  have kept : ∀ id rs, id.isNull = false → s.fabric.find id = some rs →
      ∃ rs', s'.fabric.find id = some rs' ∧ rs'.req = rs.req := by
    intro id rs real found
    obtain ⟨rs',stored,effect⟩ := stepEffect taken found
    exact ⟨rs',stored,effectRequest effect (registry.named id rs found) real⟩
  intro call member
  obtain ⟨j,at_⟩ := List.mem_iff_getElem?.mp member
  rcases stepCallFrom taken at_ with ⟨old,_⟩ | ⟨now,eventNow,id,rfl,rfl⟩ | ⟨action,old,_,present,stepped⟩
  · intro active real
    obtain ⟨rs,found,pair,inputs⟩ := before call (List.mem_of_getElem? old) active real
    obtain ⟨rs',stored,same⟩ := kept call.request rs real found
    exact ⟨rs',stored,by rw [same]; exact pair,by rw [same]; exact inputs⟩
  · exact begunPaired taken
  · intro active real
    obtain ⟨request,ongoing⟩ := callStays stepped
    rw [request] at real ⊢
    obtain ⟨rs,found,pair,inputs⟩ := before old (List.mem_of_getElem? present) ongoing real
    obtain ⟨rs',stored,same⟩ := kept old.request rs real found
    exact ⟨rs',stored,by rw [same]; exact pair,by rw [same]; exact pairedStep found stepped inputs⟩

theorem everyCallPaired {x : Executors} {cfg : Config} {actions : List Action} {s : System}
    (run : Run x (.start cfg) actions s) : ∀ call ∈ s.calls, Paired s call := by
  have both : Registry s ∧ ∀ call ∈ s.calls, Paired s call := by
    refine Runs.invariant (P := fun u => Registry u ∧ ∀ call ∈ u.calls, Paired u call) run
      ⟨registryStart cfg,by intro call member; cases member⟩ ?_
    intro u a v before _ taken
    exact ⟨registryStep taken before.1,pairedKept before.1 taken before.2⟩
  exact both.2

theorem incompatiblePairsNeverExecute {x : Executors} {cfg : Config} {actions : List Action} {s : System}
    (run : Run x (.start cfg) actions s) :
    (∀ c pin, .proposalSent c pin ∈ s.calls → c.request.isNull = false →
      ∃ rs, s.fabric.find c.request = some rs ∧ CompatiblePair rs.req.draftModel rs.req.targetModel ∧
        pin.provenance.request = c.request ∧ pin.provenance.proposerModel = rs.req.draftModel) ∧
    (∀ c vin, .verificationSent c vin ∈ s.calls → c.request.isNull = false →
      ∃ rs, s.fabric.find c.request = some rs ∧ CompatiblePair rs.req.draftModel rs.req.targetModel ∧
        vin.request = c.request ∧ vin.proposer = rs.req.draftModel ∧ vin.verifier = rs.req.targetModel) ∧
    ∀ key : ModelPairCompatibilityKey,
      ((evaluateCompatibility key).compatible = true ↔
        CompatiblePair key.proposer key.verifier ∧ 1 ≤ key.protocolVersion.toNat) ∧
      (evaluateCompatibility key.swapped).compatible = (evaluateCompatibility key).compatible ∧
      ((∃ reason ∈ (evaluateCompatibility key).reasons, reason.fatal = true) ↔
        (evaluateCompatibility key).compatible = false) := by
  have paired := everyCallPaired run
  refine ⟨?_,?_,fun key => ⟨compatibleIff key,compatibleSymmetric key,fatalIff key⟩⟩
  · intro c pin sent real
    obtain ⟨rs,found,pair,_,request,model⟩ := paired _ sent rfl real
    exact ⟨rs,found,pair,request,model⟩
  · intro c vin sent real
    obtain ⟨rs,found,pair,_,request,draft,target⟩ := paired _ sent rfl real
    exact ⟨rs,found,pair,request,draft,target⟩

def askingActions : List Action :=
  [.submit 1 (makeReq ⟨100⟩ [1]),.submit 1 (makeReq ⟨200⟩ []),.runCycle 2 2 ⟨100⟩,.runCycle 3 3 ⟨200⟩] ++
    (oneBranchAnswers 0 (proposedTokens [5]) (acceptedFirst 1)).take 3 ++ [.call 1 .proposalInput]

def askingSystem : System := (runOf (drafts [5]) (accepts 1) (.start {}) askingActions).get (by decide +kernel)

def Call.asks : Call → Option (RequestId × Bool)
  | .proposalSent c _ => some (c.request,false)
  | .verificationSent c _ => some (c.request,true)
  | _ => none

theorem compatibleCalls :
    (∃ c pin rs, .proposalSent c pin ∈ askingSystem.calls ∧ askingSystem.fabric.find c.request = some rs ∧
      CompatiblePair rs.req.draftModel rs.req.targetModel ∧ pin.provenance.proposerModel = rs.req.draftModel) ∧
    ∃ c vin rs, .verificationSent c vin ∈ askingSystem.calls ∧ askingSystem.fabric.find c.request = some rs ∧
      CompatiblePair rs.req.draftModel rs.req.targetModel ∧ vin.proposer = rs.req.draftModel ∧
      vin.verifier = rs.req.targetModel := by
  have run : Run (.functions (drafts [5]) (accepts 1)) (.start {}) askingActions askingSystem :=
    runOfRun (by decide +kernel)
  have every := incompatiblePairsNeverExecute run
  constructor
  · have asked : (askingSystem.calls[1]?).bind Call.asks = some (⟨200⟩,false) := by decide +kernel
    obtain ⟨call,at_,sent⟩ := Option.bind_eq_some_iff.mp asked
    cases call with
    | proposalSent c pin =>
        have member := List.mem_of_getElem? at_
        have request := congrArg Prod.fst (Option.some.inj sent)
        obtain ⟨rs,found,pair,_,model⟩ := every.1 c pin member (by rw [show c.request = ⟨200⟩ from request]; decide)
        exact ⟨c,pin,rs,member,found,pair,model⟩
    | verificationSent c vin => cases congrArg Prod.snd (Option.some.inj sent)
    | _ => contradiction
  · have asked : (askingSystem.calls[0]?).bind Call.asks = some (⟨100⟩,true) := by decide +kernel
    obtain ⟨call,at_,sent⟩ := Option.bind_eq_some_iff.mp asked
    cases call with
    | verificationSent c vin =>
        have member := List.mem_of_getElem? at_
        have request := congrArg Prod.fst (Option.some.inj sent)
        obtain ⟨rs,found,pair,_,draft,target⟩ := every.2.1 c vin member
          (by rw [show c.request = ⟨100⟩ from request]; decide)
        exact ⟨c,vin,rs,member,found,pair,draft,target⟩
    | proposalSent c pin => cases congrArg Prod.snd (Option.some.inj sent)
    | _ => contradiction

end SpeculationFabric
