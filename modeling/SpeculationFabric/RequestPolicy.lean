import SpeculationFabric.CallFacts
import SpeculationFabric.PlannedDepth

/-! Whose policy governs a cycle. The planner is handed the request and reads its own
policy, the engine's; the request's policy is stored and never looked at. A request is
kept to its policy exactly as far as the engine's happens to be the tighter one. -/
namespace SpeculationFabric

def depthLimit (policy : ProposalPolicy) : UInt32 :=
  max 1 (if !policy.adaptiveDepthEnabled && decide (policy.latencyClass = .interactive) then min 2 policy.maxDepth
    else policy.maxDepth)

theorem clampedMost (a : AdaptiveDepth) (policy : ProposalPolicy) (scaled : Int) :
    max 1 (a.clampedDepth policy scaled) ≤ max 1 policy.maxDepth := by
  have one : (1 : UInt32).toNat = 1 := rfl
  have range := policy.maxDepth.toNat_lt
  rw [AdaptiveDepth.clampedDepth]
  split
  · exact UInt32.le_refl _
  · rw [UInt32.le_iff_toNat_le,wordMax,wordMax,one,UInt32.ofInt,UInt32.toNat_ofNat']
    simp only [clampInt,asInt]
    split_ifs <;> omega

theorem plannedDepthMost (s : SpeculationScheduler) (req : SpeculationRequest) (generation : AuthGeneration) :
    (s.planProposal req generation 0 0 0.0).depth ≤ depthLimit s.policy := by
  obtain ⟨scaled,depth⟩ := planDepthScaled s req generation 0 0 0.0
  rw [depth]
  simp only [SpeculationScheduler.scaledDepth,depthLimit,ne_eq,not_true_eq_false,if_false]
  cases s.policy.adaptiveDepthEnabled with
  | true => exact clampedMost s.adaptive s.policy scaled
  | false => simp

theorem plannedDepthFresh {s : SpeculationScheduler} (fresh : s.adaptive.history = []) (req : SpeculationRequest)
    (generation : AuthGeneration) : (s.planProposal req generation 0 0 0.0).depth = depthLimit s.policy := by
  simp only [SpeculationScheduler.planProposal,AdaptiveDepth.chooseDepth,depthLimit,fresh,ne_eq,not_true_eq_false,
    if_false,List.isEmpty_nil,Bool.or_true,if_true]
  cases s.policy.adaptiveDepthEnabled with
  | true => simp
  | false => simp

def Idle (cfg : Config) : Prop :=
  cfg.policy.speculatingEnabled = false ∨ cfg.proposer = false ∨ cfg.verifier = false

structure Covers (engine own : ProposalPolicy) : Prop where
  enabled : own.speculatingEnabled = true
  depth : depthLimit engine ≤ max 1 own.maxDepth
  branches : max 1 engine.maxBranches ≤ max 1 own.maxBranches

structure Governed (own : ProposalPolicy) (pin : ProposalInput) : Prop where
  enabled : own.speculatingEnabled = true
  depth : pin.depth ≤ max 1 own.maxDepth
  branches : pin.branchCount ≤ max 1 own.maxBranches

theorem unblockedEnabled {f : Fabric} {rs : RequestState} (unblocked : (f.backpressure rs).blocked = false) :
    f.scheduler.policy.speculatingEnabled = true := by
  by_contra disabled
  rw [Bool.not_eq_true] at disabled
  rw [Fabric.backpressure,SpeculationScheduler.checkBackpressure,disabled,Bool.not_false,if_pos rfl] at unblocked
  contradiction

structure PlannedUnder (cfg : Config) (p : Planned) : Prop where
  depth : p.depth ≤ depthLimit cfg.policy
  branchCount : p.branchCount = max 1 cfg.policy.maxBranches
  active : ¬Idle cfg

theorem madeUnder {f : Fabric} {cfg : Config} {rs : RequestState} {p : Planned} (config : f.cfg = cfg)
    (policy : f.scheduler.policy = cfg.policy) (made : PlanMade f rs p) : PlannedUnder cfg p := by
  have enabled := unblockedEnabled made.unblocked
  obtain ⟨proposer,verifier⟩ := made.executors
  have most := plannedDepthMost f.scheduler rs.req rs.authGen
  have positive : 1 ≤ (f.scheduler.planProposal rs.req rs.authGen 0 0 0.0).depth.toNat := maxOnePos _
  refine ⟨?_,?_,?_⟩
  · rw [made.depth,maxOneSelf positive,← policy]
    exact most
  · rw [made.branchCount,policy]
  · rintro (disabled | absent | absent)
    · rw [policy,disabled] at enabled
      contradiction
    · rw [config,absent] at proposer
      contradiction
    · rw [config,absent] at verifier
      contradiction

theorem everyPlanUnder {x : Executors} {cfg : Config} {actions : List Action} {s : System}
    (run : Run x (.start cfg) actions s) :
    ∀ call ∈ s.calls, ∀ c, call.cycle = some c → PlannedUnder cfg c.planned := by
  apply everyPlanned (P := PlannedUnder cfg) run
  intro f now eventNow id p config policy planned
  obtain ⟨rs,_,made⟩ := planMade planned
  exact madeUnder config policy made

def Call.pin : Call → Option ProposalInput
  | .proposalSent _ pin => some pin
  | _ => none

theorem dispatchedFrom {s s' : System} {index : Nat} {c : Cycle} {pin : ProposalInput} (registry : Registry s)
    (asks : s.step (.call index .proposalInput) = some s') (sent : s'.calls[index]? = some (.proposalSent c pin)) :
    ∃ rs, s.calls[index]? = some (.proposing c) ∧ s.fabric.find c.request = some rs ∧
      pin = proposalInput rs c.request c.planned (UInt32.ofNat c.proposed.length) := by
  rcases stepCallFrom asks sent with ⟨_,none⟩ | ⟨_,_,_,other,_⟩ | ⟨action,old,same,present,stepped⟩
  · exact absurd rfl (none .proposalInput)
  · cases other
  · cases same
    generalize s'.fabric = f' at stepped
    cases callStep stepped with
    | asks c =>
        obtain ⟨rs,found⟩ := Option.isSome_iff_exists.mp
          (registry.registered _ (List.mem_of_getElem? present) rfl)
        have entry : s.fabric.entry c.request = (rs,s.fabric) := entryFound found
        exact ⟨rs,present,found,by rw [entry]⟩

def Submits (fit : SpeculationRequest → Prop) (a : Action) : Prop := ∀ now req, a = .submit now req → fit req

theorem recordsSubmitted {fit : SpeculationRequest → Prop} {x : Executors} {cfg : Config} {actions : List Action}
    {s : System} (run : Runs.Trace System.step (fun u a => x.admits u a ∧ Submits fit a) (.start cfg) actions s) :
    ∀ id rs, s.fabric.find id = some rs → fit rs.req := by
  have both : Registry s ∧ ∀ id rs, s.fabric.find id = some rs → fit rs.req := by
    refine Runs.invariant (P := fun u => Registry u ∧ ∀ id rs, u.fabric.find id = some rs → fit rs.req) run
      ⟨registryStart cfg,?_⟩ ?_
    · intro id rs found
      exact absurd found (startRecordless _ _ _)
    · rintro u a v ⟨registry,all⟩ ⟨_,submits⟩ taken
      refine ⟨registryStep taken registry,recordsKept registry taken (fun now req _ => submits now req) ?_⟩
      intro id rs rs' found _ effect
      have before := all id rs found
      cases effect with
      | resubmitted events same null => exact submits _ _ rfl
      | settled call same facts =>
          rw [facts.advanced.req]
          exact before
      | _ => exact before
  exact both.2

theorem coversGoverned {cfg : Config} {own : ProposalPolicy} {rs : RequestState} {id : RequestId} {p : Planned}
    (b : UInt32) (under : PlannedUnder cfg p) (covers : Covers cfg.policy own) :
    Governed own (proposalInput rs id p b) := by
  refine ⟨covers.enabled,UInt32.le_trans under.depth covers.depth,?_⟩
  show p.branchCount ≤ max 1 own.maxBranches
  rw [under.branchCount]
  exact covers.branches

theorem pushEventScheduler (f : Fabric) (now : UInt64) (id : RequestId) (type detail json : String) :
    (f.pushEvent now id type detail json).scheduler = f.scheduler := by
  unfold Fabric.pushEvent
  dsimp only
  split <;> rfl

theorem submitScheduler (f : Fabric) (now : UInt64) (req : SpeculationRequest) :
    (f.submit now req).2.scheduler = f.scheduler := by
  have entry : (f.entry req.id).2.scheduler = f.scheduler := by
    unfold Fabric.entry
    split <;> rfl
  unfold Fabric.submit
  dsimp only
  split
  · exact entry
  · exact (pushEventScheduler _ now req.id _ _ _).trans entry

theorem firstDispatch {cfg : Config} {req : SpeculationRequest} {now started eventNow : UInt64} {s₁ s₂ s₃ : System}
    {c : Cycle} {pin : ProposalInput} (submits : (System.start cfg).step (.submit now req) = some s₁)
    (begins : s₁.step (.runCycle started eventNow req.id) = some s₂)
    (asks : s₂.step (.call 0 .proposalInput) = some s₃) (sent : s₃.calls[0]? = some (.proposalSent c pin)) :
    pin.depth = depthLimit cfg.policy ∧ pin.branchCount = max 1 cfg.policy.maxBranches := by
  have registry := registryStep begins (registryStep submits (registryStart cfg))
  obtain ⟨_,proposing,_,rfl⟩ := dispatchedFrom registry asks sent
  have fresh : s₁.fabric.scheduler = { policy := cfg.policy } ∧ s₁.calls = [] := by
    cases Option.some.inj submits
    exact ⟨submitScheduler _ now req,rfl⟩
  have opened : s₂.calls = [begun req.id (s₁.fabric.planCycle started eventNow req.id).1] := by
    cases Option.some.inj begins
    rw [fresh.2]
    rfl
  rw [opened,List.getElem?_cons_zero] at proposing
  cases planned : (s₁.fabric.planCycle started eventNow req.id).1 with
  | inl answer =>
      rw [planned] at proposing
      cases Option.some.inj proposing
  | inr p =>
      rw [planned] at proposing
      cases Option.some.inj proposing
      obtain ⟨rs,_,made⟩ := planMade planned
      have depth := made.depth
      have count := made.branchCount
      rw [fresh.1] at depth count
      rw [plannedDepthFresh rfl,depthLimit,maxOneAgain] at depth
      exact ⟨depth,count⟩

theorem requestPolicyGovernsWhen {x : Executors} {cfg : Config} {actions : List Action} {s : System}
    (run : Runs.Trace System.step (fun u a => x.admits u a ∧
      Submits (fun req => Idle cfg ∨ Covers cfg.policy req.policy) a) (.start cfg) actions s) :
    (∀ index s' c pin, s.step (.call index .proposalInput) = some s' → s'.calls[index]? = some (.proposalSent c pin) →
      ∃ rs, s.fabric.find c.request = some rs ∧ Governed rs.req.policy pin) ∧
    ∀ req now started eventNow s₁ s₂ s₃ c pin, (System.start cfg).step (.submit now req) = some s₁ →
      s₁.step (.runCycle started eventNow req.id) = some s₂ → s₂.step (.call 0 .proposalInput) = some s₃ →
      s₃.calls[0]? = some (.proposalSent c pin) → (Governed req.policy pin ↔ Covers cfg.policy req.policy) := by
  have whole : Run x (.start cfg) actions s := Runs.weaken run fun _ _ both => both.1
  refine ⟨?_,?_⟩
  · intro index s' c pin asks sent
    obtain ⟨rs,proposing,found,rfl⟩ := dispatchedFrom (registry whole) asks sent
    have under := everyPlanUnder whole _ (List.mem_of_getElem? proposing) c rfl
    refine ⟨rs,found,coversGoverned _ under ?_⟩
    exact (recordsSubmitted run c.request rs found).resolve_left under.active
  · intro req now started eventNow s₁ s₂ s₃ c pin submits begins asks sent
    obtain ⟨depth,branches⟩ := firstDispatch submits begins asks sent
    constructor
    · intro governed
      exact ⟨governed.enabled,depth ▸ governed.depth,branches ▸ governed.branches⟩
    · intro covers
      exact ⟨covers.enabled,depth ▸ covers.depth,branches ▸ covers.branches⟩

def openingActions (req : SpeculationRequest) : List Action := [.submit 1 req,.runCycle 2 3 req.id]

def deepRequest : SpeculationRequest := { makeReq ⟨100⟩ [] with policy := { maxDepth := 6 } }

def begunDeep : System := (runOf (drafts [5]) (accepts 1) (.start {}) (openingActions deepRequest)).get (by decide +kernel)

theorem deepRequestGoverned : ∃ s' c pin rs, begunDeep.step (.call 0 .proposalInput) = some s' ∧
    s'.calls[0]? = some (.proposalSent c pin) ∧ begunDeep.fabric.find c.request = some rs ∧
    Governed rs.req.policy pin := by
  have run : Run (.functions (drafts [5]) (accepts 1)) (.start {}) (openingActions deepRequest) begunDeep :=
    runOfRun (by decide +kernel)
  have fits : ∀ a ∈ openingActions deepRequest, ∀ _ : System,
      Submits (fun req => Idle {} ∨ Covers ({} : Config).policy req.policy) a := by
    intro a member _ now req same
    cases member with
    | head =>
        cases same
        exact .inr ⟨rfl,by decide,by decide⟩
    | tail _ later =>
        cases List.mem_singleton.mp later
        cases same
  have sends : ((begunDeep.step (.call 0 .proposalInput)).bind fun t => (t.calls[0]?).bind Call.pin).isSome := by
    decide +kernel
  obtain ⟨pin,sent⟩ := Option.isSome_iff_exists.mp sends
  obtain ⟨s',asks,at_⟩ := Option.bind_eq_some_iff.mp sent
  obtain ⟨call,there,pinned⟩ := Option.bind_eq_some_iff.mp at_
  cases call with
  | proposalSent c dispatched =>
      obtain ⟨rs,found,governed⟩ :=
        (requestPolicyGovernsWhen (Runs.strengthen run fits)).1 0 s' c dispatched asks there
      exact ⟨s',c,dispatched,rs,asks,there,found,governed⟩
  | _ => contradiction

def silentRequest : SpeculationRequest :=
  { makeReq ⟨100⟩ [] with policy := { maxDepth := 1, speculatingEnabled := false } }

def begunSilent : System :=
  (runOf (drafts [5]) (accepts 1) (.start {}) (openingActions silentRequest)).get (by decide +kernel)

theorem silentRequestDispatched :
    Run (.functions (drafts [5]) (accepts 1)) (.start {}) (openingActions silentRequest) begunSilent ∧
    (begunSilent.fabric.find ⟨100⟩).map RequestState.req = some silentRequest ∧
    ∃ s' pin, begunSilent.step (.call 0 .proposalInput) = some s' ∧ (s'.calls[0]?).bind Call.pin = some pin ∧
      pin.provenance.request = ⟨100⟩ ∧ ¬Governed silentRequest.policy pin ∧ ¬pin.depth ≤ max 1 silentRequest.policy.maxDepth := by
  refine ⟨runOfRun (by decide +kernel),by decide +kernel,?_⟩
  have sends : ((begunSilent.step (.call 0 .proposalInput)).bind fun t => (t.calls[0]?).bind fun call =>
      call.pin.map fun pin => (pin.provenance.request,pin.depth)) = some (⟨100⟩,4) := by decide +kernel
  obtain ⟨s',asks,at_⟩ := Option.bind_eq_some_iff.mp sends
  obtain ⟨call,there,pinned⟩ := Option.bind_eq_some_iff.mp at_
  obtain ⟨pin,sent,same⟩ := Option.map_eq_some_iff.mp pinned
  obtain ⟨request,depth⟩ := Prod.mk.inj same
  refine ⟨s',pin,asks,Option.bind_eq_some_iff.mpr ⟨call,there,sent⟩,request,?_,?_⟩
  · intro governed
    exact absurd governed.enabled (by decide)
  · rw [depth]
    decide

end SpeculationFabric
