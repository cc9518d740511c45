import SpeculationFabric.Unchecked

/-! The engine against its own lifecycle. A cycle fires its bookkeeping events without
the two that say an executor has started, so the table refuses the rest of them in
every phase: only a cycle that is turned away at its door stays inside the table. -/
namespace SpeculationFabric

def planningEvents : List SpeculationEvent := [.planProposal,.reserveProposal,.dispatchProposal]

def verificationEvents : List SpeculationEvent :=
  [.proposalFinished,.planVerification,.reserveVerification,.dispatchVerification,.verificationFinished]

def verdictEvents (count len : UInt32) : List SpeculationEvent :=
  if count = len then [.acceptFull,.commit]
  else if count > 0 then [.acceptPartial,.commit]
  else [.rejectAll,.rollback]

inductive Applies (s : System) : Action → SpeculativeStateMachine → List SpeculationEvent → Prop where
  | planning {now eventNow id rs p} (found : s.fabric.find id = some rs)
      (plan : (s.fabric.planCycle now eventNow id).1 = .inr p) :
      Applies s (.runCycle now eventNow id) rs.refreshed.cycle planningEvents
  | settling {index now c rs accept candidate} (ready : s.calls[index]? = some (.settling c))
      (found : s.fabric.find c.request = some rs) (live : rs.terminal = false ∧ rs.cancelled = false)
      (wins : Wins c accept candidate) :
      Applies s (.call index (.settle now)) rs.cycle
        (verificationEvents ++ verdictEvents accept.acceptedPrefix (UInt32.ofNat candidate.size))

theorem planningLeaves {f : Fabric} {now eventNow : UInt64} {id : RequestId} {rs : RequestState} {p : Planned}
    (found : f.find id = some rs) (plan : (f.planCycle now eventNow id).1 = .inr p) :
    (f.planCycle now eventNow id).2.find id =
      some { rs with cycle := rs.refreshed.cycle.applyAll planningEvents } := by
  obtain ⟨held,goes⟩ := planGoes plan
  cases Option.some.inj (found.symm.trans goes.found)
  rw [goes.left]
  exact findStoreSelf _ _ _

theorem settlementLeaves {rs : RequestState} {proposed keep candidate prop outcome o mid} {m : SpeculativeStateMachine}
    {count rejected len : UInt32}
    (ok : settleBranch { rs with cycle := m.applyAll verificationEvents } proposed keep candidate prop outcome count
      rejected len = some (o,mid)) :
    mid.cycle = m.applyAll (verificationEvents ++ verdictEvents count len) := by
  have folded : ∀ events, m.applyAll (verificationEvents ++ events) = (m.applyAll verificationEvents).applyAll events :=
    fun events => List.foldl_append
  rw [folded]
  generalize m.applyAll verificationEvents = machine at ok
  unfold verdictEvents
  rcases settleBranchCases ok with ⟨full,taken⟩ | ⟨short,positive,taken⟩ | ⟨short,rfl,refused⟩
  · rw [if_pos full]
    exact (settleAcceptedAs taken).cycle
  · rw [if_neg short,if_pos positive]
    exact (settleAcceptedAs taken).cycle
  · rw [if_neg short,if_neg (by decide)]
    cases refused
    rfl

def allDeclared (m : SpeculativeStateMachine) : List SpeculationEvent → Bool
  | [] => true
  | event :: rest => transitionDeclared m.phase event && allDeclared (m.apply event).2 rest

theorem allDeclaredAppend (xs ys : List SpeculationEvent) (m : SpeculativeStateMachine)
    (declared : allDeclared m (xs ++ ys) = true) : allDeclared m xs = true := by
  induction xs generalizing m with
  | nil => rfl
  | cons event rest ih =>
      simp only [List.cons_append,allDeclared,Bool.and_eq_true] at declared ⊢
      exact ⟨declared.1,ih _ declared.2⟩

/- Wherever the machine stands, the table refuses one of them. -/
theorem verificationUndeclared (m : SpeculativeStateMachine) : allDeclared m verificationEvents = false := by
  cases m with
  | mk phase => cases phase <;> decide

structure Conforms (s s' : System) (a : Action) : Prop where
  declared : ∀ m events, Applies s a m events → allDeclared m events = true
  reported : ∀ index now c accept candidate o, a = .call index (.settle now) →
    s.calls[index]? = some (.settling c) → Wins c accept candidate →
    s'.calls[index]? = some (.returned c.request (.ok o)) → SettledKind o.outcome →
    (0 < o.acceptedTokens → o.phase = .committed) ∧ (o.outcome = .verificationRejectAll → o.phase = .rolledBack) ∧
      o.acceptance = accept.outcome

def TurnedAway (f : Fabric) (now : UInt64) (id : RequestId) : Prop :=
  ∀ rs, f.find id = some rs → rs.terminal = true ∨ rs.cancelled = true ∨ deadlinePassed rs now = true ∨
    (pairDecision rs).compatible = false ∨ (f.backpressure rs).blocked = true ∨ f.cfg.proposer = false ∨
    f.cfg.verifier = false

theorem turnedAwayIff (f : Fabric) (now eventNow : UInt64) (id : RequestId) :
    TurnedAway f now id ↔ ∃ answer, (f.planCycle now eventNow id).1 = .inl answer := by
  unfold TurnedAway Fabric.planCycle
  cases found : f.find id with
  | none => simp
  | some rs =>
      have pair : pairDecision rs.refreshed = pairDecision rs := rfl
      have pressed : f.backpressure rs.refreshed = f.backpressure rs := rfl
      simp only [Option.some.injEq,forall_eq']
      unfold Fabric.admitCycle
      rw [pair,pressed]
      dsimp only
      -- in the order of the checks, each of which answers the cycle where it fires
      cases rs.terminal with
      | true => simp
      | false =>
      cases rs.cancelled with
      | true => simp
      | false =>
      cases deadlinePassed rs now with
      | true => simp
      | false =>
      cases (pairDecision rs).compatible with
      | false => simp
      | true =>
      cases (f.backpressure rs).blocked with
      | true => simp
      | false => cases f.cfg.proposer <;> cases f.cfg.verifier <;> simp

structure Returning (x : Executors) : Prop where
  propose : ∀ pin answer, x.propose pin answer → ∃ pr candidate, answer = .ok pr ∧ pr.candidate = some candidate
  verify : ∀ vin answer, x.verify vin answer →
    ∃ accept, answer = .ok accept ∧ accept.acceptedPrefix.toNat ≤ vin.candidate.size

def Cycling : Action → Prop
  | .submit _ _ | .runCycle _ _ _ | .call _ _ => True
  | _ => False

def visited (s : System) (actions : List Action) : List (System × Action) :=
  Runs.logged System.step (fun s a => [(s,a)]) s actions

def Follows (v : System × Action) : Prop := ∀ s', v.1.step v.2 = some s' → Conforms v.1 s' v.2

def Barred (v : System × Action) : Prop :=
  ∀ now eventNow id, v.2 = .runCycle now eventNow id → TurnedAway v.1.fabric now id

section steps
variable {x : Executors} {s s' : System} {a : Action}

theorem barredFollows (idle : ∀ call ∈ s.calls, call.cycle = none) (barred : Barred (s,a)) : Follows (s,a) := by
  have unsettled : ∀ (index : Nat) (c : Cycle), s.calls[index]? ≠ some (.settling c) := by
    intro index c ready
    exact absurd (idle _ (List.mem_of_getElem? ready)) (Option.some_ne_none c)
  intro s' taken
  constructor
  · intro m events applies
    cases applies with
    | planning found plan =>
        obtain ⟨answer,turned⟩ := (turnedAwayIff _ _ _ _).mp (barred _ _ _ rfl)
        rw [turned] at plan
        contradiction
    | settling ready found live wins => exact absurd ready (unsettled _ _)
  · intro index now c accept candidate o _ ready
    exact absurd ready (unsettled index c)

theorem barredIdle (idle : ∀ call ∈ s.calls, call.cycle = none) (barred : Barred (s,a)) (taken : s.step a = some s') :
    ∀ call ∈ s'.calls, call.cycle = none := by
  rcases stepCalls taken with ⟨kept,_⟩ | ⟨now,eventNow,id,rfl,grown⟩ | ⟨index,action,call,next,_,present,moved,_⟩
  · rw [kept]
    exact idle
  · obtain ⟨answer,turned⟩ := (turnedAwayIff _ _ eventNow _).mp (barred now eventNow id rfl)
    rw [grown,turned]
    exact everyAppended idle rfl
  · have ongoing := (callStays moved).2
    rw [idle call (List.mem_of_getElem? present)] at ongoing
    contradiction

theorem returningStep {index : Nat} {call next : Call} {action : CallAction} {f' : Fabric} (returns : Returning x)
    (facts : CallFacts x call) (present : s.calls[index]? = some call) (allowed : x.admits s (.call index action))
    (taken : call.step s.fabric action = some (next,f')) :
    next.cycle.isSome ∨ ∃ c now, call = .settling c ∧ action = .settle now := by
  cases callStep taken with
  | asks c => exact .inl rfl
  | proposalFailed c pin e =>
      obtain ⟨pr,candidate,answered,_⟩ := returns.propose _ _ (allowed c pin present)
      contradiction
  | proposed c pin pr =>
      obtain ⟨_,rfl,goes | goes⟩ := proposedGoes c pin pr <;> rw [goes] <;> exact .inl rfl
  | sends at_ produced => exact .inl rfl
  | finds at_ absent =>
      obtain ⟨_,pin,_,proposed⟩ := facts.1.proposal _ _ at_
      obtain ⟨pr,candidate,same,produced⟩ := returns.propose _ _ proposed
      cases same
      rw [absent] at produced
      contradiction
  | verificationFailed c vin e =>
      obtain ⟨accept,answered,_⟩ := returns.verify _ _ (allowed c vin present)
      contradiction
  | verified c vin accept =>
      obtain ⟨_,rfl,goes | goes⟩ := verifiedGoes c vin accept <;> rw [goes] <;> exact .inl rfl
  | settles settled => exact .inr ⟨_,_,rfl,rfl⟩
  | undecided nothing => exact .inr ⟨_,_,rfl,rfl⟩

def AllLive (s : System) : Prop := ∀ id rs, s.fabric.find id = some rs → rs.terminal = false ∧ rs.cancelled = false

theorem allLiveStep (registry : Registry s) (cycling : Cycling a) (live : AllLive s) (taken : s.step a = some s') :
    AllLive s' := by
  refine recordsKept registry taken (fun _ _ _ _ => ⟨rfl,rfl⟩) ?_
  intro id rs rs' found _ effect
  have before := live id rs found
  cases effect with
  | noted _ _ events => exact before
  | resubmitted events same null => exact ⟨rfl,rfl⟩
  | planned machine events open_ => exact before
  | settled call same facts =>
      obtain ⟨cancelled,terminal⟩ := facts.advanced.flags
      rw [terminal,cancelled]
      exact before
  | _ => exact cycling.elim

theorem settlementStrays {index : Nat} {now : UInt64} {c : Cycle} (facts : CallFacts x (.settling c))
    (registry : Registry s) (live : AllLive s) (ready : s.calls[index]? = some (.settling c))
    (taken : s.step (.call index (.settle now)) = some s') : ¬ Follows (s,.call index (.settle now)) := by
  intro follows
  obtain ⟨rs,found⟩ := Option.isSome_iff_exists.mp (registry.registered _ (List.mem_of_getElem? ready) rfl)
  obtain ⟨won,accept,_,_,candidate,winner,acceptance,_,_,produced,_⟩ := winnerFacts facts
  have wins : Wins c accept candidate := ⟨_,won,winnerFirstBest facts,winner,acceptance,produced⟩
  have all := (follows s' taken).declared _ _ (.settling ready found (live _ rs found) wins)
  have some_ := allDeclaredAppend _ _ _ all
  rw [verificationUndeclared] at some_
  contradiction

end steps

structure CyclesSoFar (x : Executors) (past : List (System × Action)) (s : System) : Prop where
  registry : Registry s
  facts : ∀ call ∈ s.calls, CallFacts x call
  live : AllLive s
  turned : (∀ v ∈ past, Barred v) → (∀ call ∈ s.calls, call.cycle = none) ∧ ∀ v ∈ past, Follows v
  strayed : (∀ v ∈ past, Follows v) → (∀ v ∈ past, Barred v) ∨ ∃ call ∈ s.calls, call.cycle.isSome

theorem strayedStep {x : Executors} {past : List (System × Action)} {s s' : System} {a : Action}
    (returns : Returning x) (before : CyclesSoFar x past s) (allowed : x.admits s a) (taken : s.step a = some s')
    (follow : ∀ v ∈ past ++ [(s,a)], Follows v) :
    (∀ v ∈ past ++ [(s,a)], Barred v) ∨ ∃ call ∈ s'.calls, call.cycle.isSome := by
  have last : Follows (s,a) := follow _ (List.mem_append_right _ (List.mem_singleton_self _))
  rcases before.strayed (fun v member => follow v (List.mem_append_left _ member)) with barred | ⟨call,member,active⟩
  · by_cases here : Barred (s,a)
    · exact .inl (everyAppended barred here)
    · -- the cycle just begun is in flight
      simp only [Barred,not_forall] at here
      obtain ⟨now,eventNow,id,rfl,through⟩ := here
      rw [turnedAwayIff _ _ eventNow] at through
      refine .inr ⟨begun id (s.fabric.planCycle now eventNow id).1,?_,?_⟩
      · cases Option.some.inj taken
        exact List.mem_append_right _ (List.mem_singleton_self _)
      · cases plan : (s.fabric.planCycle now eventNow id).1 with
        | inl answer => exact absurd ⟨answer,plan⟩ through
        | inr p => rfl
  · obtain ⟨index,at_⟩ := List.mem_iff_getElem?.mp member
    rcases stepCallTo taken at_ with ⟨kept,_⟩ | ⟨action,next,rfl,moved,at'⟩
    · exact .inr ⟨call,List.mem_of_getElem? kept,active⟩
    · rcases returningStep returns (before.facts call member) at_ allowed moved with still | ⟨c,now,rfl,rfl⟩
      · exact .inr ⟨next,List.mem_of_getElem? at',still⟩
      · exact absurd last (settlementStrays (before.facts _ member) before.registry before.live at_ taken)

theorem cyclesSoFarStep {x : Executors} {past : List (System × Action)} {s s' : System} {a : Action}
    (returns : Returning x) (before : CyclesSoFar x past s) (allowed : x.admits s a ∧ Cycling a)
    (taken : s.step a = some s') : CyclesSoFar x (past ++ [(s,a)]) s' := by
  refine ⟨registryStep taken before.registry,callFactsStep taken allowed.1 before.facts,
    allLiveStep before.registry allowed.2 before.live taken,?_,strayedStep returns before allowed.1 taken⟩
  intro barred
  have here : Barred (s,a) := barred _ (List.mem_append_right _ (List.mem_singleton_self _))
  obtain ⟨idle,follow⟩ := before.turned (fun v member => barred v (List.mem_append_left _ member))
  exact ⟨barredIdle idle here taken,everyAppended follow (barredFollows idle here)⟩

theorem cyclesSoFar {x : Executors} {cfg : Config} {actions : List Action} {s : System} (returns : Returning x)
    (run : Runs.Trace System.step (fun s a => x.admits s a ∧ Cycling a) (.start cfg) actions s) :
    CyclesSoFar x (visited (.start cfg) actions) s := by
  have none : ∀ call ∈ (System.start cfg).calls, ∀ P : Prop, P := by
    intro call member
    cases member
  refine Runs.loggedInvariant run ⟨registryStart cfg,fun call member => none call member _,?_,?_,?_⟩
    (fun _ _ _ _ before allowed taken => cyclesSoFarStep returns before allowed taken)
  · intro id rs found
    exact absurd found (startRecordless _ _ _)
  · intro _
    refine ⟨fun call member => none call member _,?_⟩
    intro v member
    cases member
  · intro _
    refine .inl ?_
    intro v member
    cases member

theorem lifecycleFollowedExactly {x : Executors} {cfg : Config} {actions : List Action} {s : System}
    (returns : Returning x)
    (run : Runs.Trace System.step (fun s a => x.admits s a ∧ Cycling a) (.start cfg) actions s) :
    ((∀ v ∈ visited (.start cfg) actions, Barred v) → ∀ v ∈ visited (.start cfg) actions, Follows v) ∧
    ((∀ call ∈ s.calls, call.cycle = none) → (∀ v ∈ visited (.start cfg) actions, Follows v) →
      ∀ v ∈ visited (.start cfg) actions, Barred v) := by
  have known := cyclesSoFar returns run
  constructor
  · intro barred
    exact (known.turned barred).2
  · intro back follow
    rcases known.strayed follow with barred | ⟨call,member,active⟩
    · exact barred
    · rw [back call member] at active
      contradiction

def partly : AcceptanceResult := { outcome := .partialAccept, acceptedPrefix := 1 }

def takesFirst (vin : VerificationInput) : Result AcceptanceResult :=
  if 0 < vin.candidate.size then .ok partly else .ok {}

theorem takesFirstReturns (ids : List UInt32) : Returning (.functions (drafts ids) takesFirst) := by
  constructor
  · intro pin answer drafted
    exact ⟨_,_,drafted,rfl⟩
  · intro vin answer judged
    have same : answer = takesFirst vin := judged
    unfold takesFirst at same
    split at same
    · rename_i filled
      exact ⟨_,same,filled⟩
    · exact ⟨_,same,Nat.zero_le _⟩

def withoutVerifier : Config := { verifier := false }

def turnedActions : List Action := [.submit 1 (makeReq ⟨100⟩ []),.runCycle 2 2 ⟨100⟩]

def turnedSystem : System :=
  (runOf (drafts [5,6]) takesFirst (.start withoutVerifier) turnedActions).get (by decide +kernel)

theorem turnedFollows : Run (.functions (drafts [5,6]) takesFirst) (.start withoutVerifier) turnedActions turnedSystem ∧
    ∀ v ∈ visited (.start withoutVerifier) turnedActions, Follows v := by
  have run : Run (.functions (drafts [5,6]) takesFirst) (.start withoutVerifier) turnedActions turnedSystem :=
    runOfRun (by decide +kernel)
  have cycling : ∀ a ∈ turnedActions, System → Cycling a := by
    intro a member _
    simp only [turnedActions,List.mem_cons,List.not_mem_nil,or_false] at member
    rcases member with rfl | rfl <;> trivial
  refine ⟨run,(lifecycleFollowedExactly (takesFirstReturns [5,6]) (Runs.strengthen run cycling)).1 ?_⟩
  intro v member now eventNow id same rs found
  have fixed : v.1.fabric.cfg = withoutVerifier := by
    simp only [visited,turnedActions,Runs.logged,System.step,List.append_nil,List.cons_append,List.nil_append,
      List.mem_cons,List.not_mem_nil,or_false] at member
    rcases member with rfl | rfl <;> rfl
  rw [fixed]
  exact .inr (.inr (.inr (.inr (.inr (.inr rfl)))))

def partlyActions : List Action :=
  [.submit 1 (makeReq ⟨100⟩ []),.runCycle 2 2 ⟨100⟩] ++ oneBranchAnswers 0 (proposedTokens [5,6]) partly

def partlySystem : System := (runOf (drafts [5,6]) takesFirst (.start {}) partlyActions).get (by decide +kernel)

def partlySettled : System := (partlySystem.step (.call 0 (.settle 3))).get (by decide +kernel)

theorem partlyRun : Runs.Trace System.step
    (fun s a => (Executors.functions (drafts [5,6]) takesFirst).admits s a ∧ Cycling a) (.start {}) partlyActions
    partlySystem := by
  refine Runs.strengthen (runOfRun (by decide +kernel)) ?_
  intro a member _
  simp only [partlyActions,oneBranchAnswers,List.cons_append,List.nil_append,List.mem_cons,List.not_mem_nil,
    or_false] at member
  rcases member with rfl | rfl | rfl | rfl | rfl | rfl <;> trivial

/- A first cycle that takes one token of two: the table refuses its events, and the
outcome still says ready and rejected. -/
def reportedFields : Result CycleOutcome → UInt32 × SpeculativePhase × AcceptanceOutcome
  | .ok o => (o.acceptedTokens,o.phase,o.acceptance)
  | .error _ => (0,.failed,.partialAccept)

theorem partialCycleStrays : ∃ c o, Returning (.functions (drafts [5,6]) takesFirst) ∧
    Runs.Trace System.step (fun s a => (Executors.functions (drafts [5,6]) takesFirst).admits s a ∧ Cycling a)
      (.start {}) partlyActions partlySystem ∧
    partlySystem.calls[0]? = some (.settling c) ∧ c.accepted = [partly] ∧
    partlySystem.step (.call 0 (.settle 3)) = some partlySettled ∧
    partlySettled.calls[0]? = some (.returned ⟨100⟩ (.ok o)) ∧ o.acceptedTokens = 1 ∧ o.phase = .ready ∧
    o.acceptance = .rejectAll ∧ ¬ Follows (partlySystem,.call 0 (.settle 3)) := by
  have known := cyclesSoFar (takesFirstReturns [5,6]) partlyRun
  have settles : partlySystem.step (.call 0 (.settle 3)) = some partlySettled := (Option.some_get _).symm
  obtain ⟨c,ready⟩ := readyCall (by decide +kernel : ((partlySystem.calls[0]?).bind Call.ready).isSome)
  have verdicts : ((partlySystem.calls[0]?).bind Call.ready).map Cycle.accepted = some [partly] := by decide +kernel
  rw [ready] at verdicts
  have reported : ((partlySettled.calls[0]?).bind Call.answer).map (fun answer => (answer.1,reportedFields answer.2)) =
      some (⟨100⟩,1,.ready,.rejectAll) := by decide +kernel
  obtain ⟨⟨id,answer⟩,back,fields⟩ := Option.map_eq_some_iff.mp reported
  obtain ⟨call,at_,answered⟩ := Option.bind_eq_some_iff.mp back
  have strays := settlementStrays (known.facts _ (List.mem_of_getElem? ready)) known.registry known.live ready settles
  cases call with
  | returned request result =>
      cases Option.some.inj answered
      cases answer with
      | error e =>
          have same : (0 : UInt32) = 1 := congrArg (fun fields => fields.2.1) fields
          exact absurd same (by decide)
      | ok o =>
          obtain ⟨rfl,accepted,phase,acceptance⟩ := by simpa only [reportedFields,Prod.mk.injEq] using fields
          exact ⟨c,o,takesFirstReturns [5,6],partlyRun,ready,Option.some.inj verdicts,settles,at_,accepted,phase,
            acceptance,strays⟩
  | _ => contradiction

end SpeculationFabric
