import SpeculationFabric.CycleEvents

/-! A cycle that ends without settling. Every exit of planning leaves the record as it
was, since a live request is never found in a finished phase. An executor's error comes
after the lifecycle has been moved to its dispatch, and nothing moves it back: the next
cycle finds it there, and then leaves it there. -/
namespace SpeculationFabric

structure Kept where
  committed : List UInt32
  authGen : AuthGeneration
  authState : StateRef
  attempt : AttemptId
  proposals : List Proposal
  branches : List Branch
  reservations : List Reservation
  completedCycles : UInt32
  phase : SpeculativePhase
  deriving DecidableEq

def RequestState.kept (rs : RequestState) : Kept :=
  ⟨rs.committed,rs.authGen,rs.authState,rs.attempt,rs.proposals,rs.branches,rs.reservations,rs.completedCycles,
    rs.cycle.phase⟩

def LeftAsFound (s s' : System) (id : RequestId) : Prop :=
  (s'.fabric.find id).map RequestState.kept = (s.fabric.find id).map RequestState.kept

def dispatchedMachine : SpeculativeStateMachine := ⟨.proposalDispatched⟩

def Phased (rs : RequestState) : Prop :=
  rs.terminal = true ∨ rs.cancelled = true ∨ rs.cycle = ⟨.ready⟩ ∨ rs.cycle = dispatchedMachine

theorem phasedLive {rs : RequestState} (phased : Phased rs) (live : rs.terminal = false ∧ rs.cancelled = false) :
    rs.cycle = ⟨.ready⟩ ∨ rs.cycle = dispatchedMachine := by
  rcases phased with terminal | cancelled | stands
  · rw [live.1] at terminal
    cases terminal
  · rw [live.2] at cancelled
    cases cancelled
  · exact stands

theorem phasedRefreshed {rs : RequestState} (stands : rs.cycle = ⟨.ready⟩ ∨ rs.cycle = dispatchedMachine) :
    rs.refreshed = rs := by
  have open_ : isTerminalPhase rs.cycle.phase = false := by
    rcases stands with ready | dispatched
    · rw [ready]
      rfl
    · rw [dispatched]
      rfl
  rw [RequestState.refreshed,open_]
  rfl

theorem phasedDispatches {m : SpeculativeStateMachine} (stands : m = ⟨.ready⟩ ∨ m = dispatchedMachine) :
    m.applyAll [.planProposal,.reserveProposal,.dispatchProposal] = dispatchedMachine := by
  rcases stands with rfl | rfl
  · decide
  · decide

theorem refreshedDecision (cfg : Config) (scheduler : SpeculationScheduler) (ratio : Float) {rs : RequestState}
    (stands : rs.cycle = ⟨.ready⟩ ∨ rs.cycle = dispatchedMachine) :
    ((∃ answer, (admitDecision cfg scheduler ratio rs).1 = .inl answer) ∧
      (admitDecision cfg scheduler ratio rs).2.record = some rs) ∨
    (∃ p, (admitDecision cfg scheduler ratio rs).1 = .inr p) ∧
      (admitDecision cfg scheduler ratio rs).2.record = some { rs with cycle := dispatchedMachine } := by
  unfold admitDecision
  split
  · exact .inl ⟨⟨_,rfl⟩,rfl⟩
  split
  · exact .inl ⟨⟨_,rfl⟩,rfl⟩
  split
  · exact .inl ⟨⟨_,rfl⟩,rfl⟩
  · refine .inr ⟨⟨_,rfl⟩,?_⟩
    dsimp only
    rw [phasedDispatches stands]

theorem planLeaves {f : Fabric} {planNow eventNow : UInt64} {id : RequestId} {rs : RequestState}
    (found : f.find id = some rs) (phased : Phased rs) :
    (∃ answer events, (f.planCycle planNow eventNow id).1 = .inl answer ∧
      (f.planCycle planNow eventNow id).2.find id = some { rs with events := events }) ∨
    ∃ p events, (f.planCycle planNow eventNow id).1 = .inr p ∧ (rs.terminal = false ∧ rs.cancelled = false) ∧
      (f.planCycle planNow eventNow id).2.find id = some { rs with cycle := dispatchedMachine, events := events } := by
  rw [planSection,found]
  have unwritten (note : Option Note) : ∃ events, (f.write eventNow id { note := note }).find id =
      some { rs with events := events } := by
    rw [writeSelf,found]
    obtain ⟨events,heard⟩ := heardSame rs (note.map (f.event eventNow id))
    exact ⟨events,congrArg some heard⟩
  have written {w : Write} {record : RequestState} (writes : w.record = some record) :
      ∃ events, (f.write eventNow id w).find id = some { record with events := events } := by
    rw [writeSelf,writes]
    obtain ⟨events,heard⟩ := heardSame record (w.note.map (f.event eventNow id))
    exact ⟨events,congrArg some heard⟩
  dsimp only [planDecision]
  split
  · obtain ⟨events,stored⟩ := unwritten none
    exact .inl ⟨_,events,rfl,stored⟩
  rename_i unfinished
  split
  · obtain ⟨events,stored⟩ := unwritten none
    exact .inl ⟨_,events,rfl,stored⟩
  rename_i uncancelled
  have live : rs.terminal = false ∧ rs.cancelled = false := ⟨by simpa using unfinished,by simpa using uncancelled⟩
  split
  · obtain ⟨events,stored⟩ := unwritten (some { type := "cycle.expired", detail := "deadline passed" })
    exact .inl ⟨_,events,rfl,stored⟩
  have stands := phasedLive phased live
  rw [phasedRefreshed stands]
  rcases refreshedDecision f.cfg f.scheduler f.stats.acceptanceRatio stands with ⟨⟨answer,turned⟩,record⟩ | ⟨⟨p,planned⟩,record⟩
  · obtain ⟨events,stored⟩ := written record
    exact .inl ⟨answer,events,turned,stored⟩
  · obtain ⟨events,stored⟩ := written record
    exact .inr ⟨p,events,planned,live,stored⟩

theorem phasedStep {s s' : System} {a : Action} (registry : Registry s)
    (phased : ∀ id rs, s.fabric.find id = some rs → Phased rs) (taken : s.step a = some s') :
    ∀ id rs, s'.fabric.find id = some rs → Phased rs := by
  refine recordsKept registry taken (fun _ _ _ _ => .inr (.inr (.inl rfl))) ?_
  intro id rs rs' found found' effect
  have before := phased id rs found
  cases effect with
  | noted _ _ events => exact before
  | resubmitted events same null => exact .inr (.inr (.inl rfl))
  | cancelled events live => exact .inr (.inl rfl)
  | completed events => exact .inl rfl
  | rolledBack events => exact before
  | retried events live below => exact .inr (.inr (.inl rfl))
  | @planned now eventNow _ machine events live =>
      -- the effect does not say where planning leaves the machine
      rw [(runCycleStep taken).1] at found'
      rcases planLeaves found before with ⟨_,_,_,left⟩ | ⟨_,_,_,_,left⟩
      · cases Option.some.inj (found'.symm.trans left)
        exact before
      · cases Option.some.inj (found'.symm.trans left)
        exact .inr (.inr (.inr rfl))
  | settled call same facts => exact .inr (.inr (.inl facts.cycle))

theorem reachablePhased {x : Executors} {cfg : Config} {actions : List Action} {s : System}
    (run : Run x (.start cfg) actions s) : Registry s ∧ ∀ id rs, s.fabric.find id = some rs → Phased rs := by
  have start : Registry (.start cfg) ∧ ∀ id rs, (System.start cfg).fabric.find id = some rs → Phased rs := by
    refine ⟨registryStart cfg,?_⟩
    intro id rs found
    exact absurd found (startRecordless _ _ _)
  refine Runs.invariant (P := fun s => Registry s ∧ ∀ id rs, s.fabric.find id = some rs → Phased rs) run start ?_
  intro u a v before _ taken
  exact ⟨registryStep taken before.1,phasedStep before.1 before.2 taken⟩

def SameButEvents (left found : Option RequestState) : Prop :=
  (left = none ∧ found = none) ∨ ∃ rs events, left = some rs ∧ found = some { rs with events := events }

theorem SameButEvents.trans {one two three : Option RequestState} (first : SameButEvents one two)
    (second : SameButEvents two three) : SameButEvents one three := by
  rcases first with ⟨rfl,rfl⟩ | ⟨rs,events,rfl,rfl⟩
  · rcases second with ⟨_,rfl⟩ | ⟨_,_,absent,_⟩
    · exact .inl ⟨rfl,rfl⟩
    · cases absent
  · rcases second with ⟨absent,_⟩ | ⟨rs',events',same,rfl⟩
    · cases absent
    · cases Option.some.inj same
      exact .inr ⟨rs,events',rfl,rfl⟩

theorem SameButEvents.kept {one two : Option RequestState} (same : SameButEvents one two) :
    two.map RequestState.kept = one.map RequestState.kept := by
  rcases same with ⟨rfl,rfl⟩ | ⟨rs,events,rfl,rfl⟩
  · rfl
  · rfl

theorem sparedRecord {s s' : System} {a : Action} {id : RequestId} {own : Nat} (registry : Registry s)
    (spared : sparing id own s a) (taken : s.step a = some s') (other : ∀ now, a ≠ .call own (.settle now)) :
    SameButEvents (s.fabric.find id) (s'.fabric.find id) := by
  cases found : s.fabric.find id with
  | none =>
      cases appeared : s'.fabric.find id with
      | none => exact .inl ⟨rfl,rfl⟩
      | some rs =>
          obtain ⟨now,req,events,rfl,same,_⟩ := stepAppears registry taken found appeared
          exact absurd same spared
  | some rs =>
      obtain ⟨rs',stored,effect⟩ := stepEffect taken found
      rcases sparingEffect effect spared with ⟨events,rfl⟩ | ⟨now,settles⟩
      · exact .inr ⟨rs,events,rfl,stored⟩
      · exact absurd settles (other now)

def Call.hasSettled (call : Call) : Prop := ∃ id o, call = .returned id (.ok o) ∧ SettledKind o.outcome

structure Waiting (id : RequestId) (own : Nat) (left : Option RequestState) (s : System) : Prop where
  registry : Registry s
  call : ∃ call, s.calls[own]? = some call ∧ call.request = id ∧
    (call.hasSettled ∨ SameButEvents left (s.fabric.find id) ∧
      (call.cycle.isSome → ∃ rs, left = some rs ∧ rs.terminal = false ∧ rs.cancelled = false))

theorem settlingEnds {f f' : Fabric} {call next : Call} {now : UInt64} {id : RequestId} {rs : RequestState}
    (taken : call.step f (.settle now) = some (next,f')) (request : call.request = id) (found : f.find id = some rs)
    (live : rs.terminal = false ∧ rs.cancelled = false) : next.hasSettled ∨ f' = f ∧ next.cycle = none := by
  cases callStep taken with
  | undecided nothing => exact .inr ⟨rfl,rfl⟩
  | @settles c _ answer _ settled =>
      have same : c.request = id := request
      have here : f.find c.request = some rs := by rw [same,found]
      cases settlement settled with
      | missing absent => cases here.symm.trans absent
      | stale present closed kind kept =>
          cases Option.some.inj (here.symm.trans present)
          rw [live.1,live.2] at closed
          simp at closed
      | settled present facts kind branch stored => exact .inl ⟨_,_,rfl,kind⟩

theorem waitingStep {x : Executors} {id : RequestId} {own : Nat} {left : Option RequestState} {s s' : System}
    {a : Action} (before : Waiting id own left s) (allowed : x.admits s a ∧ sparing id own s a)
    (taken : s.step a = some s') : Waiting id own left s' := by
  obtain ⟨call,at_,request,held⟩ := before.call
  refine ⟨registryStep taken before.registry,?_⟩
  rcases stepCallTo taken at_ with ⟨stays,noCall⟩ | ⟨action,next,rfl,stepped,moved⟩
  · refine ⟨call,stays,request,?_⟩
    rcases held with settled | ⟨same,open_⟩
    · exact .inl settled
    · have kept := sparedRecord before.registry allowed.2 taken fun now => noCall (.settle now)
      exact .inr ⟨same.trans kept,open_⟩
  · obtain ⟨stays,ongoing⟩ := callStays stepped
    refine ⟨next,moved,stays.trans request,?_⟩
    rcases held with ⟨_,_,rfl,_⟩ | ⟨same,open_⟩
    · cases ongoing
    · obtain ⟨rs,rfl,live⟩ := open_ ongoing
      by_cases settles : ∃ now, action = .settle now
      · obtain ⟨now,rfl⟩ := settles
        rcases same with ⟨absent,_⟩ | ⟨_,events,present,found⟩
        · cases absent
        · cases Option.some.inj present
          rcases settlingEnds stepped request found live with settled | ⟨fixed,ended⟩
          · exact .inl settled
          · refine .inr ⟨.inr ⟨rs,events,rfl,by rw [fixed]; exact found⟩,fun active => ?_⟩
            rw [ended] at active
            cases active
      · have kept := sparedRecord before.registry allowed.2 taken
          (fun now again => settles ⟨now,by cases again; rfl⟩)
        exact .inr ⟨same.trans kept,fun _ => ⟨rs,rfl,live⟩⟩

theorem unsettledLeaves {x : Executors} {s₁ s₂ : System} {middle : List Action} {id : RequestId} {own : Nat}
    {call : Call} {answer : Result CycleOutcome} (registry : Registry s₁) (at_ : s₁.calls[own]? = some call)
    (request : call.request = id)
    (open_ : call.cycle.isSome → ∃ rs, s₁.fabric.find id = some rs ∧ rs.terminal = false ∧ rs.cancelled = false)
    (alone : RunAlone x id own s₁ middle s₂) (returned : s₂.calls[own]? = some (.returned id answer))
    (unsettled : ∀ o, answer = .ok o → ¬SettledKind o.outcome) :
    SameButEvents (s₁.fabric.find id) (s₂.fabric.find id) := by
  have itself : SameButEvents (s₁.fabric.find id) (s₁.fabric.find id) := by
    cases s₁.fabric.find id with
    | none => exact .inl ⟨rfl,rfl⟩
    | some rs => exact .inr ⟨rs,rs.events,rfl,rfl⟩
  have start : Waiting id own (s₁.fabric.find id) s₁ := ⟨registry,call,at_,request,.inr ⟨itself,open_⟩⟩
  have reached := Runs.invariant (P := Waiting id own (s₁.fabric.find id)) alone start
    fun u a v before allowed taken => waitingStep before allowed taken
  obtain ⟨last,here,_,held⟩ := reached.call
  cases Option.some.inj (returned.symm.trans here)
  rcases held with ⟨_,o,same,kind⟩ | ⟨same,_⟩
  · cases same
    exact absurd kind (unsettled o rfl)
  · exact same

theorem leftAsFoundExactly {x : Executors} {cfg : Config} {past middle : List Action} {s s₁ s₂ : System}
    {id : RequestId} {now eventNow : UInt64} {answer : Result CycleOutcome} (run : Run x (.start cfg) past s)
    (begins : s.step (.runCycle now eventNow id) = some s₁) (alone : RunAlone x id s.calls.length s₁ middle s₂)
    (returned : s₂.calls[s.calls.length]? = some (.returned id answer))
    (unsettled : ∀ o, answer = .ok o → ¬SettledKind o.outcome) :
    LeftAsFound s s₂ id ↔
      TurnedAway s.fabric now id ∨ ∀ rs, s.fabric.find id = some rs → rs.cycle.phase ≠ .ready := by
  obtain ⟨registry,phased⟩ := reachablePhased run
  have registry₁ := registryStep begins registry
  obtain ⟨fabric,opened⟩ := runCycleStep begins
  rw [turnedAwayIff s.fabric now eventNow id,LeftAsFound]
  cases found : s.fabric.find id with
  | none =>
      have missing : s.fabric.planCycle now eventNow id = (.inl (Result.err .notFound "unknown request"),s.fabric) := by
        simp only [Fabric.planCycle,found]
      rw [missing] at opened fabric ⊢
      have same := unsettledLeaves registry₁ opened (begunRequest _ _) (fun active => absurd active Bool.false_ne_true)
        alone returned unsettled
      rw [fabric,found] at same
      exact iff_of_true same.kept (.inl ⟨_,rfl⟩)
  | some rs =>
      rcases planLeaves found (phased id rs found) with ⟨answer',events,turned,left⟩ | ⟨p,events,planned,live,left⟩
      · rw [turned] at opened ⊢
        rw [← fabric] at left
        have same := unsettledLeaves registry₁ opened (begunRequest _ _) (fun active => absurd active Bool.false_ne_true)
          alone returned unsettled
        rw [left] at same
        exact iff_of_true same.kept (.inl ⟨_,rfl⟩)
      · rw [planned] at opened ⊢
        rw [← fabric] at left
        have same := unsettledLeaves registry₁ opened (begunRequest _ _) (fun _ => ⟨_,left,live⟩) alone returned unsettled
        rw [same.kept,left]
        rcases phasedLive (phased id rs found) live with ready | dispatched
        · simp [RequestState.kept,ready,dispatchedMachine]
        · simp [RequestState.kept,dispatched,dispatchedMachine]

def downError : Error := ⟨.internal,"proposer down"⟩

def isDown (_ : ProposalInput) : Result ProposalResult := .error downError

def downCycle (index : Nat) : List Action := [.call index .proposalInput,.call index (.proposalResult (.error downError))]

def registeredSystem : System :=
  (runOf isDown (accepts 1) (.start {}) [.submit 1 (makeReq ⟨100⟩ [])]).get (by decide +kernel)

def plannedSystem : System := (registeredSystem.step (.runCycle 2 2 ⟨100⟩)).get (by decide +kernel)

def downSystem : System := (aloneOf isDown (accepts 1) 0 plannedSystem (downCycle 0)).get (by decide +kernel)

def phaseOf (s : System) : Option SpeculativePhase := (s.fabric.find ⟨100⟩).map fun rs => rs.cycle.phase

theorem downLeavesDispatched : Run (.functions isDown (accepts 1)) (.start {}) [.submit 1 (makeReq ⟨100⟩ [])]
      registeredSystem ∧ registeredSystem.step (.runCycle 2 2 ⟨100⟩) = some plannedSystem ∧
    RunAlone (.functions isDown (accepts 1)) ⟨100⟩ 0 plannedSystem (downCycle 0) downSystem ∧
    (downSystem.calls[0]?).bind Call.answer = some (⟨100⟩,.error downError) ∧
    phaseOf registeredSystem = some .ready ∧ phaseOf downSystem = some .proposalDispatched ∧
    ¬LeftAsFound registeredSystem downSystem ⟨100⟩ := by
  refine ⟨runOfRun (by decide +kernel),(Option.some_get _).symm,aloneOfRun _ (by decide +kernel),by decide +kernel,
    by decide +kernel,by decide +kernel,?_⟩
  rw [LeftAsFound]
  decide +kernel

def downAgain : List Action := [.submit 1 (makeReq ⟨100⟩ []),.runCycle 2 2 ⟨100⟩] ++ downCycle 0

def stuckSystem : System := (runOf isDown (accepts 1) (.start {}) downAgain).get (by decide +kernel)

def stuckPlanned : System := (stuckSystem.step (.runCycle 3 3 ⟨100⟩)).get (by decide +kernel)

def stuckReturned : System := (aloneOf isDown (accepts 1) 1 stuckPlanned (downCycle 1)).get (by decide +kernel)

theorem stuckLeftAsFound : phaseOf stuckSystem = some .proposalDispatched ∧
    LeftAsFound stuckSystem stuckReturned ⟨100⟩ := by
  have stuck : phaseOf stuckSystem = some .proposalDispatched := by decide +kernel
  have run : Run (.functions isDown (accepts 1)) (.start {}) downAgain stuckSystem := runOfRun (by decide +kernel)
  have begins : stuckSystem.step (.runCycle 3 3 ⟨100⟩) = some stuckPlanned := (Option.some_get _).symm
  have own : stuckSystem.calls.length = 1 := by decide +kernel
  have alone : RunAlone (.functions isDown (accepts 1)) ⟨100⟩ stuckSystem.calls.length stuckPlanned (downCycle 1)
      stuckReturned := by
    rw [own]
    exact aloneOfRun _ (by decide +kernel)
  have back : ((stuckReturned.calls[stuckSystem.calls.length]?).bind Call.answer) = some (⟨100⟩,.error downError) := by
    decide +kernel
  obtain ⟨call,at_,answered⟩ := Option.bind_eq_some_iff.mp back
  cases call with
  | returned id answer =>
      cases Option.some.inj answered
      have unsettled : ∀ o, (.error downError : Result CycleOutcome) = .ok o → ¬SettledKind o.outcome := by
        intro o same
        cases same
      refine ⟨stuck,(leftAsFoundExactly run begins alone at_ unsettled).mpr (.inr ?_)⟩
      intro rs found ready
      rw [phaseOf,found,Option.map_some,ready] at stuck
      cases stuck
  | _ => cases answered

end SpeculationFabric
