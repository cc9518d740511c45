import SpeculationFabric.Isolation

/-! The base a cycle works on against the base it settles on. Settlement looks at the
two flags only, so a call commits on whatever base it finds. The base of its inputs
is still the current one when nothing moved the request while they were out. -/
namespace SpeculationFabric

def Call.handedOut : Call → Prop
  | .proposing c => c.pins ≠ []
  | .proposalSent _ _ | .verifying _ | .verificationSent _ _ | .settling _ => True
  | .returned _ _ | .undefined _ => False

/- The two steps that write `auth_gen` and `auth_state`: a settlement that commits
tokens, and a repeated submission of the null id. -/
def movesBase (s : System) (id : RequestId) : Action → Prop
  | .submit _ req => req.id = id ∧ ∃ rs, s.fabric.find id = some rs ∧ rs.req.id.isNull = true
  | .call index (.settle _) => ∃ c rs accept, s.calls[index]? = some (.settling c) ∧ c.request = id ∧
      s.fabric.find id = some rs ∧ (rs.terminal = false ∧ rs.cancelled = false) ∧
      c.accepted[selectWinner c.accepted c.proposed]? = some accept ∧ accept.acceptedPrefix ≠ 0
  | _ => False

def baseSteady (s : System) (a : Action) : Prop :=
  ∀ id, movesBase s id a → ∀ j call, s.calls[j]? = some call → call.request = id →
    (∀ action, a ≠ .call j action) → ¬ call.handedOut

abbrev SteadyRun (x : Executors) (s : System) (actions : List Action) (t : System) : Prop :=
  Runs.Trace System.step (fun u a => x.admits u a ∧ baseSteady u a) s actions t

structure SameBase (rs rs' : RequestState) : Prop where
  authGen : rs'.authGen = rs.authGen
  authState : rs'.authState = rs.authState

theorem settledBase {s : System} {index : Nat} {c : Cycle} {rs rs' : RequestState} {won : BranchResult}
    {accept : AcceptanceResult} {candidate : CandidateSequence} (call : s.calls[index]? = some (.settling c))
    (found : s.fabric.find c.request = some rs) (facts : Settled c rs won accept candidate rs') (now : UInt64) :
    SameBase rs rs' ∨ movesBase s c.request (.call index (.settle now)) := by
  by_cases none : accept.acceptedPrefix = 0
  · refine .inl ⟨?_,?_⟩
    · rw [facts.advanced.authGen,none]
      simp
    · rw [facts.advanced.authState,none]
      simp
  · exact .inr ⟨c,rs,accept,call,rfl,found,facts.live,facts.acceptance,none⟩

theorem effectBase {s : System} {id : RequestId} {a : Action} {rs rs' : RequestState}
    (found : s.fabric.find id = some rs) (effect : Effect s id a rs rs') : SameBase rs rs' ∨ movesBase s id a := by
  cases effect with
  | resubmitted events same null => exact .inr ⟨same,rs,found,null⟩
  | settled call same facts =>
      subst same
      exact settledBase call found facts _
  | _ => exact .inl ⟨rfl,rfl⟩

def basedOn (rs : RequestState) (call : Call) : Prop :=
  InputsSatisfy (fun pin => pin.baseGeneration = rs.authGen ∧ pin.baseState = rs.authState)
    (fun vin => vin.authoritativeGeneration = rs.authGen ∧ vin.authoritativeState = rs.authState) call

theorem basedOnSame {rs rs' : RequestState} {call : Call} (same : SameBase rs rs') (based : basedOn rs call) :
    basedOn rs' call := by
  unfold basedOn at based ⊢
  rw [same.authGen,same.authState]
  exact based

theorem basedOnNothing {x : Executors} {call : Call} (rs : RequestState) (facts : CallFacts x call)
    (none : ¬ call.handedOut) : basedOn rs call := by
  cases call with
  | proposing c =>
      have noPins : c.pins = [] := Classical.not_not.mp none
      have noVins : c.vins = [] := by
        rw [← List.length_eq_zero_iff,facts.1.vins,facts.2.1]
        rfl
      refine ⟨?_,?_⟩
      · intro pin member
        rw [noPins] at member
        cases member
      · intro vin member
        rw [noVins] at member
        cases member
  | returned request answer => trivial
  | undefined request => trivial
  | _ => exact absurd trivial none

structure Steady (x : Executors) (s : System) : Prop where
  registry : Registry s
  facts : ∀ call ∈ s.calls, CallFacts x call
  based : ∀ (j : Nat) (call : Call), s.calls[j]? = some call → call.cycle.isSome →
    ∀ rs, s.fabric.find call.request = some rs → basedOn rs call

section step
variable {x : Executors} {s s' : System} {a : Action}

theorem idleBased (before : Steady x s) (steady : baseSteady s a) (taken : s.step a = some s') {j : Nat} {call : Call}
    (at_ : s.calls[j]? = some call) (active : call.cycle.isSome) (other : ∀ action, a ≠ .call j action)
    {rs' : RequestState} (found' : s'.fabric.find call.request = some rs') : basedOn rs' call := by
  have member := List.mem_of_getElem? at_
  obtain ⟨rs,found⟩ := Option.isSome_iff_exists.mp (before.registry.registered call member active)
  obtain ⟨next,stored,effect⟩ := stepEffect taken found
  cases Option.some.inj (found'.symm.trans stored)
  rcases effectBase found effect with same | moves
  · exact basedOnSame same (before.based j call at_ active rs found)
  · exact basedOnNothing _ (before.facts call member) (steady call.request moves j call at_ rfl other)

theorem movedBased (before : Steady x s) {j : Nat} {action : CallAction} (taken : s.step (.call j action) = some s')
    {old call : Call} (present : s.calls[j]? = some old) (stepped : old.step s.fabric action = some (call,s'.fabric))
    (active : call.cycle.isSome) {rs' : RequestState} (found' : s'.fabric.find call.request = some rs') :
    basedOn rs' call := by
  obtain ⟨stays,ongoing⟩ := callStays stepped
  rw [stays] at found'
  obtain ⟨rs,found⟩ :=
    Option.isSome_iff_exists.mp (before.registry.registered old (List.mem_of_getElem? present) ongoing)
  obtain ⟨after,stored,effect⟩ := stepEffect taken found
  cases Option.some.inj (found'.symm.trans stored)
  rcases effectBase found effect with same | moves
  · refine basedOnSame same ?_
    exact inputsStep found (fun p b => ⟨rfl,rfl⟩) (fun p br candidate => ⟨rfl,rfl⟩) stepped
      (before.based j old present ongoing rs found)
  · cases action with
    | settle now =>
        rw [settleEnds stepped] at active
        contradiction
    | _ => exact moves.elim

theorem steadyStep (before : Steady x s) (allowed : x.admits s a ∧ baseSteady s a) (taken : s.step a = some s') :
    Steady x s' := by
  refine ⟨registryStep taken before.registry,callFactsStep taken allowed.1 before.facts,?_⟩
  intro j call at_ active rs' found'
  rcases stepCallFrom taken at_ with ⟨old,other⟩ | ⟨now,eventNow,id,_,rfl⟩ | ⟨action,old,rfl,present,stepped⟩
  · exact idleBased before allowed.2 taken old active other found'
  · refine basedOnNothing rs' (beginFacts x s.fabric now eventNow id) ?_
    cases (s.fabric.planCycle now eventNow id).1 with
    | inl answer => exact fun out => out
    | inr p => exact fun out => out rfl
  · exact movedBased before taken present stepped active found'

end step

theorem steady {x : Executors} {cfg : Config} {actions : List Action} {s : System}
    (run : SteadyRun x (.start cfg) actions s) : Steady x s := by
  refine Runs.invariant run ⟨registryStart cfg,?_,?_⟩ (fun u a v before allowed taken => steadyStep before allowed taken)
  · intro call member
    cases member
  · intro j call at_
    exact absurd at_ (by simp [System.start])

structure WinnerBased (c : Cycle) (rs : RequestState) (pin : ProposalInput) (vin : VerificationInput) : Prop where
  asked : c.pins[selectWinner c.accepted c.proposed]? = some pin
  sent : c.vins[selectWinner c.accepted c.proposed]? = some vin
  baseGeneration : pin.baseGeneration = rs.authGen
  baseState : pin.baseState = rs.authState
  authoritativeGeneration : vin.authoritativeGeneration = rs.authGen
  authoritativeState : vin.authoritativeState = rs.authState

theorem appendSettled {s s' : System} {index : Nat} {now : UInt64} {c : Cycle} {rs rs' : RequestState}
    (ready : s.calls[index]? = some (.settling c)) (taken : s.step (.call index (.settle now)) = some s')
    (found : s.fabric.find c.request = some rs) (found' : s'.fabric.find c.request = some rs')
    (appends : rs'.committed ≠ rs.committed) : ∃ won accept candidate, Settled c rs won accept candidate rs' := by
  obtain ⟨next,stored,effect⟩ := stepEffect taken found
  cases Option.some.inj (found'.symm.trans stored)
  cases effect with
  | noted => exact absurd rfl appends
  | settled call same facts =>
      cases Option.some.inj (ready.symm.trans call)
      exact ⟨_,_,_,facts⟩

theorem commitsOnItsBase {x : Executors} {cfg : Config} {actions : List Action} {s s' : System} {index : Nat}
    {now : UInt64} {c : Cycle} {rs rs' : RequestState} (run : SteadyRun x (.start cfg) actions s)
    (ready : s.calls[index]? = some (.settling c)) (taken : s.step (.call index (.settle now)) = some s')
    (found : s.fabric.find c.request = some rs) (found' : s'.fabric.find c.request = some rs')
    (appends : rs'.committed ≠ rs.committed) :
    ∃ pin vin accept, WinnerBased c rs pin vin ∧ c.accepted[selectWinner c.accepted c.proposed]? = some accept ∧
      (accept.authoritativeNextGeneration = ⟨vin.authoritativeGeneration.value + accept.acceptedPrefix.toUInt64⟩ →
        rs'.authGen = accept.authoritativeNextGeneration) := by
  have steady := steady run
  obtain ⟨pins,vins⟩ := steady.based index _ ready rfl rs found
  obtain ⟨won,accept,candidate,settled⟩ := appendSettled ready taken found found' appends
  obtain ⟨_,_,pin,vin,_,_,_,asked,sent,_⟩ := winnerFacts (steady.facts _ (List.mem_of_getElem? ready))
  have proposal := pins pin (List.mem_of_getElem? asked)
  have verification := vins vin (List.mem_of_getElem? sent)
  refine ⟨pin,vin,accept,⟨asked,sent,proposal.1,proposal.2,verification.1,verification.2⟩,settled.acceptance,?_⟩
  intro next
  rw [next,verification.1,settled.advanced.authGen]

def undisturbed (s : System) : Action → Bool
  | .submit _ req => (s.fabric.find req.id).isNone
  | .call index (.settle _) =>
      (List.range s.calls.length).all (fun j => decide (j = index) || ((s.calls[j]?).bind Call.cycle).isNone)
  | _ => true

theorem handedOutActive {call : Call} (out : call.handedOut) : call.cycle.isSome := by
  cases call with
  | returned request answer => exact out.elim
  | undefined request => exact out.elim
  | _ => rfl

theorem undisturbedSteady {s : System} {a : Action} (passed : undisturbed s a = true) : baseSteady s a := by
  intro id moves j call at_ request other out
  cases a with
  | submit now req =>
      obtain ⟨rfl,rs,found,_⟩ := moves
      simp only [undisturbed,found] at passed
      contradiction
  | call index action =>
      cases action with
      | settle now =>
          have inside := (List.getElem?_eq_some_iff.mp at_).1
          have checked := List.all_eq_true.mp passed j (List.mem_range.mpr inside)
          rcases Bool.or_eq_true_iff.mp checked with same | ended
          · rw [of_decide_eq_true same] at other
            exact other _ rfl
          · rw [at_] at ended
            have active := handedOutActive out
            rw [Option.isSome_iff_exists] at active
            obtain ⟨c,cycle⟩ := active
            simp [cycle] at ended
      | _ => exact moves
  | _ => exact moves

def steadyOf (propose : ProposalInput → Result ProposalResult) (verify : VerificationInput → Result AcceptanceResult)
    (s : System) (actions : List Action) : Option System :=
  Runs.exec System.step (fun u a => answersAs propose verify u a && undisturbed u a) s actions

theorem steadyOfRun {propose verify} {s : System} {actions : List Action}
    (finishes : (steadyOf propose verify s actions).isSome) :
    SteadyRun (.functions propose verify) s actions ((steadyOf propose verify s actions).get finishes) := by
  refine Runs.ofExec ?_ (Option.some_get finishes).symm
  intro u a passed
  obtain ⟨answers,quiet⟩ := Bool.and_eq_true_iff.mp passed
  exact ⟨answersAdmitted u a answers,undisturbedSteady quiet⟩

def reportTwo (generation : UInt64) : AcceptanceResult :=
  { acceptedPrefix := 2, authoritativeNextGeneration := ⟨generation + 2⟩ }

def acceptsBoth (vin : VerificationInput) : Result AcceptanceResult := .ok (reportTwo vin.authoritativeGeneration.value)

def untilSettlement (index : Nat) (generation : UInt64) : List Action :=
  oneBranchAnswers index (proposedTokens [5,6]) (reportTwo generation)

def oneAfterAnother : List Action :=
  [.submit 1 (makeReq ⟨100⟩ []),.runCycle 2 2 ⟨100⟩] ++ untilSettlement 0 0 ++
    [.call 0 (.settle 3),.runCycle 4 4 ⟨100⟩] ++ untilSettlement 1 2

def secondReady : System := (steadyOf (drafts [5,6]) acceptsBoth (.start {}) oneAfterAnother).get (by decide +kernel)

def secondSettled : System := (secondReady.step (.call 1 (.settle 5))).get (by decide +kernel)

theorem secondCommitsOnItsBase : ∃ c rs rs' pin vin, secondReady.calls[1]? = some (.settling c) ∧
    secondReady.fabric.find c.request = some rs ∧ secondSettled.fabric.find c.request = some rs' ∧
    rs.authGen = ⟨2⟩ ∧ rs'.authGen = ⟨4⟩ ∧ WinnerBased c rs pin vin := by
  obtain ⟨c,ready⟩ := readyCall (by decide +kernel : ((secondReady.calls[1]?).bind Call.ready).isSome)
  have locals : ((secondReady.calls[1]?).bind Call.ready).map Cycle.request = some ⟨100⟩ := by decide +kernel
  rw [ready] at locals
  have request : c.request = ⟨100⟩ := Option.some.inj locals
  have before : (secondReady.fabric.find ⟨100⟩).map (fun rs => (rs.committed,rs.authGen)) =
      some ([5,6],⟨2⟩) := by decide +kernel
  have after : (secondSettled.fabric.find ⟨100⟩).map (fun rs => (rs.committed,rs.authGen)) =
      some ([5,6,5,6],⟨4⟩) := by decide +kernel
  obtain ⟨rs,found,values⟩ := Option.map_eq_some_iff.mp before
  obtain ⟨rs',found',values'⟩ := Option.map_eq_some_iff.mp after
  rw [← request] at found found'
  have run : SteadyRun (.functions (drafts [5,6]) acceptsBoth) (.start {}) oneAfterAnother secondReady :=
    steadyOfRun (by decide +kernel)
  have settles : secondReady.step (.call 1 (.settle 5)) = some secondSettled := (Option.some_get _).symm
  have appends : rs'.committed ≠ rs.committed := by
    have short : rs.committed = [5,6] := congrArg Prod.fst values
    have long : rs'.committed = [5,6,5,6] := congrArg Prod.fst values'
    rw [short,long]
    decide
  obtain ⟨pin,vin,accept,based,_⟩ := commitsOnItsBase run ready settles found found' appends
  exact ⟨c,rs,rs',pin,vin,ready,found,found',congrArg Prod.snd values,congrArg Prod.snd values',based⟩

def overlapping : List Action :=
  [.submit 1 (makeReq ⟨100⟩ []),.runCycle 2 2 ⟨100⟩,.runCycle 2 2 ⟨100⟩] ++ untilSettlement 0 0 ++
    untilSettlement 1 0 ++ [.call 0 (.settle 3)]

def overlapped : System := (runOf (drafts [5,6]) acceptsBoth (.start {}) overlapping).get (by decide +kernel)

def overlappedSettled : System := (overlapped.step (.call 1 (.settle 4))).get (by decide +kernel)

theorem supersededBaseCommits : ∃ (c : Cycle) (rs rs' : RequestState) (pin : ProposalInput)
      (vin : VerificationInput) (accept : AcceptanceResult),
    Run (.functions (drafts [5,6]) acceptsBoth) (.start {}) overlapping overlapped ∧
    overlapped.calls[1]? = some (.settling c) ∧ overlapped.step (.call 1 (.settle 4)) = some overlappedSettled ∧
    overlapped.fabric.find c.request = some rs ∧ overlappedSettled.fabric.find c.request = some rs' ∧
    rs'.committed = rs.committed ++ [5,6] ∧
    c.pins[selectWinner c.accepted c.proposed]? = some pin ∧ c.vins[selectWinner c.accepted c.proposed]? = some vin ∧
    c.accepted[selectWinner c.accepted c.proposed]? = some accept ∧
    pin.baseGeneration ≠ rs.authGen ∧ vin.authoritativeGeneration ≠ rs.authGen ∧
    rs'.authGen ≠ accept.authoritativeNextGeneration := by
  obtain ⟨c,ready⟩ := readyCall (by decide +kernel : ((overlapped.calls[1]?).bind Call.ready).isSome)
  have locals : ((overlapped.calls[1]?).bind Call.ready).map (fun c => (c.request,
      c.pins[selectWinner c.accepted c.proposed]?.map ProposalInput.baseGeneration,
      c.vins[selectWinner c.accepted c.proposed]?.map VerificationInput.authoritativeGeneration,
      c.accepted[selectWinner c.accepted c.proposed]?.map AcceptanceResult.authoritativeNextGeneration)) =
      some (⟨100⟩,some ⟨0⟩,some ⟨0⟩,some ⟨2⟩) := by decide +kernel
  rw [ready] at locals
  have values := Option.some.inj locals
  have request : c.request = ⟨100⟩ := congrArg Prod.fst values
  obtain ⟨pin,asked,base⟩ := Option.map_eq_some_iff.mp (congrArg (fun v => v.2.1) values)
  obtain ⟨vin,sent,generation⟩ := Option.map_eq_some_iff.mp (congrArg (fun v => v.2.2.1) values)
  obtain ⟨accept,answered,next⟩ := Option.map_eq_some_iff.mp (congrArg (fun v => v.2.2.2) values)
  have before : (overlapped.fabric.find ⟨100⟩).map (fun rs => (rs.committed,rs.authGen)) =
      some ([5,6],⟨2⟩) := by decide +kernel
  have after : (overlappedSettled.fabric.find ⟨100⟩).map (fun rs => (rs.committed,rs.authGen)) =
      some ([5,6,5,6],⟨4⟩) := by decide +kernel
  obtain ⟨rs,found,held⟩ := Option.map_eq_some_iff.mp before
  obtain ⟨rs',found',held'⟩ := Option.map_eq_some_iff.mp after
  have short : rs.committed = [5,6] := congrArg Prod.fst held
  have long : rs'.committed = [5,6,5,6] := congrArg Prod.fst held'
  have two : rs.authGen = ⟨2⟩ := congrArg Prod.snd held
  have four : rs'.authGen = ⟨4⟩ := congrArg Prod.snd held'
  have run : Run (.functions (drafts [5,6]) acceptsBoth) (.start {}) overlapping overlapped := runOfRun (by decide +kernel)
  have settles : overlapped.step (.call 1 (.settle 4)) = some overlappedSettled := (Option.some_get _).symm
  refine ⟨c,rs,rs',pin,vin,accept,run,ready,settles,request ▸ found,request ▸ found',?_,asked,sent,answered,?_,?_,?_⟩
  · rw [short,long]
    rfl
  · rw [base,two]
    decide
  · rw [generation,two]
    decide
  · rw [next,four]
    decide

end SpeculationFabric
