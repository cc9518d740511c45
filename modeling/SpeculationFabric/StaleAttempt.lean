import SpeculationFabric.Finality
import SpeculationFabric.StaleBase

/-! Completions that a retry or an epoch rollover has overtaken. Attempt and epoch are
copied into the inputs and never compared again, so such a completion is turned away
only by the flags that cancellation and completion set. -/
namespace SpeculationFabric

def Call.inputsBuilt : Call → Prop
  | .proposalSent c _ => c.proposed.length + 1 = c.planned.branchCount.toNat
  | .verifying _ | .verificationSent _ _ | .settling _ => True
  | .proposing _ | .returned _ _ | .undefined _ => False

def supersedes (s : System) (id : RequestId) : Action → Prop
  | .retry now target => target = id ∧ ∃ attempt, (s.fabric.retry now target).1 = .ok attempt
  | .rollEpoch => True
  | _ => False

def Overtaken (x : Executors) (cfg : Config) (id : RequestId) (index : Nat) (t : System) : Prop :=
  ∃ before after s s' a call, Run x (.start cfg) before s ∧ s.calls[index]? = some call ∧ call.request = id ∧
    call.inputsBuilt ∧ supersedes s id a ∧ s.step a = some s' ∧ Run x s' after t

structure Untouched (rs rs' : RequestState) : Prop where
  committed : rs'.committed = rs.committed
  authGen : rs'.authGen = rs.authGen
  authState : rs'.authState = rs.authState
  proposals : rs'.proposals = rs.proposals

theorem callAlong {x : Executors} {s t : System} {actions : List Action} {index : Nat} {call : Call}
    (run : Run x s actions t) (at_ : s.calls[index]? = some call) :
    ∃ later, t.calls[index]? = some later ∧ later.request = call.request := by
  refine Runs.invariant (P := fun u => ∃ later, u.calls[index]? = some later ∧ later.request = call.request)
    run ⟨call,at_,rfl⟩ ?_
  rintro u a v ⟨later,present,request⟩ _ taken
  rcases stepCallTo taken present with ⟨stays,_⟩ | ⟨action,next,_,stepped,moved⟩
  · exact ⟨later,stays,request⟩
  · exact ⟨next,moved,(callStays stepped).1.trans request⟩

theorem overtakenRun {x : Executors} {cfg : Config} {id : RequestId} {index : Nat} {t : System} {call : Call}
    (overtaken : Overtaken x cfg id index t) (at_ : t.calls[index]? = some call) :
    (∃ actions, Run x (.start cfg) actions t) ∧ call.request = id := by
  obtain ⟨before,after,s,s',a,old,run,present,request,_,superseding,taken,later⟩ := overtaken
  have allowed : x.admits s a := by
    cases a with
    | call other action => exact superseding.elim
    | _ => trivial
  have whole : Run x (.start cfg) (before ++ a :: after) t := Runs.append run (Runs.cons allowed taken later)
  obtain ⟨reached,there,same⟩ := callAlong (Runs.cons allowed taken later) present
  cases Option.some.inj (at_.symm.trans there)
  exact ⟨⟨_,whole⟩,same.trans request⟩

theorem settlementUntouched {f f' : Fabric} {now : UInt64} {c : Cycle} {answer : Result CycleOutcome}
    {rs : RequestState} (found : f.find c.request = some rs) (settled : f.settle now c = some (answer,f')) :
    ∃ rs', f'.find c.request = some rs' ∧ (Untouched rs rs' ↔ rs.closed) := by
  cases settlement settled with
  | missing absent => exact absurd (found.symm.trans absent) (Option.some_ne_none _)
  | stale present closed kind kept =>
      cases Option.some.inj (found.symm.trans present)
      obtain ⟨events,stored⟩ := kept
      exact ⟨_,stored,fun _ => closed,fun _ => ⟨rfl,rfl,rfl,rfl⟩⟩
  | settled present facts kind branch stored =>
      cases Option.some.inj (found.symm.trans present)
      refine ⟨_,stored,?_,?_⟩
      · intro untouched
        have grown := facts.advanced.proposals
        rw [untouched.proposals] at grown
        exact absurd grown (by simp)
      · intro closed
        rcases closed with terminal | cancelled
        · rw [facts.live.1] at terminal
          contradiction
        · rw [facts.live.2] at cancelled
          contradiction

theorem overtakenIgnoredExactly {x : Executors} {cfg : Config} {id : RequestId} {index : Nat} {s s' : System}
    {c : Cycle} {now : UInt64} {answer : Result CycleOutcome} (overtaken : Overtaken x cfg id index s)
    (ready : s.calls[index]? = some (.settling c)) (settles : s.step (.call index (.settle now)) = some s')
    (returned : s'.calls[index]? = some (.returned id answer)) :
    ∃ rs rs', s.fabric.find id = some rs ∧ s'.fabric.find id = some rs' ∧ (Untouched rs rs' ↔ rs.closed) := by
  obtain ⟨⟨actions,run⟩,request⟩ := overtakenRun overtaken ready
  have member := List.mem_of_getElem? ready
  obtain ⟨rs,found⟩ := Option.isSome_iff_exists.mp ((registry run).registered _ member rfl)
  obtain ⟨rs',stored,exactly_⟩ := settlementUntouched found (returnedSettles ready settles returned)
  have same : c.request = id := request
  rw [← same]
  exact ⟨rs,rs',found,stored,exactly_⟩

def answeredActions : List Action := [.submit 1 (makeReq ⟨100⟩ []),.runCycle 2 2 ⟨100⟩] ++ untilSettlement 0 0

def answered : System := (runOf (drafts [5,6]) acceptsBoth (.start {}) answeredActions).get (by decide +kernel)

def retriedSystem : System := { answered with fabric := (answered.fabric.retry 3 ⟨100⟩).2 }

def cancelledSystem : System := { retriedSystem with fabric := (retriedSystem.fabric.cancel 4 ⟨100⟩ "stop").2 }

theorem answeredOvertaken {after : List Action} {t : System}
    (later : Run (.functions (drafts [5,6]) acceptsBoth) retriedSystem after t) :
    Overtaken (.functions (drafts [5,6]) acceptsBoth) {} ⟨100⟩ 0 t := by
  obtain ⟨c,ready⟩ := readyCall (by decide +kernel : ((answered.calls[0]?).bind Call.ready).isSome)
  have locals : ((answered.calls[0]?).bind Call.ready).map Cycle.request = some ⟨100⟩ := by decide +kernel
  rw [ready] at locals
  have run : Run (.functions (drafts [5,6]) acceptsBoth) (.start {}) answeredActions answered := runOfRun (by decide +kernel)
  have retried : (answered.fabric.retry 3 ⟨100⟩).1 = .ok ⟨2⟩ := by decide +kernel
  exact ⟨answeredActions,after,answered,retriedSystem,.retry 3 ⟨100⟩,_,run,ready,Option.some.inj locals,trivial,
    ⟨rfl,⟨2⟩,retried⟩,rfl,later⟩

def cancelledSettled : System := (cancelledSystem.step (.call 0 (.settle 5))).get (by decide +kernel)

def retriedSettled : System := (retriedSystem.step (.call 0 (.settle 5))).get (by decide +kernel)

theorem cancelledCompletionIgnored : ∃ rs rs', cancelledSystem.fabric.find ⟨100⟩ = some rs ∧
    cancelledSettled.fabric.find ⟨100⟩ = some rs' ∧ Untouched rs rs' := by
  obtain ⟨c,ready⟩ := readyCall (by decide +kernel : ((cancelledSystem.calls[0]?).bind Call.ready).isSome)
  obtain ⟨answer,returned⟩ := answeredCall
    (by decide +kernel : ((cancelledSettled.calls[0]?).bind Call.answer).map Prod.fst = some ⟨100⟩)
  have settles : cancelledSystem.step (.call 0 (.settle 5)) = some cancelledSettled := (Option.some_get _).symm
  have later : Run (.functions (drafts [5,6]) acceptsBoth) retriedSystem [.cancel 4 ⟨100⟩ "stop"] cancelledSystem :=
    .snoc .nil trivial rfl
  obtain ⟨rs,rs',found,stored,exactly_⟩ := overtakenIgnoredExactly (answeredOvertaken later) ready settles returned
  have flag : (cancelledSystem.fabric.find ⟨100⟩).map RequestState.cancelled = some true := by decide +kernel
  rw [found] at flag
  exact ⟨rs,rs',found,stored,exactly_.mpr (.inr (Option.some.inj flag))⟩

theorem earlierAttemptCommits : ∃ rs rs', Overtaken (.functions (drafts [5,6]) acceptsBoth) {} ⟨100⟩ 0 retriedSystem ∧
    retriedSystem.step (.call 0 (.settle 5)) = some retriedSettled ∧
    (∃ answer, retriedSettled.calls[0]? = some (.returned ⟨100⟩ answer)) ∧
    retriedSystem.fabric.find ⟨100⟩ = some rs ∧ retriedSettled.fabric.find ⟨100⟩ = some rs' ∧
    rs.attempt = ⟨2⟩ ∧ rs'.committed = rs.committed ++ [5,6] ∧ ¬ Untouched rs rs' := by
  have before : (retriedSystem.fabric.find ⟨100⟩).map (fun rs => (rs.attempt,rs.committed)) =
      some (⟨2⟩,[]) := by decide +kernel
  have after : (retriedSettled.fabric.find ⟨100⟩).map RequestState.committed = some [5,6] := by decide +kernel
  obtain ⟨rs,found,held⟩ := Option.map_eq_some_iff.mp before
  obtain ⟨rs',stored,long⟩ := Option.map_eq_some_iff.mp after
  have none : rs.committed = [] := congrArg Prod.snd held
  have settles : retriedSystem.step (.call 0 (.settle 5)) = some retriedSettled := (Option.some_get _).symm
  have returned := answeredCall
    (by decide +kernel : ((retriedSettled.calls[0]?).bind Call.answer).map Prod.fst = some ⟨100⟩)
  refine ⟨rs,rs',answeredOvertaken .nil,settles,returned,found,stored,congrArg Prod.fst held,?_,?_⟩
  · rw [none,long]
    rfl
  · intro untouched
    have same := untouched.committed
    rw [none,long] at same
    contradiction

end SpeculationFabric
