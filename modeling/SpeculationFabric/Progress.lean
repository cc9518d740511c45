import SpeculationFabric.Calls
import SpeculationFabric.CallFacts

/-! How long a cycle takes. A call in flight has a fixed number of turns left, each of its
own turns takes one of them, and nothing else that happens takes one or adds one. What it
waits for next is never refused: no cycle is held up by another or by any operation. -/
namespace SpeculationFabric

def Call.awaits : Call → CallAction → Prop
  | .proposing _,.proposalInput => True
  | .proposalSent _ _,.proposalResult _ => True
  | .verifying _,.verificationInput => True
  | .verificationSent _ _,.verificationResult _ => True
  | .settling _,.settle _ => True
  | _,_ => False

/- The turns it has left, if no executor fails it on the way. -/
def Call.turnsLeft : Call → Nat
  | .proposing c => 2 * (c.planned.branchCount.toNat - c.proposed.length) + 2 * c.planned.branchCount.toNat + 1
  | .proposalSent c _ => 2 * (c.planned.branchCount.toNat - c.proposed.length) + 2 * c.planned.branchCount.toNat
  | .verifying c => 2 * (c.proposed.length - c.accepted.length) + 1
  | .verificationSent c _ => 2 * (c.proposed.length - c.accepted.length)
  | .settling _ => 1
  | .returned _ _ | .undefined _ => 0

def Action.turnOf (index : Nat) : Action → Bool
  | .call i _ => decide (i = index)
  | _ => false

def turnsTaken (index : Nat) (actions : List Action) : Nat := actions.countP (Action.turnOf index)

theorem awaitsSome {call : Call} (active : call.cycle.isSome) : ∃ action, call.awaits action := by
  cases call with
  | proposing c => exact ⟨.proposalInput,trivial⟩
  | proposalSent c pin => exact ⟨.proposalResult (.ok {}),trivial⟩
  | verifying c => exact ⟨.verificationInput,trivial⟩
  | verificationSent c vin => exact ⟨.verificationResult (.ok {}),trivial⟩
  | settling c => exact ⟨.settle 0,trivial⟩
  | returned => cases active
  | undefined => cases active

theorem awaitsTaken {x : Executors} {call : Call} (facts : CallFacts x call) (f : Fabric) (action : CallAction) :
    (call.step f action).isSome ↔ call.awaits action := by
  cases call with
  | proposing c => cases action <;> simp [Call.step,Call.awaits]
  | proposalSent c pin => cases action <;> simp [Call.step,Call.awaits]
  | verifying c =>
      cases action with
      | verificationInput =>
          obtain ⟨br,there⟩ : ∃ br, c.proposed[c.accepted.length]? = some br := ⟨_,List.getElem?_eq_getElem facts.2.2⟩
          simp only [Call.step,Call.awaits,Cycle.verificationSection,there,bind,Option.bind_some,iff_true]
          cases br.pr.candidate <;> rfl
      | _ => simp [Call.step,Call.awaits]
  | verificationSent c vin => cases action <;> simp [Call.step,Call.awaits]
  | settling c => cases action <;> simp [Call.step,Call.awaits]
  | returned id answer => cases action <;> simp [Call.step,Call.awaits]
  | undefined id => cases action <;> simp [Call.step,Call.awaits]

theorem turnSpent {x : Executors} {f f' : Fabric} {call next : Call} {action : CallAction} (facts : CallFacts x call)
    (nextFacts : CallFacts x next) (taken : call.step f action = some (next,f')) :
    next.turnsLeft + 1 ≤ call.turnsLeft ∧ (next.cycle.isSome → next.turnsLeft + 1 = call.turnsLeft) := by
  cases callStep taken with
  | asks c => exact ⟨Nat.le_refl _,fun _ => rfl⟩
  | proposalFailed c pin e =>
      have room := facts.2.2
      refine ⟨?_,fun active => by cases active⟩
      simp only [Call.turnsLeft]
      omega
  | proposed c pin pr =>
      have room := facts.2.2
      have one : ([⟨pr,branchIdAt (UInt32.ofNat c.proposed.length),pin.provenance.proposerModel⟩] :
        List BranchResult).length = 1 := rfl
      obtain ⟨n,same,goes | goes⟩ := proposedGoes c pin pr <;> rw [goes] at nextFacts ⊢ <;> subst same
      · have less := nextFacts.2.2
        simp only [Call.turnsLeft,List.length_append,one] at less ⊢
        omega
      · obtain ⟨_,full,more⟩ := nextFacts
        have none : c.accepted.length = 0 := by rw [facts.2.1]; rfl
        simp only [Call.turnsLeft,List.length_append,one,none] at full more ⊢
        omega
  | sends at_ produced => exact ⟨Nat.le_refl _,fun _ => rfl⟩
  | finds at_ absent => exact ⟨Nat.succ_le_succ (Nat.zero_le _),fun active => by cases active⟩
  | verificationFailed c vin e =>
      obtain ⟨_,_,br,there,_⟩ := facts
      have room := (List.getElem?_eq_some_iff.mp there).1
      refine ⟨?_,fun active => by cases active⟩
      simp only [Call.turnsLeft]
      omega
  | verified c vin accept =>
      obtain ⟨_,_,br,there,_⟩ := facts
      have room := (List.getElem?_eq_some_iff.mp there).1
      have one : [accept].length = 1 := rfl
      obtain ⟨n,same,goes | goes⟩ := verifiedGoes c vin accept <;> rw [goes] at nextFacts ⊢ <;> subst same
      · have more := nextFacts.2.2
        simp only [Call.turnsLeft,List.length_append,one] at more ⊢
        omega
      · have last := nextFacts.2.2.1
        simp only [Call.turnsLeft,List.length_append,one] at last ⊢
        omega
  | settles => exact ⟨Nat.le_refl _,fun active => by cases active⟩
  | undecided => exact ⟨Nat.le_refl _,fun active => by cases active⟩

theorem endsBySettling {f f' : Fabric} {call next : Call} {action : CallAction} {id : RequestId} {o : CycleOutcome}
    (taken : call.step f action = some (next,f')) (ended : next = .returned id (.ok o)) : call.turnsLeft = 1 := by
  cases callStep taken with
  | proposed c pin pr =>
      obtain ⟨_,_,goes | goes⟩ := proposedGoes c pin pr <;> rw [goes] at ended <;> cases ended
  | verified c vin accept =>
      obtain ⟨_,_,goes | goes⟩ := verifiedGoes c vin accept <;> rw [goes] at ended <;> cases ended
  | settles => rfl
  | undecided => cases ended
  | _ => cases ended

theorem turnsPositive {x : Executors} {call : Call} (facts : CallFacts x call) (active : call.cycle.isSome) :
    0 < call.turnsLeft := by
  cases call with
  | proposing c => exact Nat.succ_pos _
  | proposalSent c pin =>
      have room := facts.2.2
      simp only [Call.turnsLeft]
      omega
  | verifying c => exact Nat.succ_pos _
  | verificationSent c vin =>
      obtain ⟨_,_,br,there,_⟩ := facts
      have room := (List.getElem?_eq_some_iff.mp there).1
      simp only [Call.turnsLeft]
      omega
  | settling c => exact Nat.one_pos
  | returned => cases active
  | undefined => cases active

structure Underway (index total : Nat) (id : RequestId) (letIn : Prop) (past : List Action) (s : System)
    (call : Call) : Prop where
  at_ : s.calls[index]? = some call
  request : call.request = id
  within : turnsTaken index past + call.turnsLeft ≤ total
  exact_ : call.cycle.isSome → turnsTaken index past + call.turnsLeft = total
  ended : letIn → ∀ o, call = .returned id (.ok o) → turnsTaken index past = total

theorem turnsAppend (index : Nat) (past : List Action) (a : Action) :
    turnsTaken index (past ++ [a]) = turnsTaken index past + if a.turnOf index then 1 else 0 := by
  rw [turnsTaken,List.countP_append,List.countP_singleton,turnsTaken]

theorem turnsElsewhere {index : Nat} {a : Action} (other : ∀ action, a ≠ .call index action) (past : List Action) :
    turnsTaken index (past ++ [a]) = turnsTaken index past := by
  have none : a.turnOf index = false := by
    cases a with
    | call i action => exact decide_eq_false fun here => other action (by rw [here])
    | _ => rfl
  rw [turnsAppend,none]
  rfl

theorem turnsOwn (index : Nat) (past : List Action) (action : CallAction) :
    turnsTaken index (past ++ [.call index action]) = turnsTaken index past + 1 := by
  rw [turnsAppend,Action.turnOf,decide_eq_true rfl]
  rfl

theorem underwayStep {x : Executors} {s t : System} {index total : Nat} {id : RequestId} {letIn : Prop}
    {past : List Action} {a : Action} {call : Call} (facts : ∀ call ∈ s.calls, CallFacts x call) (allowed : x.admits s a)
    (taken : s.step a = some t) (under : Underway index total id letIn past s call) :
    ∃ next, Underway index total id letIn (past ++ [a]) t next := by
  rcases stepCallTo taken under.at_ with ⟨kept,other⟩ | ⟨action,next,rfl,stepped,moved⟩
  · have same := turnsElsewhere other past
    exact ⟨call,kept,under.request,by rw [same]; exact under.within,by rw [same]; exact under.exact_,
      by rw [same]; exact under.ended⟩
  · have here := facts call (List.mem_of_getElem? under.at_)
    obtain ⟨less,exactly⟩ := turnSpent here (callFactsKept under.at_ allowed stepped here) stepped
    have one := turnsOwn index past action
    have counted := under.exact_ (callStays stepped).2
    refine ⟨next,moved,(callStays stepped).1.trans under.request,by omega,?_,?_⟩
    · intro active
      have left := exactly active
      omega
    · intro _ o answered
      have last := endsBySettling stepped answered
      omega

theorem underwayBegins {x : Executors} {cfg : Config} {past : List Action} {s u : System} {now eventNow : UInt64}
    {id : RequestId} (opens : Run x (.start cfg) past u) (taken : s.step (.runCycle now eventNow id) = some u) :
    Underway s.calls.length (4 * (max 1 cfg.policy.maxBranches).toNat + 1) id
      (∃ p, (s.fabric.planCycle now eventNow id).1 = .inr p) [] u (begun id (s.fabric.planCycle now eventNow id).1) := by
  have calls : u.calls = s.calls ++ [begun id (s.fabric.planCycle now eventNow id).1] :=
    (congrArg System.calls (Option.some.inj taken)).symm
  have there : u.calls[s.calls.length]? = some (begun id (s.fabric.planCycle now eventNow id).1) := by
    rw [calls,List.getElem?_concat_length]
  have left : (begun id (s.fabric.planCycle now eventNow id).1).cycle.isSome →
      (begun id (s.fabric.planCycle now eventNow id).1).turnsLeft = 4 * (max 1 cfg.policy.maxBranches).toNat + 1 := by
    intro active
    obtain ⟨p,planned⟩ := activePlanned active
    have count := branchCountFixed opens _ (List.mem_of_getElem? there)
    rw [planned] at count ⊢
    have branches : p.branchCount = max 1 cfg.policy.maxBranches := count _ rfl
    simp only [begun,Call.turnsLeft,branches,List.length_nil]
    omega
  refine ⟨there,begunRequest _ _,?_,?_,?_⟩
  · cases active : (begun id (s.fabric.planCycle now eventNow id).1).cycle.isSome with
    | true => rw [left active]; exact Nat.le_of_eq (Nat.zero_add _)
    | false =>
        cases planned : (s.fabric.planCycle now eventNow id).1 with
        | inl answer => exact Nat.zero_le _
        | inr p => rw [planned] at active; cases active
  · intro active
    rw [left active]
    exact Nat.zero_add _
  · rintro ⟨p,planned⟩ o answered
    rw [planned] at answered
    cases answered

theorem cyclesFinish {x : Executors} {cfg : Config} {before actions : List Action} {s t : System}
    {now eventNow : UInt64} {id : RequestId} (run : Run x (.start cfg) before s)
    (later : Run x (.start cfg) (before ++ .runCycle now eventNow id :: actions) t) :
    ∃ call, t.calls[s.calls.length]? = some call ∧ call.request = id ∧
      turnsTaken s.calls.length actions + call.turnsLeft ≤ 4 * (max 1 cfg.policy.maxBranches).toNat + 1 ∧
      (∀ action, (t.step (.call s.calls.length action)).isSome ↔ call.awaits action) ∧
      (call.cycle.isSome → turnsTaken s.calls.length actions + call.turnsLeft = 4 * (max 1 cfg.policy.maxBranches).toNat + 1 ∧
        0 < call.turnsLeft ∧ ∃ action, call.awaits action) ∧
      ((∃ p, (s.fabric.planCycle now eventNow id).1 = .inr p) → ∀ o, call = .returned id (.ok o) →
        turnsTaken s.calls.length actions = 4 * (max 1 cfg.policy.maxBranches).toNat + 1) := by
  obtain ⟨u,allowed,taken,rest⟩ := Runs.resumed run later
  have opens : Run x (.start cfg) (before ++ [.runCycle now eventNow id]) u := run.snoc allowed taken
  have all : (∀ call ∈ t.calls, CallFacts x call) ∧
      ∃ call, Underway s.calls.length (4 * (max 1 cfg.policy.maxBranches).toNat + 1) id
        (∃ p, (s.fabric.planCycle now eventNow id).1 = .inr p) actions t call := by
    refine Runs.recorded (P := fun past w => (∀ call ∈ w.calls, CallFacts x call) ∧
      ∃ call, Underway s.calls.length (4 * (max 1 cfg.policy.maxBranches).toNat + 1) id
        (∃ p, (s.fabric.planCycle now eventNow id).1 = .inr p) past w call)
      rest ⟨callFacts opens,_,underwayBegins opens taken⟩ ?_
    rintro past w a z ⟨facts,call,under⟩ may moved
    exact ⟨callFactsStep moved may facts,underwayStep facts may moved under⟩
  obtain ⟨facts,call,under⟩ := all
  have here := facts call (List.mem_of_getElem? under.at_)
  refine ⟨call,under.at_,under.request,under.within,?_,?_,under.ended⟩
  · intro action
    rw [← awaitsTaken here t.fabric action]
    simp only [System.step,under.at_,bind,Option.bind_some]
    cases call.step t.fabric action <;> rfl
  · intro active
    exact ⟨under.exact_ active,turnsPositive here active,awaitsSome active⟩

def interrupted : List Action :=
  [.runCycle 3 3 ⟨100⟩,.call 0 .proposalInput,.call 1 .proposalInput] ++
    (oneBranchAnswers 0 (proposedTokens [5]) (acceptedFirst 1)).drop 1 ++ [.cancel 4 ⟨100⟩ "enough",.call 0 (.settle 5)]

def interruptedEnd : System :=
  (runOf (drafts [5]) (accepts 1) (.start {}) (.submit 1 (makeReq ⟨100⟩ []) :: .runCycle 2 2 ⟨100⟩ :: interrupted)).get
    (by decide +kernel)

def Call.succeeded (id : RequestId) : Call → Bool
  | .returned answered (.ok _) => answered = id
  | _ => false

theorem succeededReturned {id : RequestId} {call : Call} (done : call.succeeded id = true) :
    ∃ o, call = .returned id (.ok o) := by
  unfold Call.succeeded at done
  split at done
  · rename_i answered o
    cases of_decide_eq_true done
    exact ⟨o,rfl⟩
  · contradiction

theorem interruptedFinishes : Run (.functions (drafts [5]) (accepts 1)) (.start {})
      (.submit 1 (makeReq ⟨100⟩ []) :: .runCycle 2 2 ⟨100⟩ :: interrupted) interruptedEnd ∧
    (∃ o, interruptedEnd.calls[0]? = some (.returned ⟨100⟩ (.ok o))) ∧ turnsTaken 0 interrupted = 5 := by
  have first : Run (.functions (drafts [5]) (accepts 1)) (.start {}) [.submit 1 (makeReq ⟨100⟩ [])] _ :=
    .snoc .nil trivial rfl
  have run : Run (.functions (drafts [5]) (accepts 1)) (.start {})
      ([.submit 1 (makeReq ⟨100⟩ [])] ++ .runCycle 2 2 ⟨100⟩ :: interrupted) interruptedEnd := runOfRun (by decide +kernel)
  have succeeds : (interruptedEnd.calls[0]?).any (Call.succeeded ⟨100⟩) = true := by decide +kernel
  obtain ⟨call,there,_,_,_,_,exactly⟩ := cyclesFinish first run
  obtain ⟨other,same,done⟩ := (Option.any_eq_true _ _).mp succeeds
  obtain ⟨o,rfl⟩ := succeededReturned done
  cases there.symm.trans same
  exact ⟨run,⟨o,same⟩,exactly ⟨_,rfl⟩ o rfl⟩

end SpeculationFabric
