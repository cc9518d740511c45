import SpeculationFabric.CallFacts

/-! A cancelled or completed request stays as it is. The closing step may fall
between any two sections of any number of calls; what those calls report later is
part of the statement. Branches, reservations and events are not. -/
namespace SpeculationFabric

def RequestState.closed (rs : RequestState) : Prop := rs.terminal = true ∨ rs.cancelled = true

structure SameAuthority (rs rs' : RequestState) : Prop where
  committed : rs'.committed = rs.committed
  authGen : rs'.authGen = rs.authGen
  authState : rs'.authState = rs.authState
  authStateGen : rs'.authStateGen = rs.authStateGen
  attempt : rs'.attempt = rs.attempt
  proposals : rs'.proposals = rs.proposals
  completedCycles : rs'.completedCycles = rs.completedCycles

theorem SameAuthority.refl (rs : RequestState) : SameAuthority rs rs := ⟨rfl,rfl,rfl,rfl,rfl,rfl,rfl⟩

theorem SameAuthority.trans {a b c : RequestState} (left : SameAuthority a b) (right : SameAuthority b c) :
    SameAuthority a c :=
  ⟨right.committed.trans left.committed,right.authGen.trans left.authGen,right.authState.trans left.authState,
    right.authStateGen.trans left.authStateGen,right.attempt.trans left.attempt,
    right.proposals.trans left.proposals,right.completedCycles.trans left.completedCycles⟩

structure StaysClosed (rs rs' : RequestState) : Prop where
  authority : SameAuthority rs rs'
  terminal : rs.terminal = true → rs'.terminal = true
  cancelled : rs.cancelled = true → rs'.cancelled = true

theorem closedEffect {s : System} {id : RequestId} {a : Action} {rs rs' : RequestState}
    (effect : Effect s id a rs rs') (closed : rs.closed) (named : rs.req.id = id) (real : id.isNull = false) :
    StaysClosed rs rs' := by
  have noLife : ¬ (rs.terminal = false ∧ rs.cancelled = false) := by
    rintro ⟨unfinished,uncancelled⟩
    rcases closed with terminal | cancelled
    · rw [unfinished] at terminal
      contradiction
    · rw [uncancelled] at cancelled
      contradiction
  cases effect with
  | noted events => exact ⟨⟨rfl,rfl,rfl,rfl,rfl,rfl,rfl⟩,fun h => h,fun h => h⟩
  | resubmitted events same null =>
      rw [named,real] at null
      contradiction
  | cancelled events live => exact absurd live noLife
  | completed events => exact ⟨⟨rfl,rfl,rfl,rfl,rfl,rfl,rfl⟩,fun _ => rfl,fun h => h⟩
  | rolledBack events => exact ⟨⟨rfl,rfl,rfl,rfl,rfl,rfl,rfl⟩,fun h => h,fun h => h⟩
  | retried events live below => exact absurd live noLife
  | planned machine events live => exact absurd live noLife
  | settled call same facts => exact absurd facts.live noLife

theorem StaysClosed.closed {rs rs' : RequestState} (stays : StaysClosed rs rs') (before : rs.closed) : rs'.closed :=
  before.imp stays.terminal stays.cancelled

section closedRecord
variable {f : Fabric} {id : RequestId} {rs : RequestState}

theorem planClosed (found : f.find id = some rs) (closed : rs.closed) (now eventNow : UInt64) :
    ∃ o, (f.planCycle now eventNow id).1 = .inl (.ok o) ∧ (o.outcome = .cancelled ∨ o.outcome = .superseded) := by
  cases terminal : rs.terminal with
  | true =>
      refine ⟨{ outcome := .superseded, phase := .superseded },?_,.inr rfl⟩
      simp only [Fabric.planCycle,found,terminal,if_true]
  | false =>
      have cancelled : rs.cancelled = true := by
        rcases closed with finished | cancelled
        · rw [terminal] at finished
          contradiction
        · exact cancelled
      refine ⟨{ outcome := .cancelled, phase := .cancelled },?_,.inl rfl⟩
      simp [Fabric.planCycle,found,terminal,cancelled]

theorem settleClosed {c : Cycle} (found : f.find c.request = some rs) (closed : rs.closed) (now : UInt64) :
    ∃ o f', f.settle now c = some (.ok o,f') ∧ o.outcome = .staleAuthorityRejected := by
  have stale : (rs.terminal || rs.cancelled) = true := by simpa [RequestState.closed] using closed
  simp only [Fabric.settle,found,stale,if_true]
  exact ⟨_,_,rfl,rfl⟩

theorem retryClosed (found : f.find id = some rs) (closed : rs.closed) (now : UInt64) :
    ∃ e, f.retry now id = (.error e,f) := by
  have stale : (rs.terminal || rs.cancelled) = true := by simpa [RequestState.closed] using closed
  simp only [Fabric.retry,found,stale,if_true]
  split
  · exact ⟨_,rfl⟩
  · exact ⟨_,rfl⟩

theorem cancelAgain (found : f.find id = some rs) (cancelled : rs.cancelled = true) (now : UInt64) (why : String) :
    f.cancel now id why = (.ok (),f) := by
  simp only [Fabric.cancel,found,cancelled,if_true]

end closedRecord

def closesOk (s : System) (id : RequestId) : Action → Prop
  | .cancel now target why => target = id ∧ (s.fabric.cancel now target why).1 = .ok ()
  | .complete now target => target = id ∧ (s.fabric.complete now target).1 = .ok ()
  | _ => False

theorem cancelCloses {f : Fabric} {now : UInt64} {id : RequestId} {why : String}
    (ok : (f.cancel now id why).1 = .ok ()) :
    ∃ rs, (f.cancel now id why).2.find id = some rs ∧ rs.cancelled = true := by
  unfold Fabric.cancel at ok ⊢
  split
  · rename_i missing
    simp [missing,Result.err] at ok
  · rename_i rs found
    simp only [found] at ok
    split
    · rename_i already
      exact ⟨rs,found,already⟩
    · split
      · rename_i open_ finished
        simp [open_,finished,Result.err] at ok
      · obtain ⟨events,stored⟩ := updateSelf f now id rs.withdrawn
          { f.stats with cancelCount := f.stats.cancelCount + 1 } "request.cancel" why
        exact ⟨_,stored,rfl⟩

theorem completeCloses {f : Fabric} {now : UInt64} {id : RequestId} (ok : (f.complete now id).1 = .ok ()) :
    ∃ rs, (f.complete now id).2.find id = some rs ∧ rs.terminal = true := by
  unfold Fabric.complete at ok ⊢
  split
  · rename_i missing
    simp [missing,Result.err] at ok
  · rename_i rs found
    obtain ⟨events,stored⟩ := updateSelf f now id rs.finished f.stats "request.complete" "request terminal"
    exact ⟨_,stored,rfl⟩

theorem closesFound {s t : System} {id : RequestId} {a : Action} (closing : closesOk s id a)
    (taken : s.step a = some t) :
    ∃ rs, t.fabric.find id = some rs ∧ rs.closed ∧ (∀ now why, a = .cancel now id why → rs.cancelled = true) := by
  cases a with
  | cancel now target why =>
      obtain ⟨rfl,ok⟩ := closing
      cases Option.some.inj taken
      obtain ⟨rs,found,cancelled⟩ := cancelCloses ok
      exact ⟨rs,found,.inr cancelled,fun _ _ _ => cancelled⟩
  | complete now target =>
      obtain ⟨rfl,ok⟩ := closing
      cases Option.some.inj taken
      obtain ⟨rs,found,terminal⟩ := completeCloses ok
      exact ⟨rs,found,.inl terminal,by intro now why; exact nofun⟩
  | _ => exact closing.elim

def lateAnswer (x : Executors) : Result CycleOutcome → Prop
  | .ok o => o.outcome = .cancelled ∨ o.outcome = .superseded ∨ o.outcome = .staleAuthorityRejected
  | .error e => (∃ pin, x.propose pin (.error e)) ∨ ∃ vin, x.verify vin (.error e)

def LateCall (x : Executors) (call : Call) : Prop :=
  call.cycle.isSome ∨ ∃ answer, call = .returned call.request answer ∧ lateAnswer x answer

theorem lateStep {x : Executors} {s : System} {index : Nat} {call next : Call} {action : CallAction} {f' : Fabric}
    {rs : RequestState} (candidates : ∀ pin pr, x.propose pin (.ok pr) → pr.candidate.isSome)
    (present : s.calls[index]? = some call) (allowed : x.admits s (.call index action)) (facts : CallFacts x call)
    (found : s.fabric.find call.request = some rs) (closed : rs.closed)
    (taken : call.step s.fabric action = some (next,f')) : LateCall x next := by
  cases callStep taken with
  | asks c => exact .inl rfl
  | proposalFailed c pin e => exact .inr ⟨.error e,rfl,.inl ⟨pin,allowed c pin present⟩⟩
  | proposed c pin pr =>
      obtain ⟨_,rfl,goes | goes⟩ := proposedGoes c pin pr <;> rw [goes] <;> exact .inl rfl
  | sends at_ produced => exact .inl rfl
  | finds at_ absent =>
      obtain ⟨_,pin,_,answered⟩ := facts.1.proposal _ _ at_
      have produced := candidates pin _ answered
      rw [absent] at produced
      contradiction
  | verificationFailed c vin e => exact .inr ⟨.error e,rfl,.inr ⟨vin,allowed c vin present⟩⟩
  | verified c vin accept =>
      obtain ⟨_,rfl,goes | goes⟩ := verifiedGoes c vin accept <;> rw [goes] <;> exact .inl rfl
  | settles settled =>
      obtain ⟨o,f'',closing,kind⟩ := settleClosed found closed _
      cases Option.some.inj (settled.symm.trans closing)
      exact .inr ⟨.ok o,rfl,.inr (.inr kind)⟩
  | undecided nothing =>
      obtain ⟨o,f'',closing,_⟩ := settleClosed found closed _
      rw [nothing] at closing
      contradiction

structure FinalAt (x : Executors) (a : Action) (t : System) (id : RequestId) (rs : RequestState) (u : System) :
    Prop where
  record : ∃ rs', u.fabric.find id = some rs' ∧ SameAuthority rs rs'
  reported : ∀ (i : Nat) (call : Call), u.calls[i]? = some call → call.request = id →
    t.calls[i]? = some call ∨ LateCall x call
  runCycle : ∀ now eventNow, ∃ o, (u.fabric.planCycle now eventNow id).1 = .inl (.ok o) ∧
    (o.outcome = .cancelled ∨ o.outcome = .superseded)
  settlement : ∀ now c, c.request = id →
    ∃ o f', u.fabric.settle now c = some (.ok o,f') ∧ o.outcome = .staleAuthorityRejected
  retry : ∀ now, ∃ e, u.fabric.retry now id = (.error e,u.fabric)
  cancel : ∀ then_ reason, a = .cancel then_ id reason →
    ∀ now why, u.fabric.cancel now id why = (.ok (),u.fabric)

structure Closing (x : Executors) (t : System) (id : RequestId) (rs : RequestState) (u : System) : Prop where
  record : ∃ rs', u.fabric.find id = some rs' ∧ StaysClosed rs rs'
  registry : Registry u
  facts : ∀ call ∈ u.calls, CallFacts x call
  reported : ∀ (i : Nat) (call : Call), u.calls[i]? = some call → call.request = id →
    t.calls[i]? = some call ∨ LateCall x call

theorem closingStep {x : Executors} {t u v : System} {id : RequestId} {rs : RequestState} {a : Action}
    (candidates : ∀ pin pr, x.propose pin (.ok pr) → pr.candidate.isSome) (real : id.isNull = false)
    (closed : rs.closed) (before : Closing x t id rs u) (allowed : x.admits u a) (taken : u.step a = some v) :
    Closing x t id rs v := by
  obtain ⟨held,found,stays⟩ := before.record
  obtain ⟨next,stored,effect⟩ := stepEffect taken found
  have heldClosed := stays.closed closed
  have further := closedEffect effect heldClosed (before.registry.named id held found) real
  refine ⟨⟨next,stored,?_⟩,registryStep taken before.registry,callFactsStep taken allowed before.facts,?_⟩
  · exact ⟨stays.authority.trans further.authority,fun h => further.terminal (stays.terminal h),
      fun h => further.cancelled (stays.cancelled h)⟩
  · intro i call at_ same
    rcases stepCallFrom taken at_ with ⟨old,_⟩ | ⟨now,eventNow,target,_,rfl⟩ | ⟨action,old,rfl,present,stepped⟩
    · exact before.reported i call old same
    · rw [begunRequest] at same
      subst same
      obtain ⟨o,answer,kind⟩ := planClosed found heldClosed now eventNow
      rw [answer]
      exact .inr (.inr ⟨.ok o,rfl,kind.imp (fun h => h) .inl⟩)
    · rw [(callStays stepped).1] at same
      subst same
      exact .inr (lateStep candidates present allowed (before.facts old (List.mem_of_getElem? present))
        found heldClosed stepped)

theorem closingIsFinal {x : Executors} {cfg : Config} {actions more : List Action} {s t u : System}
    {id : RequestId} {a : Action} (candidates : ∀ pin pr, x.propose pin (.ok pr) → pr.candidate.isSome)
    (real : id.isNull = false) (run : Run x (.start cfg) actions s) (taken : s.step a = some t)
    (closing : closesOk s id a) (later : Run x t more u) :
    ∃ rs, t.fabric.find id = some rs ∧ FinalAt x a t id rs u := by
  obtain ⟨rs,found,closed,whenCancelled⟩ := closesFound closing taken
  have allowed : x.admits s a := by
    cases a with
    | call index action => exact closing.elim
    | _ => trivial
  have start : Closing x t id rs t :=
    ⟨⟨rs,found,.refl rs,fun h => h,fun h => h⟩,registryStep taken (registry run),
      callFactsStep taken allowed (callFacts run),fun i call at_ _ => .inl at_⟩
  have final : Closing x t id rs u := Runs.invariant later start
    (fun v b w before may moved => closingStep candidates real closed before may moved)
  obtain ⟨rs',found',stays⟩ := final.record
  have closed' := stays.closed closed
  refine ⟨rs,found,⟨rs',found',stays.authority⟩,final.reported,planClosed found' closed',?_,
    retryClosed found' closed',?_⟩
  · intro now c same
    exact settleClosed (by rw [same]; exact found') closed' now
  · intro then_ reason cancel
    exact cancelAgain found' (stays.cancelled (whenCancelled then_ reason cancel))

/- A cancellation between the two executor calls of a cycle: the verifier still
answers, and the settlement is turned away. -/
def cancelledMidway : List Action :=
  [.submit 1 (makeReq ⟨100⟩ [1]),.runCycle 2 2 ⟨100⟩,.call 0 .proposalInput,
    .call 0 (.proposalResult (.ok (proposedTokens [5,6])))]

def afterCancellation : List Action :=
  [.call 0 .verificationInput,.call 0 (.verificationResult (.ok (acceptedFirst 2))),.call 0 (.settle 9)]

def midway : System := (runOf (drafts [5,6]) (accepts 2) (.start {}) cancelledMidway).get (by decide +kernel)

def midwayCancelled : System := { midway with fabric := (midway.fabric.cancel 5 ⟨100⟩ "stop").2 }

theorem cancelledMidwayIsFinal : ∃ u rs, Run (.functions (drafts [5,6]) (accepts 2)) midwayCancelled afterCancellation u ∧
    midwayCancelled.fabric.find ⟨100⟩ = some rs ∧ rs.committed = [1] ∧
    FinalAt (.functions (drafts [5,6]) (accepts 2)) (.cancel 5 ⟨100⟩ "stop") midwayCancelled ⟨100⟩ rs u := by
  have before : Run (.functions (drafts [5,6]) (accepts 2)) (.start {}) cancelledMidway midway := runOfRun (by decide +kernel)
  have after : Run (.functions (drafts [5,6]) (accepts 2)) midwayCancelled afterCancellation _ := runOfRun (by decide +kernel)
  have candidates : ∀ pin pr, (Executors.functions (drafts [5,6]) (accepts 2)).propose pin (.ok pr) →
      pr.candidate.isSome := by
    intro pin pr answered
    cases answered
    rfl
  obtain ⟨rs,found,final⟩ := closingIsFinal candidates (by decide : (⟨100⟩ : RequestId).isNull = false) before
    (show midway.step (.cancel 5 ⟨100⟩ "stop") = some midwayCancelled from rfl) ⟨rfl,by decide +kernel⟩ after
  have one : (midwayCancelled.fabric.find ⟨100⟩).map (·.committed) = some [1] := by decide +kernel
  rw [found] at one
  exact ⟨_,rs,after,found,Option.some.inj one,final⟩

end SpeculationFabric
