import SpeculationFabric.Calls

/-! Where an operation writes. Each one rewrites the record it names, counts and notes
events, and settlement records a ratio; the registered executors and the policy are
never written. What the new record holds is said elsewhere. What a section of a call
can do is said here once, and later modules go through its cases. -/
namespace SpeculationFabric

inductive Writes (f : Fabric) (id : RequestId) : Fabric → Prop where
  | nothing : Writes f id f
  | stored {g} (rs : RequestState) (before : Writes f id g) : Writes f id (g.store id rs)
  | counted {g} (stats : Stats) (before : Writes f id g) : Writes f id { g with stats := stats }
  | learned {g} (ratio : Float) (before : Writes f id g) :
      Writes f id { g with scheduler := { g.scheduler with adaptive := g.scheduler.adaptive.record ratio } }
  | noted {g} (now : UInt64) (type detail json : String) (before : Writes f id g) :
      Writes f id (g.pushEvent now id type detail json)

inductive CallStep (f : Fabric) : Call → CallAction → Call → Fabric → Prop where
  | asks (c : Cycle) : CallStep f (.proposing c) .proposalInput
      (.proposalSent c (proposalInput (f.entry c.request).1 c.request c.planned (UInt32.ofNat c.proposed.length)))
      (f.entry c.request).2
  | proposalFailed (c : Cycle) (pin : ProposalInput) (e : Error) :
      CallStep f (.proposalSent c pin) (.proposalResult (.error e)) (.returned c.request (.error e)) f
  | proposed (c : Cycle) (pin : ProposalInput) (pr : ProposalResult) :
      CallStep f (.proposalSent c pin) (.proposalResult (.ok pr)) (c.proposalReturned pin (.ok pr)) f
  | sends {c : Cycle} {br : BranchResult} {candidate : CandidateSequence}
      (at_ : c.proposed[c.accepted.length]? = some br) (produced : br.pr.candidate = some candidate) :
      CallStep f (.verifying c) .verificationInput
        (.verificationSent c (verificationInput (f.entry c.request).1 c.request c.planned br candidate))
        (f.entry c.request).2
  | finds {c : Cycle} {br : BranchResult} (at_ : c.proposed[c.accepted.length]? = some br)
      (absent : br.pr.candidate = none) :
      CallStep f (.verifying c) .verificationInput (.undefined c.request) (f.entry c.request).2
  | verificationFailed (c : Cycle) (vin : VerificationInput) (e : Error) :
      CallStep f (.verificationSent c vin) (.verificationResult (.error e)) (.returned c.request (.error e)) f
  | verified (c : Cycle) (vin : VerificationInput) (accept : AcceptanceResult) :
      CallStep f (.verificationSent c vin) (.verificationResult (.ok accept)) (c.verificationReturned vin (.ok accept)) f
  | settles {c : Cycle} {now : UInt64} {answer : Result CycleOutcome} {f' : Fabric}
      (settled : f.settle now c = some (answer,f')) :
      CallStep f (.settling c) (.settle now) (.returned c.request answer) f'
  | undecided {c : Cycle} {now : UInt64} (nothing : f.settle now c = none) :
      CallStep f (.settling c) (.settle now) (.undefined c.request) f

theorem callStep {f f' : Fabric} {call next : Call} {action : CallAction}
    (taken : call.step f action = some (next,f')) : CallStep f call action next f' := by
  unfold Call.step at taken
  split at taken
  · cases Option.some.inj taken
    exact .asks _
  · rename_i c pin answer
    cases Option.some.inj taken
    cases answer with
    | error e => exact .proposalFailed c pin e
    | ok pr => exact .proposed c pin pr
  · simp only [Cycle.verificationSection,bind,Option.bind_eq_some_iff] at taken
    obtain ⟨br,at_,last⟩ := taken
    split at last
    · rename_i produced
      cases Option.some.inj last
      exact .sends at_ produced
    · rename_i absent
      cases Option.some.inj last
      exact .finds at_ absent
  · rename_i c vin answer
    cases Option.some.inj taken
    cases answer with
    | error e => exact .verificationFailed c vin e
    | ok accept => exact .verified c vin accept
  · have answered := Option.some.inj taken
    unfold Cycle.settlementSection at answered
    split at answered
    · rename_i settled
      cases answered
      exact .settles settled
    · rename_i nothing
      cases answered
      exact .undecided nothing
  · contradiction

theorem proposedGoes (c : Cycle) (pin : ProposalInput) (pr : ProposalResult) :
    ∃ next : Cycle, next = { c with
        pins := c.pins ++ [pin]
        proposed := c.proposed ++
          [⟨pr,branchIdAt (UInt32.ofNat c.proposed.length),pin.provenance.proposerModel⟩] } ∧
      (c.proposalReturned pin (.ok pr) = .proposing next ∨ c.proposalReturned pin (.ok pr) = .verifying next) := by
  refine ⟨_,rfl,?_⟩
  unfold Cycle.proposalReturned
  dsimp only
  split
  · exact .inl rfl
  · exact .inr rfl

theorem verifiedGoes (c : Cycle) (vin : VerificationInput) (accept : AcceptanceResult) :
    ∃ next : Cycle, next = { c with vins := c.vins ++ [vin], accepted := c.accepted ++ [accept] } ∧
      (c.verificationReturned vin (.ok accept) = .verifying next ∨
        c.verificationReturned vin (.ok accept) = .settling next) := by
  refine ⟨_,rfl,?_⟩
  unfold Cycle.verificationReturned
  dsimp only
  split
  · exact .inl rfl
  · exact .inr rfl

section writes
variable {f g : Fabric} {id : RequestId}

theorem Writes.update (before : Writes f id g) (now : UInt64) (rs : RequestState) (stats : Stats)
    (type detail : String) : Writes f id (g.update now id rs stats type detail) :=
  ((before.stored rs).counted stats).noted now type detail _

theorem Writes.entry (f : Fabric) (id : RequestId) : Writes f id (f.entry id).2 := by
  unfold Fabric.entry
  split
  · exact .nothing
  · exact .stored _ .nothing

theorem submitWrites (f : Fabric) (now : UInt64) (req : SpeculationRequest) :
    Writes f req.id (f.submit now req).2 := by
  unfold Fabric.submit
  dsimp only
  split
  · exact .entry f req.id
  · exact (Writes.entry f req.id).update now _ _ _ _

theorem cancelWrites (f : Fabric) (now : UInt64) (id : RequestId) (why : String) :
    Writes f id (f.cancel now id why).2 := by
  unfold Fabric.cancel
  split
  · exact .nothing
  · split
    · exact .nothing
    · split
      · exact .nothing
      · exact Writes.nothing.update now _ _ _ _

theorem completeWrites (f : Fabric) (now : UInt64) (id : RequestId) : Writes f id (f.complete now id).2 := by
  unfold Fabric.complete
  split
  · exact .nothing
  · exact Writes.nothing.update now _ _ _ _

theorem rollbackWrites (f : Fabric) (now : UInt64) (id : RequestId) (why : String) :
    Writes f id (f.rollback now id why).2 := by
  unfold Fabric.rollback
  split
  · exact .nothing
  · exact Writes.nothing.update now _ _ _ _

theorem retryWrites (f : Fabric) (now : UInt64) (id : RequestId) : Writes f id (f.retry now id).2 := by
  unfold Fabric.retry
  split
  · exact .nothing
  · split
    · exact .nothing
    · split
      · exact .nothing
      · exact Writes.nothing.update now _ _ _ _

theorem planWrites (f : Fabric) (now eventNow : UInt64) (id : RequestId) :
    Writes f id (f.planCycle now eventNow id).2 := by
  unfold Fabric.planCycle Fabric.admitCycle
  dsimp only
  split
  · exact .nothing
  · split
    · exact .nothing
    · split
      · exact .nothing
      · split
        · exact .noted eventNow _ _ _ .nothing
        · split
          · exact Writes.nothing.update eventNow _ _ _ _
          · split
            · exact Writes.nothing.update eventNow _ _ _ _
            · split <;> exact .stored _ .nothing

theorem settleWrites {f' : Fabric} {now : UInt64} {c : Cycle} {answer : Result CycleOutcome}
    (ok : f.settle now c = some (answer,f')) : Writes f c.request f' := by
  unfold Fabric.settle at ok
  split at ok
  · cases Option.some.inj ok
    exact .nothing
  · split at ok
    · cases Option.some.inj ok
      exact .noted now _ _ _ (.counted _ .nothing)
    · simp only [bind,Option.bind_eq_some_iff] at ok
      obtain ⟨won,_,accept,_,candidate,_,⟨o,mid⟩,_,last⟩ := ok
      cases Option.some.inj last
      exact (Writes.learned _ .nothing).update now _ _ _ _

theorem callWrites {f' : Fabric} {call next : Call} {action : CallAction}
    (taken : call.step f action = some (next,f')) : Writes f call.request f' := by
  cases callStep taken with
  | asks c => exact .entry f c.request
  | sends at_ produced => exact .entry f _
  | finds at_ absent => exact .entry f _
  | settles settled => exact settleWrites settled
  | _ => exact .nothing

theorem Writes.fixed (written : Writes f id g) :
    g.cfg = f.cfg ∧ g.epoch = f.epoch ∧ g.scheduler.policy = f.scheduler.policy := by
  induction written with
  | nothing => exact ⟨rfl,rfl,rfl⟩
  | stored rs before ih => exact ih
  | counted stats before ih => exact ih
  | learned ratio before ih => exact ih
  | noted now type detail json before ih =>
      unfold Fabric.pushEvent
      dsimp only
      split <;> exact ih

end writes

def System.target (s : System) : Action → Option RequestId
  | .submit _ req => some req.id
  | .cancel _ id _ => some id
  | .complete _ id => some id
  | .rollback _ id _ => some id
  | .retry _ id => some id
  | .rollEpoch => none
  | .emitEvent _ id _ _ _ => some id
  | .runCycle _ _ id => some id
  | .call index _ => (s.calls[index]?).map Call.request

theorem stepWrites {s s' : System} {a : Action} (taken : s.step a = some s') :
    (a = .rollEpoch ∧ s'.fabric = s.fabric.rollEpoch) ∨
    ∃ id, s.target a = some id ∧ Writes s.fabric id s'.fabric := by
  cases a with
  | submit now req => cases Option.some.inj taken; exact .inr ⟨req.id,rfl,submitWrites _ now req⟩
  | cancel now id why => cases Option.some.inj taken; exact .inr ⟨id,rfl,cancelWrites _ now id why⟩
  | complete now id => cases Option.some.inj taken; exact .inr ⟨id,rfl,completeWrites _ now id⟩
  | rollback now id why => cases Option.some.inj taken; exact .inr ⟨id,rfl,rollbackWrites _ now id why⟩
  | retry now id => cases Option.some.inj taken; exact .inr ⟨id,rfl,retryWrites _ now id⟩
  | rollEpoch => cases Option.some.inj taken; exact .inl ⟨rfl,rfl⟩
  | emitEvent now id type detail json =>
      cases Option.some.inj taken
      exact .inr ⟨id,rfl,.noted now type detail json .nothing⟩
  | runCycle now eventNow id =>
      have same := congrArg System.fabric (Option.some.inj taken)
      exact .inr ⟨id,rfl,same ▸ planWrites s.fabric now eventNow id⟩
  | call index action =>
      obtain ⟨call,next,f',present,moved,rfl⟩ := callMoved taken
      exact .inr ⟨call.request,by simp [System.target,present],callWrites moved⟩

theorem stepFixed {s s' : System} {a : Action} (taken : s.step a = some s') :
    s'.fabric.cfg = s.fabric.cfg ∧ s'.fabric.scheduler.policy = s.fabric.scheduler.policy := by
  rcases stepWrites taken with ⟨_,rolled⟩ | ⟨id,_,written⟩
  · rw [rolled]
    exact ⟨rfl,rfl⟩
  · obtain ⟨cfg,_,policy⟩ := written.fixed
    exact ⟨cfg,policy⟩

theorem configurationFixed {x : Executors} {cfg : Config} {actions : List Action} {s : System}
    (run : Run x (.start cfg) actions s) : s.fabric.cfg = cfg ∧ s.fabric.scheduler.policy = cfg.policy := by
  refine Runs.invariant (P := fun u => u.fabric.cfg = cfg ∧ u.fabric.scheduler.policy = cfg.policy) run ⟨rfl,rfl⟩ ?_
  intro u a v before _ taken
  obtain ⟨same,policy⟩ := stepFixed taken
  exact ⟨same.trans before.1,policy.trans before.2⟩

end SpeculationFabric
