import SpeculationFabric.Writes

/-! What one step can do to one request's record, stated once. Later modules argue
from `stepEffect` and never unfold an operation again. Event histories are left
free: no statement about authority reads them. -/
namespace SpeculationFabric

@[simp] theorem findStoreSelf (f : Fabric) (id : RequestId) (rs : RequestState) :
    (f.store id rs).find id = some rs := by
  simp [Fabric.store,Fabric.find]

theorem findStoreOther (f : Fabric) {id other : RequestId} (rs : RequestState) (different : other ≠ id) :
    (f.store id rs).find other = f.find other := by
  simp [Fabric.store,Fabric.find,AList.lookup_insert_ne different]

theorem pushEventFound {f : Fabric} {other : RequestId} (rs : RequestState) (found : f.find other = some rs)
    (now : UInt64) (id : RequestId) (type detail json : String) :
    ∃ events, (f.pushEvent now id type detail json).find other = some { rs with events := events } := by
  unfold Fabric.pushEvent
  dsimp only
  split
  · rename_i held present
    by_cases same : other = id
    · subst other
      have equal : held = rs := Option.some.inj (present.symm.trans found)
      subst held
      exact ⟨_,findStoreSelf _ _ _⟩
    · exact ⟨rs.events,by rw [findStoreOther _ _ same]; exact found⟩
  · exact ⟨rs.events,found⟩

theorem pushEventMissing {f : Fabric} {other : RequestId} (missing : f.find other = none)
    (now : UInt64) (id : RequestId) (type detail json : String) :
    (f.pushEvent now id type detail json).find other = none := by
  unfold Fabric.pushEvent
  dsimp only
  split
  · rename_i held present
    have different : other ≠ id := by
      rintro rfl
      exact Option.some_ne_none _ (present.symm.trans missing)
    rw [findStoreOther _ _ different]
    exact missing
  · exact missing

theorem updateSelf (f : Fabric) (now : UInt64) (id : RequestId) (rs : RequestState) (stats : Stats)
    (type detail : String) :
    ∃ events, (f.update now id rs stats type detail).find id = some { rs with events := events } :=
  pushEventFound rs (by exact findStoreSelf f id rs) now id type detail _

theorem updateOther {f : Fabric} {id target : RequestId} {held : RequestState} (found : f.find id = some held)
    (different : id ≠ target) (now : UInt64) (rs : RequestState) (stats : Stats) (type detail : String) :
    ∃ events, (f.update now target rs stats type detail).find id = some { held with events := events } :=
  pushEventFound held (by exact (findStoreOther f rs different).trans found) now target type detail _

/- Settlement advanced the record by the first `count` tokens of a candidate. A full
rejection is the case `count = 0`; it alone leaves `authStateGen` unwritten. -/
structure Advanced (rs : RequestState) (proposed : List BranchResult) (keep : BranchId)
    (candidate : CandidateSequence) (prop : Proposal) (count : UInt32) (rs' : RequestState) : Prop where
  inside : count.toNat ≤ candidate.size
  committed : rs'.committed = rs.committed ++ (candidate.tokens.take count.toNat).map Token.id
  authGen : rs'.authGen = ⟨rs.authGen.value + count.toUInt64⟩
  authState : rs'.authState = { rs.authState with generation := ⟨rs.authState.generation.value + count.toUInt64⟩ }
  authStateGen : rs'.authStateGen = rs'.authState.generation ∨
    rs'.authStateGen = rs.authStateGen ∧ rs'.authState = rs.authState
  proposals : rs'.proposals = rs.proposals ++ [prop]
  branches : rs'.branches = (proposed.foldl (recordBranch { rs with authGen := rs'.authGen } keep) (rs.branches,0)).1
  reservations : rs'.reservations = rs.reservations.map release
  req : rs'.req = rs.req
  attempt : rs'.attempt = rs.attempt
  epoch : rs'.epoch = rs.epoch
  flags : rs'.cancelled = rs.cancelled ∧ rs'.terminal = rs.terminal
  retryCount : rs'.retryCount = rs.retryCount

theorem Advanced.concluded {rs proposed keep candidate prop count mid} {before after : SpeculativeStateMachine}
    {cycles : UInt32} {events : List Event}
    (advanced : Advanced { rs with cycle := before } proposed keep candidate prop count mid) :
    Advanced rs proposed keep candidate prop count
      { mid with cycle := after, completedCycles := cycles, events := events } := by
  have recorded : recordBranch { rs with cycle := before, authGen := mid.authGen } keep =
      recordBranch { rs with authGen := mid.authGen } keep := rfl
  constructor
  · exact advanced.inside
  · exact advanced.committed
  · exact advanced.authGen
  · exact advanced.authState
  · exact advanced.authStateGen
  · exact advanced.proposals
  · rw [← recorded]
    exact advanced.branches
  · exact advanced.reservations
  · exact advanced.req
  · exact advanced.attempt
  · exact advanced.epoch
  · exact advanced.flags
  · exact advanced.retryCount

theorem settleAcceptedAdvanced {rs proposed keep candidate prop outcome event kind count rejected o rs'}
    (ok : settleAccepted rs proposed keep candidate prop outcome event kind count rejected = some (o,rs')) :
    Advanced rs proposed keep candidate prop count rs' ∧ rs'.completedCycles = rs.completedCycles ∧
    o.outcome = kind ∧ o.branch = outcome.branch := by
  simp only [settleAccepted,readTokens,bind,Option.bind_eq_some_iff] at ok
  obtain ⟨tokens,read,last⟩ := ok
  split at read <;> try contradiction
  rename_i inside
  cases Option.some.inj read
  cases Option.some.inj last
  refine ⟨⟨inside,rfl,rfl,rfl,.inl rfl,rfl,rfl,rfl,rfl,rfl,rfl,⟨rfl,rfl⟩,rfl⟩,rfl,rfl,?_⟩
  dsimp only [CycleOutcome.withPhase]
  split <;> rfl

structure AcceptedAs (rs : RequestState) (proposed : List BranchResult) (keep : BranchId) (outcome : CycleOutcome)
    (event : SpeculationEvent) (count rejected : UInt32) (o : CycleOutcome) (rs' : RequestState) : Prop where
  events : rs'.events = rs.events
  cycle : rs'.cycle = rs.cycle.applyAll [event,.commit]
  retiredBranches : o.rollback.retiredBranches =
    (proposed.foldl (recordBranch { rs with authGen := rs'.authGen } keep) (rs.branches,0)).2.toUInt32
  acceptedTokens : o.acceptedTokens = count
  rejectedTokens : o.rejectedTokens = rejected
  proposedTokens : o.proposedTokens = outcome.proposedTokens

theorem phaseTokens (outcome : CycleOutcome) (answer : Result SpeculativePhase) :
    (outcome.withPhase answer).proposedTokens = outcome.proposedTokens := by
  cases answer <;> rfl

theorem settleAcceptedAs {rs proposed keep candidate prop outcome event kind count rejected o rs'}
    (ok : settleAccepted rs proposed keep candidate prop outcome event kind count rejected = some (o,rs')) :
    AcceptedAs rs proposed keep outcome event count rejected o rs' := by
  simp only [settleAccepted,bind,Option.bind_eq_some_iff] at ok
  obtain ⟨tokens,_,last⟩ := ok
  cases Option.some.inj last
  exact ⟨rfl,rfl,rfl,rfl,rfl,phaseTokens _ _⟩

theorem settleRejectedAdvanced (rs : RequestState) (proposed : List BranchResult) (keep : BranchId)
    (candidate : CandidateSequence) (prop : Proposal) (outcome : CycleOutcome) (rejected len : UInt32) :
    Advanced rs proposed keep candidate prop 0 (settleRejected rs proposed keep prop outcome 0 rejected len).2 := by
  refine ⟨by simp,by simp [settleRejected,retireOthers],?_,?_,.inr ⟨rfl,rfl⟩,rfl,rfl,rfl,rfl,rfl,rfl,⟨rfl,rfl⟩,rfl⟩
  · simp [settleRejected,retireOthers]
  · simp [settleRejected,retireOthers]

inductive SettledKind : CycleOutcomeKind → Prop where
  | full : SettledKind .verificationSuccessFullAccept
  | part : SettledKind .verificationSuccessPartialAccept
  | none : SettledKind .verificationRejectAll

theorem settleBranchCases {rs proposed keep candidate prop outcome count rejected len o rs'}
    (ok : settleBranch rs proposed keep candidate prop outcome count rejected len = some (o,rs')) :
    (count = len ∧ settleAccepted rs proposed keep candidate prop outcome .acceptFull .verificationSuccessFullAccept
      count 0 = some (o,rs')) ∨
    (count ≠ len ∧ count > 0 ∧ settleAccepted rs proposed keep candidate prop outcome .acceptPartial
      .verificationSuccessPartialAccept count rejected = some (o,rs')) ∨
    (count ≠ len ∧ count = 0 ∧ settleRejected rs proposed keep prop outcome count rejected len = (o,rs')) := by
  unfold settleBranch at ok
  split at ok
  · rename_i full
    exact .inl ⟨full,ok⟩
  · rename_i short
    split at ok
    · rename_i positive
      exact .inr (.inl ⟨short,positive,ok⟩)
    · rename_i nonpositive
      have zero : count = 0 := by
        by_contra nonzero
        exact nonpositive (UInt32.pos_iff_ne_zero.mpr nonzero)
      exact .inr (.inr ⟨short,zero,Option.some.inj ok⟩)

theorem settleBranchAdvanced {rs proposed keep candidate prop outcome count rejected len o rs'}
    (ok : settleBranch rs proposed keep candidate prop outcome count rejected len = some (o,rs')) :
    Advanced rs proposed keep candidate prop count rs' ∧ rs'.completedCycles = rs.completedCycles ∧
    SettledKind o.outcome ∧ o.branch = outcome.branch := by
  rcases settleBranchCases ok with ⟨_,taken⟩ | ⟨_,_,taken⟩ | ⟨_,rfl,refused⟩
  · obtain ⟨advanced,cycles,kind,branch⟩ := settleAcceptedAdvanced taken
    exact ⟨advanced,cycles,kind ▸ .full,branch⟩
  · obtain ⟨advanced,cycles,kind,branch⟩ := settleAcceptedAdvanced taken
    exact ⟨advanced,cycles,kind ▸ .part,branch⟩
  · cases refused
    refine ⟨settleRejectedAdvanced rs proposed keep candidate prop outcome rejected len,rfl,.none,?_⟩
    dsimp only [settleRejected,CycleOutcome.withPhase]
    split <;> rfl

structure Settled (c : Cycle) (rs : RequestState) (won : BranchResult) (accept : AcceptanceResult)
    (candidate : CandidateSequence) (rs' : RequestState) : Prop where
  live : rs.terminal = false ∧ rs.cancelled = false
  winner : c.proposed[selectWinner c.accepted c.proposed]? = some won
  acceptance : c.accepted[selectWinner c.accepted c.proposed]? = some accept
  produced : won.pr.candidate = some candidate
  advanced : Advanced rs c.proposed won.branch candidate
    (settledProposal rs c.request won.branch won.pr candidate accept.acceptedPrefix) accept.acceptedPrefix rs'
  completedCycles : rs'.completedCycles = rs.completedCycles + 1
  cycle : rs'.cycle = ⟨.ready⟩

inductive Settlement (f : Fabric) (c : Cycle) : Result CycleOutcome → Fabric → Prop where
  | missing (absent : f.find c.request = none) :
      Settlement f c (Result.err .notFound "unknown request") f
  | stale {rs o f'} (found : f.find c.request = some rs) (closed : rs.terminal = true ∨ rs.cancelled = true)
      (kind : o.outcome = .staleAuthorityRejected)
      (kept : ∃ events, f'.find c.request = some { rs with events := events }) :
      Settlement f c (.ok o) f'
  | settled {rs o f' won accept candidate rs'} (found : f.find c.request = some rs)
      (facts : Settled c rs won accept candidate rs') (kind : SettledKind o.outcome)
      (branch : o.branch = won.branch) (stored : f'.find c.request = some rs') :
      Settlement f c (.ok o) f'

theorem concludeFound (f : Fabric) (now : UInt64) (id : RequestId) (rs : RequestState) (kind : CycleOutcomeKind)
    (len count rejected : UInt32) :
    ∃ events, (f.conclude now id rs kind len count rejected).find id =
      some { rs with cycle := ⟨.ready⟩, completedCycles := rs.completedCycles + 1, events := events } :=
  updateSelf _ now id { rs with cycle := ⟨.ready⟩, completedCycles := rs.completedCycles + 1 } _ _ _

theorem settlement {f f' : Fabric} {now : UInt64} {c : Cycle} {answer : Result CycleOutcome}
    (ok : f.settle now c = some (answer,f')) : Settlement f c answer f' := by
  unfold Fabric.settle at ok
  cases found : f.find c.request with
  | none =>
      simp only [found] at ok
      cases Option.some.inj ok
      exact .missing found
  | some rs =>
      simp only [found] at ok
      split at ok
      · rename_i closed
        cases Option.some.inj ok
        refine .stale found (by simpa using closed) rfl ?_
        exact pushEventFound rs (by exact found) now c.request _ _ _
      · rename_i opened
        have live : rs.terminal = false ∧ rs.cancelled = false := by simpa using opened
        simp only [bind,Option.bind_eq_some_iff] at ok
        obtain ⟨won,winner,accept,acceptance,candidate,produced,⟨o,mid⟩,branch,last⟩ := ok
        cases Option.some.inj last
        obtain ⟨advanced,cycles,kind,same⟩ := settleBranchAdvanced branch
        obtain ⟨events,stored⟩ := concludeFound f now c.request mid o.outcome (UInt32.ofNat candidate.size)
          accept.acceptedPrefix (UInt32.ofNat candidate.size - accept.acceptedPrefix)
        refine .settled found ⟨live,winner,acceptance,produced,advanced.concluded,?_,rfl⟩ kind same stored
        simp only [cycles]

theorem entryFound {f : Fabric} {id : RequestId} {rs : RequestState} (found : f.find id = some rs) :
    f.entry id = (rs,f) := by
  simp only [Fabric.entry,found]

theorem entryKeeps {f : Fabric} {id : RequestId} {rs : RequestState} (found : f.find id = some rs)
    (other : RequestId) : (f.entry other).2.find id = some rs := by
  cases held : f.find other with
  | some present => rw [entryFound held]; exact found
  | none =>
      have different : id ≠ other := by
        rintro rfl
        exact Option.some_ne_none _ (found.symm.trans held)
      simp only [Fabric.entry,held]
      rw [findStoreOther f _ different]
      exact found

inductive Effect (s : System) (id : RequestId) : Action → RequestState → RequestState → Prop where
  | noted (a rs events) : Effect s id a rs { rs with events := events }
  | resubmitted {now req rs} (events) (same : req.id = id) (null : rs.req.id.isNull = true) :
      Effect s id (.submit now req) rs { rs.admitted s.fabric.epoch req with events := events }
  | cancelled {now why rs} (events) (live : rs.terminal = false ∧ rs.cancelled = false) :
      Effect s id (.cancel now id why) rs { rs.withdrawn with events := events }
  | completed {now rs} (events) : Effect s id (.complete now id) rs { rs.finished with events := events }
  | rolledBack {now why rs} (events) :
      Effect s id (.rollback now id why) rs { rs.rolledBack with events := events }
  | retried {now rs} (events) (live : rs.terminal = false ∧ rs.cancelled = false)
      (below : ¬ (rs.req.maxAttempts ≠ 0 ∧ rs.retryCount ≥ rs.req.maxAttempts)) :
      Effect s id (.retry now id) rs { rs.retried with events := events }
  | planned {now eventNow rs} (machine events) (live : rs.terminal = false ∧ rs.cancelled = false) :
      Effect s id (.runCycle now eventNow id) rs { rs with cycle := machine, events := events }
  | settled {index now c rs won accept candidate rs'} (call : s.calls[index]? = some (.settling c))
      (same : c.request = id) (facts : Settled c rs won accept candidate rs') :
      Effect s id (.call index (.settle now)) rs rs'

section operations
variable {s : System} {id : RequestId} {rs : RequestState}

theorem updateEffect {a : Action} {f : Fabric} (kept : f.find id = some rs) (target : RequestId) (r : RequestState)
    (now : UInt64) (stats : Stats) (type detail : String)
    (named : id = target → ∀ events, Effect s id a rs { r with events := events }) :
    ∃ rs', (f.update now target r stats type detail).find id = some rs' ∧ Effect s id a rs rs' := by
  by_cases same : id = target
  · obtain ⟨events,stored⟩ := updateSelf f now target r stats type detail
    exact ⟨_,same ▸ stored,named same events⟩
  · obtain ⟨events,stored⟩ := updateOther kept same now r stats type detail
    exact ⟨_,stored,.noted a rs events⟩

theorem submitEffect (found : s.fabric.find id = some rs) (now : UInt64) (req : SpeculationRequest) :
    ∃ rs', (s.fabric.submit now req).2.find id = some rs' ∧ Effect s id (.submit now req) rs rs' := by
  unfold Fabric.submit
  dsimp only
  split
  · exact ⟨rs,entryKeeps found req.id,.noted _ rs rs.events⟩
  · rename_i null
    refine updateEffect (entryKeeps found req.id) req.id _ now _ _ _ (fun same events => ?_)
    subst id
    rw [entryFound found] at null ⊢
    exact .resubmitted events rfl (by simpa using null)

theorem cancelEffect (found : s.fabric.find id = some rs) (now : UInt64) (target : RequestId) (why : String) :
    ∃ rs', (s.fabric.cancel now target why).2.find id = some rs' ∧ Effect s id (.cancel now target why) rs rs' := by
  unfold Fabric.cancel
  split
  · exact ⟨rs,found,.noted _ rs rs.events⟩
  · rename_i held present
    split
    · exact ⟨rs,found,.noted _ rs rs.events⟩
    · rename_i uncancelled
      split
      · exact ⟨rs,found,.noted _ rs rs.events⟩
      · rename_i unfinished
        refine updateEffect found target _ now _ _ _ (fun same events => ?_)
        subst id
        cases Option.some.inj (found.symm.trans present)
        exact .cancelled events ⟨by simpa using unfinished,by simpa using uncancelled⟩

theorem completeEffect (found : s.fabric.find id = some rs) (now : UInt64) (target : RequestId) :
    ∃ rs', (s.fabric.complete now target).2.find id = some rs' ∧ Effect s id (.complete now target) rs rs' := by
  unfold Fabric.complete
  split
  · exact ⟨rs,found,.noted _ rs rs.events⟩
  · rename_i held present
    refine updateEffect found target _ now _ _ _ (fun same events => ?_)
    subst id
    cases Option.some.inj (found.symm.trans present)
    exact .completed events

theorem rollbackEffect (found : s.fabric.find id = some rs) (now : UInt64) (target : RequestId) (why : String) :
    ∃ rs', (s.fabric.rollback now target why).2.find id = some rs' ∧ Effect s id (.rollback now target why) rs rs' := by
  unfold Fabric.rollback
  split
  · exact ⟨rs,found,.noted _ rs rs.events⟩
  · rename_i held present
    refine updateEffect found target _ now _ _ _ (fun same events => ?_)
    subst id
    cases Option.some.inj (found.symm.trans present)
    exact .rolledBack events

theorem retryEffect (found : s.fabric.find id = some rs) (now : UInt64) (target : RequestId) :
    ∃ rs', (s.fabric.retry now target).2.find id = some rs' ∧ Effect s id (.retry now target) rs rs' := by
  unfold Fabric.retry
  split
  · exact ⟨rs,found,.noted _ rs rs.events⟩
  · rename_i held present
    split
    · exact ⟨rs,found,.noted _ rs rs.events⟩
    · rename_i below
      split
      · exact ⟨rs,found,.noted _ rs rs.events⟩
      · rename_i unfinished
        refine updateEffect found target _ now _ _ _ (fun same events => ?_)
        subst id
        cases Option.some.inj (found.symm.trans present)
        exact .retried events (by simpa using unfinished) below

theorem admitEffect (found : s.fabric.find id = some rs) (now eventNow : UInt64) {target : RequestId}
    {held : RequestState} (present : s.fabric.find target = some held)
    (live : held.terminal = false ∧ held.cancelled = false) (start : SpeculativeStateMachine) :
    ∃ rs', (s.fabric.admitCycle eventNow target { held with cycle := start }).2.find id = some rs' ∧
      Effect s id (.runCycle now eventNow target) rs rs' := by
  have moved : ∀ machine events, id = target →
      Effect s id (.runCycle now eventNow target) rs { held with cycle := machine, events := events } := by
    intro machine events same
    subst id
    cases Option.some.inj (found.symm.trans present)
    exact .planned machine events live
  have stored : ∀ machine, ∃ rs', (s.fabric.store target { held with cycle := machine }).find id = some rs' ∧
      Effect s id (.runCycle now eventNow target) rs rs' := by
    intro machine
    by_cases same : id = target
    · exact ⟨_,same ▸ findStoreSelf _ _ _,moved machine held.events same⟩
    · exact ⟨rs,(findStoreOther _ _ same).trans found,.noted _ rs rs.events⟩
  unfold Fabric.admitCycle
  dsimp only
  split
  · exact updateEffect found target _ eventNow _ _ _ (fun same events => moved _ events same)
  · split
    · exact updateEffect found target _ eventNow _ _ _ (fun same events => moved _ events same)
    · split
      · exact stored _
      · exact stored _

theorem planEffect (found : s.fabric.find id = some rs) (now eventNow : UInt64) (target : RequestId) :
    ∃ rs', (s.fabric.planCycle now eventNow target).2.find id = some rs' ∧
      Effect s id (.runCycle now eventNow target) rs rs' := by
  unfold Fabric.planCycle
  split
  · exact ⟨rs,found,.noted _ rs rs.events⟩
  · rename_i held present
    split
    · exact ⟨rs,found,.noted _ rs rs.events⟩
    · rename_i unfinished
      split
      · exact ⟨rs,found,.noted _ rs rs.events⟩
      · rename_i uncancelled
        split
        · obtain ⟨events,stored⟩ := pushEventFound rs found eventNow target
            "cycle.expired" "deadline passed" "\x7b\x7d"
          exact ⟨_,stored,.noted _ rs events⟩
        · exact admitEffect found now eventNow present ⟨by simpa using unfinished,by simpa using uncancelled⟩ _

end operations

theorem settleOther {f f' : Fabric} {now : UInt64} {c : Cycle} {answer : Result CycleOutcome} {id : RequestId}
    {rs : RequestState} (ok : f.settle now c = some (answer,f')) (found : f.find id = some rs)
    (different : id ≠ c.request) : ∃ events, f'.find id = some { rs with events := events } := by
  unfold Fabric.settle at ok
  split at ok
  · cases Option.some.inj ok
    exact ⟨rs.events,found⟩
  · split at ok
    · cases Option.some.inj ok
      exact pushEventFound rs (by exact found) now c.request _ _ _
    · simp only [bind,Option.bind_eq_some_iff] at ok
      obtain ⟨won,_,accept,_,candidate,_,⟨o,mid⟩,_,last⟩ := ok
      cases Option.some.inj last
      exact updateOther (by exact found) different now _ _ _ _

theorem settleEffect {s : System} {id : RequestId} {rs : RequestState} {index : Nat} {c : Cycle} {now : UInt64}
    {answer : Result CycleOutcome} {f' : Fabric} (found : s.fabric.find id = some rs)
    (call : s.calls[index]? = some (.settling c)) (ok : s.fabric.settle now c = some (answer,f')) :
    ∃ rs', f'.find id = some rs' ∧ Effect s id (.call index (.settle now)) rs rs' := by
  by_cases same : c.request = id
  · subst id
    cases settlement ok with
    | missing absent => exact absurd (found.symm.trans absent) (Option.some_ne_none _)
    | stale present closed kind kept =>
        cases Option.some.inj (found.symm.trans present)
        obtain ⟨events,stored⟩ := kept
        exact ⟨_,stored,.noted _ rs events⟩
    | settled present facts kind branch stored =>
        cases Option.some.inj (found.symm.trans present)
        exact ⟨_,stored,.settled call rfl facts⟩
  · obtain ⟨events,stored⟩ := settleOther ok found (Ne.symm same)
    exact ⟨_,stored,.noted _ rs events⟩

theorem callEffect {s : System} {id : RequestId} {rs : RequestState} {index : Nat} {call next : Call}
    {action : CallAction} {f' : Fabric} (found : s.fabric.find id = some rs)
    (present : s.calls[index]? = some call) (taken : call.step s.fabric action = some (next,f')) :
    ∃ rs', f'.find id = some rs' ∧ Effect s id (.call index action) rs rs' := by
  cases callStep taken with
  | asks c => exact ⟨rs,entryKeeps found _,.noted _ rs rs.events⟩
  | sends at_ produced => exact ⟨rs,entryKeeps found _,.noted _ rs rs.events⟩
  | finds at_ absent => exact ⟨rs,entryKeeps found _,.noted _ rs rs.events⟩
  | settles settled => exact settleEffect found present settled
  | _ => exact ⟨rs,found,.noted _ rs rs.events⟩

theorem stepEffect {s s' : System} {a : Action} {id : RequestId} {rs : RequestState}
    (taken : s.step a = some s') (found : s.fabric.find id = some rs) :
    ∃ rs', s'.fabric.find id = some rs' ∧ Effect s id a rs rs' := by
  cases a with
  | submit now req => cases Option.some.inj taken; exact submitEffect found now req
  | cancel now target why => cases Option.some.inj taken; exact cancelEffect found now target why
  | complete now target => cases Option.some.inj taken; exact completeEffect found now target
  | rollback now target why => cases Option.some.inj taken; exact rollbackEffect found now target why
  | retry now target => cases Option.some.inj taken; exact retryEffect found now target
  | rollEpoch => cases Option.some.inj taken; exact ⟨rs,found,.noted _ rs rs.events⟩
  | emitEvent now target type detail json =>
      cases Option.some.inj taken
      obtain ⟨events,stored⟩ := pushEventFound rs found now target type detail json
      exact ⟨_,stored,.noted _ rs events⟩
  | runCycle now eventNow target => cases Option.some.inj taken; exact planEffect found now eventNow target
  | call index action =>
      obtain ⟨call,next,f',present,moved,rfl⟩ := callMoved taken
      exact callEffect found present moved

end SpeculationFabric
