import SpeculationFabric.CallFacts

/-! Every hold of the lock as a decision about one record and one write. The decision
reads the record, the epoch, the registered executors and the scheduler; the write
stores the record, adds to the statistics, records a ratio and notes an event. Later
modules compare writes and never unfold an operation again. -/
namespace SpeculationFabric

attribute [ext] Stats

instance : Zero Stats := ⟨{}⟩

@[simps] instance : Add Stats := ⟨fun a b => {
  requestsEligibleForSpeculation := a.requestsEligibleForSpeculation + b.requestsEligibleForSpeculation
  speculativeCyclesStarted := a.speculativeCyclesStarted + b.speculativeCyclesStarted
  speculationBypasses := a.speculationBypasses + b.speculationBypasses
  proposalsProduced := a.proposalsProduced + b.proposalsProduced
  proposalsRejectedStale := a.proposalsRejectedStale + b.proposalsRejectedStale
  verificationsRun := a.verificationsRun + b.verificationsRun
  tokensProposed := a.tokensProposed + b.tokensProposed
  tokensAccepted := a.tokensAccepted + b.tokensAccepted
  tokensRejected := a.tokensRejected + b.tokensRejected
  fullAcceptCount := a.fullAcceptCount + b.fullAcceptCount
  partialAcceptCount := a.partialAcceptCount + b.partialAcceptCount
  fullRejectCount := a.fullRejectCount + b.fullRejectCount
  rollbackCount := a.rollbackCount + b.rollbackCount
  retryCount := a.retryCount + b.retryCount
  cancelCount := a.cancelCount + b.cancelCount
  staleRejectionsByEpoch := a.staleRejectionsByEpoch + b.staleRejectionsByEpoch
  staleRejectionsByBoot := a.staleRejectionsByBoot + b.staleRejectionsByBoot
  staleRejectionsByAttempt := a.staleRejectionsByAttempt + b.staleRejectionsByAttempt
  staleRejectionsByGeneration := a.staleRejectionsByGeneration + b.staleRejectionsByGeneration }⟩

instance : AddCommMonoid Stats where
  add_assoc a b c := by ext1 <;> exact UInt64.add_assoc _ _ _
  zero_add a := by ext1 <;> exact UInt64.zero_add _
  add_zero a := by ext1 <;> exact UInt64.add_zero _
  add_comm a b := by ext1 <;> exact UInt64.add_comm _ _
  nsmul := nsmulRec

structure Note where
  type : String
  detail : String
  json : String := "\x7b\x7d"
  deriving DecidableEq, Repr

structure Write where
  record : Option RequestState := none
  counts : Stats := {}
  ratio : Option Float := none
  note : Option Note := none
  deriving DecidableEq, Repr

def Fabric.keep (f : Fabric) (id : RequestId) : Option RequestState → Fabric
  | some rs => f.store id rs
  | none => f

def Fabric.learn (f : Fabric) : Option Float → Fabric
  | some ratio => { f with scheduler := { f.scheduler with adaptive := f.scheduler.adaptive.record ratio } }
  | none => f

def Fabric.count (f : Fabric) (counts : Stats) : Fabric := { f with stats := f.stats + counts }

def Fabric.tell (f : Fabric) (now : UInt64) (id : RequestId) : Option Note → Fabric
  | some note => f.pushEvent now id note.type note.detail note.json
  | none => f

def Fabric.write (f : Fabric) (now : UInt64) (id : RequestId) (w : Write) : Fabric :=
  (((f.learn w.ratio).keep id w.record).count w.counts).tell now id w.note

theorem writeNothing (f : Fabric) (now : UInt64) (id : RequestId) : f.write now id {} = f := by
  have same : f.stats + 0 = f.stats := add_zero _
  show { f with stats := f.stats + 0 } = f
  rw [same]

theorem updateWrite {f : Fabric} (now : UInt64) (id : RequestId) (rs : RequestState) {stats : Stats} (counts : Stats)
    (type detail : String) (counted : stats = f.stats + counts) :
    f.update now id rs stats type detail =
      f.write now id { record := some rs, counts := counts, note := some { type := type, detail := detail } } := by
  subst counted
  rfl

def submitDecision (epoch : CoordinatorEpoch) (req : SpeculationRequest) (found : Option RequestState) :
    Result Unit × Write :=
  if !(found.getD {}).req.id.isNull then (Result.err .alreadyExists "request id already registered",{})
  else
    (.ok (),{
      record := some ((found.getD {}).admitted epoch req)
      counts := { requestsEligibleForSpeculation := 1 }
      note := some { type := "request.submit", detail := "request admitted" } })

def cancelDecision (why : String) : Option RequestState → Result Unit × Write
  | none => (Result.err .notFound "unknown request",{})
  | some rs =>
    if rs.cancelled then (.ok (),{})
    else if rs.terminal then (Result.err .alreadyTerminal "request already terminal",{})
    else
      (.ok (),{
        record := some rs.withdrawn
        counts := { cancelCount := 1 }
        note := some { type := "request.cancel", detail := why } })

def completeDecision : Option RequestState → Result Unit × Write
  | none => (Result.err .notFound "unknown request",{})
  | some rs =>
    (.ok (),{ record := some rs.finished, note := some { type := "request.complete", detail := "request terminal" } })

def rollbackDecision (why : String) : Option RequestState → Result RollbackResult × Write
  | none => (Result.err .notFound "unknown request",{})
  | some rs =>
    (.ok (rollbackResult rs why),{
      record := some rs.rolledBack
      counts := { rollbackCount := 1 }
      note := some { type := "request.rollback", detail := why } })

def retryDecision : Option RequestState → Result AttemptId × Write
  | none => (Result.err .notFound "unknown request",{})
  | some rs =>
    if rs.req.maxAttempts ≠ 0 ∧ rs.retryCount ≥ rs.req.maxAttempts then
      (Result.err .retryableFailure "retry limit reached",{})
    else if rs.terminal || rs.cancelled then (Result.err .invalidState "cannot retry a terminal request",{})
    else
      (.ok rs.retried.attempt,{
        record := some rs.retried
        counts := { retryCount := 1 }
        note := some { type := "request.retry", detail := "new attempt " ++ rs.retried.attempt.str } })

def pressure (scheduler : SpeculationScheduler) (ratio : Float) (rs : RequestState) : BackpressureDecision :=
  scheduler.checkBackpressure rs.req (UInt32.ofNat rs.branches.length) (UInt32.ofNat rs.proposals.length)
    (if activeReservationBytes rs ≠ 0 then 0 else 1) ratio

def admitDecision (cfg : Config) (scheduler : SpeculationScheduler) (ratio : Float) (rs : RequestState) :
    (Result CycleOutcome ⊕ Planned) × Write :=
  if !(pairDecision rs).compatible then
    (.inl (.ok {
      outcome := .proposalNonRetryableFailure
      error := .incompatibleModelPair
      summary := incompatibleSummary (pairDecision rs) }),{
      record := some rs
      note := some { type := "cycle.incompatible", detail := incompatibleSummary (pairDecision rs) } })
  else if (pressure scheduler ratio rs).blocked then
    (.inl (.ok {
      outcome := .proposalNonRetryableFailure
      summary := "bypassed: " ++ (pressure scheduler ratio rs).detail }),{
      record := some rs
      counts := { speculationBypasses := 1 }
      note := some { type := "cycle.bypass", detail := (pressure scheduler ratio rs).detail } })
  else if !cfg.proposer || !cfg.verifier then
    (.inl (.ok {
      outcome := .proposalNonRetryableFailure
      error := .notImplemented
      summary := "no proposer/verifier executor registered" }),{ record := some rs })
  else
    let plan := scheduler.planProposal rs.req rs.authGen 0 0 0.0
    (.inr ⟨plan,max 1 plan.depth,max 1 plan.branchCount⟩,{
      record := some { rs with cycle := rs.cycle.applyAll [.planProposal,.reserveProposal,.dispatchProposal] } })

def planDecision (cfg : Config) (scheduler : SpeculationScheduler) (ratio : Float) (now : UInt64) :
    Option RequestState → (Result CycleOutcome ⊕ Planned) × Write
  | none => (.inl (Result.err .notFound "unknown request"),{})
  | some rs =>
    if rs.terminal then (.inl (.ok { outcome := .superseded, phase := .superseded }),{})
    else if rs.cancelled then (.inl (.ok { outcome := .cancelled, phase := .cancelled }),{})
    else if deadlinePassed rs now then
      (.inl (.ok { outcome := .expired, phase := .expired }),{
        note := some { type := "cycle.expired", detail := "deadline passed" } })
    else admitDecision cfg scheduler ratio rs.refreshed

def settledCounts (kind : CycleOutcomeKind) (candidateLen acceptedPrefix rejectedTokens : UInt32) : Stats :=
  settlementStats {} kind candidateLen acceptedPrefix rejectedTokens

def staleOutcome (rs : RequestState) : CycleOutcome :=
  { outcome := .staleAuthorityRejected
    error := if rs.terminal then .completionAfterTerminal else .completionAfterCancellation
    summary := "authority changed while speculative work was in flight" }

def settleDecision (c : Cycle) : Option RequestState → Option (Result CycleOutcome × Write)
  | none => some (Result.err .notFound "unknown request",{})
  | some rs =>
    if rs.terminal || rs.cancelled then
      some (.ok (staleOutcome rs),{
        counts := { proposalsRejectedStale := 1 }
        note := some { type := "cycle.stale", detail := "authority changed while speculative work was in flight" } })
    else do
      let winner := selectWinner c.accepted c.proposed
      let won ← c.proposed[winner]?
      let accept ← c.accepted[winner]?
      let candidate ← won.pr.candidate
      let candidateLen := UInt32.ofNat candidate.size
      let acceptedPrefix := accept.acceptedPrefix
      let rejectedTokens := candidateLen - acceptedPrefix
      let prop := settledProposal rs c.request won.branch won.pr candidate acceptedPrefix
      let outcome : CycleOutcome := {
        proposal := prop.id
        branch := won.branch
        depth := c.planned.depth
        proposedTokens := candidateLen }
      let rs := { rs with cycle := rs.cycle.applyAll [.proposalFinished,.planVerification,
        .reserveVerification,.dispatchVerification,.verificationFinished] }
      let (outcome,rs) ← settleBranch rs c.proposed won.branch candidate prop outcome
        acceptedPrefix rejectedTokens candidateLen
      some (.ok outcome,{
        record := some { rs with cycle := ⟨.ready⟩, completedCycles := rs.completedCycles + 1 }
        counts := settledCounts outcome.outcome candidateLen acceptedPrefix rejectedTokens
        ratio := some (acceptedRatio acceptedPrefix candidateLen)
        note := some { type := "cycle.completed", detail := settlementDetail outcome.outcome } })

theorem settlementAdds (s : Stats) (kind : CycleOutcomeKind) (candidateLen acceptedPrefix rejectedTokens : UInt32) :
    settlementStats s kind candidateLen acceptedPrefix rejectedTokens =
      s + settledCounts kind candidateLen acceptedPrefix rejectedTokens := by
  unfold settledCounts settlementStats settlementCounts
  split <;> ext1 <;> simp

section equations
variable (f : Fabric) (now : UInt64)

theorem writeReplaces (id : RequestId) (old rs : RequestState) (counts : Stats) (note : Option Note) :
    (f.store id old).write now id { record := some rs, counts := counts, note := note } =
      f.write now id { record := some rs, counts := counts, note := note } := by
  have twice : (f.store id old).store id rs = f.store id rs := by
    simp only [Fabric.store,AList.insert_insert]
  simp only [Fabric.write,Fabric.learn,Fabric.keep,twice]

theorem submitSection (req : SpeculationRequest) :
    f.submit now req = ((submitDecision f.epoch req (f.find req.id)).1,
      f.write now req.id (submitDecision f.epoch req (f.find req.id)).2) := by
  have counted : ∀ s : Stats, { s with requestsEligibleForSpeculation := s.requestsEligibleForSpeculation + 1 } =
      s + { requestsEligibleForSpeculation := 1 } := by
    intro s
    ext1 <;> simp
  unfold Fabric.submit Fabric.entry submitDecision
  cases found : f.find req.id with
  | none =>
      have fresh : (({} : RequestState).req.id.isNull) = true := rfl
      simp only [Option.getD_none,fresh,Bool.not_true,Bool.false_eq_true,if_false]
      rw [updateWrite now req.id _ _ _ _ (counted _),writeReplaces]
      rfl
  | some rs =>
      simp only [Option.getD_some]
      split
      · rw [writeNothing]
      · rw [updateWrite now req.id _ _ _ _ (counted _)]

theorem cancelSection (id : RequestId) (why : String) :
    f.cancel now id why = ((cancelDecision why (f.find id)).1,f.write now id (cancelDecision why (f.find id)).2) := by
  unfold Fabric.cancel cancelDecision
  cases f.find id with
  | none => simp only [writeNothing]
  | some rs =>
      dsimp only
      split
      · rw [writeNothing]
      · split
        · rw [writeNothing]
        · rw [updateWrite now id _ { cancelCount := 1 } _ _ (by ext1 <;> simp)]

theorem completeSection (id : RequestId) :
    f.complete now id = ((completeDecision (f.find id)).1,f.write now id (completeDecision (f.find id)).2) := by
  unfold Fabric.complete completeDecision
  cases f.find id with
  | none => simp only [writeNothing]
  | some rs => simp only [updateWrite now id rs.finished {} _ _ (add_zero f.stats).symm]

theorem rollbackSection (id : RequestId) (why : String) :
    f.rollback now id why =
      ((rollbackDecision why (f.find id)).1,f.write now id (rollbackDecision why (f.find id)).2) := by
  unfold Fabric.rollback rollbackDecision
  cases f.find id with
  | none => simp only [writeNothing]
  | some rs =>
      dsimp only
      rw [updateWrite now id _ { rollbackCount := 1 } _ _ (by ext1 <;> simp)]
      rfl

theorem retrySection (id : RequestId) :
    f.retry now id = ((retryDecision (f.find id)).1,f.write now id (retryDecision (f.find id)).2) := by
  unfold Fabric.retry retryDecision
  cases f.find id with
  | none => simp only [writeNothing]
  | some rs =>
      dsimp only
      split
      · rw [writeNothing]
      · split
        · rw [writeNothing]
        · rw [updateWrite now id _ { retryCount := 1 } _ _ (by ext1 <;> simp)]

theorem storeWrite (id : RequestId) (rs : RequestState) : f.store id rs = f.write now id { record := some rs } := by
  have same : f.stats + 0 = f.stats := add_zero _
  show f.store id rs = { f.store id rs with stats := f.stats + 0 }
  rw [same]
  rfl

theorem noteWrite (id : RequestId) (type detail json : String) :
    f.pushEvent now id type detail json = f.write now id { note := some ⟨type,detail,json⟩ } := by
  have same : f.stats + 0 = f.stats := add_zero _
  show _ = Fabric.pushEvent { f with stats := f.stats + 0 } now id type detail json
  rw [same]

theorem admitSection (eventNow : UInt64) (id : RequestId) (rs : RequestState) :
    f.admitCycle eventNow id rs =
      ((admitDecision f.cfg f.scheduler f.stats.acceptanceRatio rs).1,
        f.write eventNow id (admitDecision f.cfg f.scheduler f.stats.acceptanceRatio rs).2) := by
  have pressed : f.backpressure rs = pressure f.scheduler f.stats.acceptanceRatio rs := rfl
  unfold Fabric.admitCycle admitDecision
  dsimp only
  rw [pressed]
  split
  · rw [updateWrite eventNow id _ {} _ _ (add_zero f.stats).symm]
  · split
    · rw [updateWrite eventNow id _ { speculationBypasses := 1 } _ _ (by ext1 <;> simp)]
    · split
      · rw [storeWrite f eventNow]
      · rw [storeWrite f eventNow]

theorem planSection (eventNow : UInt64) (id : RequestId) :
    f.planCycle now eventNow id =
      ((planDecision f.cfg f.scheduler f.stats.acceptanceRatio now (f.find id)).1,
        f.write eventNow id (planDecision f.cfg f.scheduler f.stats.acceptanceRatio now (f.find id)).2) := by
  unfold Fabric.planCycle planDecision
  cases f.find id with
  | none => simp only [writeNothing]
  | some rs =>
      dsimp only
      split
      · rw [writeNothing]
      · split
        · rw [writeNothing]
        · split
          · rw [noteWrite]
          · exact admitSection f eventNow id rs.refreshed

theorem staleWrite (id : RequestId) (rs : RequestState) :
    f.settleStale now id rs = (.ok (staleOutcome rs),f.write now id {
      counts := { proposalsRejectedStale := 1 }
      note := some { type := "cycle.stale", detail := "authority changed while speculative work was in flight" } }) := by
  have counted : { f.stats with proposalsRejectedStale := f.stats.proposalsRejectedStale + 1 } =
      f.stats + { proposalsRejectedStale := 1 } := by
    ext1 <;> simp
  unfold Fabric.settleStale
  dsimp only
  rw [counted]
  rfl

theorem concludeWrite (id : RequestId) (rs : RequestState) (kind : CycleOutcomeKind)
    (candidateLen acceptedPrefix rejectedTokens : UInt32) :
    f.conclude now id rs kind candidateLen acceptedPrefix rejectedTokens = f.write now id {
      record := some { rs with cycle := ⟨.ready⟩, completedCycles := rs.completedCycles + 1 }
      counts := settledCounts kind candidateLen acceptedPrefix rejectedTokens
      ratio := some (acceptedRatio acceptedPrefix candidateLen)
      note := some { type := "cycle.completed", detail := settlementDetail kind } } := by
  unfold Fabric.conclude
  dsimp only
  rw [settlementAdds]
  rfl

theorem settleSection (c : Cycle) :
    f.settle now c = (settleDecision c (f.find c.request)).map (fun d => (d.1,f.write now c.request d.2)) := by
  unfold Fabric.settle settleDecision
  cases f.find c.request with
  | none => simp only [Option.map_some,writeNothing]
  | some rs =>
      dsimp only
      split
      · rw [staleWrite,Option.map_some]
      · simp only [bind,Option.map_bind,concludeWrite,Function.comp_def,Option.map_some]

end equations

def Fabric.event (f : Fabric) (now : UInt64) (id : RequestId) (note : Note) : Event :=
  { id := ⟨UInt64.ofNat (f.globalEvents.length + 1)⟩
    timestampNs := now
    request := id
    type := note.type
    detail := note.detail
    json := note.json }

def RequestState.heard (rs : RequestState) : Option Event → RequestState
  | some e => { rs with events := bounded 512 (rs.events ++ [e]) }
  | none => rs

theorem heardSame (rs : RequestState) (e : Option Event) : ∃ events, rs.heard e = { rs with events := events } := by
  cases e <;> exact ⟨_,rfl⟩

section written
variable (f : Fabric) (now : UInt64) (id : RequestId) (w : Write)

theorem keepOther {id other : RequestId} (record : Option RequestState) (different : other ≠ id) :
    (f.keep id record).find other = f.find other := by
  cases record with
  | none => rfl
  | some rs => exact findStoreOther f rs different

theorem keepSelf (record : Option RequestState) : (f.keep id record).find id = record.or (f.find id) := by
  cases record with
  | none => rfl
  | some rs => exact findStoreSelf f id rs

theorem tellOther {id other : RequestId} (note : Option Note) (different : other ≠ id) :
    (f.tell now id note).find other = f.find other := by
  cases note with
  | none => rfl
  | some note =>
      unfold Fabric.tell Fabric.pushEvent
      dsimp only
      split
      · exact findStoreOther _ _ different
      · rfl

theorem tellSelf (note : Option Note) :
    (f.tell now id note).find id = (f.find id).map (fun rs => rs.heard (note.map (f.event now id))) := by
  cases note with
  | none => simp [Fabric.tell,RequestState.heard]
  | some note =>
      have same : ∀ events, Fabric.find { f with globalEvents := events } id = f.find id := fun _ => rfl
      unfold Fabric.tell Fabric.pushEvent
      dsimp only
      rw [same]
      cases found : f.find id with
      | none => exact (same _).trans found
      | some rs => exact findStoreSelf _ _ _

theorem learnFields (ratio : Option Float) : (f.learn ratio).requests = f.requests ∧ (f.learn ratio).cfg = f.cfg ∧
    (f.learn ratio).epoch = f.epoch ∧ (f.learn ratio).stats = f.stats ∧
    (f.learn ratio).globalEvents = f.globalEvents ∧ (f.learn ratio).scheduler.policy = f.scheduler.policy := by
  cases ratio <;> exact ⟨rfl,rfl,rfl,rfl,rfl,rfl⟩

theorem keepFields (record : Option RequestState) : (f.keep id record).cfg = f.cfg ∧
    (f.keep id record).epoch = f.epoch ∧ (f.keep id record).stats = f.stats ∧
    (f.keep id record).globalEvents = f.globalEvents ∧ (f.keep id record).scheduler = f.scheduler := by
  cases record <;> exact ⟨rfl,rfl,rfl,rfl,rfl⟩

theorem tellFields (note : Option Note) : (f.tell now id note).cfg = f.cfg ∧
    (f.tell now id note).epoch = f.epoch ∧ (f.tell now id note).stats = f.stats ∧
    (f.tell now id note).scheduler = f.scheduler ∧
    (f.tell now id note).globalEvents = match note with
      | some note => bounded 2000 (f.globalEvents ++ [f.event now id note])
      | none => f.globalEvents := by
  cases note with
  | none => exact ⟨rfl,rfl,rfl,rfl,rfl⟩
  | some note =>
      unfold Fabric.tell Fabric.pushEvent
      dsimp only
      split <;> exact ⟨rfl,rfl,rfl,rfl,rfl⟩

theorem writeOther {id other : RequestId} (different : other ≠ id) :
    (f.write now id w).find other = f.find other := by
  unfold Fabric.write
  rw [tellOther _ _ _ different]
  show ((f.learn w.ratio).keep id w.record).find other = f.find other
  rw [keepOther _ _ different,Fabric.find,(learnFields f w.ratio).1]
  rfl

theorem writeSelf : (f.write now id w).find id =
    (w.record.or (f.find id)).map (fun rs => rs.heard (w.note.map (f.event now id))) := by
  obtain ⟨requests,_,_,_,events,_⟩ := learnFields f w.ratio
  have kept : (((f.learn w.ratio).keep id w.record).count w.counts).find id = w.record.or (f.find id) := by
    show ((f.learn w.ratio).keep id w.record).find id = _
    rw [keepSelf,Fabric.find,requests]
    rfl
  have numbered : (((f.learn w.ratio).keep id w.record).count w.counts).event now id = f.event now id := by
    funext note
    unfold Fabric.event Fabric.count
    dsimp only
    rw [(keepFields (f.learn w.ratio) id w.record).2.2.2.1,events]
  unfold Fabric.write
  rw [tellSelf,kept,numbered]

theorem writeStats : (f.write now id w).stats = f.stats + w.counts := by
  unfold Fabric.write
  rw [(tellFields _ now id w.note).2.2.1]
  show ((f.learn w.ratio).keep id w.record).stats + w.counts = _
  rw [(keepFields _ id w.record).2.2.1,(learnFields f w.ratio).2.2.2.1]

theorem writeEvents : (f.write now id w).globalEvents = match w.note with
    | some note => bounded 2000 (f.globalEvents ++ [f.event now id note])
    | none => f.globalEvents := by
  have before : (((f.learn w.ratio).keep id w.record).count w.counts).globalEvents = f.globalEvents := by
    show ((f.learn w.ratio).keep id w.record).globalEvents = _
    rw [(keepFields _ id w.record).2.2.2.1,(learnFields f w.ratio).2.2.2.2.1]
  unfold Fabric.write
  rw [(tellFields _ now id w.note).2.2.2.2]
  cases w.note with
  | none => exact before
  | some note =>
      unfold Fabric.event
      dsimp only
      rw [before]

theorem writeFixed : (f.write now id w).cfg = f.cfg ∧ (f.write now id w).epoch = f.epoch ∧
    (f.write now id w).scheduler.policy = f.scheduler.policy := by
  obtain ⟨_,cfg,epoch,_,_,policy⟩ := learnFields f w.ratio
  obtain ⟨cfg',epoch',_,_,scheduler⟩ := keepFields (f.learn w.ratio) id w.record
  obtain ⟨cfg'',epoch'',_,scheduler',_⟩ := tellFields (((f.learn w.ratio).keep id w.record).count w.counts) now id w.note
  unfold Fabric.write
  refine ⟨cfg''.trans (cfg'.trans cfg),epoch''.trans (epoch'.trans epoch),?_⟩
  rw [scheduler']
  show ((f.learn w.ratio).keep id w.record).scheduler.policy = _
  rw [scheduler,policy]

theorem writeLearns :
    (f.write now id w).scheduler.adaptive = match w.ratio with
      | some ratio => f.scheduler.adaptive.record ratio
      | none => f.scheduler.adaptive := by
  obtain ⟨_,_,_,_,scheduler⟩ := keepFields (f.learn w.ratio) id w.record
  obtain ⟨_,_,_,told,_⟩ := tellFields (((f.learn w.ratio).keep id w.record).count w.counts) now id w.note
  unfold Fabric.write
  rw [told]
  show ((f.learn w.ratio).keep id w.record).scheduler.adaptive = _
  rw [scheduler]
  cases w.ratio <;> rfl

end written

def System.writes (s : System) : Action → UInt64 × Write
  | .submit now req => (now,(submitDecision s.fabric.epoch req (s.fabric.find req.id)).2)
  | .cancel now id why => (now,(cancelDecision why (s.fabric.find id)).2)
  | .complete now id => (now,(completeDecision (s.fabric.find id)).2)
  | .rollback now id why => (now,(rollbackDecision why (s.fabric.find id)).2)
  | .retry now id => (now,(retryDecision (s.fabric.find id)).2)
  | .rollEpoch => (0,{})
  | .emitEvent now _ type detail json => (now,{ note := some ⟨type,detail,json⟩ })
  | .runCycle now eventNow id =>
      (eventNow,(planDecision s.fabric.cfg s.fabric.scheduler s.fabric.stats.acceptanceRatio now (s.fabric.find id)).2)
  | .call index (.settle now) =>
      match s.calls[index]? with
      | some (.settling c) => (now,((settleDecision c (s.fabric.find c.request)).map Prod.snd).getD {})
      | _ => (now,{})
  | .call _ _ => (0,{})

theorem settlementWrite (c : Cycle) (f : Fabric) (now : UInt64) :
    (c.settlementSection f now).2 =
      f.write now c.request (((settleDecision c (f.find c.request)).map Prod.snd).getD {}) := by
  unfold Cycle.settlementSection
  rw [settleSection]
  cases settleDecision c (f.find c.request) with
  | none => exact (writeNothing f now c.request).symm
  | some d => rfl

theorem callWrite {s : System} {index : Nat} {call next : Call} {action : CallAction} {f' : Fabric}
    (present : s.calls[index]? = some call) (registered : (s.fabric.find call.request).isSome)
    (taken : call.step s.fabric action = some (next,f')) :
    f' = s.fabric.write (s.writes (.call index action)).1 call.request (s.writes (.call index action)).2 := by
  obtain ⟨rs,found⟩ := Option.isSome_iff_exists.mp registered
  cases callStep taken with
  | asks c =>
      have entry : s.fabric.entry c.request = (rs,s.fabric) := entryFound found
      rw [entry]
      exact (writeNothing _ _ _).symm
  | @sends c br candidate at_ produced =>
      have entry : s.fabric.entry c.request = (rs,s.fabric) := entryFound found
      rw [entry]
      exact (writeNothing _ _ _).symm
  | @finds c br at_ absent =>
      have entry : s.fabric.entry c.request = (rs,s.fabric) := entryFound found
      rw [entry]
      exact (writeNothing _ _ _).symm
  | @settles c now answer _ settled =>
      have written := settlementWrite c s.fabric now
      simp only [Cycle.settlementSection,settled] at written
      simp only [System.writes,present]
      exact written
  | @undecided c now nothing =>
      have written := settlementWrite c s.fabric now
      simp only [Cycle.settlementSection,nothing] at written
      simp only [System.writes,present]
      exact written
  | _ => exact (writeNothing _ _ _).symm

theorem stepWrite {s s' : System} {a : Action} (registry : Registry s) (taken : s.step a = some s') :
    (a = .rollEpoch ∧ s'.fabric = s.fabric.rollEpoch) ∨
    ∃ id, s.target a = some id ∧ s'.fabric = s.fabric.write (s.writes a).1 id (s.writes a).2 := by
  cases a with
  | submit now req =>
      cases Option.some.inj taken
      exact .inr ⟨req.id,rfl,congrArg Prod.snd (submitSection s.fabric now req)⟩
  | cancel now id why =>
      cases Option.some.inj taken
      exact .inr ⟨id,rfl,congrArg Prod.snd (cancelSection s.fabric now id why)⟩
  | complete now id =>
      cases Option.some.inj taken
      exact .inr ⟨id,rfl,congrArg Prod.snd (completeSection s.fabric now id)⟩
  | rollback now id why =>
      cases Option.some.inj taken
      exact .inr ⟨id,rfl,congrArg Prod.snd (rollbackSection s.fabric now id why)⟩
  | retry now id =>
      cases Option.some.inj taken
      exact .inr ⟨id,rfl,congrArg Prod.snd (retrySection s.fabric now id)⟩
  | rollEpoch =>
      cases Option.some.inj taken
      exact .inl ⟨rfl,rfl⟩
  | emitEvent now id type detail json =>
      cases Option.some.inj taken
      exact .inr ⟨id,rfl,noteWrite s.fabric now id type detail json⟩
  | runCycle now eventNow id =>
      have same := congrArg System.fabric (Option.some.inj taken)
      exact .inr ⟨id,rfl,same.symm.trans (congrArg Prod.snd (planSection s.fabric now eventNow id))⟩
  | call index action =>
      obtain ⟨call,next,f',present,moved,rfl⟩ := callMoved taken
      have registered := registry.registered call (List.mem_of_getElem? present) (callStays moved).2
      exact .inr ⟨call.request,by simp [System.target,present],callWrite present registered moved⟩

/- Everything a decision about `id` can write, with what it saw. A rollback fails only on
a request that is not there. -/
inductive Decided (s : System) (id : RequestId) : Action → Write → Prop where
  | nothing (a) (failed : ∀ now why, a = .rollback now id why → s.fabric.find id = none) : Decided s id a {}
  | noted (a) (note) (other : ∀ now why, a ≠ .rollback now id why) : Decided s id a { note := some note }
  | admitted {now req} (note) (same : req.id = id) (null : ((s.fabric.find id).getD {}).req.id.isNull = true) :
      Decided s id (.submit now req) {
        record := some (((s.fabric.find id).getD {}).admitted s.fabric.epoch req)
        counts := { requestsEligibleForSpeculation := 1 }
        note := note }
  | withdrawn {now why rs} (note) (found : s.fabric.find id = some rs)
      (live : rs.terminal = false ∧ rs.cancelled = false) :
      Decided s id (.cancel now id why) { record := some rs.withdrawn, counts := { cancelCount := 1 }, note := note }
  | finished {now rs} (note) (found : s.fabric.find id = some rs) :
      Decided s id (.complete now id) { record := some rs.finished, note := note }
  | rolledBack {now why rs} (note) (found : s.fabric.find id = some rs) :
      Decided s id (.rollback now id why) {
        record := some rs.rolledBack
        counts := { rollbackCount := 1 }
        note := note }
  | retried {now rs} (note) (found : s.fabric.find id = some rs) (live : rs.terminal = false ∧ rs.cancelled = false) :
      Decided s id (.retry now id) { record := some rs.retried, counts := { retryCount := 1 }, note := note }
  | planned {now eventNow rs} (machine bypasses note) (found : s.fabric.find id = some rs)
      (live : rs.terminal = false ∧ rs.cancelled = false) :
      Decided s id (.runCycle now eventNow id) {
        record := some { rs with cycle := machine }
        counts := { speculationBypasses := bypasses }
        note := note }
  | stale {index now c rs} (note) (call : s.calls[index]? = some (.settling c)) (same : c.request = id)
      (found : s.fabric.find id = some rs) (closed : rs.terminal = true ∨ rs.cancelled = true) :
      Decided s id (.call index (.settle now)) { counts := { proposalsRejectedStale := 1 }, note := note }
  | settled {index now c rs won accept candidate o mid} (ratio note) (machine : SpeculativeStateMachine)
      (call : s.calls[index]? = some (.settling c)) (same : c.request = id) (found : s.fabric.find id = some rs)
      (live : rs.terminal = false ∧ rs.cancelled = false)
      (winner : c.proposed[selectWinner c.accepted c.proposed]? = some won)
      (acceptance : c.accepted[selectWinner c.accepted c.proposed]? = some accept)
      (produced : won.pr.candidate = some candidate)
      (branch : ∃ prop outcome, settleBranch { rs with cycle := machine } c.proposed won.branch candidate prop outcome
        accept.acceptedPrefix (UInt32.ofNat candidate.size - accept.acceptedPrefix) (UInt32.ofNat candidate.size) =
          some (o,mid)) :
      Decided s id (.call index (.settle now)) {
        record := some { mid with cycle := ⟨.ready⟩, completedCycles := mid.completedCycles + 1 }
        counts := settledCounts o.outcome (UInt32.ofNat candidate.size) accept.acceptedPrefix
          (UInt32.ofNat candidate.size - accept.acceptedPrefix)
        ratio := ratio
        note := note }

section decided
variable {s : System} {id : RequestId}

theorem Decided.idle {a : Action} (other : ∀ now why, a ≠ .rollback now id why) : Decided s id a {} :=
  .nothing a (fun now why same => absurd same (other now why))

theorem Decided.unlearned {a : Action} {w : Write} (decided : Decided s id a w)
    (other : ∀ index now, a ≠ .call index (.settle now)) : w.ratio = none := by
  cases decided with
  | settled => exact absurd rfl (other _ _)
  | _ => rfl

theorem submitDecided (now : UInt64) (req : SpeculationRequest) (same : req.id = id) :
    Decided s id (.submit now req) (submitDecision s.fabric.epoch req (s.fabric.find id)).2 := by
  unfold submitDecision
  split
  · refine .idle ?_
    intro now why no
    cases no
  · rename_i null
    exact .admitted _ same (by simpa using null)

theorem cancelDecided (now : UInt64) (why : String) :
    Decided s id (.cancel now id why) (cancelDecision why (s.fabric.find id)).2 := by
  have other : ∀ now' why', Action.cancel now id why ≠ .rollback now' id why' := by
    intro now' why' no
    cases no
  unfold cancelDecision
  split
  · exact .idle other
  · rename_i rs found
    split
    · exact .idle other
    · rename_i uncancelled
      split
      · exact .idle other
      · rename_i unfinished
        exact .withdrawn _ found ⟨by simpa using unfinished,by simpa using uncancelled⟩

theorem completeDecided (now : UInt64) :
    Decided s id (.complete now id) (completeDecision (s.fabric.find id)).2 := by
  unfold completeDecision
  split
  · refine .idle ?_
    intro now why no
    cases no
  · rename_i rs found
    exact .finished _ found

theorem rollbackDecided (now : UInt64) (why : String) :
    Decided s id (.rollback now id why) (rollbackDecision why (s.fabric.find id)).2 := by
  unfold rollbackDecision
  split
  · rename_i missing
    exact .nothing _ (fun _ _ _ => missing)
  · rename_i rs found
    exact .rolledBack _ found

theorem retryDecided (now : UInt64) : Decided s id (.retry now id) (retryDecision (s.fabric.find id)).2 := by
  have other : ∀ now' why', Action.retry now id ≠ .rollback now' id why' := by
    intro now' why' no
    cases no
  unfold retryDecision
  split
  · exact .idle other
  · rename_i rs found
    split
    · exact .idle other
    · split
      · exact .idle other
      · rename_i unfinished
        exact .retried _ found (by simpa using unfinished)

theorem planDecided (now eventNow : UInt64) (cfg : Config) (scheduler : SpeculationScheduler) (ratio : Float) :
    Decided s id (.runCycle now eventNow id) (planDecision cfg scheduler ratio now (s.fabric.find id)).2 := by
  have other : ∀ now' why', Action.runCycle now eventNow id ≠ .rollback now' id why' := by
    intro now' why' no
    cases no
  unfold planDecision
  split
  · exact .idle other
  · rename_i rs found
    split
    · exact .idle other
    · rename_i unfinished
      split
      · exact .idle other
      · rename_i uncancelled
        have live : rs.terminal = false ∧ rs.cancelled = false := ⟨by simpa using unfinished,by simpa using uncancelled⟩
        split
        · exact .noted _ _ other
        · unfold admitDecision
          split
          · exact .planned _ 0 _ found live
          · split
            · exact .planned _ 1 _ found live
            · split
              · exact .planned _ 0 none found live
              · exact @Decided.planned s id now eventNow rs _ 0 none found live

theorem settleDecided {index : Nat} {now : UInt64} {c : Cycle} {answer : Result CycleOutcome} {w : Write}
    (call : s.calls[index]? = some (.settling c)) (same : c.request = id)
    (decided : settleDecision c (s.fabric.find id) = some (answer,w)) :
    Decided s id (.call index (.settle now)) w := by
  have other : ∀ now' why', Action.call index (.settle now) ≠ .rollback now' id why' := by
    intro now' why' no
    cases no
  cases found : s.fabric.find id with
  | none =>
      rw [found] at decided
      cases Option.some.inj decided
      exact .idle other
  | some rs =>
      rw [found] at decided
      simp only [settleDecision] at decided
      split at decided
      · rename_i closed
        cases Option.some.inj decided
        exact .stale _ call same found (by simpa using closed)
      · rename_i opened
        simp only [bind,Option.bind_eq_some_iff] at decided
        obtain ⟨won,winner,accept,acceptance,candidate,produced,⟨o,mid⟩,branch,last⟩ := decided
        cases Option.some.inj last
        exact .settled _ _ _ call same found (by simpa using opened) winner acceptance produced ⟨_,_,branch⟩

end decided

theorem writesDecided {s : System} {a : Action} {id : RequestId} (named : s.target a = some id) :
    Decided s id a (s.writes a).2 := by
  cases a with
  | submit now req =>
      cases Option.some.inj named
      exact submitDecided now req rfl
  | cancel now target why =>
      cases Option.some.inj named
      exact cancelDecided now why
  | complete now target =>
      cases Option.some.inj named
      exact completeDecided now
  | rollback now target why =>
      cases Option.some.inj named
      exact rollbackDecided now why
  | retry now target =>
      cases Option.some.inj named
      exact retryDecided now
  | rollEpoch => contradiction
  | emitEvent now target type detail json =>
      refine .noted _ _ ?_
      intro now' why no
      cases no
  | runCycle now eventNow target =>
      cases Option.some.inj named
      exact planDecided now eventNow _ _ _
  | call index action =>
      have other : ∀ now' why', Action.call index action ≠ .rollback now' id why' := by
        intro now' why' no
        cases no
      cases action with
      | settle now =>
          simp only [System.writes]
          split
          · rename_i c ready
            have request : c.request = id := by
              simp only [System.target,ready,Option.map_some] at named
              exact Option.some.inj named
            rw [request]
            cases decided : settleDecision c (s.fabric.find id) with
            | none => exact .idle other
            | some d => exact settleDecided ready request decided
          · exact .idle other
      | _ => exact .idle other

end SpeculationFabric
