import SpeculationFabric.Sections

/-! What one request sees of the engine. A view is the record without the numbers and
times of its events, and the calls in flight on it. No decision looks at events, the
clock only matters for deadlines and the history of ratios only for policies that ask
for it, so a decision taken on the view is the decision taken on the record. -/
namespace SpeculationFabric

def Event.bare (e : Event) : Event := { e with id := ⟨0⟩, timestampNs := 0 }

def RequestState.bare (rs : RequestState) : RequestState := { rs with events := rs.events.map Event.bare }

def Write.bare (w : Write) : Write := { w with record := w.record.map RequestState.bare }

def bareEvent (id : RequestId) (note : Note) : Event :=
  { id := ⟨0⟩
    timestampNs := 0
    request := id
    type := note.type
    detail := note.detail
    json := note.json }

theorem boundedMap {α β : Type} (limit : Nat) (g : α → β) (xs : List α) :
    bounded limit (xs.map g) = (bounded limit xs).map g := by
  unfold bounded
  rw [List.length_map]
  split
  · exact (List.map_drop).symm
  · rfl

theorem heardBare (rs : RequestState) (e : Option Event) : (rs.heard e).bare = rs.bare.heard (e.map Event.bare) := by
  cases e with
  | none => rfl
  | some e =>
      have kept : bounded 512 (rs.events.map Event.bare ++ [e.bare]) =
          (bounded 512 (rs.events ++ [e])).map Event.bare := by
        rw [← boundedMap,List.map_append]
        rfl
      simp only [RequestState.heard,RequestState.bare,Option.map_some,kept]

def written (id : RequestId) (record : Option RequestState) (w : Write) : Option RequestState :=
  (w.record.or record).map (fun rs => rs.heard (w.note.map (bareEvent id)))

theorem writeBare (f : Fabric) (now : UInt64) (id : RequestId) (w : Write) :
    ((f.write now id w).find id).map RequestState.bare = written id ((f.find id).map RequestState.bare) w.bare := by
  have noted : ∀ note : Option Note, (note.map (f.event now id)).map Event.bare = note.map (bareEvent id) := by
    intro note
    cases note <;> rfl
  have picked : w.bare.record.or ((f.find id).map RequestState.bare) =
      (w.record.or (f.find id)).map RequestState.bare := by
    unfold Write.bare
    cases w.record <;> rfl
  rw [writeSelf,written,picked,Option.map_map,Option.map_map]
  congr 1
  funext rs
  rw [Function.comp_apply,Function.comp_apply,heardBare,noted]
  rfl

section decisions
variable (found : Option RequestState)

theorem submitBare (epoch : CoordinatorEpoch) (req : SpeculationRequest) :
    submitDecision epoch req (found.map RequestState.bare) =
      ((submitDecision epoch req found).1,(submitDecision epoch req found).2.bare) := by
  have picked : (found.map RequestState.bare).getD {} = (found.getD {}).bare := by
    cases found <;> rfl
  unfold submitDecision
  rw [picked]
  show (if (!(found.getD {}).req.id.isNull) = true then _ else _) = _
  split <;> rfl

theorem cancelBare (why : String) :
    cancelDecision why (found.map RequestState.bare) =
      ((cancelDecision why found).1,(cancelDecision why found).2.bare) := by
  cases found with
  | none => rfl
  | some rs =>
      simp only [Option.map_some,cancelDecision]
      show (if rs.cancelled = true then _ else if rs.terminal = true then _ else _) = _
      split
      · rfl
      · split <;> rfl

theorem completeBare :
    completeDecision (found.map RequestState.bare) = ((completeDecision found).1,(completeDecision found).2.bare) := by
  cases found <;> rfl

theorem rollbackBare (why : String) :
    rollbackDecision why (found.map RequestState.bare) =
      ((rollbackDecision why found).1,(rollbackDecision why found).2.bare) := by
  cases found <;> rfl

theorem retryBare :
    retryDecision (found.map RequestState.bare) = ((retryDecision found).1,(retryDecision found).2.bare) := by
  cases found with
  | none => rfl
  | some rs =>
      simp only [Option.map_some,retryDecision]
      show (if rs.req.maxAttempts ≠ 0 ∧ rs.retryCount ≥ rs.req.maxAttempts then _
        else if (rs.terminal || rs.cancelled) = true then _ else _) = _
      split
      · rfl
      · split <;> rfl

end decisions

structure Plain (policy : ProposalPolicy) : Prop where
  fixed : policy.adaptiveDepthEnabled = false
  economics : ¬ policy.minEconomicAcceptanceRatio > 0.0

section planning
variable {scheduler : SpeculationScheduler} {policy : ProposalPolicy}

theorem planPlain (plain : Plain policy) (same : scheduler.policy = policy) (req : SpeculationRequest)
    (generation : AuthGeneration) :
    scheduler.planProposal req generation 0 0 0.0 =
      SpeculationScheduler.planProposal { policy := policy } req generation 0 0 0.0 := by
  subst same
  simp only [SpeculationScheduler.planProposal,plain.fixed,Bool.false_eq_true,if_false]

theorem pressurePlain (plain : Plain policy) (same : scheduler.policy = policy) (ratio : Float) (rs : RequestState) :
    pressure scheduler ratio rs = pressure { policy := policy } 1.0 rs := by
  subst same
  have idle : ∀ r : Float, ¬ (scheduler.policy.minEconomicAcceptanceRatio > 0.0 ∧
      r < scheduler.policy.minEconomicAcceptanceRatio) := fun _ both => plain.economics both.1
  simp only [pressure,SpeculationScheduler.checkBackpressure,if_neg (idle _)]

theorem admitPlain (plain : Plain policy) (same : scheduler.policy = policy) (cfg : Config) (ratio : Float)
    (rs : RequestState) :
    admitDecision cfg { policy := policy } 1.0 rs.bare =
      ((admitDecision cfg scheduler ratio rs).1,(admitDecision cfg scheduler ratio rs).2.bare) := by
  have pair : pairDecision rs.bare = pairDecision rs := rfl
  have pressed : pressure { policy := policy } 1.0 rs.bare = pressure { policy := policy } 1.0 rs := rfl
  unfold admitDecision
  rw [pair,pressed,pressurePlain plain same,planPlain plain same]
  split
  · rfl
  · split
    · rfl
    · split <;> rfl

theorem planBare (plain : Plain policy) (same : scheduler.policy = policy) (cfg : Config) (ratio : Float) (now : UInt64)
    {found : Option RequestState} (timeless : ∀ rs, found = some rs → rs.req.deadlineNs = none) :
    planDecision cfg { policy := policy } 1.0 0 (found.map RequestState.bare) =
      ((planDecision cfg scheduler ratio now found).1,(planDecision cfg scheduler ratio now found).2.bare) := by
  cases found with
  | none => rfl
  | some rs =>
      have early : deadlinePassed rs now = false := by
        unfold deadlinePassed
        rw [timeless rs rfl]
      have early' : deadlinePassed rs.bare 0 = false := by
        have none : rs.bare.req.deadlineNs = none := timeless rs rfl
        unfold deadlinePassed
        rw [none]
      have refreshed : rs.bare.refreshed = rs.refreshed.bare := rfl
      simp only [Option.map_some,planDecision,early,early',refreshed,Bool.false_eq_true,if_false]
      show (if rs.terminal = true then _ else if rs.cancelled = true then _ else _) = _
      split
      · rfl
      · split
        · rfl
        · exact admitPlain plain same cfg ratio rs.refreshed

end planning

theorem settleBranchBare (rs : RequestState) (machine : SpeculativeStateMachine) (proposed : List BranchResult)
    (keep : BranchId) (candidate : CandidateSequence) (prop : Proposal) (outcome : CycleOutcome)
    (count rejected len : UInt32) :
    settleBranch { rs.bare with cycle := machine } proposed keep candidate prop outcome count rejected len =
      (settleBranch { rs with cycle := machine } proposed keep candidate prop outcome count rejected len).map
        (fun d => (d.1,d.2.bare)) := by
  have accepted : ∀ event kind rejected, settleAccepted { rs.bare with cycle := machine } proposed keep candidate prop
      outcome event kind count rejected = (settleAccepted { rs with cycle := machine } proposed keep candidate prop
        outcome event kind count rejected).map (fun d => (d.1,d.2.bare)) := by
    intro event kind rejected
    unfold settleAccepted
    cases readTokens candidate count with
    | none => rfl
    | some tokens => rfl
  unfold settleBranch
  split
  · exact accepted _ _ _
  · split
    · exact accepted _ _ _
    · rfl

theorem settleBare (c : Cycle) (found : Option RequestState) :
    settleDecision c (found.map RequestState.bare) = (settleDecision c found).map (fun d => (d.1,d.2.bare)) := by
  cases found with
  | none => rfl
  | some rs =>
      simp only [Option.map_some,settleDecision]
      show (if (rs.terminal || rs.cancelled) = true then _ else _) = _
      split
      · rfl
      · simp only [bind]
        cases c.proposed[selectWinner c.accepted c.proposed]? with
        | none => rfl
        | some won =>
            cases c.accepted[selectWinner c.accepted c.proposed]? with
            | none => rfl
            | some accept =>
                simp only [Option.bind_some]
                cases won.pr.candidate with
                | none => rfl
                | some candidate =>
                    simp only [Option.bind_some]
                    rw [settleBranchBare,Option.bind_map,Option.map_bind]
                    rfl

end SpeculationFabric
