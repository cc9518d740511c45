import SpeculationFabric.Ledger

/-! The outstanding-work limit. The count handed to the backpressure check is the
length of the proposal list, and a proposal enters that list when it is settled. So
the limit is on settled cycles, and work in flight is not counted at all. -/
namespace SpeculationFabric

def outstandingBypass : Result CycleOutcome ⊕ Planned :=
  .inl (.ok { outcome := .proposalNonRetryableFailure, summary := "bypassed: outstanding speculative work limit" })

def SpeculationScheduler.atLimit (s : SpeculationScheduler) (outstanding : UInt32) : Prop :=
  s.policy.speculatingEnabled = true ∧ outstanding ≥ s.policy.maxOutstandingSpeculativeWork ∧
    s.policy.maxOutstandingSpeculativeWork ≠ 0

theorem limitDetail (s : SpeculationScheduler) (req : SpeculationRequest) (branches outstanding : UInt32)
    (headroom : UInt64) (ratio : Float) :
    (s.checkBackpressure req branches outstanding headroom ratio).detail = "outstanding speculative work limit" ↔
      s.atLimit outstanding := by
  unfold SpeculationScheduler.checkBackpressure SpeculationScheduler.atLimit
  cases enabled : s.policy.speculatingEnabled with
  | false => simp [BackpressureDecision.deny]
  | true =>
      simp only [Bool.not_true,Bool.false_eq_true,if_false,true_and]
      split
      · rename_i limit
        exact ⟨fun _ => limit,fun _ => rfl⟩
      · rename_i below
        refine ⟨fun detail => absurd detail ?_,fun limit => absurd limit below⟩
        split
        · simp [BackpressureDecision.deny]
        · split <;> simp [BackpressureDecision.deny]

theorem limitBlocks {s : SpeculationScheduler} {req : SpeculationRequest} {branches outstanding : UInt32}
    {headroom : UInt64} {ratio : Float} (limit : s.atLimit outstanding) :
    (s.checkBackpressure req branches outstanding headroom ratio).blocked = true := by
  obtain ⟨enabled,full,set⟩ := limit
  simp only [SpeculationScheduler.checkBackpressure,enabled,Bool.not_true,Bool.false_eq_true,if_false,
    if_pos (And.intro full set)]
  rfl

theorem summaryDetail (detail : String) :
    "bypassed: " ++ detail = "bypassed: outstanding speculative work limit" ↔
      detail = "outstanding speculative work limit" := by
  have whole : "bypassed: outstanding speculative work limit" =
      "bypassed: " ++ "outstanding speculative work limit" := by decide
  rw [whole]
  exact String.append_right_inj _

theorem admitBypass (f : Fabric) (eventNow : UInt64) (id : RequestId) (rs : RequestState) :
    (f.admitCycle eventNow id rs).1 = outstandingBypass ↔
      (pairDecision rs).compatible = true ∧ f.scheduler.atLimit (UInt32.ofNat rs.proposals.length) := by
  unfold Fabric.admitCycle outstandingBypass
  dsimp only
  cases compatible : (pairDecision rs).compatible with
  | false => simp
  | true =>
      simp only [Bool.not_true,Bool.false_eq_true,if_false,true_and]
      split
      · rw [← limitDetail f.scheduler rs.req (UInt32.ofNat rs.branches.length) (UInt32.ofNat rs.proposals.length)
          (if activeReservationBytes rs ≠ 0 then 0 else 1) f.stats.acceptanceRatio,← summaryDetail]
        simp [Fabric.backpressure]
      · rename_i open_
        refine ⟨fun same => absurd same ?_,fun limit => absurd (limitBlocks limit) open_⟩
        split <;> simp

def passesLimit (policy : ProposalPolicy) (now : UInt64) (rs : RequestState) : Prop :=
  rs.terminal = true ∨ rs.cancelled = true ∨ deadlinePassed rs now = true ∨ (pairDecision rs).compatible = false ∨
  policy.speculatingEnabled = false ∨ rs.proposals.length % 2^32 < policy.maxOutstandingSpeculativeWork.toNat

theorem belowLimit {s : SpeculationScheduler} (positive : s.policy.maxOutstandingSpeculativeWork ≠ 0) (n : Nat) :
    ¬ s.atLimit (UInt32.ofNat n) ↔ s.policy.speculatingEnabled = false ∨
      n % 2^32 < s.policy.maxOutstandingSpeculativeWork.toNat := by
  have reached : UInt32.ofNat n ≥ s.policy.maxOutstandingSpeculativeWork ↔
      s.policy.maxOutstandingSpeculativeWork.toNat ≤ n % 2^32 := by
    rw [ge_iff_le,UInt32.le_iff_toNat_le,UInt32.toNat_ofNat']
  unfold SpeculationScheduler.atLimit
  rw [reached]
  cases s.policy.speculatingEnabled with
  | false => simp
  | true =>
      simp only [true_and,Bool.true_eq_false,false_or]
      constructor
      · intro below
        by_contra above
        exact below ⟨by omega,positive⟩
      · rintro below ⟨above,_⟩
        omega

theorem planBypass {f : Fabric} {id : RequestId} {rs : RequestState} (found : f.find id = some rs)
    (positive : f.scheduler.policy.maxOutstandingSpeculativeWork ≠ 0) (now eventNow : UInt64) :
    (f.planCycle now eventNow id).1 ≠ outstandingBypass ↔ passesLimit f.scheduler.policy now rs := by
  unfold Fabric.planCycle passesLimit
  simp only [found]
  cases rs.terminal with
  | true => simp [outstandingBypass]
  | false =>
      cases rs.cancelled with
      | true => simp [outstandingBypass]
      | false =>
          cases deadlinePassed rs now with
          | true => simp [outstandingBypass]
          | false =>
              simp only [Bool.false_eq_true,if_false,false_or,ne_eq]
              rw [admitBypass,not_and]
              show ((pairDecision rs).compatible = true → ¬ f.scheduler.atLimit (UInt32.ofNat rs.proposals.length)) ↔ _
              rw [belowLimit positive]
              cases (pairDecision rs).compatible with
              | true => simp
              | false => simp

theorem everyProposalFinalized {x : Executors} {cfg : Config} {actions : List Action} {s : System}
    (run : Run x (.start cfg) actions s) :
    ∀ id rs, s.fabric.find id = some rs → ∀ p ∈ rs.proposals, p.finalized = true := by
  refine everyRecord (P := fun rs => ∀ p ∈ rs.proposals, p.finalized = true) run ?_ ?_
  · intro epoch req events p member
    cases member
  · intro past u id a rs rs' _ effect all
    cases effect with
    | settled call same facts =>
        rw [facts.advanced.proposals]
        exact everyAppended all rfl
    | _ => exact all

theorem settledWorkBypassesExactly {x : Executors} {cfg : Config} {actions : List Action} {s : System}
    {id : RequestId} (positive : cfg.policy.maxOutstandingSpeculativeWork ≠ 0) (run : Run x (.start cfg) actions s)
    (idle : ∀ call ∈ s.calls, call.request = id → ∃ answer, call = .returned id answer) (now eventNow : UInt64) :
    ((s.fabric.planCycle now eventNow id).1 ≠ outstandingBypass ↔
      ∀ rs, s.fabric.find id = some rs → passesLimit cfg.policy now rs) ∧
    ∀ rs, s.fabric.find id = some rs → (∀ p ∈ rs.proposals, p.finalized = true) ∧
      (UInt32.ofNat rs.proposals.length = UInt32.ofNat (s.calls.countP (inFlight id)) ↔
        rs.proposals.length % 2^32 = 0) := by
  have policy := (configurationFixed run).2
  have none : s.calls.countP (inFlight id) = 0 := by
    rw [List.countP_eq_zero]
    intro call member active
    obtain ⟨ongoing,request⟩ := Bool.and_eq_true_iff.mp active
    obtain ⟨answer,rfl⟩ := idle call member (of_decide_eq_true request)
    contradiction
  refine ⟨?_,?_⟩
  · cases found : s.fabric.find id with
    | none =>
        simp only [Fabric.planCycle,found]
        refine ⟨fun _ rs absent => ?_,fun _ => ?_⟩
        · cases absent
        · simp [outstandingBypass,Result.err]
    | some rs =>
        rw [planBypass found (by rw [policy]; exact positive),policy]
        constructor
        · intro passes held same
          cases Option.some.inj same
          exact passes
        · intro all
          exact all rs rfl
  · intro rs found
    refine ⟨everyProposalFinalized run id rs found,?_⟩
    rw [none,← UInt32.toNat_inj,UInt32.toNat_ofNat',UInt32.toNat_ofNat']

def oneCycle : List Action :=
  .submit 1 (makeReq ⟨100⟩ []) :: .runCycle 2 2 ⟨100⟩ :: oneBranchCycle 0 (proposedTokens [5]) (acceptedFirst 1)

def limitOne : Config := { policy := { maxOutstandingSpeculativeWork := 1 } }

def settledOnce : System := (runOf (drafts [5]) (accepts 1) (.start {}) oneCycle).get (by decide +kernel)

def settledAtLimit : System := (runOf (drafts [5]) (accepts 1) (.start limitOne) oneCycle).get (by decide +kernel)

def Call.isBack : Call → Bool
  | .returned _ _ => true
  | _ => false

theorem allBack {s : System} (back : s.calls.all Call.isBack = true) (id : RequestId) :
    ∀ call ∈ s.calls, call.request = id → ∃ answer, call = .returned id answer := by
  intro call member request
  have returned := List.all_eq_true.mp back call member
  cases call with
  | returned target answer =>
      cases request
      exact ⟨answer,rfl⟩
  | _ => contradiction

theorem secondCycleNotBypassed : (settledOnce.fabric.planCycle 3 3 ⟨100⟩).1 ≠ outstandingBypass := by
  have run : Run (.functions (drafts [5]) (accepts 1)) (.start {}) oneCycle settledOnce := runOfRun (by decide +kernel)
  refine (settledWorkBypassesExactly (by decide) run (allBack (by decide +kernel) ⟨100⟩) 3 3).1.mpr ?_
  intro rs found
  have count : (settledOnce.fabric.find ⟨100⟩).map (fun rs => rs.proposals.length) = some 1 := by decide +kernel
  rw [found] at count
  have one : rs.proposals.length = 1 := Option.some.inj count
  refine .inr (.inr (.inr (.inr (.inr ?_))))
  rw [one]
  decide

theorem settledCycleBlocksNext :
    Run (.functions (drafts [5]) (accepts 1)) (.start limitOne) oneCycle settledAtLimit ∧
    limitOne.policy.maxOutstandingSpeculativeWork = 1 ∧
    (∀ call ∈ settledAtLimit.calls, call.request = ⟨100⟩ → ∃ answer, call = .returned ⟨100⟩ answer) ∧
    (settledAtLimit.fabric.planCycle 3 3 ⟨100⟩).1 = outstandingBypass := by
  have run : Run (.functions (drafts [5]) (accepts 1)) (.start limitOne) oneCycle settledAtLimit :=
    runOfRun (by decide +kernel)
  exact ⟨run,rfl,allBack (by decide +kernel) ⟨100⟩,by decide +kernel⟩

end SpeculationFabric
