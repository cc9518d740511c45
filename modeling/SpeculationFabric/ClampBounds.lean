import SpeculationFabric.Branches
import SpeculationFabric.CycleEvents
import SpeculationFabric.Ledger
import SpeculationFabric.PlannedDepth

/-! The bounds of the adaptive clamp. The history is empty until a cycle has settled, so
only cycles planned after that get to the clamp. Its upper bound is the maximum read as
a signed integer, which nothing checks: at zero and from 2^31 on it is below the lower one. -/
namespace SpeculationFabric

def AdaptiveDepth.clampBounds (a : AdaptiveDepth) (policy : ProposalPolicy) : Option (Int × Int) :=
  if !policy.adaptiveDepthEnabled || a.history.isEmpty then none else some (1,asInt policy.maxDepth)

theorem chooseDepthBounds (a : AdaptiveDepth) (policy : ProposalPolicy) (memory : UInt32) (saturation : Float) :
    ∃ scaled, a.chooseDepth policy memory saturation = match a.clampBounds policy with
      | none => policy.maxDepth
      | some (low,high) => UInt32.ofInt (clampInt scaled low high) := by
  obtain ⟨scaled,chosen⟩ := chooseDepthClamped a policy memory saturation
  refine ⟨scaled,?_⟩
  rw [chosen,AdaptiveDepth.clampedDepth,AdaptiveDepth.clampBounds]
  split <;> rfl

def Ordered (bounds : Int × Int) : Prop := bounds.1 ≤ bounds.2

def SignedPositive (maxDepth : UInt32) : Prop := 1 ≤ maxDepth ∧ maxDepth.toNat < 2^31

theorem boundsOrdered (maxDepth : UInt32) : Ordered (1,asInt maxDepth) ↔ SignedPositive maxDepth := by
  have range := maxDepth.toNat_lt
  rw [Ordered,SignedPositive,wordPositive]
  dsimp only [asInt]
  split <;> omega

theorem clampOrdered {a : AdaptiveDepth} {policy : ProposalPolicy} (adaptive : policy.adaptiveDepthEnabled = true) :
    (∀ bounds ∈ a.clampBounds policy, Ordered bounds) ↔ SignedPositive policy.maxDepth ∨ a.history = [] := by
  rw [AdaptiveDepth.clampBounds,adaptive]
  cases a.history with
  | nil => simp
  | cons ratio rest => simp [boundsOrdered]

/- A `run_cycle` call that gets as far as `plan_proposal`; the executors are looked at afterwards. -/
def Fabric.plans (f : Fabric) (now : UInt64) (id : RequestId) : Bool :=
  match f.find id with
  | none => false
  | some rs =>
      !rs.terminal && !rs.cancelled && !deadlinePassed rs now && (pairDecision rs).compatible &&
        !(f.backpressure rs).blocked

theorem plansWhen (f : Fabric) (now eventNow : UInt64) (id : RequestId) :
    (∃ p, (f.planCycle now eventNow id).1 = .inr p) ↔
      f.plans now id = true ∧ f.cfg.proposer = true ∧ f.cfg.verifier = true := by
  have turned := turnedAwayIff f now eventNow id
  have either : (∃ p, (f.planCycle now eventNow id).1 = .inr p) ↔ ¬∃ answer, (f.planCycle now eventNow id).1 = .inl answer := by
    cases (f.planCycle now eventNow id).1 <;> simp
  rw [either,← turned,TurnedAway,Fabric.plans]
  cases f.find id with
  | none => simp
  | some rs => simp [and_assoc]

def System.clamps (s : System) : Action → List (Int × Int)
  | .runCycle now _ id =>
      if s.fabric.plans now id then (s.fabric.scheduler.adaptive.clampBounds s.fabric.scheduler.policy).toList else []
  | _ => []

def CycleOutcomeKind.settled : CycleOutcomeKind → Bool
  | .verificationSuccessFullAccept | .verificationSuccessPartialAccept | .verificationRejectAll => true
  | _ => false

def Call.recorded : Call → Bool
  | .returned _ (.ok o) => o.outcome.settled
  | _ => false

def settledCycles (calls : List Call) : Nat := calls.countP Call.recorded

theorem settledKindSettled {kind : CycleOutcomeKind} (settled : SettledKind kind) : kind.settled = true := by
  cases settled <;> rfl

theorem stepUnlearned {s s' : System} {a : Action} (registry : Registry s) (taken : s.step a = some s')
    (other : ∀ index now, a ≠ .call index (.settle now)) :
    s'.fabric.scheduler.adaptive = s.fabric.scheduler.adaptive := by
  rcases stepWrite registry taken with ⟨_,rolled⟩ | ⟨id,named,written⟩
  · rw [rolled]
    rfl
  · rw [written,writeLearns,(writesDecided named).unlearned other]

theorem settleLearns {f f' : Fabric} {now : UInt64} {c : Cycle} {answer : Result CycleOutcome}
    (settled : f.settle now c = some (answer,f')) :
    ((Call.returned c.request answer).recorded = false ∧ f'.scheduler.adaptive = f.scheduler.adaptive) ∨
    ((Call.returned c.request answer).recorded = true ∧
      ∃ ratio, f'.scheduler.adaptive = f.scheduler.adaptive.record ratio) := by
  rw [settleSection] at settled
  obtain ⟨⟨_,w⟩,decided,last⟩ := Option.map_eq_some_iff.mp settled
  cases last
  rw [writeLearns]
  cases found : f.find c.request with
  | none =>
      rw [found] at decided
      cases Option.some.inj decided
      exact .inl ⟨rfl,rfl⟩
  | some rs =>
      rw [found] at decided
      simp only [settleDecision] at decided
      split at decided
      · cases Option.some.inj decided
        exact .inl ⟨rfl,rfl⟩
      · simp only [bind,Option.bind_eq_some_iff] at decided
        obtain ⟨_,_,_,_,_,_,⟨o,mid⟩,branch,last⟩ := decided
        cases Option.some.inj last
        exact .inr ⟨settledKindSettled (settleBranchAdvanced branch).2.2.1,_,rfl⟩

theorem begunUnrecorded (f : Fabric) (now eventNow : UInt64) (id : RequestId) :
    (begun id (f.planCycle now eventNow id).1).recorded = false := by
  rw [planSection]
  unfold planDecision admitDecision
  split
  · rfl
  · split
    · rfl
    split
    · rfl
    split
    · rfl
    split
    · rfl
    split
    · rfl
    split <;> rfl

theorem callUnrecorded {f f' : Fabric} {call next : Call} {action : CallAction}
    (moved : call.step f action = some (next,f')) (other : ∀ now, action ≠ .settle now) :
    call.recorded = false ∧ next.recorded = false := by
  cases callStep moved with
  | proposed c pin pr =>
      obtain ⟨_,_,goes | goes⟩ := proposedGoes c pin pr <;> rw [goes] <;> exact ⟨rfl,rfl⟩
  | verified c vin accept =>
      obtain ⟨_,_,goes | goes⟩ := verifiedGoes c vin accept <;> rw [goes] <;> exact ⟨rfl,rfl⟩
  | settles => exact absurd rfl (other _)
  | undecided => exact absurd rfl (other _)
  | _ => exact ⟨rfl,rfl⟩

theorem settlingRecords {f f' : Fabric} {call next : Call} {now : UInt64}
    (moved : call.step f (.settle now) = some (next,f')) : call.recorded = false ∧
      (next.recorded = false ∧ f'.scheduler.adaptive = f.scheduler.adaptive ∨
        next.recorded = true ∧ ∃ ratio, f'.scheduler.adaptive = f.scheduler.adaptive.record ratio) := by
  cases callStep moved with
  | settles settled => exact ⟨rfl,settleLearns settled⟩
  | undecided nothing => exact ⟨rfl,.inl ⟨rfl,rfl⟩⟩

structure RatiosKept (s : System) : Prop where
  registry : Registry s
  window : s.fabric.scheduler.adaptive.window = 32
  length : s.fabric.scheduler.adaptive.history.length = min 32 (settledCycles s.calls)

theorem recordLength {a : AdaptiveDepth} {n : Nat} (window : a.window = 32) (length : a.history.length = min 32 n)
    (ratio : Float) : (a.record ratio).window = 32 ∧ (a.record ratio).history.length = min 32 (n + 1) := by
  refine ⟨window,?_⟩
  have size : a.window.toNat = 32 := by rw [window]; rfl
  simp only [AdaptiveDepth.record,size]
  split
  · rename_i long
    rw [List.length_append,List.length_singleton] at long
    rw [List.length_drop,List.length_append,List.length_singleton]
    omega
  · rename_i short
    rw [List.length_append,List.length_singleton] at short ⊢
    omega

theorem RatiosKept.same {s s' : System} (kept : RatiosKept s) (registry : Registry s')
    (adaptive : s'.fabric.scheduler.adaptive = s.fabric.scheduler.adaptive)
    (settled : settledCycles s'.calls = settledCycles s.calls) : RatiosKept s' :=
  ⟨registry,by rw [adaptive]; exact kept.window,by rw [adaptive,settled]; exact kept.length⟩

theorem ratiosStep {s s' : System} {a : Action} (kept : RatiosKept s) (taken : s.step a = some s') : RatiosKept s' := by
  have registry := registryStep taken kept.registry
  rcases stepCalls taken with ⟨calls,noCall⟩ | ⟨now,eventNow,id,rfl,grown⟩ | ⟨index,action,call,next,rfl,present,moved,set⟩
  · exact kept.same registry (stepUnlearned kept.registry taken fun index now => noCall index _) (by rw [calls])
  · have adaptive := stepUnlearned kept.registry taken (by intro index now no; cases no)
    refine kept.same registry adaptive ?_
    rw [grown,settledCycles,List.countP_append,List.countP_singleton,begunUnrecorded]
    rfl
  · have counted : settledCycles s'.calls + (if call.recorded then 1 else 0) =
        settledCycles s.calls + if next.recorded then 1 else 0 := by
      rw [set]
      exact countSet present
    by_cases settles : ∃ now, action = .settle now
    · obtain ⟨now,rfl⟩ := settles
      obtain ⟨before,⟨after,adaptive⟩ | ⟨after,ratio,learned⟩⟩ := settlingRecords moved
      · rw [before,after] at counted
        exact kept.same registry adaptive counted
      · rw [before,after] at counted
        obtain ⟨window,length⟩ := recordLength kept.window kept.length ratio
        rw [← learned] at window length
        exact ⟨registry,window,by rw [length]; exact congrArg (min 32) counted.symm⟩
    · have other : ∀ now, action ≠ .settle now := fun now same => settles ⟨now,same⟩
      have adaptive := stepUnlearned kept.registry taken (by intro index' now same; cases same; exact other now rfl)
      obtain ⟨before,after⟩ := callUnrecorded moved other
      rw [before,after] at counted
      exact kept.same registry adaptive counted

theorem RatiosKept.noneSettled {s : System} (kept : RatiosKept s) :
    s.fabric.scheduler.adaptive.history = [] ↔ settledCycles s.calls = 0 := by
  rw [← List.length_eq_zero_iff,kept.length]
  omega

def PlansFirst (v : System × Action) : Prop :=
  ∀ now eventNow id, v.2 = .runCycle now eventNow id → v.1.fabric.plans now id = true → settledCycles v.1.calls = 0

theorem stepClampsOrdered {s : System} {policy : ProposalPolicy} (kept : RatiosKept s)
    (same : s.fabric.scheduler.policy = policy) (adaptive : policy.adaptiveDepthEnabled = true) (a : Action) :
    (∀ bounds ∈ s.clamps a, Ordered bounds) ↔ SignedPositive policy.maxDepth ∨ PlansFirst (s,a) := by
  cases a with
  | runCycle now eventNow id =>
      have planned : PlansFirst (s,.runCycle now eventNow id) ↔
          (s.fabric.plans now id = true → settledCycles s.calls = 0) :=
        ⟨fun first plans => first _ _ _ rfl plans,by rintro only _ _ _ ⟨⟩ plans; exact only plans⟩
      rw [planned,System.clamps]
      cases s.fabric.plans now id with
      | false => simp
      | true =>
          have whether := clampOrdered (a := s.fabric.scheduler.adaptive) adaptive
          rw [kept.noneSettled] at whether
          rw [same]
          simpa using whether
  | _ =>
      refine iff_of_true (by simp [System.clamps]) (.inr ?_)
      intro now eventNow id no
      cases no

theorem visitedKept {x : Executors} {cfg : Config} {actions : List Action} {s : System}
    (run : Run x (.start cfg) actions s) :
    ∀ v ∈ visited (.start cfg) actions, RatiosKept v.1 ∧ v.1.fabric.scheduler.policy = cfg.policy := by
  have both : (∀ v ∈ visited (.start cfg) actions, RatiosKept v.1 ∧ v.1.fabric.scheduler.policy = cfg.policy) ∧
      RatiosKept s ∧ s.fabric.scheduler.policy = cfg.policy := by
    refine Runs.loggedInvariant (P := fun (past : List (System × Action)) u =>
      (∀ v ∈ past, RatiosKept v.1 ∧ v.1.fabric.scheduler.policy = cfg.policy) ∧
        RatiosKept u ∧ u.fabric.scheduler.policy = cfg.policy) run ?_ ?_
    · exact ⟨by simp,⟨registryStart cfg,rfl,rfl⟩,rfl⟩
    · rintro past u a w ⟨before,kept,policy⟩ _ taken
      exact ⟨everyAppended before ⟨kept,policy⟩,ratiosStep kept taken,(stepFixed taken).2.trans policy⟩
  exact both.1

theorem clampBoundsOrderedWhen {x : Executors} {cfg : Config} {actions : List Action} {s : System}
    (run : Run x (.start cfg) actions s) (adaptive : cfg.policy.adaptiveDepthEnabled = true) :
    ((∀ v ∈ visited (.start cfg) actions, ∀ bounds ∈ v.1.clamps v.2, Ordered bounds) ↔
      SignedPositive cfg.policy.maxDepth ∨ ∀ v ∈ visited (.start cfg) actions, PlansFirst v) ∧
    ∀ (a : AdaptiveDepth) (policy : ProposalPolicy), policy.adaptiveDepthEnabled = true → a.history ≠ [] →
      a.clampBounds policy = some (1,asInt policy.maxDepth) ∧
      (∀ memory saturation, ∃ scaled, a.chooseDepth policy memory saturation =
        UInt32.ofInt (clampInt scaled 1 (asInt policy.maxDepth))) ∧
      (Ordered (1,asInt policy.maxDepth) ↔ SignedPositive policy.maxDepth) := by
  refine ⟨?_,?_⟩
  · have each : ∀ v ∈ visited (.start cfg) actions, ((∀ bounds ∈ v.1.clamps v.2, Ordered bounds) ↔
        SignedPositive cfg.policy.maxDepth ∨ PlansFirst v) := by
      intro v member
      obtain ⟨kept,policy⟩ := visitedKept run v member
      exact stepClampsOrdered kept policy adaptive v.2
    by_cases positive : SignedPositive cfg.policy.maxDepth
    · exact iff_of_true (fun v member => (each v member).mpr (.inl positive)) (.inl positive)
    · rw [or_iff_right positive]
      constructor
      · intro ordered v member
        exact ((each v member).mp (ordered v member)).resolve_left positive
      · intro first v member
        exact (each v member).mpr (.inr (first v member))
  · intro a policy enabled some_
    have bounds : a.clampBounds policy = some (1,asInt policy.maxDepth) := if_neg (by simp [enabled,some_])
    refine ⟨bounds,?_,boundsOrdered policy.maxDepth⟩
    intro memory saturation
    obtain ⟨scaled,chosen⟩ := chooseDepthBounds a policy memory saturation
    rw [bounds] at chosen
    exact ⟨scaled,chosen⟩

def depthConfig (maxDepth : UInt32) : Config := { policy := { maxDepth := maxDepth } }

def twiceActions : List Action := firstCycle ++ [.runCycle 4 4 ⟨100⟩]

def twiceClamped (maxDepth : UInt32) : Option (List (Int × Int)) :=
  (runOf (drafts [5]) (accepts 1) (.start (depthConfig maxDepth)) firstCycle).map fun s => s.clamps (.runCycle 4 4 ⟨100⟩)

def ReachesClamp (maxDepth : UInt32) (bounds : Int × Int) : Prop :=
  ∃ s, Run (.functions (drafts [5]) (accepts 1)) (.start (depthConfig maxDepth)) twiceActions s ∧
    ∃ v ∈ visited (.start (depthConfig maxDepth)) twiceActions, bounds ∈ v.1.clamps v.2

theorem twiceReaches {maxDepth : UInt32} {bounds : Int × Int} (clamped : twiceClamped maxDepth = some [bounds]) :
    ReachesClamp maxDepth bounds := by
  obtain ⟨s,settled,only⟩ := Option.map_eq_some_iff.mp clamped
  have run : Run (.functions (drafts [5]) (accepts 1)) (.start (depthConfig maxDepth)) firstCycle s :=
    Runs.ofExec answersAdmitted settled
  refine ⟨nextPlanned s,run.snoc trivial (nextBegins s),(s,.runCycle 4 4 ⟨100⟩),?_,?_⟩
  · rw [visited,twiceActions,Runs.loggedAppend run]
    exact List.mem_append_right _ (List.mem_append_left _ (List.mem_singleton_self _))
  · rw [only]
    exact List.mem_singleton_self _

theorem defaultDepthOrdered : ReachesClamp 4 (1,4) ∧
    ∀ v ∈ visited (.start (depthConfig 4)) twiceActions, ∀ bounds ∈ v.1.clamps v.2, Ordered bounds := by
  have reaches : ReachesClamp 4 (1,4) := twiceReaches (by decide +kernel)
  refine ⟨reaches,?_⟩
  obtain ⟨s,run,_⟩ := reaches
  exact (clampBoundsOrderedWhen run rfl).1.mpr (.inl ⟨by decide,by decide⟩)

theorem depthsUnordered :
    (depthConfig 0).policy.adaptiveDepthEnabled = true ∧ ReachesClamp 0 (1,0) ∧ ¬Ordered (1,0) ∧
    (depthConfig 0x80000000).policy.adaptiveDepthEnabled = true ∧ ReachesClamp 0x80000000 (1,-2147483648) ∧
    ¬Ordered (1,-2147483648) :=
  ⟨rfl,twiceReaches (by decide +kernel),(by decide : ¬(1 : Int) ≤ 0),rfl,twiceReaches (by decide +kernel),
    (by decide : ¬(1 : Int) ≤ -2147483648)⟩

end SpeculationFabric
