import SpeculationFabric.Compatibility

/-! Planning and admission. Ratios are IEEE doubles, as in the source; nothing
below reasons about their values. The scheduler's policy is the engine's, fixed
at construction: the request's own policy never reaches these functions. -/
namespace SpeculationFabric

structure AdaptiveDepth where
  history : List Float := []
  window : UInt32 := 32
  deriving DecidableEq, Repr

def AdaptiveDepth.record (a : AdaptiveDepth) (ratio : Float) : AdaptiveDepth :=
  let history := a.history ++ [ratio]
  { a with history := if history.length > a.window.toNat then history.drop 1 else history }

def AdaptiveDepth.averageRatio (a : AdaptiveDepth) : Float :=
  if a.history.isEmpty then 0.0
  else a.history.foldl (· + ·) 0.0 / UInt64.toFloat (UInt64.ofNat a.history.length)

/- Rounds a non-negative double half away from zero; every argument below is one. -/
def llround (x : Float) : UInt64 :=
  let whole := x.toUInt64
  if x - whole.toFloat ≥ 0.5 then whole + 1 else whole

/- `static_cast<int>` of an unsigned word. -/
def asInt (x : UInt32) : Int := if x.toNat < 2^31 then x.toNat else (x.toNat : Int) - 2^32

/- `std::clamp` leaves reversed bounds undefined; the library's `min` of a `max` makes the upper one of them. -/
def clampInt (x low high : Int) : Int := min (max x low) high

def AdaptiveDepth.chooseDepth (a : AdaptiveDepth) (policy : ProposalPolicy)
    (availableMemoryHeadroom : UInt32) (verifierSaturation : Float) : UInt32 :=
  if !policy.adaptiveDepthEnabled || a.history.isEmpty then policy.maxDepth
  else
    let r := a.averageRatio
    let f : Float :=
      if r ≥ 0.80 then 1.0
      else if r ≥ 0.50 then 0.60 + 0.40 * ((r - 0.50) / 0.30)
      else 0.30 + 0.30 * (r / 0.50)
    let depth := policy.maxDepth.toFloat * f
    let depth :=
      if availableMemoryHeadroom ≠ 0 then
        let quotient := availableMemoryHeadroom.toFloat / (128.0 * policy.maxDepth.toFloat)
        depth * (if quotient < 1.0 then quotient else 1.0)
      else depth
    let sat : Float :=
      if verifierSaturation < 0.0 then 0.0 else if 1.0 < verifierSaturation then 1.0 else verifierSaturation
    let depth := depth * (1.0 - 0.5 * sat)
    let d := (llround depth).toUInt32
    UInt32.ofInt (clampInt (asInt d) 1 (asInt policy.maxDepth))

inductive BackpressureReason where
  | none | proposerCapacity | verifierCapacity | branchLimit | memoryHeadroom | outstandingLimit
  | tenantBudget | deadlineTooTight | economicsBelowThreshold
  deriving DecidableEq, Repr

structure BackpressureDecision where
  blocked : Bool := false
  reason : BackpressureReason := .none
  detail : String := ""
  deriving DecidableEq, Repr

def BackpressureDecision.deny (reason : BackpressureReason) (detail : String) : BackpressureDecision :=
  { blocked := true, reason := reason, detail := detail }

structure SpeculationScheduler where
  policy : ProposalPolicy := {}
  adaptive : AdaptiveDepth := {}
  deriving DecidableEq, Repr

def SpeculationScheduler.planProposal (s : SpeculationScheduler) (req : SpeculationRequest)
    (authGeneration : AuthGeneration) (availableDepthHeadroom availableMemoryHeadroom : UInt32)
    (verifierSaturation : Float) : ProposalPlan :=
  let depth := s.policy.maxDepth
  let depth := if s.policy.latencyClass = .interactive then min 2 s.policy.maxDepth else depth
  let depth := if availableDepthHeadroom ≠ 0 then min depth availableDepthHeadroom else depth
  let depth :=
    if s.policy.adaptiveDepthEnabled then
      s.adaptive.chooseDepth s.policy availableMemoryHeadroom verifierSaturation
    else depth
  let depth := max 1 depth
  let depthReason :=
    if s.policy.adaptiveDepthEnabled then "adaptive depth " ++ toString depth ++ " from acceptance history"
    else "fixed policy depth " ++ toString depth
  { request := req.id
    sequence := req.sequence
    attempt := ⟨0⟩
    depth := depth
    branchCount := max 1 s.policy.maxBranches
    proposer := req.draftModel
    dispatch := ⟨(req.id.value * 0x100000001B3) ^^^ (authGeneration.value * 0x9E3779B97F4A7C15)⟩
    rationale := depthReason ++ "; " ++ ("draft model " ++ req.draftModel.name) }

/- The request and the number of active branches are parameters the source ignores. -/
def SpeculationScheduler.checkBackpressure (s : SpeculationScheduler) (_req : SpeculationRequest)
    (_activeBranches outstandingSpeculative : UInt32) (memoryHeadroom : UInt64) (acceptanceRatio : Float) :
    BackpressureDecision :=
  if !s.policy.speculatingEnabled then .deny .none "speculation disabled by policy"
  else if outstandingSpeculative ≥ s.policy.maxOutstandingSpeculativeWork ∧
      s.policy.maxOutstandingSpeculativeWork ≠ 0 then
    .deny .outstandingLimit "outstanding speculative work limit"
  else if memoryHeadroom = 0 then .deny .memoryHeadroom "no memory headroom"
  else if s.policy.minEconomicAcceptanceRatio > 0.0 ∧ acceptanceRatio < s.policy.minEconomicAcceptanceRatio then
    .deny .economicsBelowThreshold "acceptance economics below threshold"
  else {}

theorem wordMax (a b : UInt32) : (max a b).toNat = max a.toNat b.toNat := by
  have value : max a b = if a ≤ b then b else a := rfl
  rw [value]
  split
  · rename_i below
    exact (Nat.max_eq_right (UInt32.le_iff_toNat_le.mp below)).symm
  · rename_i above
    rw [UInt32.le_iff_toNat_le] at above
    omega

theorem wordMin (a b : UInt32) : (min a b).toNat = min a.toNat b.toNat := by
  have value : min a b = if a ≤ b then a else b := rfl
  rw [value]
  split
  · rename_i below
    exact (Nat.min_eq_left (UInt32.le_iff_toNat_le.mp below)).symm
  · rename_i above
    rw [UInt32.le_iff_toNat_le] at above
    omega

end SpeculationFabric
