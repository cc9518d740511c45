import SpeculationFabric.Scheduler

/-! The caps on a planned depth. The latency class and the depth headroom bound the
depth first, and with adaptive depth the adaptive computation then replaces it instead
of bounding it. What the doubles come to before their clamp is any integer here. -/
namespace SpeculationFabric

def AdaptiveDepth.clampedDepth (a : AdaptiveDepth) (policy : ProposalPolicy) (scaled : Int) : UInt32 :=
  if !policy.adaptiveDepthEnabled || a.history.isEmpty then policy.maxDepth
  else UInt32.ofInt (clampInt scaled 1 (asInt policy.maxDepth))

def SpeculationScheduler.scaledDepth (s : SpeculationScheduler) (availableDepthHeadroom : UInt32) (scaled : Int) :
    UInt32 :=
  let depth := s.policy.maxDepth
  let depth := if s.policy.latencyClass = .interactive then min 2 s.policy.maxDepth else depth
  let depth := if availableDepthHeadroom ≠ 0 then min depth availableDepthHeadroom else depth
  let depth := if s.policy.adaptiveDepthEnabled then s.adaptive.clampedDepth s.policy scaled else depth
  max 1 depth

theorem chooseDepthClamped (a : AdaptiveDepth) (policy : ProposalPolicy) (memory : UInt32) (saturation : Float) :
    ∃ scaled, a.chooseDepth policy memory saturation = a.clampedDepth policy scaled := ⟨_,rfl⟩

theorem planDepthScaled (s : SpeculationScheduler) (req : SpeculationRequest) (generation : AuthGeneration)
    (headroom memory : UInt32) (saturation : Float) :
    ∃ scaled, (s.planProposal req generation headroom memory saturation).depth = s.scaledDepth headroom scaled := by
  obtain ⟨scaled,chosen⟩ := chooseDepthClamped s.adaptive s.policy memory saturation
  refine ⟨scaled,?_⟩
  simp only [SpeculationScheduler.planProposal,SpeculationScheduler.scaledDepth,chosen]

structure WithinCaps (policy : ProposalPolicy) (headroom depth : UInt32) : Prop where
  positive : 1 ≤ depth
  most : depth ≤ policy.maxDepth
  interactive : policy.latencyClass = .interactive → depth ≤ 2
  headroom : headroom ≠ 0 → depth ≤ headroom

theorem wordPositive {n : UInt32} : 1 ≤ n ↔ 1 ≤ n.toNat := UInt32.le_iff_toNat_le

/- From 2^31 on the bounds are the wrong way round as 32-bit integers, and the maximum comes out. -/
theorem clampedCases {maxDepth : UInt32} (positive : 1 ≤ maxDepth) (scaled : Int) :
    ((UInt32.ofInt (clampInt scaled 1 (asInt maxDepth))).toNat : Int) =
      if maxDepth.toNat < 2^31 then max 1 (min scaled maxDepth.toNat)
      else (maxDepth.toNat : Int) := by
  have range := maxDepth.toNat_lt
  rw [wordPositive] at positive
  rw [UInt32.ofInt,UInt32.toNat_ofNat']
  simp only [clampInt,asInt]
  split_ifs <;> omega

def AdaptiveUnder (s : SpeculationScheduler) (scaled : Int) (cap : UInt32) : Prop :=
  s.policy.maxDepth ≤ cap ∨
    s.adaptive.history ≠ [] ∧ scaled ≤ cap.toNat ∧ s.policy.maxDepth.toNat < 2^31

section adaptive
variable {s : SpeculationScheduler} (positive : 1 ≤ s.policy.maxDepth) (adaptive : s.policy.adaptiveDepthEnabled = true)
include positive adaptive

omit adaptive in
theorem clampedDepthInside (scaled : Int) :
    1 ≤ s.adaptive.clampedDepth s.policy scaled ∧ s.adaptive.clampedDepth s.policy scaled ≤ s.policy.maxDepth := by
  rw [AdaptiveDepth.clampedDepth]
  split
  · exact ⟨positive,UInt32.le_refl _⟩
  · have cases := clampedCases positive scaled
    rw [wordPositive] at positive ⊢
    rw [UInt32.le_iff_toNat_le]
    split_ifs at cases <;> omega

theorem clampedDepthUnder (scaled : Int) {cap : UInt32} (some_ : 1 ≤ cap) :
    s.adaptive.clampedDepth s.policy scaled ≤ cap ↔ AdaptiveUnder s scaled cap := by
  rw [AdaptiveDepth.clampedDepth,AdaptiveUnder,adaptive]
  cases s.adaptive.history with
  | nil => simp
  | cons ratio rest =>
      have cases := clampedCases positive scaled
      rw [wordPositive] at positive some_
      simp only [Bool.not_true,List.isEmpty_cons,Bool.or_self,Bool.false_eq_true,if_false,UInt32.le_iff_toNat_le,ne_eq,
        reduceCtorEq,not_false_eq_true,true_and]
      split_ifs at cases <;> omega

theorem scaledDepthAdaptive (headroom : UInt32) (scaled : Int) :
    s.scaledDepth headroom scaled = s.adaptive.clampedDepth s.policy scaled := by
  have least := (clampedDepthInside positive scaled).1
  simp only [SpeculationScheduler.scaledDepth,adaptive,if_true]
  rw [wordPositive] at least
  apply UInt32.toNat_inj.mp
  rw [wordMax]
  exact Nat.max_eq_right least

end adaptive

theorem scaledDepthFixed {s : SpeculationScheduler} (positive : 1 ≤ s.policy.maxDepth)
    (fixed : s.policy.adaptiveDepthEnabled = false) (headroom : UInt32) (scaled : Int) :
    WithinCaps s.policy headroom (s.scaledDepth headroom scaled) := by
  have one : (1 : UInt32).toNat = 1 := rfl
  have two : (2 : UInt32).toNat = 2 := rfl
  have room : headroom ≠ 0 → 1 ≤ headroom.toNat := by
    intro some_
    exact UInt32.lt_iff_toNat_lt.mp (UInt32.pos_iff_ne_zero.mpr some_)
  rw [wordPositive] at positive
  have depth : (s.scaledDepth headroom scaled).toNat = max 1 (if headroom ≠ 0
      then min (if s.policy.latencyClass = .interactive then min 2 s.policy.maxDepth.toNat else s.policy.maxDepth.toNat)
        headroom.toNat
      else if s.policy.latencyClass = .interactive then min 2 s.policy.maxDepth.toNat else s.policy.maxDepth.toNat) := by
    simp only [SpeculationScheduler.scaledDepth,fixed,Bool.false_eq_true,if_false,wordMax,one,apply_ite UInt32.toNat,
      wordMin,two]
  constructor
  · rw [wordPositive,depth]
    omega
  · rw [UInt32.le_iff_toNat_le,depth]
    split_ifs <;> omega
  · intro interactive
    rw [UInt32.le_iff_toNat_le,depth,if_pos interactive,two]
    split_ifs <;> omega
  · intro some_
    have least := room some_
    rw [UInt32.le_iff_toNat_le,depth,if_pos some_]
    omega

theorem plannedDepthWithinCapsWhen (s : SpeculationScheduler) (headroom : UInt32) (positive : 1 ≤ s.policy.maxDepth) :
    (∀ req generation memory saturation, ∃ scaled,
      (s.planProposal req generation headroom memory saturation).depth = s.scaledDepth headroom scaled) ∧
    ∀ scaled, WithinCaps s.policy headroom (s.scaledDepth headroom scaled) ↔
      s.policy.adaptiveDepthEnabled = false ∨
      (s.policy.latencyClass = .interactive → AdaptiveUnder s scaled 2) ∧
      (headroom ≠ 0 → AdaptiveUnder s scaled headroom) := by
  refine ⟨fun req generation memory saturation => planDepthScaled s req generation headroom memory saturation,?_⟩
  intro scaled
  cases adaptive : s.policy.adaptiveDepthEnabled with
  | false => exact iff_of_true (scaledDepthFixed positive adaptive headroom scaled) (.inl rfl)
  | true =>
      have room : headroom ≠ 0 → 1 ≤ headroom := by
        intro some_
        rw [wordPositive]
        exact UInt32.lt_iff_toNat_lt.mp (UInt32.pos_iff_ne_zero.mpr some_)
      obtain ⟨least,most⟩ := clampedDepthInside positive scaled
      rw [scaledDepthAdaptive positive adaptive,or_iff_right (by decide)]
      constructor
      · intro within
        refine ⟨?_,?_⟩
        · intro interactive
          exact (clampedDepthUnder positive adaptive scaled (by decide)).mp (within.interactive interactive)
        · intro some_
          exact (clampedDepthUnder positive adaptive scaled (room some_)).mp (within.headroom some_)
      · rintro ⟨two,above⟩
        refine ⟨least,most,?_,?_⟩
        · intro interactive
          exact (clampedDepthUnder positive adaptive scaled (by decide)).mpr (two interactive)
        · intro some_
          exact (clampedDepthUnder positive adaptive scaled (room some_)).mpr (above some_)

theorem loweredDepthWithinCaps : (1 : UInt32) ≤ 8 ∧ WithinCaps { maxDepth := 8, latencyClass := .interactive } 3
    (SpeculationScheduler.scaledDepth
      { policy := { maxDepth := 8, latencyClass := .interactive }, adaptive := { history := [0.0] } } 3 2) := by
  have whether := (plannedDepthWithinCapsWhen
    { policy := { maxDepth := 8, latencyClass := .interactive }, adaptive := { history := [0.0] } } 3 (by decide)).2 2
  refine ⟨by decide,whether.mpr (.inr ⟨?_,?_⟩)⟩
  · intro _
    exact .inr ⟨List.cons_ne_nil _ _,by decide,by decide⟩
  · intro _
    exact .inr ⟨List.cons_ne_nil _ _,by decide,by decide⟩

theorem interactiveDepthUncapped : ¬WithinCaps { latencyClass := .interactive } 0
    (SpeculationScheduler.planProposal { policy := { latencyClass := .interactive } } {} ⟨0⟩ 0 0 0.0).depth := by
  intro within
  have planned : (SpeculationScheduler.planProposal { policy := { latencyClass := .interactive } } {} ⟨0⟩ 0 0 0.0).depth =
    4 := rfl
  have two := within.interactive rfl
  rw [planned] at two
  exact absurd two (by decide)

end SpeculationFabric
