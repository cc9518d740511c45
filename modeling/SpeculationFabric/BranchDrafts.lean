import SpeculationFabric.DraftTarget

/-! Two branches of one proposal. Up to the aligned part both drafts follow the target and
each other; at the first position behind it each is moved by its own branch index, and
the moves are told apart modulo the vocabulary. Branches that are moved alike stay
together for good, since a token moved alike leads to the same state. -/
namespace SpeculationFabric.CpuProposer

/- The sum wraps at a multiple of the vocabulary, also near the top of the index range. -/
theorem perturbedAlike (expected b₁ b₂ : UInt32) :
    perturbed expected b₁ = perturbed expected b₂ ↔ b₁.toNat % 4096 = b₂.toNat % 4096 := by
  have vocabulary : kSyntheticVocab.toNat = 4096 := rfl
  have one : (1 : UInt32).toNat = 1 := rfl
  simp only [← UInt32.toNat_inj,perturbed,UInt32.toNat_mod,UInt32.toNat_add,vocabulary,one]
  omega

section walks
variable (tgt : SyntheticModel) (aligned b₁ b₂ : UInt32)

theorem draftTokenAlike (state : List UInt32) (i prev : UInt32) (alike : i < aligned ∨ b₁.toNat % 4096 = b₂.toNat % 4096) :
    (if i < aligned then tgt.token state i prev kSyntheticVocab
      else perturbed (tgt.token state i prev kSyntheticVocab) b₁) =
    if i < aligned then tgt.token state i prev kSyntheticVocab
      else perturbed (tgt.token state i prev kSyntheticVocab) b₂ := by
  by_cases inside : i < aligned
  · rw [if_pos inside,if_pos inside]
  · rw [if_neg inside,if_neg inside]
    exact (perturbedAlike _ b₁ b₂).mpr (alike.resolve_left inside)

theorem draftsAlike (alike : b₁.toNat % 4096 = b₂.toNat % 4096) (count : Nat) (i : UInt32) (state : List UInt32)
    (prev : UInt32) : draftFrom tgt aligned b₁ count i state prev = draftFrom tgt aligned b₂ count i state prev := by
  induction count generalizing i state prev with
  | zero => rfl
  | succ count ih =>
      have token := draftTokenAlike tgt aligned b₁ b₂ state i prev (.inr alike)
      unfold perturbed at token
      rw [draftFrom,draftFrom]
      rw [token,ih]

theorem draftsShare (count : Nat) (i : UInt32) (state : List UInt32) (prev : UInt32) (room : i.toNat + count < 2 ^ 32) :
    ∀ j, i.toNat + j < aligned.toNat → (draftFrom tgt aligned b₁ count i state prev)[j]? =
      (draftFrom tgt aligned b₂ count i state prev)[j]? := by
  induction count generalizing i state prev with
  | zero =>
      intro j _
      rfl
  | succ count ih =>
      intro j inside
      have next : (i + 1).toNat = i.toNat + 1 := nextPosition (by omega)
      have token := draftTokenAlike tgt aligned b₁ b₂ state i prev
        (.inl (UInt32.lt_iff_toNat_lt.mpr (by omega)))
      unfold perturbed at token
      rw [draftFrom,draftFrom]
      rw [token]
      cases j with
      | zero => rfl
      | succ j => exact ih _ _ _ (by omega) j (by omega)

theorem draftsPart (count : Nat) (i : UInt32) (state : List UInt32) (prev : UInt32) (room : i.toNat + count < 2 ^ 32)
    (before : i.toNat ≤ aligned.toNat) (behind : aligned.toNat < i.toNat + count) :
    (draftFrom tgt aligned b₁ count i state prev)[aligned.toNat - i.toNat]? =
      (draftFrom tgt aligned b₂ count i state prev)[aligned.toNat - i.toNat]? ↔
        b₁.toNat % 4096 = b₂.toNat % 4096 := by
  induction count generalizing i state prev with
  | zero => omega
  | succ count ih =>
      have next : (i + 1).toNat = i.toNat + 1 := nextPosition (by omega)
      rw [draftFrom,draftFrom]
      by_cases here : i.toNat = aligned.toNat
      · have outside : ¬i < aligned := by
          rw [UInt32.lt_iff_toNat_lt]
          omega
        have position : aligned.toNat - i.toNat = 0 := by omega
        rw [position,List.getElem?_cons_zero,List.getElem?_cons_zero,if_neg outside,if_neg outside,Option.some.injEq]
        rw [← perturbedAlike (tgt.token state i prev kSyntheticVocab),perturbed,perturbed,Token.mk.injEq]
        exact and_iff_left rfl
      · have token := draftTokenAlike tgt aligned b₁ b₂ state i prev
          (.inl (UInt32.lt_iff_toNat_lt.mpr (by omega)))
        unfold perturbed at token
        have position : aligned.toNat - i.toNat = (aligned.toNat - (i + 1).toNat) + 1 := by omega
        rw [token,position,List.getElem?_cons_succ,List.getElem?_cons_succ]
        exact ih _ _ _ (by omega) (by omega) (by omega)

end walks

theorem draftSharesAligned (cfg : CpuProposerConfig) (input : ProposalInput) (b₁ b₂ : UInt32) :
    ∀ j < cfg.alignedTokens.toNat, (draft cfg { input with branchIndex := b₁ })[j]? =
      (draft cfg { input with branchIndex := b₂ })[j]? := by
  intro j inside
  have bound := input.depth.toNat_lt
  exact draftsShare _ cfg.alignedTokens b₁ b₂ input.depth.toNat 0 _ _ (by show 0 + input.depth.toNat < 2 ^ 32; omega) j
    (by show 0 + j < cfg.alignedTokens.toNat; omega)

theorem draftPartsBehind (cfg : CpuProposerConfig) (input : ProposalInput) (b₁ b₂ : UInt32)
    (short : cfg.alignedTokens < input.depth) :
    (draft cfg { input with branchIndex := b₁ })[cfg.alignedTokens.toNat]? =
      (draft cfg { input with branchIndex := b₂ })[cfg.alignedTokens.toNat]? ↔
        b₁.toNat % 4096 = b₂.toNat % 4096 := by
  have bound := input.depth.toNat_lt
  rw [UInt32.lt_iff_toNat_lt] at short
  exact draftsPart _ cfg.alignedTokens b₁ b₂ input.depth.toNat 0 _ _ (by show 0 + input.depth.toNat < 2 ^ 32; omega)
    (Nat.zero_le _) (by show cfg.alignedTokens.toNat < 0 + input.depth.toNat; omega)

theorem draftSame (cfg : CpuProposerConfig) (input : ProposalInput) (b₁ b₂ : UInt32) :
    draft cfg { input with branchIndex := b₁ } = draft cfg { input with branchIndex := b₂ } ↔
      input.depth ≤ cfg.alignedTokens ∨ b₁.toNat % 4096 = b₂.toNat % 4096 := by
  constructor
  · intro same
    by_cases deep : input.depth ≤ cfg.alignedTokens
    · exact .inl deep
    · exact .inr ((draftPartsBehind cfg input b₁ b₂ (UInt32.not_le.mp deep)).mp (by rw [same]))
  · rintro (deep | alike)
    · apply List.ext_getElem?
      intro j
      by_cases inside : j < cfg.alignedTokens.toNat
      · exact draftSharesAligned cfg input b₁ b₂ j inside
      · rw [UInt32.le_iff_toNat_le] at deep
        have outside (b : UInt32) : (draft cfg { input with branchIndex := b })[j]? = none := by
          rw [List.getElem?_eq_none_iff,draftLength]
          show input.depth.toNat ≤ j
          omega
        rw [outside,outside]
    · exact draftsAlike _ _ b₁ b₂ alike _ _ _ _

theorem branchesSeparateBehindAligned (cfg : CpuProposerConfig) (input : ProposalInput) (b₁ b₂ : UInt32)
    (positive : 1 ≤ input.depth) (bounded : input.depth ≤ 256)
    (budget : input.computeBudget = 0 ∨ input.depth.toUInt64 ≤ input.computeBudget)
    (short : cfg.alignedTokens < input.depth) :
    ∃ pr₁ pr₂ one other, propose cfg { input with branchIndex := b₁ } = .ok pr₁ ∧
      propose cfg { input with branchIndex := b₂ } = .ok pr₂ ∧ pr₁.candidate = some one ∧ pr₂.candidate = some other ∧
      one.size = input.depth.toNat ∧ other.size = input.depth.toNat ∧
      (∀ j < cfg.alignedTokens.toNat, one.tokens[j]? = other.tokens[j]?) ∧
      (b₁.toNat % 4096 ≠ b₂.toNat % 4096 →
        one.tokens[cfg.alignedTokens.toNat]? ≠ other.tokens[cfg.alignedTokens.toNat]?) ∧
      (b₁.toNat % 4096 = b₂.toNat % 4096 → one = other) := by
  obtain ⟨pr₁,answer₁,_,_,produced₁⟩ := proposeWithin cfg { input with branchIndex := b₁ } positive bounded budget
  obtain ⟨pr₂,answer₂,_,_,produced₂⟩ := proposeWithin cfg { input with branchIndex := b₂ } positive bounded budget
  refine ⟨pr₁,pr₂,_,_,answer₁,answer₂,produced₁,produced₂,draftLength _ _,draftLength _ _,?_,?_,?_⟩
  · exact draftSharesAligned cfg input b₁ b₂
  · intro apart same
    exact apart ((draftPartsBehind cfg input b₁ b₂ short).mp same)
  · intro alike
    rw [(draftSame cfg input b₁ b₂).mpr (.inr alike)]

theorem lastIndexSeparates : ∃ pr₁ pr₂ one other, propose { alignedTokens := 2 } { depth := 6, branchIndex := 0 } = .ok pr₁ ∧
    propose { alignedTokens := 2 } { depth := 6, branchIndex := 4294967295 } = .ok pr₂ ∧ pr₁.candidate = some one ∧
    pr₂.candidate = some other ∧ (∀ j < 2, one.tokens[j]? = other.tokens[j]?) ∧ one.tokens[2]? ≠ other.tokens[2]? := by
  obtain ⟨pr₁,pr₂,one,other,answer₁,answer₂,produced₁,produced₂,_,_,shares,parts,_⟩ :=
    branchesSeparateBehindAligned { alignedTokens := 2 } { depth := 6 } 0 4294967295 (by decide) (by decide) (.inl rfl)
      (by decide)
  exact ⟨pr₁,pr₂,one,other,answer₁,answer₂,produced₁,produced₂,shares,parts (by decide)⟩

end SpeculationFabric.CpuProposer
