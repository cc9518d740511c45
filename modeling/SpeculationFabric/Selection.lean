import Mathlib.Data.List.Basic

/-! A scan that keeps the first best index. The challenger comes later in the list and
takes over only with a strictly larger count, so ties stay with the earlier one. -/
namespace Selection

variable {count : Nat → Nat} {better : Nat → Nat → Nat} {n : Nat}

theorem bestAfter (moves : ∀ w i, w < i → i < n → better w i = if count w < count i then i else w) (k : Nat)
    (room : k + 1 ≤ n) :
    ∃ w ≤ k, (List.range' 1 k).foldl better 0 = w ∧ (∀ j ≤ k, count j ≤ count w) ∧ ∀ j < w, count j < count w := by
  induction k with
  | zero =>
      refine ⟨0,Nat.le_refl 0,rfl,?_,fun j order => absurd order (Nat.not_lt_zero j)⟩
      intro j below
      exact Nat.le_of_eq (congrArg count (Nat.le_zero.mp below))
  | succ k ih =>
      obtain ⟨w,range,folded,most,first⟩ := ih (by omega)
      rw [List.range'_concat,List.foldl_append,folded]
      simp only [List.foldl_cons,List.foldl_nil,Nat.one_mul,Nat.add_comm 1 k]
      rw [moves w (k + 1) (by omega) (by omega)]
      by_cases more : count w < count (k + 1)
      · refine ⟨k + 1,Nat.le_refl _,if_pos more,?_,?_⟩
        · intro j below
          rcases Nat.lt_or_eq_of_le below with earlier | rfl
          · have := most j (by omega)
            omega
          · exact Nat.le_refl _
        · intro j earlier
          have := most j (by omega)
          omega
      · refine ⟨w,by omega,if_neg more,?_,first⟩
        intro j below
        rcases Nat.lt_or_eq_of_le below with earlier | rfl
        · exact most j (by omega)
        · omega

theorem firstBest (better : Nat → Nat → Nat) (counts : List Nat) (filled : 0 < counts.length)
    (moves : ∀ w i, w < i → i < counts.length →
      better w i = if counts.getD w 0 < counts.getD i 0 then i else w) :
    (List.range' 1 (counts.length - 1)).foldl better 0 < counts.length ∧
    (∀ j < counts.length,
      counts.getD j 0 ≤ counts.getD ((List.range' 1 (counts.length - 1)).foldl better 0) 0) ∧
    ∀ j < (List.range' 1 (counts.length - 1)).foldl better 0,
      counts.getD j 0 < counts.getD ((List.range' 1 (counts.length - 1)).foldl better 0) 0 := by
  obtain ⟨w,range,folded,most,first⟩ := bestAfter moves (counts.length - 1) (by omega)
  rw [folded]
  exact ⟨by omega,fun j inside => most j (by omega),first⟩

end Selection
