import Mathlib.Data.List.Basic
import Mathlib.Data.List.Count
import Mathlib.Data.List.TakeWhile

/-! The leading run of accepted positions in a list of verdicts, against the number
of accepted positions anywhere. The two agree exactly when nothing is accepted
after the first rejection. -/
namespace Leading

def leading (verdicts : List Bool) : Nat := (verdicts.takeWhile id).length

def LateAcceptance (verdicts : List Bool) : Prop :=
  ∃ i j : Nat, i < j ∧ verdicts[i]? = some false ∧ verdicts[j]? = some true

@[simp] theorem leadingNil : leading [] = 0 := rfl

@[simp] theorem leadingTrue (rest : List Bool) : leading (true :: rest) = leading rest + 1 := by
  simp [leading]

@[simp] theorem leadingFalse (rest : List Bool) : leading (false :: rest) = 0 := by
  simp [leading]

theorem leadingLeCount (verdicts : List Bool) : leading verdicts ≤ verdicts.count true := by
  induction verdicts with
  | nil => exact Nat.le_refl 0
  | cons v rest ih =>
      cases v with
      | true =>
          rw [leadingTrue,List.count_cons_self]
          omega
      | false =>
          rw [leadingFalse]
          exact Nat.zero_le _

theorem acceptedBefore {verdicts : List Bool} {i : Nat} (before : i < leading verdicts) :
    verdicts[i]? = some true := by
  induction verdicts generalizing i with
  | nil => exact absurd before (Nat.not_lt_zero i)
  | cons v rest ih =>
      cases v with
      | true =>
          rw [leadingTrue] at before
          cases i with
          | zero => rfl
          | succ i => exact ih (by omega)
      | false => exact absurd before (by simp)

theorem lateTrue (rest : List Bool) : LateAcceptance (true :: rest) ↔ LateAcceptance rest := by
  constructor
  · rintro ⟨i,j,order,rejected,accepted⟩
    cases i with
    | zero => cases rejected
    | succ i =>
        cases j with
        | zero => omega
        | succ j => exact ⟨i,j,by omega,rejected,accepted⟩
  · rintro ⟨i,j,order,rejected,accepted⟩
    exact ⟨i + 1,j + 1,by omega,rejected,accepted⟩

theorem lateFalse (rest : List Bool) : LateAcceptance (false :: rest) ↔ 0 < rest.count true := by
  rw [List.count_pos_iff]
  constructor
  · rintro ⟨i,j,order,rejected,accepted⟩
    cases j with
    | zero => omega
    | succ j => exact List.mem_of_getElem? (i := j) accepted
  · intro member
    obtain ⟨j,accepted⟩ := List.getElem?_of_mem member
    exact ⟨0,j + 1,by omega,rfl,accepted⟩

theorem countEqLeading (verdicts : List Bool) :
    verdicts.count true = leading verdicts ↔ ¬ LateAcceptance verdicts := by
  induction verdicts with
  | nil =>
      refine ⟨fun _ late => ?_,fun _ => rfl⟩
      obtain ⟨i,j,_,rejected,_⟩ := late
      exact absurd rejected (by simp)
  | cons v rest ih =>
      cases v with
      | true =>
          rw [leadingTrue,List.count_cons_self,lateTrue,← ih]
          omega
      | false =>
          rw [leadingFalse,lateFalse,List.count_cons_of_ne (by decide)]
          omega

theorem leadingWhole (verdicts : List Bool) :
    verdicts.count true = verdicts.length ↔ leading verdicts = verdicts.length := by
  constructor
  · intro all
    have accepted : verdicts.takeWhile id = verdicts := by
      rw [List.takeWhile_eq_self_iff]
      intro v member
      exact (List.count_eq_length.mp all v member).symm
    rw [leading,accepted]
  · intro whole
    have most : verdicts.count true ≤ verdicts.length := List.count_le_length
    have least := leadingLeCount verdicts
    omega

end Leading
