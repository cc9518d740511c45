import Mathlib.Data.List.Perm.Basic
import SpeculationFabric.Runs

/-! Systems in which two different moves that are both possible stay possible after each
other and come to the same state. A run that ends where nothing is left to do then
decides every other run: it makes the same moves in some order, or can still make them. -/
namespace Diamonds

open Runs

variable {σ α : Type}

abbrev Free (step : σ → α → Option σ) (s : σ) (as : List α) (t : σ) : Prop := Trace step (fun _ _ => True) s as t

def Stuck (step : σ → α → Option σ) (s : σ) : Prop := ∀ a, step s a = none

def Commuting (step : σ → α → Option σ) : Prop :=
  ∀ s a b t u, a ≠ b → step s a = some t → step s b = some u → ∃ v, step t b = some v ∧ step u a = some v

variable {step : σ → α → Option σ} {s t u : σ} {a b : α} {as bs : List α}

theorem free (taken : step s a = some t) (rest : Free step t as u) : Free step s (a :: as) u :=
  Runs.cons trivial taken rest

theorem firstMove (run : Free step s (a :: as) u) : ∃ t, step s a = some t ∧ Free step t as u := by
  obtain ⟨t,_,moved⟩ := Runs.firstTaken run
  exact ⟨t,moved⟩

theorem nowhere (run : Free step s as t) (stuck : Stuck step s) : as = [] ∧ t = s := by
  cases as with
  | nil => exact ⟨rfl,Runs.determined run (.nil : Free step s [] s)⟩
  | cons a as =>
      obtain ⟨u,taken,_⟩ := firstMove run
      rw [stuck a] at taken
      cases taken

variable (commuting : Commuting step)
include commuting

theorem movedUp (run : Free step s as t) (stuck : Stuck step t) (taken : step s b = some u) :
    ∃ cs, Free step u cs t ∧ (b :: cs).Perm as := by
  induction as generalizing s u with
  | nil =>
      cases Runs.determined run (.nil : Free step s [] s)
      rw [stuck b] at taken
      cases taken
  | cons a as ih =>
      obtain ⟨v,first,rest⟩ := firstMove run
      by_cases same : a = b
      · subst same
        cases first.symm.trans taken
        exact ⟨as,rest,.refl _⟩
      · obtain ⟨w,later,instead⟩ := commuting s a b v u same first taken
        obtain ⟨cs,follows,moves⟩ := ih rest later
        exact ⟨a :: cs,free instead follows,(List.Perm.swap a b cs).trans (moves.cons a)⟩

theorem completes (run : Free step s as t) (stuck : Stuck step t) (other : Free step s bs u) :
    ∃ cs, Free step u cs t ∧ (bs ++ cs).Perm as := by
  induction bs generalizing s as with
  | nil =>
      cases Runs.determined other (.nil : Free step s [] s)
      exact ⟨as,run,.refl _⟩
  | cons b bs ih =>
      obtain ⟨v,taken,rest⟩ := firstMove other
      obtain ⟨cs,follows,moves⟩ := movedUp commuting run stuck taken
      obtain ⟨ds,ends,left⟩ := ih follows rest
      exact ⟨ds,ends,(left.cons b).trans moves⟩

theorem sameEnd (run : Free step s as t) (stuck : Stuck step t) (other : Free step s bs u) (done : Stuck step u) :
    u = t ∧ bs.Perm as := by
  obtain ⟨cs,rest,moves⟩ := completes commuting run stuck other
  obtain ⟨rfl,rfl⟩ := nowhere rest done
  exact ⟨rfl,by simpa using moves⟩

end Diamonds
