import Mathlib.Data.List.DropRight

/-! Queues that drop their oldest element when they outgrow a window. An insertion
drops one element at most, so what is kept after it is the most recent part of what was
inserted as long as the window it meets is not below what is kept already. How much is
kept then follows from the windows alone. -/
namespace Windows

variable {α : Type}

def push (window : Nat) (kept : List α) (a : α) : List α :=
  let next := kept ++ [a]
  if next.length > window then next.drop 1 else next

def keeps (windows : List Nat) : Nat := windows.foldl (fun kept window => min window (kept + 1)) 0

theorem keepsNext (windows : List Nat) (window : Nat) :
    keeps (windows ++ [window]) = min window (keeps windows + 1) := by
  rw [keeps,List.foldl_append]
  rfl

theorem keepsBelow (windows : List Nat) : keeps windows ≤ windows.length := by
  induction windows using List.reverseRecOn with
  | nil => exact Nat.le_refl 0
  | append_singleton windows window ih =>
      rw [keepsNext,List.length_append,List.length_singleton]
      omega

theorem keepsWhole {windows : List Nat} {window : Nat} (earlier : ∀ w ∈ windows, window ≤ w) :
    keeps (windows ++ [window]) = min window (windows.length + 1) := by
  have room : min window windows.length ≤ keeps windows := by
    induction windows using List.reverseRecOn with
    | nil => exact Nat.min_le_right _ _
    | append_singleton windows last ih =>
        have before := ih fun w member => earlier w (List.mem_append_left _ member)
        have here := earlier last (List.mem_append_right _ (List.mem_singleton_self last))
        rw [keepsNext,List.length_append,List.length_singleton]
        omega
  have least := keepsBelow windows
  rw [keepsNext]
  omega

theorem pushRecent {window k : Nat} {inserted : List α} (a : α) (inside : k ≤ inserted.length) (room : k ≤ window) :
    push window (inserted.rtake k) a = (inserted ++ [a]).rtake (min window (k + 1)) := by
  have whole : inserted.rtake k ++ [a] = (inserted ++ [a]).rtake (k + 1) := by
    rw [List.rtake_concat_succ]
  have length : (inserted.rtake k ++ [a]).length = k + 1 := by
    rw [List.length_append,List.length_singleton,List.rtake,List.length_drop]
    omega
  rw [push,length]
  split
  · rename_i full
    have same : min window (k + 1) = k := by omega
    rw [whole,same,List.rtake,List.rtake,List.drop_drop]
    congr 1
    rw [List.length_append,List.length_singleton]
    omega
  · rename_i fits
    have same : min window (k + 1) = k + 1 := by omega
    rw [whole,same]

end Windows
