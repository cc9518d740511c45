import Mathlib.Algebra.Ring.Nat
import Mathlib.Data.List.Basic
import Mathlib.Data.List.Nodup

/-! Drawing from a counter that wraps around. The draws are what it stood at before each
increment, so up to one whole turn they are distinct, after a whole turn they are all
there is, and then they start again. -/
namespace Tickets

variable {w : Nat}

def drawn (start : BitVec w) (n : Nat) : List (BitVec w) := (List.range n).map fun i => start + BitVec.ofNat w i

theorem drawnNext (start : BitVec w) (n : Nat) : drawn start (n + 1) = drawn start n ++ [start + BitVec.ofNat w n] := by
  simp only [drawn,List.range_succ,List.map_append,List.map_cons,List.map_nil]

theorem drawnLength (start : BitVec w) (n : Nat) : (drawn start n).length = n := by
  simp only [drawn,List.length_map,List.length_range]

theorem drawnUnique (start : BitVec w) {n : Nat} (few : n ≤ 2^w) : (drawn start n).Nodup := by
  refine List.Nodup.map_on ?_ List.nodup_range
  intro i early j late same
  have words := BitVec.add_right_inj start |>.mp same
  have values := congrArg BitVec.toNat words
  rw [List.mem_range] at early late
  rwa [BitVec.toNat_ofNat,BitVec.toNat_ofNat,Nat.mod_eq_of_lt (by omega),Nat.mod_eq_of_lt (by omega)] at values

theorem drawnAll (start a : BitVec w) : a ∈ drawn start (2^w) := by
  refine List.mem_map.mpr ⟨(a - start).toNat,List.mem_range.mpr (a - start).isLt,?_⟩
  rw [BitVec.ofNat_toNat,BitVec.setWidth_eq,BitVec.add_comm,BitVec.sub_add_cancel]

theorem drawnAround (start : BitVec w) : start + BitVec.ofNat w (2^w) = start := by
  have none : BitVec.ofNat w (2^w) = 0#w := by
    apply BitVec.eq_of_toNat_eq
    rw [BitVec.toNat_ofNat,Nat.mod_self]
    exact (Nat.zero_mod _).symm
  rw [none,BitVec.add_zero]

theorem drawnFresh (start : BitVec w) {n : Nat} (few : n < 2^w) : start + BitVec.ofNat w n ∉ drawn start n := by
  have unique := drawnUnique start (n := n + 1) few
  rw [drawnNext] at unique
  exact fun member => (List.nodup_append.mp unique).2.2 _ member _ (List.mem_singleton_self _) rfl

theorem turnWithout (start a : BitVec w) : ((drawn start (2^w)).filter (· != a)).length = 2^w - 1 := by
  rw [← (drawnUnique start (Nat.le_refl _)).erase_eq_filter,List.length_erase_of_mem (drawnAll start a),drawnLength]

theorem filterMapSet {α β : Type} (show_ : α → Option β) {xs : List α} {i : Nat} {a : α} (b : α)
    (there : xs[i]? = some a) (hidden : show_ a = none) :
    ((xs.set i b).filterMap show_).Perm ((show_ b).toList ++ xs.filterMap show_) := by
  induction xs generalizing i with
  | nil => simp at there
  | cons x xs ih =>
      cases i with
      | zero =>
          cases there
          rw [List.set_cons_zero,List.filterMap_cons_none hidden]
          cases shown : show_ b with
          | none => rw [List.filterMap_cons_none shown]; exact .refl _
          | some v => rw [List.filterMap_cons_some shown]; exact .refl _
      | succ i =>
          have rest := ih (i := i) (by simpa using there)
          rw [List.set_cons_succ]
          cases shown : show_ x with
          | none => rwa [List.filterMap_cons_none shown,List.filterMap_cons_none shown]
          | some v =>
              rw [List.filterMap_cons_some shown,List.filterMap_cons_some shown]
              exact (rest.cons v).trans List.perm_middle.symm

end Tickets
