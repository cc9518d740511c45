import Mathlib.Algebra.GroupWithZero.Nat
import Mathlib.Data.List.AList
import Mathlib.Algebra.BigOperators.Group.List.Basic

/-! Sums over the values of a finite map. The sum is the one of the entries, so a
value that is replaced leaves the sum and the new one enters it; a missing key has
no share. -/
namespace Totals

variable {α β M : Type} [DecidableEq α] [AddCommMonoid M]

def total (g : β → M) (m : AList (fun _ : α => β)) : M := (m.entries.map (fun e => g e.2)).sum

def share (g : β → M) : Option β → M
  | some b => g b
  | none => 0

theorem eraseTotal (g : β → M) (a : α) (entries : List (Sigma fun _ : α => β)) :
    share g (entries.dlookup a) + ((entries.kerase a).map (fun e => g e.2)).sum = (entries.map (fun e => g e.2)).sum := by
  induction entries with
  | nil => exact add_zero 0
  | cons e rest ih =>
      by_cases here : a = e.1
      · subst here
        rw [List.kerase_cons_eq rfl,List.map_cons,List.sum_cons]
        exact congrArg (fun found => share g found + _) (List.dlookup_cons_eq rest e.1 e.2)
      · rw [List.kerase_cons_ne here,List.dlookup_cons_ne rest e here,List.map_cons,List.map_cons,List.sum_cons,
          List.sum_cons,add_left_comm,ih]

theorem insertTotal (g : β → M) (m : AList (fun _ : α => β)) (a : α) (b : β) :
    share g (m.lookup a) + total g (m.insert a b) = g b + total g m := by
  have entries : total g (m.insert a b) = g b + ((m.entries.kerase a).map (fun e => g e.2)).sum := by
    unfold total
    rw [AList.entries_insert,List.map_cons,List.sum_cons]
  rw [entries,add_left_comm]
  exact congrArg (fun rest => g b + rest) (eraseTotal g a m.entries)

theorem totalKeys (g : β → M) (m : AList (fun _ : α => β)) :
    total g m = (m.keys.map fun k => share g (m.lookup k)).sum := by
  unfold total
  rw [AList.keys,List.keys,List.map_map]
  refine congrArg List.sum (List.map_congr_left ?_)
  intro e member
  show g e.2 = share g (m.lookup e.1)
  rw [AList.mem_lookup_iff.mpr (show (⟨e.1,e.2⟩ : Sigma _) ∈ m.entries from member)]
  rfl

section owners
variable {γ : Type} {keys : List α}

theorem marksCount {δ : Type} (q : δ → Bool) (keys : List δ) : (keys.map fun k => if q k then 1 else 0).sum = keys.countP q := by
  induction keys with
  | nil => rfl
  | cons k keys ih =>
      rw [List.map_cons,List.sum_cons,List.countP_cons,ih]
      omega

theorem ownersCount (unique : keys.Nodup) (p : γ → Bool) (owner : γ → α) {things : List γ}
    (listed : ∀ c ∈ things, p c = true → owner c ∈ keys) :
    (keys.map fun k => things.countP fun c => p c && decide (owner c = k)).sum = things.countP p := by
  induction things with
  | nil => simp
  | cons c things ih =>
      have rest := ih fun d member => listed d (List.mem_cons_of_mem c member)
      have marked : (keys.map fun k => if (p c && decide (owner c = k)) = true then 1 else 0).sum =
          if p c = true then 1 else 0 := by
        cases counts : p c with
        | false => simp
        | true =>
            have once := List.count_eq_one_of_mem unique (listed c (List.mem_cons_self) counts)
            rw [marksCount,← once,if_pos rfl]
            exact List.countP_congr fun k _ => by simpa using eq_comm
      simp only [List.countP_cons,List.sum_map_add,rest,marked]

end owners

end Totals
