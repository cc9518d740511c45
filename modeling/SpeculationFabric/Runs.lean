import Mathlib.Order.Basic

/-! Runs of a step function under a side condition on each step. The condition
sees the state before the step, so assumptions about an environment are written
as conditions and not folded into the step. The rules below are the only way the
later modules pass from one step to a whole run. -/
namespace Runs

variable {σ α : Type}

inductive Trace (step : σ → α → Option σ) (ok : σ → α → Prop) (s : σ) : List α → σ → Prop where
  | nil : Trace step ok s [] s
  | snoc {as t a u} (before : Trace step ok s as t) (allowed : ok t a) (taken : step t a = some u) :
      Trace step ok s (as ++ [a]) u

variable {step : σ → α → Option σ} {ok : σ → α → Prop} {s t u : σ} {as bs : List α}

theorem invariant {P : σ → Prop} (trace : Trace step ok s as t) (start : P s)
    (kept : ∀ v a w, P v → ok v a → step v a = some w → P w) : P t := by
  induction trace with
  | nil => exact start
  | snoc _ allowed taken ih => exact kept _ _ _ ih allowed taken

theorem recorded {P : List α → σ → Prop} (trace : Trace step ok s as t) (start : P [] s)
    (kept : ∀ past v a w, P past v → ok v a → step v a = some w → P (past ++ [a]) w) : P as t := by
  induction trace with
  | nil => exact start
  | snoc _ allowed taken ih => exact kept _ _ _ _ ih allowed taken

theorem append (left : Trace step ok s as t) (right : Trace step ok t bs u) : Trace step ok s (as ++ bs) u := by
  induction right with
  | nil => simpa using left
  | snoc _ allowed taken ih => simpa only [List.append_assoc] using ih.snoc allowed taken

theorem cons {a : α} (allowed : ok s a) (taken : step s a = some t) (rest : Trace step ok t as u) :
    Trace step ok s (a :: as) u :=
  append (.snoc .nil allowed taken) rest

theorem split (trace : Trace step ok s (as ++ bs) u) : ∃ t, Trace step ok s as t ∧ Trace step ok t bs u := by
  generalize whole : as ++ bs = cs at trace
  induction trace generalizing bs with
  | nil =>
      obtain ⟨rfl,rfl⟩ := List.append_eq_nil_iff.mp whole
      exact ⟨s,.nil,.nil⟩
  | @snoc cs t a u before allowed taken ih =>
      rcases List.eq_nil_or_concat bs with rfl | ⟨front,last,rfl⟩
      · rw [List.append_nil] at whole
        subst whole
        exact ⟨u,before.snoc allowed taken,.nil⟩
      · rw [List.concat_eq_append,← List.append_assoc] at whole
        obtain ⟨same,tail⟩ := List.append_inj' whole rfl
        cases tail
        obtain ⟨v,left,right⟩ := ih same
        exact ⟨v,left,by simpa using right.snoc allowed taken⟩

theorem determined {ok' : σ → α → Prop} (one : Trace step ok s as t) (other : Trace step ok' s as u) : t = u := by
  induction one generalizing u with
  | nil =>
      generalize done : ([] : List α) = as at other
      cases other with
      | nil => rfl
      | snoc => exact absurd done (by simp)
  | @snoc as t a v before allowed taken ih =>
      generalize done : as ++ [a] = bs at other
      cases other with
      | nil => exact absurd done (by simp)
      | @snoc cs t' b _ before' allowed' taken' =>
          obtain ⟨front,last⟩ := List.append_inj' done rfl
          cases last
          subst front
          rw [ih before'] at taken
          exact Option.some.inj (taken.symm.trans taken')

theorem firstTaken {a : α} (trace : Trace step ok s (a :: as) u) : ∃ t, ok s a ∧ step s a = some t ∧ Trace step ok t as u := by
  obtain ⟨t,one,rest⟩ := split (show Trace step ok s ([a] ++ as) u from trace)
  generalize first : [a] = front at one
  cases one with
  | nil => cases first
  | @snoc before v b t none allowed taken =>
      obtain ⟨empty,last⟩ := List.append_inj' (show [] ++ [a] = before ++ [b] from first) rfl
      cases last
      subst empty
      cases determined none (.nil : Trace step ok s [] s)
      exact ⟨t,allowed,taken,rest⟩

theorem resumed {a : α} (first : Trace step ok s as t) (whole : Trace step ok s (as ++ a :: bs) u) :
    ∃ v, ok t a ∧ step t a = some v ∧ Trace step ok v bs u := by
  obtain ⟨v,before,after⟩ := split whole
  cases determined first before
  exact firstTaken after

theorem weaken {ok' : σ → α → Prop} (trace : Trace step ok s as t)
    (weaker : ∀ v a, ok v a → ok' v a) : Trace step ok' s as t := by
  induction trace with
  | nil => exact .nil
  | snoc _ allowed taken ih => exact ih.snoc (weaker _ _ allowed) taken

theorem strengthen {ok' : σ → α → Prop} (trace : Trace step ok s as t) (all : ∀ a ∈ as, ∀ v, ok' v a) :
    Trace step (fun v a => ok v a ∧ ok' v a) s as t := by
  induction trace with
  | nil => exact .nil
  | snoc _ allowed taken ih =>
      exact (ih (fun a member => all a (List.mem_append_left _ member))).snoc
        ⟨allowed,all _ (List.mem_append_right _ (List.mem_singleton_self _)) _⟩ taken

def exec (step : σ → α → Option σ) (check : σ → α → Bool) : σ → List α → Option σ
  | s,[] => some s
  | s,a :: as => if check s a then (step s a).bind (fun t => exec step check t as) else none

theorem ofExec {check : σ → α → Bool} (sound : ∀ v a, check v a = true → ok v a)
    (run : exec step check s as = some t) : Trace step ok s as t := by
  induction as generalizing s with
  | nil => cases run; exact .nil
  | cons a as ih =>
      unfold exec at run
      split at run
      · rename_i passed
        obtain ⟨v,taken,rest⟩ := Option.bind_eq_some_iff.mp run
        exact cons (sound s a passed) taken (ih rest)
      · contradiction

def logged {β : Type} (step : σ → α → Option σ) (log : σ → α → List β) : σ → List α → List β
  | _,[] => []
  | s,a :: as =>
      log s a ++ (match step s a with
        | some t => logged step log t as
        | none => [])

theorem loggedAppend {β : Type} {log : σ → α → List β} (trace : Trace step ok s as t) (bs : List α) :
    logged step log s (as ++ bs) = logged step log s as ++ logged step log t bs := by
  induction trace generalizing bs with
  | nil => rfl
  | @snoc as v a u before allowed taken ih =>
      have last : logged step log v [a] = log v a := by
        simp only [logged,taken,List.append_nil]
      rw [List.append_assoc,ih,ih,last,List.singleton_append,logged,taken,List.append_assoc]

theorem loggedInvariant {β : Type} {log : σ → α → List β} {P : List β → σ → Prop} (trace : Trace step ok s as t)
    (start : P [] s) (kept : ∀ past v a w, P past v → ok v a → step v a = some w → P (past ++ log v a) w) :
    P (logged step log s as) t := by
  induction trace with
  | nil => exact start
  | @snoc as v a u before allowed taken ih =>
      have last : logged step log v [a] = log v a := by
        simp only [logged,taken,List.append_nil]
      rw [loggedAppend before,last]
      exact kept _ _ _ _ ih allowed taken

/- Systems with at most one thing to do next: `n` steps, and going on while there is one. -/
inductive Leads (next : σ → Option σ) : Nat → σ → σ → Prop where
  | here {s : σ} : Leads next 0 s s
  | step {n : Nat} {s t u : σ} (taken : next s = some t) (rest : Leads next n t u) : Leads next (n + 1) s u

variable {next : σ → Option σ} {m n : Nat}

theorem Leads.trans (first : Leads next n s t) (second : Leads next m t u) : Leads next (n + m) s u := by
  induction first with
  | here =>
      rw [Nat.zero_add]
      exact second
  | step taken _ ih =>
      rw [Nat.add_right_comm]
      exact .step taken (ih second)

def follow (next : σ → Option σ) : Nat → σ → σ
  | 0,s => s
  | fuel + 1,s =>
      match next s with
      | some t => follow next fuel t
      | none => s

theorem followDone (done : next s = none) (fuel : Nat) : follow next fuel s = s := by
  cases fuel with
  | zero => rfl
  | succ fuel => simp only [follow,done]

theorem followEnds (leads : Leads next n s t) (done : next t = none) {fuel : Nat} (enough : n ≤ fuel) :
    follow next fuel s = t := by
  induction leads generalizing fuel with
  | here => exact followDone done fuel
  | step taken _ ih =>
      cases fuel with
      | zero => omega
      | succ fuel =>
          simp only [follow,taken]
          exact ih done (by omega)

end Runs
