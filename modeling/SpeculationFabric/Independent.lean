import SpeculationFabric.Runs
import Mathlib.Algebra.BigOperators.Group.Finset.Piecewise
import Mathlib.Data.List.ReduceOption

/-! Systems of parts that share nothing but a total. A step belongs to one part, is
either the start of an operation or the next piece of the one under way, and does to
its part what the part's own view decides. Such a system forgets how its parts were
interleaved: views, answers and the total depend only on what each part was asked. -/
namespace Independent

structure Parts (σ α ι L ω O M : Type) [AddCommMonoid M] where
  step : σ → α → Option σ
  ok : σ → α → Prop
  good : σ → Prop
  owner : σ → α → ι
  label : σ → α → Option ω
  answers : σ → α → List O
  view : ι → σ → L
  total : σ → M
  move : ι → L → Option ω → L
  weigh : ι → L → Option ω → M
  reply : ι → L → Option ω → List O
  idle : L → Prop
  kept : ∀ {s a t}, good s → ok s a → step s a = some t → good t
  own : ∀ {s a t}, good s → ok s a → step s a = some t →
    view (owner s a) t = move (owner s a) (view (owner s a) s) (label s a)
  others : ∀ {s a t i}, good s → ok s a → step s a = some t → i ≠ owner s a → view i t = view i s
  counted : ∀ {s a t}, good s → ok s a → step s a = some t →
    total t = total s + weigh (owner s a) (view (owner s a) s) (label s a)
  answered : ∀ {s a t}, good s → ok s a → step s a = some t →
    answers s a = reply (owner s a) (view (owner s a) s) (label s a)
  paced : ∀ {s a t}, good s → ok s a → step s a = some t → ((label s a).isSome ↔ idle (view (owner s a) s))

variable {σ α ι L ω O M : Type}

structure Round (ι ω O : Type) where
  owner : ι
  label : Option ω
  answers : List O

section rounds
variable [DecidableEq ι]

def roundsOf (i : ι) (rounds : List (Round ι ω O)) : List (Round ι ω O) := rounds.filter (fun r => r.owner = i)

def labels (i : ι) (rounds : List (Round ι ω O)) : List (Option ω) := (roundsOf i rounds).map Round.label

def results (i : ι) (rounds : List (Round ι ω O)) : List O := (roundsOf i rounds).flatMap Round.answers

def operations (i : ι) (rounds : List (Round ι ω O)) : List ω := (labels i rounds).reduceOption

theorem roundsMine {i : ι} (rounds : List (Round ι ω O)) (r : Round ι ω O) (mine : r.owner = i) :
    roundsOf i (rounds ++ [r]) = roundsOf i rounds ++ [r] := by
  simp only [roundsOf,List.filter_append,List.filter_cons,mine,decide_true,if_true,List.filter_nil]

theorem roundsOther {i : ι} (rounds : List (Round ι ω O)) (r : Round ι ω O) (other : r.owner ≠ i) :
    roundsOf i (rounds ++ [r]) = roundsOf i rounds := by
  simp only [roundsOf,List.filter_append,List.filter_cons,other,decide_false,Bool.false_eq_true,if_false,
    List.filter_nil,List.append_nil]

theorem operationsAppend (i : ι) (xs ys : List (Round ι ω O)) :
    operations i (xs ++ ys) = operations i xs ++ operations i ys := by
  simp only [operations,labels,roundsOf,List.filter_append,List.map_append,List.reduceOption_append]

theorem operationsElsewhere {i j : ι} {rounds : List (Round ι ω O)} (mine : ∀ r ∈ rounds, r.owner = i)
    (different : j ≠ i) : operations j rounds = [] := by
  have none : roundsOf j rounds = [] := by
    unfold roundsOf
    rw [List.filter_eq_nil_iff]
    intro r member here
    exact different ((of_decide_eq_true here).symm.trans (mine r member))
  simp only [operations,labels,none,List.map_nil,List.reduceOption_nil]

end rounds

namespace Parts
variable [AddCommMonoid M] (p : Parts σ α ι L ω O M)

def history (s : σ) (as : List α) : List (Round ι ω O) :=
  Runs.logged p.step (fun s a => [⟨p.owner s a,p.label s a,p.answers s a⟩]) s as

def after (i : ι) (l : L) (ls : List (Option ω)) : L := ls.foldl (p.move i) l

def cost (i : ι) : L → List (Option ω) → M
  | _,[] => 0
  | l,w :: ws => p.weigh i l w + cost i (p.move i l w) ws

def voice (i : ι) : L → List (Option ω) → List O
  | _,[] => []
  | l,w :: ws => p.reply i l w ++ voice i (p.move i l w) ws

def Steady (i : ι) : L → List (Option ω) → Prop
  | _,[] => True
  | l,w :: ws => (w.isSome ↔ p.idle l) ∧ Steady i (p.move i l w) ws

theorem afterSnoc (i : ι) (l : L) (ws : List (Option ω)) (w : Option ω) :
    p.after i l (ws ++ [w]) = p.move i (p.after i l ws) w := by
  simp only [after,List.foldl_append,List.foldl_cons,List.foldl_nil]

theorem costSnoc (i : ι) (l : L) (ws : List (Option ω)) (w : Option ω) :
    p.cost i l (ws ++ [w]) = p.cost i l ws + p.weigh i (p.after i l ws) w := by
  induction ws generalizing l with
  | nil => exact (add_zero _).trans (zero_add _).symm
  | cons v vs ih => rw [List.cons_append,cost,cost,ih,add_assoc]; rfl

theorem voiceSnoc (i : ι) (l : L) (ws : List (Option ω)) (w : Option ω) :
    p.voice i l (ws ++ [w]) = p.voice i l ws ++ p.reply i (p.after i l ws) w := by
  induction ws generalizing l with
  | nil => exact List.append_nil _
  | cons v vs ih => rw [List.cons_append,voice,voice,ih,List.append_assoc]; rfl

theorem steadySnoc {i : ι} {l : L} {ws : List (Option ω)} {w : Option ω} (steady : p.Steady i l ws)
    (paced : w.isSome ↔ p.idle (p.after i l ws)) : p.Steady i l (ws ++ [w]) := by
  induction ws generalizing l with
  | nil => exact ⟨paced,trivial⟩
  | cons v vs ih => exact ⟨steady.1,ih steady.2 paced⟩

/- Operations start when a part is idle and only then, so they fix what lies between. -/
theorem steadyUnique {i : ι} {l : L} {xs ys : List (Option ω)} (one : p.Steady i l xs) (other : p.Steady i l ys)
    (ends : p.idle (p.after i l xs)) (ends' : p.idle (p.after i l ys)) (same : xs.reduceOption = ys.reduceOption) :
    xs = ys := by
  induction xs generalizing l ys with
  | nil =>
      cases ys with
      | nil => rfl
      | cons y ys =>
          have started := other.1.mpr ends
          obtain ⟨o,rfl⟩ := Option.isSome_iff_exists.mp started
          simp [List.reduceOption_cons_of_some] at same
  | cons x xs ih =>
      cases ys with
      | nil =>
          have started := one.1.mpr ends'
          obtain ⟨o,rfl⟩ := Option.isSome_iff_exists.mp started
          simp [List.reduceOption_cons_of_some] at same
      | cons y ys =>
          have paced := one.1.trans other.1.symm
          cases x with
          | none =>
              cases y with
              | none => rw [ih one.2 other.2 ends ends' same]
              | some o => exact absurd (paced.mpr rfl) (by simp)
          | some o =>
              cases y with
              | none => exact absurd (paced.mp rfl) (by simp)
              | some o' =>
                  rw [List.reduceOption_cons_of_some,List.reduceOption_cons_of_some,List.cons.injEq] at same
                  obtain ⟨rfl,rest⟩ := same
                  rw [ih one.2 other.2 ends ends' rest]

variable [DecidableEq ι]

structure Explains (s : σ) (rounds : List (Round ι ω O)) (t : σ) : Prop where
  good : p.good t
  views : ∀ i, p.view i t = p.after i (p.view i s) (labels i rounds)
  voices : ∀ i, results i rounds = p.voice i (p.view i s) (labels i rounds)
  steady : ∀ i, p.Steady i (p.view i s) (labels i rounds)
  total : ∀ S : Finset ι, (∀ r ∈ rounds, r.owner ∈ S) →
    p.total t = p.total s + ∑ i ∈ S, p.cost i (p.view i s) (labels i rounds)

variable {p} {s t u : σ} {as bs : List α}

theorem explainsStep {a : α} {rounds : List (Round ι ω O)} (before : p.Explains s rounds t) (allowed : p.ok t a)
    (taken : p.step t a = some u) :
    p.Explains s (rounds ++ [⟨p.owner t a,p.label t a,p.answers t a⟩]) u := by
  have good := before.good
  have mine : ∀ i, p.owner t a = i → labels i (rounds ++ [⟨p.owner t a,p.label t a,p.answers t a⟩]) =
      labels i rounds ++ [p.label t a] := by
    intro i same
    rw [labels,roundsMine rounds _ same,List.map_append]
    rfl
  have theirs : ∀ i, p.owner t a ≠ i → labels i (rounds ++ [⟨p.owner t a,p.label t a,p.answers t a⟩]) =
      labels i rounds := by
    intro i other
    rw [labels,roundsOther rounds _ other]
    rfl
  refine ⟨p.kept good allowed taken,?_,?_,?_,?_⟩
  · intro i
    by_cases same : p.owner t a = i
    · rw [mine i same,afterSnoc,← before.views i,← same]
      exact p.own good allowed taken
    · rw [theirs i same,← before.views i]
      exact p.others good allowed taken (fun no => same no.symm)
  · intro i
    by_cases same : p.owner t a = i
    · rw [mine i same,voiceSnoc,← before.views i,← before.voices i,results,roundsMine rounds _ same,List.flatMap_append,
        ← same,← p.answered good allowed taken]
      simp only [List.flatMap_cons,List.flatMap_nil,List.append_nil]
      rfl
    · rw [theirs i same,← before.voices i,results,roundsOther rounds _ same]
      rfl
  · intro i
    by_cases same : p.owner t a = i
    · rw [mine i same]
      refine p.steadySnoc (before.steady i) ?_
      rw [← before.views i,← same]
      exact p.paced good allowed taken
    · rw [theirs i same]
      exact before.steady i
  · intro S all
    have inside : p.owner t a ∈ S := all _ (List.mem_append_right _ (List.mem_singleton_self _))
    have split : ∀ i, p.cost i (p.view i s) (labels i (rounds ++ [⟨p.owner t a,p.label t a,p.answers t a⟩])) =
        p.cost i (p.view i s) (labels i rounds) +
          if i = p.owner t a then p.weigh i (p.view i t) (p.label t a) else 0 := by
      intro i
      by_cases same : p.owner t a = i
      · rw [mine i same,costSnoc,← before.views i,if_pos same.symm]
      · rw [theirs i same,if_neg (fun no => same no.symm),add_zero]
    rw [p.counted good allowed taken,before.total S (fun r member => all r (List.mem_append_left _ member)),
      Finset.sum_congr rfl (fun i _ => split i),Finset.sum_add_distrib,Finset.sum_ite_eq' S,if_pos inside,add_assoc]

theorem explains (good : p.good s) (trace : Runs.Trace p.step p.ok s as t) : p.Explains s (p.history s as) t := by
  refine Runs.loggedInvariant trace ⟨good,fun _ => rfl,fun _ => rfl,fun _ => trivial,?_⟩
    (fun _ _ _ _ before allowed taken => explainsStep before allowed taken)
  intro S _
  have none : ∀ i ∈ S, p.cost i (p.view i s) (labels i ([] : List (Round ι ω O))) = 0 := fun _ _ => rfl
  rw [Finset.sum_congr rfl none,Finset.sum_const_zero,add_zero]

theorem agree (good : p.good s) (one : Runs.Trace p.step p.ok s as t) (other : Runs.Trace p.step p.ok s bs u)
    (ends : ∀ i, p.idle (p.view i t)) (ends' : ∀ i, p.idle (p.view i u))
    (same : ∀ i, operations i (p.history s as) = operations i (p.history s bs)) :
    (∀ i, p.view i t = p.view i u) ∧ p.total t = p.total u ∧
      ∀ i, results i (p.history s as) = results i (p.history s bs) := by
  have left := explains good one
  have right := explains good other
  have equal : ∀ i, labels i (p.history s as) = labels i (p.history s bs) := by
    intro i
    refine p.steadyUnique (left.steady i) (right.steady i) ?_ ?_ (same i)
    · rw [← left.views i]
      exact ends i
    · rw [← right.views i]
      exact ends' i
  refine ⟨?_,?_,?_⟩
  · intro i
    rw [left.views i,right.views i,equal i]
  · have covered : ∀ r ∈ p.history s as, r.owner ∈ ((p.history s as ++ p.history s bs).map Round.owner).toFinset := by
      intro r member
      exact List.mem_toFinset.mpr (List.mem_map_of_mem (List.mem_append_left _ member))
    have covered' : ∀ r ∈ p.history s bs, r.owner ∈ ((p.history s as ++ p.history s bs).map Round.owner).toFinset := by
      intro r member
      exact List.mem_toFinset.mpr (List.mem_map_of_mem (List.mem_append_right _ member))
    rw [left.total _ covered,right.total _ covered',Finset.sum_congr rfl (fun i _ => by rw [equal i])]
  · intro i
    rw [left.voices i,right.voices i,equal i]

end Parts

inductive InOrder : List ι → List (Round ι ω O) → Prop where
  | nil : InOrder [] []
  | cons {i order block rest} (mine : ∀ r ∈ block, r.owner = i) (later : InOrder order rest) :
      InOrder (i :: order) (block ++ rest)

theorem sequential [AddCommMonoid M] [DecidableEq ι] {p : Parts σ α ι L ω O M} {ready : σ → Prop} {wanted : ι → List ω}
    (block : ∀ i s, ready s → ∃ as t, Runs.Trace p.step p.ok s as t ∧ ready t ∧
      (∀ r ∈ p.history s as, r.owner = i) ∧ operations i (p.history s as) = wanted i)
    (order : List ι) (distinct : order.Nodup) {s : σ} (start : ready s) :
    ∃ as t, Runs.Trace p.step p.ok s as t ∧ ready t ∧ InOrder order (p.history s as) ∧
      ∀ i, operations i (p.history s as) = if i ∈ order then wanted i else [] := by
  induction order generalizing s with
  | nil =>
      refine ⟨[],s,.nil,start,.nil,?_⟩
      intro i
      rw [if_neg (List.not_mem_nil)]
      rfl
  | cons i order ih =>
      obtain ⟨as,t,first,ready',mine,asked⟩ := block i s start
      obtain ⟨bs,u,rest,last,later,others⟩ := ih (List.nodup_cons.mp distinct).2 ready'
      have joined : p.history s (as ++ bs) = p.history s as ++ p.history t bs := Runs.loggedAppend first bs
      refine ⟨as ++ bs,u,Runs.append first rest,last,joined ▸ .cons mine later,?_⟩
      intro j
      rw [joined,operationsAppend,others j]
      by_cases same : j = i
      · subst same
        rw [asked,if_neg (List.nodup_cons.mp distinct).1,if_pos List.mem_cons_self,List.append_nil]
      · rw [operationsElsewhere mine same,List.nil_append]
        exact if_congr (by simp [same]) rfl rfl

end Independent
