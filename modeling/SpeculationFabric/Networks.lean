import Mathlib.Logic.Function.Basic
import SpeculationFabric.Diamonds

/-! Processes that talk over unbounded queues. A process rests, acts, or waits for the
next message of one queue; every queue has one process that writes it and one that reads
it, and neither can be told apart from the outside by when it runs. -/
namespace Networks

inductive Move (γ μ S : Type) where
  | rest
  | act (next : S) (sent : List (γ × μ))
  | await (channel : γ) (react : μ → S × List (γ × μ))

structure Network (ι γ μ : Type) where
  Local : ι → Type
  writer : γ → ι
  reader : γ → ι
  move : ∀ i, Local i → Move γ μ (Local i)
  acts : ∀ {i here next sent}, move i here = .act next sent → ∀ x ∈ sent, writer x.1 = i
  reads : ∀ {i here channel react}, move i here = .await channel react → reader channel = i
  reacts : ∀ {i here channel react}, move i here = .await channel react → ∀ m, ∀ x ∈ (react m).2, writer x.1 = i

section basics
variable {ι γ μ : Type} [DecidableEq ι] [DecidableEq γ] {N : Network ι γ μ}

@[ext]
structure Network.State (N : Network ι γ μ) where
  locals : ∀ i, N.Local i
  queues : γ → List μ

def sentTo (channel : γ) (sent : List (γ × μ)) : List μ :=
  sent.filterMap fun x => if x.1 = channel then some x.2 else none

def Network.State.after (s : N.State) (i : ι) (next : N.Local i) (taken : γ → Nat) (sent : List (γ × μ)) : N.State :=
  ⟨Function.update s.locals i next,fun channel => (s.queues channel).drop (taken channel) ++ sentTo channel sent⟩

def Network.State.step (s : N.State) (i : ι) : Option N.State :=
  match N.move i (s.locals i) with
  | .rest => none
  | .act next sent => some (s.after i next (fun _ => 0) sent)
  | .await channel react =>
      match s.queues channel with
      | [] => none
      | m :: _ => some (s.after i (react m).1 (fun other => if other = channel then 1 else 0) (react m).2)

abbrev Network.Run (N : Network ι γ μ) (s : N.State) (moves : List ι) (t : N.State) : Prop :=
  Diamonds.Free Network.State.step s moves t

def Network.State.Done (s : N.State) : Prop := Diamonds.Stuck Network.State.step s

theorem sentNone {channel : γ} {sent : List (γ × μ)} (apart : ∀ x ∈ sent, x.1 ≠ channel) : sentTo channel sent = [] := by
  rw [sentTo,List.filterMap_eq_nil_iff]
  intro x member
  exact if_neg (apart x member)

/- What one move of a process is: what it takes and sends depends on its own state and
the front of the queues it reads, and it touches no queue that is not its own. -/
structure Fires (N : Network ι γ μ) (i : ι) (s : N.State) (next : N.Local i) (taken : γ → Nat) (sent : List (γ × μ)) :
    Prop where
  inside : ∀ channel, taken channel ≤ (s.queues channel).length
  read : ∀ channel, N.reader channel ≠ i → taken channel = 0
  written : ∀ channel, N.writer channel ≠ i → sentTo channel sent = []
  again : ∀ u : N.State, u.locals i = s.locals i →
    (∀ channel, N.reader channel = i → s.queues channel <+: u.queues channel) →
    u.step i = some (u.after i next taken sent)

theorem actStep {s : N.State} {i : ι} {next : N.Local i} {sent : List (γ × μ)}
    (moves : N.move i (s.locals i) = .act next sent) : s.step i = some (s.after i next (fun _ => 0) sent) := by
  simp only [Network.State.step,moves]

theorem awaitStep {s : N.State} {i : ι} {channel : γ} {react : μ → N.Local i × List (γ × μ)} {m : μ} {rest : List μ}
    (moves : N.move i (s.locals i) = .await channel react) (front : s.queues channel = m :: rest) :
    s.step i = some (s.after i (react m).1 (fun other => if other = channel then 1 else 0) (react m).2) := by
  simp only [Network.State.step,moves,front]

theorem awaitNothing {s : N.State} {i : ι} {channel : γ} {react : μ → N.Local i × List (γ × μ)}
    (empty : s.queues channel = []) (moves : N.move i (s.locals i) = .await channel react) : s.step i = none := by
  simp only [Network.State.step,moves,empty]

theorem fires {s t : N.State} {i : ι} (step : s.step i = some t) :
    ∃ next taken sent, t = s.after i next taken sent ∧ Fires N i s next taken sent := by
  cases moves : N.move i (s.locals i) with
  | rest => simp only [Network.State.step,moves] at step; cases step
  | act next sent =>
      rw [actStep moves] at step
      refine ⟨next,fun _ => 0,sent,(Option.some.inj step).symm,fun _ => Nat.zero_le _,fun _ _ => rfl,?_,?_⟩
      · intro channel other
        exact sentNone fun x member same => other (same ▸ N.acts moves x member)
      · intro u here _
        exact actStep (here ▸ moves)
  | await channel react =>
      cases front : s.queues channel with
      | nil => simp only [Network.State.step,moves,front] at step; cases step
      | cons m rest =>
          rw [awaitStep moves front] at step
          have owner := N.reads moves
          refine ⟨_,_,_,(Option.some.inj step).symm,?_,?_,?_,?_⟩
          · intro other
            split
            · rename_i same
              rw [same,front]
              exact Nat.succ_le_succ (Nat.zero_le _)
            · exact Nat.zero_le _
          · intro other foreign
            have apart : other ≠ channel := by
              rintro rfl
              exact foreign owner
            exact if_neg apart
          · intro other foreign
            exact sentNone fun x member same => foreign (same ▸ N.reacts moves m x member)
          · intro u here longer
            obtain ⟨more,grown⟩ := longer channel owner
            rw [front] at grown
            exact awaitStep (here ▸ moves) grown.symm

theorem restsKept {s t : N.State} {i : ι} {moves : List ι} (rests : N.move i (s.locals i) = .rest) (run : N.Run s moves t) :
    t.locals i = s.locals i := by
  refine Runs.invariant (P := fun u => u.locals i = s.locals i) run rfl ?_
  intro u j v same _ taken
  have other : i ≠ j := by
    rintro rfl
    simp only [Network.State.step,same,rests] at taken
    cases taken
  obtain ⟨next,_,_,rfl,_⟩ := fires taken
  exact (Function.update_of_ne other _ _).trans same

theorem queueSwap {q x y : List μ} {n m : Nat} (first : n ≤ q.length) (second : m ≤ q.length) (oneReads : n = 0 ∨ m = 0)
    (oneWrites : x = [] ∨ y = []) : (q.drop n ++ x).drop m ++ y = (q.drop m ++ y).drop n ++ x := by
  have swap : x ++ y = y ++ x := by
    rcases oneWrites with rfl | rfl
    · simp
    · simp
  rcases oneReads with rfl | rfl
  · rw [List.drop_zero,List.drop_zero,List.drop_append_of_le_length second,List.append_assoc,List.append_assoc,swap]
  · rw [List.drop_zero,List.drop_zero,List.drop_append_of_le_length first,List.append_assoc,List.append_assoc,swap]

theorem networkCommutes (N : Network ι γ μ) : Diamonds.Commuting (Network.State.step (N := N)) := by
  intro s i j t u different one other
  obtain ⟨nextI,takenI,sentI,rfl,firesI⟩ := fires one
  obtain ⟨nextJ,takenJ,sentJ,rfl,firesJ⟩ := fires other
  have untouched {i j : ι} {next : N.Local i} {taken : γ → Nat} {sent : List (γ × μ)} (apart : i ≠ j)
      (firing : Fires N i s next taken sent) (channel : γ) (own : N.reader channel = j) :
      s.queues channel <+: (s.after i next taken sent).queues channel := by
    simp only [Network.State.after,firing.read channel (fun same => apart (same.symm.trans own)),List.drop_zero]
    exact List.prefix_append _ _
  refine ⟨_,firesJ.again _ ?_ (untouched different firesI),?_⟩
  · exact Function.update_of_ne (Ne.symm different) _ _
  · rw [firesI.again _ (Function.update_of_ne different _ _) (untouched (Ne.symm different) firesJ)]
    refine congrArg some (Network.State.ext ?_ ?_)
    · exact Function.update_comm (Ne.symm different) _ _ _
    · funext channel
      refine queueSwap (firesJ.inside channel) (firesI.inside channel) ?_ ?_
      · by_cases own : N.reader channel = i
        · exact .inl (firesJ.read channel fun same => different (own.symm.trans same))
        · exact .inr (firesI.read channel own)
      · by_cases own : N.writer channel = i
        · exact .inl (firesJ.written channel fun same => different (own.symm.trans same))
        · exact .inr (firesI.written channel own)

theorem networkDeterminate {s t : N.State} {moves : List ι} (run : N.Run s moves t) (done : t.Done) {others : List ι}
    {u : N.State} (other : N.Run s others u) :
    (∃ left, N.Run u left t ∧ (others ++ left).Perm moves) ∧ (u.Done → u = t) := by
  refine ⟨Diamonds.completes (networkCommutes N) run done other,?_⟩
  intro finished
  exact (Diamonds.sameEnd (networkCommutes N) run done other finished).1

end basics

end Networks
