import SpeculationFabric.Effects
import SpeculationFabric.Selection

/-! What every call in flight has gathered, and which requests exist. The locals of
a call are filled in lockstep: one result per input handed out, in branch order.
Nothing here speaks about the authority the inputs carried. -/
namespace SpeculationFabric

theorem stepCalls {s s' : System} {a : Action} (taken : s.step a = some s') :
    (s'.calls = s.calls ∧ ∀ index action, a ≠ .call index action) ∨
    (∃ now eventNow id, a = .runCycle now eventNow id ∧
      s'.calls = s.calls ++ [begun id (s.fabric.planCycle now eventNow id).1]) ∨
    ∃ index action call next, a = .call index action ∧ s.calls[index]? = some call ∧
      call.step s.fabric action = some (next,s'.fabric) ∧ s'.calls = s.calls.set index next := by
  cases a with
  | runCycle now eventNow id =>
      cases Option.some.inj taken
      exact .inr (.inl ⟨now,eventNow,id,rfl,rfl⟩)
  | call index action =>
      obtain ⟨call,next,f',present,moved,rfl⟩ := callMoved taken
      exact .inr (.inr ⟨index,action,call,next,rfl,present,moved,rfl⟩)
  | _ =>
      cases Option.some.inj taken
      refine .inl ⟨rfl,?_⟩
      intro index action same
      cases same

theorem callTaken {s : System} {index : Nat} {call next : Call} {action : CallAction} {f' : Fabric}
    (at_ : s.calls[index]? = some call) (moved : call.step s.fabric action = some (next,f')) :
    s.step (.call index action) = some ⟨f',s.calls.set index next⟩ ∧ (s.calls.set index next)[index]? = some next := by
  refine ⟨?_,List.getElem?_set_self (List.getElem?_eq_some_iff.mp at_).1⟩
  simp only [System.step,at_,bind,Option.bind_some,moved]

theorem appendedAt {α : Type} {xs : List α} {a b : α} {i : Nat} (at_ : (xs ++ [a])[i]? = some b) :
    xs[i]? = some b ∨ i = xs.length ∧ b = a := by
  rw [List.getElem?_append] at at_
  split at at_
  · exact .inl at_
  · rename_i past
    rw [List.getElem?_singleton] at at_
    split at at_
    · exact .inr ⟨by omega,(Option.some.inj at_).symm⟩
    · contradiction

theorem appendedKeeps {α : Type} {xs : List α} {b : α} {i : Nat} (at_ : xs[i]? = some b) (a : α) :
    (xs ++ [a])[i]? = some b := by
  have inside : i < xs.length := (List.getElem?_eq_some_iff.mp at_).1
  rw [List.getElem?_append_left inside]
  exact at_

@[simp] theorem begunRequest (id : RequestId) (plan : Sum (Result CycleOutcome) Planned) :
    (begun id plan).request = id := by
  cases plan <;> rfl

theorem activePlanned {id : RequestId} {plan : Sum (Result CycleOutcome) Planned}
    (active : (begun id plan).cycle.isSome) : ∃ p, plan = .inr p := by
  cases plan with
  | inl answer => contradiction
  | inr p => exact ⟨p,rfl⟩

theorem stepCallFrom {s s' : System} {a : Action} {j : Nat} {call : Call} (taken : s.step a = some s')
    (at_ : s'.calls[j]? = some call) :
    (s.calls[j]? = some call ∧ ∀ action, a ≠ .call j action) ∨
    (∃ now eventNow id, a = .runCycle now eventNow id ∧ call = begun id (s.fabric.planCycle now eventNow id).1) ∨
    ∃ action old, a = .call j action ∧ s.calls[j]? = some old ∧ old.step s.fabric action = some (call,s'.fabric) := by
  rcases stepCalls taken with ⟨kept,noCall⟩ | ⟨now,eventNow,id,rfl,grown⟩ | ⟨index,action,old,next,rfl,present,stepped,set⟩
  · rw [kept] at at_
    exact .inl ⟨at_,noCall j⟩
  · rw [grown] at at_
    rcases appendedAt at_ with old | ⟨_,rfl⟩
    · exact .inl ⟨old,by intro action same; cases same⟩
    · exact .inr (.inl ⟨now,eventNow,id,rfl,rfl⟩)
  · by_cases here : index = j
    · subst here
      rw [set,List.getElem?_set_self (List.getElem?_eq_some_iff.mp present).1] at at_
      cases Option.some.inj at_
      exact .inr (.inr ⟨action,old,rfl,present,stepped⟩)
    · rw [set,List.getElem?_set_ne here] at at_
      exact .inl ⟨at_,by intro other same; cases same; exact here rfl⟩

theorem stepCallTo {s s' : System} {a : Action} {j : Nat} {call : Call} (taken : s.step a = some s')
    (at_ : s.calls[j]? = some call) :
    (s'.calls[j]? = some call ∧ ∀ action, a ≠ .call j action) ∨
    ∃ action next, a = .call j action ∧ call.step s.fabric action = some (next,s'.fabric) ∧ s'.calls[j]? = some next := by
  rcases stepCalls taken with ⟨kept,noCall⟩ | ⟨now,eventNow,id,rfl,grown⟩ | ⟨index,action,old,next,rfl,present,stepped,set⟩
  · exact .inl ⟨by rw [kept]; exact at_,noCall j⟩
  · exact .inl ⟨by rw [grown]; exact appendedKeeps at_ _,by intro action same; cases same⟩
  · by_cases here : index = j
    · subst here
      cases Option.some.inj (present.symm.trans at_)
      exact .inr ⟨action,next,rfl,stepped,by rw [set,List.getElem?_set_self (List.getElem?_eq_some_iff.mp at_).1]⟩
    · exact .inl ⟨by rw [set,List.getElem?_set_ne here]; exact at_,by intro other same; cases same; exact here rfl⟩

theorem everyCallKept {x : Executors} {P : Call → Prop} {s s' : System} {a : Action}
    (taken : s.step a = some s') (allowed : x.admits s a) (all : ∀ call ∈ s.calls, P call)
    (opened : ∀ now eventNow id, P (begun id (s.fabric.planCycle now eventNow id).1))
    (moved : ∀ index call action next f', s.calls[index]? = some call → x.admits s (.call index action) →
      call.step s.fabric action = some (next,f') → P call → P next) : ∀ call ∈ s'.calls, P call := by
  intro call member
  obtain ⟨j,at_⟩ := List.mem_iff_getElem?.mp member
  rcases stepCallFrom taken at_ with ⟨old,_⟩ | ⟨now,eventNow,id,_,rfl⟩ | ⟨action,old,rfl,present,stepped⟩
  · exact all call (List.mem_of_getElem? old)
  · exact opened now eventNow id
  · exact moved j old action call _ present allowed stepped (all old (List.mem_of_getElem? present))

structure CycleFacts (x : Executors) (c : Cycle) : Prop where
  pins : c.pins.length = c.proposed.length
  vins : c.vins.length = c.accepted.length
  answered : c.accepted.length ≤ c.proposed.length
  counted : c.proposed.length ≤ c.planned.branchCount.toNat
  proposal : ∀ (i : Nat) (br : BranchResult), c.proposed[i]? = some br →
    br.branch = branchIdAt (UInt32.ofNat i) ∧ ∃ pin : ProposalInput, c.pins[i]? = some pin ∧ x.propose pin (.ok br.pr)
  verification : ∀ (i : Nat) (accept : AcceptanceResult), c.accepted[i]? = some accept →
    ∃ (vin : VerificationInput) (br : BranchResult), c.vins[i]? = some vin ∧ c.proposed[i]? = some br ∧
      br.pr.candidate = some vin.candidate ∧ vin.branch = br.branch ∧ x.verify vin (.ok accept)

def CallFacts (x : Executors) : Call → Prop
  | .proposing c | .proposalSent c _ =>
      CycleFacts x c ∧ c.accepted = [] ∧ c.proposed.length < c.planned.branchCount.toNat
  | .verifying c =>
      CycleFacts x c ∧ c.proposed.length = c.planned.branchCount.toNat ∧ c.accepted.length < c.proposed.length
  | .verificationSent c vin =>
      CycleFacts x c ∧ c.proposed.length = c.planned.branchCount.toNat ∧
      ∃ br : BranchResult, c.proposed[c.accepted.length]? = some br ∧ br.pr.candidate = some vin.candidate ∧
        vin.branch = br.branch
  | .settling c =>
      CycleFacts x c ∧ c.proposed.length = c.planned.branchCount.toNat ∧
      c.accepted.length = c.proposed.length ∧ 0 < c.accepted.length
  | .returned _ _ | .undefined _ => True

theorem maxOnePos (n : UInt32) : 0 < (max 1 n).toNat := by
  rw [wordMax]
  exact Nat.lt_of_lt_of_le Nat.one_pos (Nat.le_max_left _ _)

theorem maxOneSelf {n : UInt32} (positive : 0 < n.toNat) : max 1 n = n := by
  apply UInt32.toNat_inj.mp
  rw [wordMax]
  exact Nat.max_eq_right positive

theorem maxOneAgain (n : UInt32) : max 1 (max 1 n) = max 1 n := maxOneSelf (maxOnePos n)

structure PlanGoes (f : Fabric) (now : UInt64) (id : RequestId) (p : Planned) (left : Fabric) (rs : RequestState) :
    Prop where
  found : f.find id = some rs
  live : rs.terminal = false ∧ rs.cancelled = false
  inTime : deadlinePassed rs now = false
  compatible : (pairDecision rs).compatible = true
  unblocked : (f.backpressure rs).blocked = false
  executors : f.cfg.proposer = true ∧ f.cfg.verifier = true
  plan : p = ⟨f.scheduler.planProposal rs.req rs.authGen 0 0 0.0,
    max 1 (f.scheduler.planProposal rs.req rs.authGen 0 0 0.0).depth,
    max 1 (f.scheduler.planProposal rs.req rs.authGen 0 0 0.0).branchCount⟩
  left : left = f.store id { rs with
    cycle := rs.refreshed.cycle.applyAll [.planProposal,.reserveProposal,.dispatchProposal] }

theorem planGoes {f : Fabric} {now eventNow : UInt64} {id : RequestId} {p : Planned}
    (planned : (f.planCycle now eventNow id).1 = .inr p) :
    ∃ rs, PlanGoes f now id p (f.planCycle now eventNow id).2 rs := by
  unfold Fabric.planCycle at planned ⊢
  split at planned
  · contradiction
  rename_i rs found
  split at planned
  · contradiction
  rename_i unfinished
  split at planned
  · contradiction
  rename_i uncancelled
  split at planned
  · contradiction
  rename_i early
  unfold Fabric.admitCycle at planned ⊢
  dsimp only at planned ⊢
  split at planned
  · contradiction
  rename_i compatible
  split at planned
  · contradiction
  rename_i unblocked
  split at planned
  · contradiction
  rename_i registered
  cases planned
  rw [if_neg unfinished,if_neg uncancelled,if_neg early,if_neg compatible,if_neg unblocked,if_neg registered]
  -- the checks read the record before its machine was refreshed
  have pair : pairDecision rs.refreshed = pairDecision rs := rfl
  have pressure : f.backpressure rs.refreshed = f.backpressure rs := rfl
  rw [pair] at compatible
  rw [pressure] at unblocked
  exact ⟨rs,found,⟨by simpa using unfinished,by simpa using uncancelled⟩,by simpa using early,by simpa using compatible,
    by simpa using unblocked,by simpa using registered,rfl,rfl⟩

structure PlanMade (f : Fabric) (rs : RequestState) (p : Planned) : Prop where
  depth : p.depth = max 1 (f.scheduler.planProposal rs.req rs.authGen 0 0 0.0).depth
  branchCount : p.branchCount = max 1 f.scheduler.policy.maxBranches
  unblocked : (f.backpressure rs).blocked = false
  executors : f.cfg.proposer = true ∧ f.cfg.verifier = true

theorem planMade {f : Fabric} {now eventNow : UInt64} {id : RequestId} {p : Planned}
    (planned : (f.planCycle now eventNow id).1 = .inr p) : ∃ rs, f.find id = some rs ∧ PlanMade f rs p := by
  obtain ⟨rs,goes⟩ := planGoes planned
  refine ⟨rs,goes.found,?_,?_,goes.unblocked,goes.executors⟩
  · rw [goes.plan]
  · rw [goes.plan]
    exact maxOneAgain _

theorem plannedBranches {f : Fabric} {now eventNow : UInt64} {id : RequestId} {p : Planned}
    (planned : (f.planCycle now eventNow id).1 = .inr p) :
    p.branchCount = max 1 f.scheduler.policy.maxBranches := by
  obtain ⟨_,_,made⟩ := planMade planned
  exact made.branchCount

theorem startFacts (x : Executors) (id : RequestId) (p : Planned) : CycleFacts x { request := id, planned := p } := by
  refine ⟨rfl,rfl,Nat.le_refl 0,Nat.zero_le _,?_,?_⟩
  · intro i br at_
    exact absurd at_ (by simp)
  · intro i accept at_
    exact absurd at_ (by simp)

theorem beginFacts (x : Executors) (f : Fabric) (now eventNow : UInt64) (id : RequestId) :
    CallFacts x (begun id (f.planCycle now eventNow id).1) := by
  cases planned : (f.planCycle now eventNow id).1 with
  | inl answer => trivial
  | inr p =>
      refine ⟨startFacts x id p,rfl,?_⟩
      show 0 < p.branchCount.toNat
      rw [plannedBranches planned]
      exact maxOnePos _

theorem proposalFacts {x : Executors} {c : Cycle} {pin : ProposalInput} {pr : ProposalResult}
    (facts : CycleFacts x c) (none : c.accepted = []) (room : c.proposed.length < c.planned.branchCount.toNat)
    (answered : x.propose pin (.ok pr)) : CallFacts x (c.proposalReturned pin (.ok pr)) := by
  have grown : CycleFacts x { c with
      pins := c.pins ++ [pin]
      proposed := c.proposed ++
        [⟨pr,branchIdAt (UInt32.ofNat c.proposed.length),pin.provenance.proposerModel⟩] } := by
    refine ⟨by simp [facts.pins],facts.vins,by simp [none],by simp; omega,?_,by simp [none]⟩
    intro i br at_
    rcases appendedAt at_ with old | ⟨rfl,rfl⟩
    · obtain ⟨branch,held,present,answer⟩ := facts.proposal i br old
      exact ⟨branch,held,appendedKeeps present pin,answer⟩
    · exact ⟨rfl,pin,by simp [facts.pins],answered⟩
  unfold Cycle.proposalReturned
  dsimp only
  split
  · rename_i more
    exact ⟨grown,none,more⟩
  · rename_i full
    refine ⟨grown,Nat.le_antisymm grown.counted (Nat.le_of_not_lt full),?_⟩
    simp [none]

theorem verificationFacts {x : Executors} {c : Cycle} {vin : VerificationInput} {accept : AcceptanceResult}
    {br : BranchResult} (facts : CycleFacts x c) (full : c.proposed.length = c.planned.branchCount.toNat)
    (at_ : c.proposed[c.accepted.length]? = some br) (candidate : br.pr.candidate = some vin.candidate)
    (branch : vin.branch = br.branch) (answered : x.verify vin (.ok accept)) :
    CallFacts x (c.verificationReturned vin (.ok accept)) := by
  have room : c.accepted.length < c.proposed.length := (List.getElem?_eq_some_iff.mp at_).1
  have grown : CycleFacts x { c with vins := c.vins ++ [vin], accepted := c.accepted ++ [accept] } := by
    refine ⟨facts.pins,by simp [facts.vins],by simp; omega,facts.counted,facts.proposal,?_⟩
    intro i answer present
    rcases appendedAt present with old | ⟨rfl,rfl⟩
    · obtain ⟨held,from_,kept,rest⟩ := facts.verification i answer old
      exact ⟨held,from_,appendedKeeps kept vin,rest⟩
    · exact ⟨vin,br,by simp [facts.vins],at_,candidate,branch,answered⟩
  unfold Cycle.verificationReturned
  dsimp only
  split
  · rename_i more
    exact ⟨grown,full,more⟩
  · rename_i last
    refine ⟨grown,full,Nat.le_antisymm grown.answered (Nat.le_of_not_lt last),?_⟩
    simp

theorem callFactsKept {x : Executors} {s : System} {index : Nat} {call next : Call} {action : CallAction}
    {f' : Fabric} (present : s.calls[index]? = some call) (allowed : x.admits s (.call index action))
    (taken : call.step s.fabric action = some (next,f')) (facts : CallFacts x call) : CallFacts x next := by
  cases callStep taken with
  | asks c => exact facts
  | proposed c pin pr => exact proposalFacts facts.1 facts.2.1 facts.2.2 (allowed c pin present)
  | sends at_ produced => exact ⟨facts.1,facts.2.1,_,at_,produced,rfl⟩
  | verified c vin accept =>
      obtain ⟨cycle,full,br,at_,candidate,branch⟩ := facts
      exact verificationFacts cycle full at_ candidate branch (allowed c vin present)
  | _ => trivial

theorem callFactsStep {x : Executors} {s s' : System} {a : Action} (taken : s.step a = some s')
    (allowed : x.admits s a) (all : ∀ call ∈ s.calls, CallFacts x call) : ∀ call ∈ s'.calls, CallFacts x call :=
  everyCallKept taken allowed all (beginFacts x s.fabric)
    (fun _ _ _ _ _ present may stepped facts => callFactsKept present may stepped facts)

theorem callFacts {x : Executors} {cfg : Config} {actions : List Action} {s : System}
    (run : Run x (.start cfg) actions s) : ∀ call ∈ s.calls, CallFacts x call :=
  Runs.invariant run (by intro call member; cases member)
    (fun _ _ _ all allowed taken => callFactsStep taken allowed all)

theorem winnerInside {accepted : List AcceptanceResult} (proposed : List BranchResult)
    (some_ : 0 < accepted.length) : selectWinner accepted proposed < accepted.length := by
  have folded : ∀ (indices : List Nat) (winner : Nat), winner < accepted.length →
      (∀ i ∈ indices, i < accepted.length) →
      indices.foldl (betterBranch accepted proposed) winner < accepted.length := by
    intro indices
    induction indices with
    | nil => intro winner inside _; exact inside
    | cons i rest ih =>
        intro winner inside all
        refine ih _ ?_ (fun j member => all j (List.mem_cons_of_mem i member))
        unfold betterBranch
        dsimp only
        split
        · exact all i List.mem_cons_self
        · split
          · exact all i List.mem_cons_self
          · exact inside
  refine folded _ 0 some_ (fun i member => ?_)
  have range := List.mem_range'_1.mp member
  omega

theorem winnerFacts {x : Executors} {c : Cycle} (facts : CallFacts x (.settling c)) :
    ∃ won accept pin vin candidate, c.proposed[selectWinner c.accepted c.proposed]? = some won ∧
      c.accepted[selectWinner c.accepted c.proposed]? = some accept ∧
      c.pins[selectWinner c.accepted c.proposed]? = some pin ∧
      c.vins[selectWinner c.accepted c.proposed]? = some vin ∧
      won.pr.candidate = some candidate ∧ vin.candidate = candidate ∧ vin.branch = won.branch ∧
      x.propose pin (.ok won.pr) ∧ x.verify vin (.ok accept) := by
  obtain ⟨cycle,_,_,positive⟩ := facts
  have inside := winnerInside c.proposed positive
  have acceptance := List.getElem?_eq_getElem inside
  obtain ⟨vin,won,sent,winner,candidate,branch,verified⟩ := cycle.verification _ _ acceptance
  obtain ⟨_,pin,asked,proposed⟩ := cycle.proposal _ won winner
  exact ⟨won,_,pin,vin,vin.candidate,winner,acceptance,asked,sent,candidate,rfl,branch,proposed,verified⟩

theorem settleAnswers {c : Cycle} {won : BranchResult} {accept : AcceptanceResult} {candidate : CandidateSequence}
    (winner : c.proposed[selectWinner c.accepted c.proposed]? = some won)
    (acceptance : c.accepted[selectWinner c.accepted c.proposed]? = some accept)
    (produced : won.pr.candidate = some candidate) (inside : accept.acceptedPrefix.toNat ≤ candidate.size)
    (f : Fabric) (now : UInt64) : ∃ answer f', f.settle now c = some (answer,f') := by
  unfold Fabric.settle
  split
  · exact ⟨_,_,rfl⟩
  · split
    · exact ⟨_,_,rfl⟩
    · simp only [winner,acceptance,produced,bind,Option.bind_some]
      unfold settleBranch settleAccepted readTokens
      simp only [inside,if_true,bind,Option.bind_some]
      split
      · exact ⟨_,_,rfl⟩
      · split
        · exact ⟨_,_,rfl⟩
        · exact ⟨_,_,rfl⟩

theorem settleDefined {x : Executors} {c : Cycle} (facts : CallFacts x (.settling c))
    (bounded : ∀ vin accept, x.verify vin (.ok accept) → accept.acceptedPrefix.toNat ≤ vin.candidate.size)
    (f : Fabric) (now : UInt64) : ∃ answer f', f.settle now c = some (answer,f') := by
  obtain ⟨won,accept,pin,vin,candidate,winner,acceptance,_,_,produced,rfl,_,_,verified⟩ := winnerFacts facts
  exact settleAnswers winner acceptance produced (bounded vin accept verified) f now

theorem branchOrder {i j : Nat} (order : i < j) (small : j + 1 < 2^32) :
    (branchIdAt (UInt32.ofNat i)).value < (branchIdAt (UInt32.ofNat j)).value := by
  have value : ∀ k, k ≤ j → (branchIdAt (UInt32.ofNat k)).value.toNat = k + 1 := by
    intro k below
    show (UInt32.ofNat k + 1).toUInt64.toNat = k + 1
    rw [UInt32.toNat_toUInt64,UInt32.toNat_add,UInt32.toNat_ofNat']
    show (k % 2^32 + 1) % 2^32 = k + 1
    omega
  rw [UInt64.lt_iff_toNat_lt,value i (by omega),value j (by omega)]
  omega

def branchIds (k : Nat) : List BranchId := (List.range k).map (fun i => branchIdAt (UInt32.ofNat i))

theorem branchIdsUnique {k : Nat} (small : k < 2^32) : (branchIds k).Nodup := by
  unfold branchIds
  rw [List.nodup_map_iff_inj_on List.nodup_range]
  intro i inside j inside' same
  rw [List.mem_range] at inside inside'
  rcases Nat.lt_trichotomy i j with order | equal | order
  · have less := branchOrder order (by omega)
    rw [same] at less
    exact absurd less (UInt64.lt_irrefl _)
  · exact equal
  · have less := branchOrder order (by omega)
    rw [same] at less
    exact absurd less (UInt64.lt_irrefl _)

theorem proposedIds {x : Executors} {c : Cycle} (facts : CycleFacts x c) :
    c.proposed.map BranchResult.branch = branchIds c.proposed.length := by
  apply List.ext_getElem?
  intro i
  rw [branchIds,List.getElem?_map,List.getElem?_map]
  cases at_ : c.proposed[i]? with
  | none =>
      rw [List.getElem?_eq_none_iff] at at_
      rw [List.getElem?_eq_none_iff.mpr (by simpa using at_)]
      rfl
  | some br =>
      have inside := (List.getElem?_eq_some_iff.mp at_).1
      rw [List.getElem?_range inside]
      exact congrArg some (facts.proposal i br at_).1

structure FirstBest (counts : List Nat) (winner : Nat) : Prop where
  inside : winner < counts.length
  most : ∀ j < counts.length, counts.getD j 0 ≤ counts.getD winner 0
  first : ∀ j < winner, counts.getD j 0 < counts.getD winner 0

theorem FirstBest.unique {counts : List Nat} {v w : Nat} (one : FirstBest counts v) (other : FirstBest counts w) :
    v = w := by
  rcases Nat.lt_trichotomy v w with before | same | after
  · have less := other.first v before
    have most := one.most w other.inside
    omega
  · exact same
  · have less := one.first w after
    have most := other.most v one.inside
    omega

def Rising (proposed : List BranchResult) (n : Nat) : Prop :=
  ∀ w i, w < i → i < n → (proposed.getD w {}).branch.value < (proposed.getD i {}).branch.value

theorem countedRising {proposed : List BranchResult} {n : Nat} (small : n < 2^32)
    (branches : ∀ i < n, (proposed.getD i {}).branch = branchIdAt (UInt32.ofNat i)) : Rising proposed n := by
  intro w i later inside
  rw [branches i inside,branches w (by omega)]
  exact branchOrder later (by omega)

theorem betterLater {accepted : List AcceptanceResult} {proposed : List BranchResult}
    (rising : Rising proposed accepted.length) {w i : Nat} (later : w < i) (inside : i < accepted.length) :
    betterBranch accepted proposed w i =
      if (accepted.getD w {}).acceptedPrefix.toNat < (accepted.getD i {}).acceptedPrefix.toNat then i else w := by
  have tie : ¬ (proposed.getD i {}).branch.value < (proposed.getD w {}).branch.value := by
    have order := rising w i later inside
    rw [UInt64.lt_iff_toNat_lt] at order ⊢
    omega
  simp only [betterBranch,tie,and_false,if_false]
  exact if_congr UInt32.lt_iff_toNat_lt rfl rfl

theorem selectWinnerFirstBest {accepted : List AcceptanceResult} {proposed : List BranchResult}
    (some_ : 0 < accepted.length) (rising : Rising proposed accepted.length) :
    FirstBest (accepted.map (fun accept => accept.acceptedPrefix.toNat)) (selectWinner accepted proposed) := by
  have count : ∀ i, (accepted.map (fun accept => accept.acceptedPrefix.toNat)).getD i 0 =
      (accepted.getD i {}).acceptedPrefix.toNat := by
    intro i
    simp only [List.getD_eq_getElem?_getD,List.getElem?_map]
    cases accepted[i]? <;> rfl
  have moves : ∀ w i, w < i → i < (accepted.map (fun accept => accept.acceptedPrefix.toNat)).length →
      betterBranch accepted proposed w i =
        if (accepted.map (fun accept => accept.acceptedPrefix.toNat)).getD w 0 <
          (accepted.map (fun accept => accept.acceptedPrefix.toNat)).getD i 0 then i else w := by
    intro w i later inside
    rw [List.length_map] at inside
    rw [count,count]
    exact betterLater rising later inside
  obtain ⟨inside,most,first⟩ := Selection.firstBest _ _ (by rw [List.length_map]; exact some_) moves
  rw [selectWinner,← List.length_map (fun accept : AcceptanceResult => accept.acceptedPrefix.toNat)]
  exact ⟨inside,most,first⟩

theorem winnerFirstBest {x : Executors} {c : Cycle} (facts : CallFacts x (.settling c)) :
    FirstBest (c.accepted.map (fun accept => accept.acceptedPrefix.toNat)) (selectWinner c.accepted c.proposed) := by
  obtain ⟨cycle,full,all,positive⟩ := facts
  refine selectWinnerFirstBest positive (countedRising (by rw [all,full]; exact UInt32.toNat_lt _) ?_)
  intro i inside
  have present := List.getElem?_eq_getElem (all ▸ inside : i < c.proposed.length)
  rw [List.getD_eq_getElem?_getD,present]
  exact (cycle.proposal i _ present).1

theorem callStays {f f' : Fabric} {call next : Call} {action : CallAction}
    (taken : call.step f action = some (next,f')) :
    next.request = call.request ∧ call.cycle.isSome := by
  cases callStep taken with
  | proposed c pin pr =>
      obtain ⟨_,rfl,goes | goes⟩ := proposedGoes c pin pr <;> rw [goes] <;> exact ⟨rfl,rfl⟩
  | verified c vin accept =>
      obtain ⟨_,rfl,goes | goes⟩ := verifiedGoes c vin accept <;> rw [goes] <;> exact ⟨rfl,rfl⟩
  | _ => exact ⟨rfl,rfl⟩

def InputsSatisfy (Q : ProposalInput → Prop) (R : VerificationInput → Prop) : Call → Prop
  | .proposing c | .verifying c | .settling c => (∀ pin ∈ c.pins, Q pin) ∧ ∀ vin ∈ c.vins, R vin
  | .proposalSent c pin => ((∀ pin ∈ c.pins, Q pin) ∧ ∀ vin ∈ c.vins, R vin) ∧ Q pin
  | .verificationSent c vin => ((∀ pin ∈ c.pins, Q pin) ∧ ∀ vin ∈ c.vins, R vin) ∧ R vin
  | .returned _ _ | .undefined _ => True

theorem everyAppended {α : Type} {P : α → Prop} {xs : List α} {a : α} (all : ∀ x ∈ xs, P x) (last : P a) :
    ∀ x ∈ xs ++ [a], P x := by
  intro x member
  rcases List.mem_append.mp member with old | new
  · exact all x old
  · rw [List.mem_singleton.mp new]
    exact last

/- Inputs are built from the record the call finds, so what holds of every input
built from that record holds of the next one. -/
theorem inputsStep {Q : ProposalInput → Prop} {R : VerificationInput → Prop} {f f' : Fabric} {call next : Call}
    {action : CallAction} {rs : RequestState} (found : f.find call.request = some rs)
    (asked : ∀ p b, Q (proposalInput rs call.request p b))
    (sent : ∀ p br candidate, R (verificationInput rs call.request p br candidate))
    (taken : call.step f action = some (next,f')) (all : InputsSatisfy Q R call) : InputsSatisfy Q R next := by
  cases callStep taken with
  | asks c =>
      have entry : f.entry c.request = (rs,f) := entryFound found
      rw [entry]
      exact ⟨all,asked _ _⟩
  | proposed c pin pr =>
      obtain ⟨⟨pins,vins⟩,last⟩ := all
      obtain ⟨_,rfl,goes | goes⟩ := proposedGoes c pin pr <;> rw [goes] <;> exact ⟨everyAppended pins last,vins⟩
  | @sends c br candidate at_ produced =>
      have entry : f.entry c.request = (rs,f) := entryFound found
      rw [entry]
      exact ⟨all,sent _ _ _⟩
  | verified c vin accept =>
      obtain ⟨⟨pins,vins⟩,last⟩ := all
      obtain ⟨_,rfl,goes | goes⟩ := verifiedGoes c vin accept <;> rw [goes] <;> exact ⟨pins,everyAppended vins last⟩
  | _ => trivial

theorem Writes.missing {f g : Fabric} {id other : RequestId} (written : Writes f id g)
    (missing : f.find other = none) (different : other ≠ id) : g.find other = none := by
  induction written with
  | nothing => exact missing
  | stored rs before ih => exact (findStoreOther _ rs different).trans ih
  | counted stats before ih => exact ih
  | learned ratio before ih => exact ih
  | noted now type detail json before ih => exact pushEventMissing ih now id type detail json

structure Registry (s : System) : Prop where
  named : ∀ id rs, s.fabric.find id = some rs → rs.req.id = id
  registered : ∀ call ∈ s.calls, call.cycle.isSome → (s.fabric.find call.request).isSome

theorem startRecordless (cfg : Config) (id : RequestId) (rs : RequestState) :
    (System.start cfg).fabric.find id ≠ some rs := by
  simp [System.start,Fabric.new,Fabric.find]

theorem stepAppears {s s' : System} {a : Action} {id : RequestId} {rs : RequestState} (registry : Registry s)
    (taken : s.step a = some s') (missing : s.fabric.find id = none) (found : s'.fabric.find id = some rs) :
    ∃ now req events, a = .submit now req ∧ req.id = id ∧
      rs = { RequestState.admitted {} s.fabric.epoch req with events := events } := by
  have gone : s'.fabric.find id ≠ none := by
    rw [found]
    exact Option.some_ne_none rs
  rcases stepWrites taken with ⟨_,rolled⟩ | ⟨target,named,written⟩
  · rw [rolled] at gone
    exact absurd missing gone
  · by_cases same : id = target
    · subst same
      cases a with
      | submit now req =>
          cases Option.some.inj named
          cases Option.some.inj taken
          have fresh : s.fabric.entry req.id = ({},s.fabric.store req.id {}) := by
            simp only [Fabric.entry,missing]
          simp only [Fabric.submit,fresh] at found
          obtain ⟨events,stored⟩ := updateSelf (s.fabric.store req.id {}) now req.id
            (RequestState.admitted {} s.fabric.epoch req)
            { s.fabric.stats with requestsEligibleForSpeculation := s.fabric.stats.requestsEligibleForSpeculation + 1 }
            "request.submit" "request admitted"
          exact ⟨now,req,events,rfl,rfl,Option.some.inj (found.symm.trans stored)⟩
      | call index action =>
          -- a call in flight has its request registered
          obtain ⟨call,next,f',present,moved,_⟩ := callMoved taken
          have request : call.request = id := by simpa [System.target,present] using named
          have there := registry.registered call (List.mem_of_getElem? present) (callStays moved).2
          rw [request,missing] at there
          contradiction
      | emitEvent now other type detail json =>
          cases Option.some.inj taken
          exact absurd (pushEventMissing missing now other type detail json) gone
      | rollEpoch => contradiction
      | _ =>
          -- every other operation looks the record up and finds none
          cases Option.some.inj named
          simp only [System.step,Fabric.cancel,Fabric.complete,Fabric.rollback,Fabric.retry,Fabric.planCycle,
            missing] at taken
          cases Option.some.inj taken
          exact absurd missing gone
    · exact absurd (written.missing missing same) gone

theorem effectNamed {s : System} {id : RequestId} {a : Action} {rs rs' : RequestState}
    (effect : Effect s id a rs rs') (named : rs.req.id = id) : rs'.req.id = id := by
  cases effect with
  | resubmitted events same null => exact same
  | settled call same facts =>
      rw [facts.advanced.req]
      exact named
  | _ => exact named

theorem stepFound {s s' : System} {a : Action} {id : RequestId} (taken : s.step a = some s')
    (present : (s.fabric.find id).isSome) : (s'.fabric.find id).isSome := by
  obtain ⟨rs,found⟩ := Option.isSome_iff_exists.mp present
  obtain ⟨rs',stored,_⟩ := stepEffect taken found
  rw [stored]
  rfl

theorem begunFound {f : Fabric} {now eventNow : UInt64} {id : RequestId}
    (active : (begun id (f.planCycle now eventNow id).1).cycle.isSome) : (f.find id).isSome := by
  cases found : f.find id with
  | some rs => rfl
  | none =>
      simp only [Fabric.planCycle,found] at active
      exact absurd active (by simp [begun,Call.cycle])

theorem recordsKept {P : RequestId → RequestState → Prop} {s s' : System} {a : Action} (registry : Registry s)
    (taken : s.step a = some s')
    (fresh : ∀ now req events, a = .submit now req →
      P req.id { RequestState.admitted {} s.fabric.epoch req with events := events })
    (kept : ∀ id rs rs', s.fabric.find id = some rs → s'.fabric.find id = some rs' → Effect s id a rs rs' → P id rs') :
    ∀ id rs, s'.fabric.find id = some rs → P id rs := by
  intro id rs' found'
  cases found : s.fabric.find id with
  | none =>
      obtain ⟨now,req,events,submitted,rfl,rfl⟩ := stepAppears registry taken found found'
      exact fresh now req events submitted
  | some rs =>
      obtain ⟨next,stored,effect⟩ := stepEffect taken found
      cases Option.some.inj (found'.symm.trans stored)
      exact kept id rs rs' found found' effect

theorem registryStep {s s' : System} {a : Action} (taken : s.step a = some s') (registry : Registry s) :
    Registry s' := by
  constructor
  · refine recordsKept registry taken (fun _ _ _ _ => rfl) ?_
    intro id rs rs' found _ effect
    exact effectNamed effect (registry.named id rs found)
  · intro call member active
    obtain ⟨j,at_⟩ := List.mem_iff_getElem?.mp member
    rcases stepCallFrom taken at_ with ⟨old,_⟩ | ⟨now,eventNow,id,_,rfl⟩ | ⟨action,old,_,present,stepped⟩
    · exact stepFound taken (registry.registered call (List.mem_of_getElem? old) active)
    · rw [begunRequest]
      exact stepFound taken (begunFound active)
    · obtain ⟨request,ongoing⟩ := callStays stepped
      rw [request]
      exact stepFound taken (registry.registered old (List.mem_of_getElem? present) ongoing)

theorem registryStart (cfg : Config) : Registry (.start cfg) := by
  refine ⟨?_,?_⟩
  · intro id rs found
    exact absurd found (startRecordless _ _ _)
  · intro call member
    cases member

theorem registry {x : Executors} {cfg : Config} {actions : List Action} {s : System}
    (run : Run x (.start cfg) actions s) : Registry s :=
  Runs.invariant run (registryStart cfg) (fun _ _ _ before _ taken => registryStep taken before)

theorem everyRecord {x : Executors} {cfg : Config} {actions : List Action} {s : System} {P : RequestState → Prop}
    (run : Run x (.start cfg) actions s)
    (fresh : ∀ epoch req events, P { RequestState.admitted {} epoch req with events := events })
    (kept : ∀ past u id a rs rs', Run x (.start cfg) past u → Effect u id a rs rs' → P rs → P rs') :
    ∀ id rs, s.fabric.find id = some rs → P rs := by
  have both : Run x (.start cfg) actions s ∧ ∀ id rs, s.fabric.find id = some rs → P rs := by
    refine Runs.recorded (P := fun past u => Run x (.start cfg) past u ∧ ∀ id rs, u.fabric.find id = some rs → P rs)
      run ⟨.nil,?_⟩ ?_
    · intro id rs found
      exact absurd found (startRecordless _ _ _)
    · rintro past u a v ⟨before,all⟩ allowed taken
      refine ⟨before.snoc allowed taken,recordsKept (registry before) taken (fun _ req events _ => fresh _ req events) ?_⟩
      intro id rs rs' found _ effect
      exact kept past u id a rs rs' before effect (all id rs found)
  exact both.2

theorem callPlan {f f' : Fabric} {call next : Call} {action : CallAction} {c' : Cycle}
    (taken : call.step f action = some (next,f')) (active : next.cycle = some c') :
    ∃ c, call.cycle = some c ∧ c'.planned = c.planned := by
  cases callStep taken with
  | asks c =>
      cases Option.some.inj active
      exact ⟨_,rfl,rfl⟩
  | proposed c pin pr =>
      obtain ⟨_,rfl,goes | goes⟩ := proposedGoes c pin pr <;> rw [goes] at active <;>
        cases Option.some.inj active <;> exact ⟨c,rfl,rfl⟩
  | sends at_ produced =>
      cases Option.some.inj active
      exact ⟨_,rfl,rfl⟩
  | verified c vin accept =>
      obtain ⟨_,rfl,goes | goes⟩ := verifiedGoes c vin accept <;> rw [goes] at active <;>
        cases Option.some.inj active <;> exact ⟨c,rfl,rfl⟩
  | _ => cases active

theorem everyPlanned {P : Planned → Prop} {x : Executors} {cfg : Config} {actions : List Action} {s : System}
    (run : Run x (.start cfg) actions s)
    (plans : ∀ f now eventNow id p, f.cfg = cfg → f.scheduler.policy = cfg.policy →
      (Fabric.planCycle f now eventNow id).1 = .inr p → P p) :
    ∀ call ∈ s.calls, ∀ c, call.cycle = some c → P c.planned := by
  have both : (s.fabric.cfg = cfg ∧ s.fabric.scheduler.policy = cfg.policy) ∧
      ∀ call ∈ s.calls, ∀ c, call.cycle = some c → P c.planned := by
    refine Runs.invariant (P := fun u => (u.fabric.cfg = cfg ∧ u.fabric.scheduler.policy = cfg.policy) ∧
      ∀ call ∈ u.calls, ∀ c, call.cycle = some c → P c.planned)
      run ⟨⟨rfl,rfl⟩,by intro call member; cases member⟩ ?_
    rintro u a v ⟨⟨config,policy⟩,all⟩ allowed taken
    refine ⟨⟨(stepFixed taken).1.trans config,(stepFixed taken).2.trans policy⟩,everyCallKept taken allowed all ?_ ?_⟩
    · intro now eventNow id c active
      cases planned : (u.fabric.planCycle now eventNow id).1 with
      | inl answer =>
          rw [planned] at active
          cases active
      | inr p =>
          rw [planned] at active
          cases Option.some.inj active
          exact plans _ now eventNow id p config policy planned
    · intro index call action next f' _ _ stepped held c' active
      obtain ⟨c,before,same⟩ := callPlan stepped active
      rw [same]
      exact held c before
  exact both.2

theorem branchCountFixed {x : Executors} {cfg : Config} {actions : List Action} {s : System}
    (run : Run x (.start cfg) actions s) :
    ∀ call ∈ s.calls, ∀ c, call.cycle = some c → c.planned.branchCount = max 1 cfg.policy.maxBranches := by
  apply everyPlanned (P := fun p => p.branchCount = max 1 cfg.policy.maxBranches) run
  intro f now eventNow id p _ policy planned
  rw [← policy]
  exact plannedBranches planned

theorem returnedSettles {s s' : System} {index : Nat} {now : UInt64} {c : Cycle} {id : RequestId}
    {answer : Result CycleOutcome} (ready : s.calls[index]? = some (.settling c))
    (settles : s.step (.call index (.settle now)) = some s')
    (returned : s'.calls[index]? = some (.returned id answer)) : s.fabric.settle now c = some (answer,s'.fabric) := by
  have inside := (List.getElem?_eq_some_iff.mp ready).1
  simp only [System.step,ready,bind,Option.bind_some,Call.step] at settles
  cases Option.some.inj settles
  cases settled : s.fabric.settle now c with
  | none => simp [Cycle.settlementSection,settled,inside] at returned
  | some result =>
      obtain ⟨reported,f'⟩ := result
      simp only [Cycle.settlementSection,settled,List.getElem?_set_self inside] at returned ⊢
      cases Option.some.inj returned
      rfl

theorem returnedLive {s s' : System} {index : Nat} {now : UInt64} {c : Cycle} {id : RequestId}
    {answer : Result CycleOutcome} {rs : RequestState} (ready : s.calls[index]? = some (.settling c))
    (settles : s.step (.call index (.settle now)) = some s')
    (returned : s'.calls[index]? = some (.returned id answer)) (found : s.fabric.find c.request = some rs)
    (live : rs.terminal = false ∧ rs.cancelled = false) :
    ∃ rs' o won accept candidate, s'.fabric.find c.request = some rs' ∧ answer = .ok o ∧ SettledKind o.outcome ∧
      o.branch = won.branch ∧ Settled c rs won accept candidate rs' := by
  have outcome := settlement (returnedSettles ready settles returned)
  generalize s'.fabric = f' at outcome ⊢
  cases outcome with
  | missing absent => exact absurd (found.symm.trans absent) (Option.some_ne_none _)
  | stale present closed kind kept =>
      cases Option.some.inj (found.symm.trans present)
      rcases closed with terminal | cancelled
      · rw [live.1] at terminal
        contradiction
      · rw [live.2] at cancelled
        contradiction
  | settled present facts kind branch stored =>
      cases Option.some.inj (found.symm.trans present)
      exact ⟨_,_,_,_,_,stored,rfl,kind,branch,facts⟩

end SpeculationFabric
