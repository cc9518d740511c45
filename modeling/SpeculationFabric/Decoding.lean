import SpeculationFabric.Outstanding
import SpeculationFabric.SoloCycle
import SpeculationFabric.Submissions
import SpeculationFabric.Vocabulary

/-! A request's whole session over the CPU executors. While no two of its cycles are in
flight at once, what is committed follows from the authority it was submitted with and
from how many of its cycles have settled, whatever else the engine is asked meanwhile;
and where the draft is aligned all the way it is what the target says on its own. -/
namespace SpeculationFabric

namespace Authority
variable (depth aligned branches : UInt32)

def best (a : Authority) : Nat :=
  (a.counts depth aligned branches.toNat).idxOf ((a.counts depth aligned branches.toNat).foldr max ⊥)

def gains (a : Authority) : List UInt32 :=
  let draft := a.draft depth aligned (UInt32.ofNat (a.best depth aligned branches))
  draft.take (a.taken draft)

def onward (a : Authority) (count : Nat) : Authority :=
  { a with
    state := { a.state with generation := ⟨a.state.generation.value + UInt64.ofNat count⟩ }
    generation := ⟨a.generation.value + UInt64.ofNat count⟩ }

def session (a : Authority) : Nat → List UInt32 × Authority
  | 0 => ([],a)
  | n + 1 =>
      let before := a.session n
      let gains := before.2.gains depth aligned branches
      (before.1 ++ gains,before.2.onward gains.length)

def target (a : Authority) : List UInt32 := targetSequence (a.verdictInput (List.replicate depth.toNat 0))

def spoken (a : Authority) : Nat → List UInt32 × Authority
  | 0 => ([],a)
  | n + 1 =>
      let before := a.spoken n
      (before.1 ++ before.2.target depth,before.2.onward depth.toNat)

variable {depth aligned branches} {a : Authority}

theorem bestFirst {counts : List Nat} {w : Nat} (best : FirstBest counts w) : counts.idxOf (counts.foldr max ⊥) = w := by
  have inside := best.inside
  have there : counts.getD w 0 = counts[w] := by
    rw [List.getD_eq_getElem?_getD,List.getElem?_eq_getElem inside,Option.getD_some]
  rw [Dist.foldrMost best,there,List.idxOf,List.findIdx_eq inside]
  refine ⟨beq_self_eq_true _,?_⟩
  intro j before
  have less := best.first j before
  rw [there,List.getD_eq_getElem?_getD,List.getElem?_eq_getElem (before.trans inside),Option.getD_some] at less
  exact beq_false_of_ne (Nat.ne_of_lt less)

theorem chosenGains {w : Nat} {k : UInt32} (chosen : a.Chosen depth aligned branches w k) :
    (a.draft depth aligned (UInt32.ofNat w)).take k.toNat = a.gains depth aligned branches ∧
      k.toNat = (a.gains depth aligned branches).length := by
  have same : a.best depth aligned branches = w := bestFirst chosen.best
  have tokens : (a.draft depth aligned (UInt32.ofNat w)).take k.toNat = a.gains depth aligned branches := by
    rw [gains,same,chosen.count]
  refine ⟨tokens,?_⟩
  rw [← tokens,List.length_take,chosen.count]
  exact (Nat.min_eq_left (takenInside _)).symm

theorem draftFilled (a : Authority) (aligned b : UInt32) (positive : 0 < depth.toNat) : a.draft depth aligned b ≠ [] := by
  intro empty
  have size := a.draftSize depth aligned b
  rw [empty,List.length_nil] at size
  omega

theorem bestIs (a : Authority) (depth aligned : UInt32) (some_ : 0 < branches.toNat) :
    FirstBest (a.counts depth aligned branches.toNat) (a.best depth aligned branches) := by
  have filled : 0 < (a.counts depth aligned branches.toNat).length := by
    rw [counts,List.length_map,List.length_range]
    exact some_
  obtain ⟨inside,most,first⟩ := Selection.firstBest (fun w i =>
    if (a.counts depth aligned branches.toNat).getD w 0 < (a.counts depth aligned branches.toNat).getD i 0 then i else w)
    (a.counts depth aligned branches.toNat) filled (fun _ _ _ _ => rfl)
  rw [best,bestFirst ⟨inside,most,first⟩]
  exact ⟨inside,most,first⟩

theorem countAt (a : Authority) (depth aligned : UInt32) {i : Nat} (inside : i < branches.toNat) :
    (a.counts depth aligned branches.toNat).getD i 0 = a.taken (a.draft depth aligned (UInt32.ofNat i)) := by
  rw [counts,List.getD_eq_getElem?_getD,List.getElem?_map,List.getElem?_range inside]
  rfl

theorem bestInside (a : Authority) (depth aligned : UInt32) (some_ : 0 < branches.toNat) :
    a.best depth aligned branches < branches.toNat := by
  have inside := (a.bestIs depth aligned some_).inside
  rwa [counts,List.length_map,List.length_range] at inside

theorem gainsSize (a : Authority) (depth aligned branches : UInt32) : (a.gains depth aligned branches).length ≤ depth.toNat := by
  rw [gains,List.length_take,draftSize]
  exact Nat.min_le_right _ _

theorem gainsLeast (a : Authority) (depth aligned : UInt32) (some_ : 0 < branches.toNat) :
    min aligned.toNat depth.toNat ≤ (a.gains depth aligned branches).length := by
  have best := a.bestIs depth aligned some_
  have most := best.most 0 (Nat.lt_of_le_of_lt (Nat.zero_le _) best.inside)
  rw [a.countAt depth aligned some_,a.countAt depth aligned (a.bestInside depth aligned some_)] at most
  rw [gains,List.length_take,Nat.min_eq_left (takenInside _)]
  exact (Dist.takenAligned a depth aligned).trans most

theorem sameZipped {xs ys : List UInt32} (sizes : xs.length = ys.length)
    (all : (List.zipWith (· == ·) xs ys).count true = ys.length) : xs = ys := by
  induction xs generalizing ys with
  | nil => exact (List.eq_nil_of_length_eq_zero sizes.symm).symm
  | cons x xs ih =>
      cases ys with
      | nil => cases sizes
      | cons y ys =>
          have rest : (List.zipWith (· == ·) xs ys).count true ≤ ys.length := by
            refine List.count_le_length.trans ?_
            rw [List.length_zipWith]
            exact Nat.min_le_right _ _
          rw [List.zipWith_cons_cons,List.count_cons,List.length_cons] at all
          split at all
          · rename_i equal
            rw [beq_iff_eq,beq_iff_eq] at equal
            rw [equal,ih (Nat.succ.inj sizes) (Nat.succ.inj all)]
          · omega

theorem gainsTarget (a : Authority) (some_ : 0 < branches.toNat) (deep : depth ≤ aligned) :
    a.gains depth aligned branches = a.target depth := by
  have size := a.draftSize depth aligned 0
  have whole : a.taken (a.draft depth aligned 0) = depth.toNat := by
    have least := Dist.takenAligned a depth aligned
    rw [Nat.min_eq_right (UInt32.le_iff_toNat_le.mp deep)] at least
    exact Nat.le_antisymm (size ▸ takenInside _) least
  have first : a.best depth aligned branches = 0 := by
    by_contra later
    have less := (a.bestIs depth aligned some_).first 0 (Nat.pos_of_ne_zero later)
    rw [a.countAt depth aligned some_,a.countAt depth aligned (a.bestInside depth aligned some_)] at less
    have most : a.taken (a.draft depth aligned (UInt32.ofNat (a.best depth aligned branches))) ≤ depth.toNat := by
      have inside := takenInside (a := a) (a.draft depth aligned (UInt32.ofNat (a.best depth aligned branches)))
      rwa [draftSize] at inside
    exact absurd whole (Nat.ne_of_lt (Nat.lt_of_lt_of_le less most))
  have taken : a.gains depth aligned branches = a.draft depth aligned 0 := by
    have zero : UInt32.ofNat 0 = 0 := rfl
    rw [gains,first,zero,whole,← size,List.take_length]
  have asked : (a.verdictInput (a.draft depth aligned 0)).candidate.size =
      (a.verdictInput (List.replicate depth.toNat 0)).candidate.size := by
    simp only [verdictInput,CandidateSequence.size,List.length_map,size,List.length_replicate]
  have target : targetSequence (a.verdictInput (a.draft depth aligned 0)) = a.target depth := by
    rw [Authority.target,targetSequence,targetSequence,targetSeed,targetSeed,asked]
    rfl
  have ids : (a.verdictInput (a.draft depth aligned 0)).candidate.tokens.map Token.id = a.draft depth aligned 0 := by
    simp [verdictInput,Function.comp_def]
  rw [Authority.taken,agreements,ids,target] at whole
  have spoken : (a.target depth).length = depth.toNat := by
    rw [Authority.target,targetSequence,targetLength]
    simp only [verdictInput,CandidateSequence.size,List.length_map,List.length_replicate,UInt32.ofNat_toNat]
  rw [taken]
  exact (sameZipped (spoken.trans size.symm) (whole.trans size.symm)).symm

theorem sessionBounds (a : Authority) (depth aligned : UInt32) (some_ : 0 < branches.toNat) (n : Nat) :
    n * min aligned.toNat depth.toNat ≤ (a.session depth aligned branches n).1.length ∧
      (a.session depth aligned branches n).1.length ≤ n * depth.toNat := by
  induction n with
  | zero => simp [session]
  | succ n ih =>
      have least := (a.session depth aligned branches n).2.gainsLeast depth aligned some_
      have most := (a.session depth aligned branches n).2.gainsSize depth aligned branches
      rw [session,List.length_append,Nat.succ_mul,Nat.succ_mul]
      exact ⟨Nat.add_le_add ih.1 least,Nat.add_le_add ih.2 most⟩

theorem sessionSpoken (a : Authority) (some_ : 0 < branches.toNat) (deep : depth ≤ aligned) (n : Nat) :
    a.session depth aligned branches n = a.spoken depth n := by
  induction n with
  | zero => rfl
  | succ n ih =>
      have whole := gainsTarget (a.spoken depth n).2 some_ deep
      have least := (a.spoken depth n).2.gainsLeast depth aligned some_
      have most := (a.spoken depth n).2.gainsSize depth aligned branches
      have size : (((a.spoken depth n).2).gains depth aligned branches).length = depth.toNat := by
        rw [Nat.min_eq_right (UInt32.le_iff_toNat_le.mp deep)] at least
        exact Nat.le_antisymm most least
      rw [session,ih,spoken,size,whole]

end Authority

structure Gathered (a : Authority) (depth aligned branches : UInt32) (c : Cycle) : Prop where
  planned : c.planned.depth = depth ∧ c.planned.branchCount = branches
  drafted : ∀ i br, c.proposed[i]? = some br → Drafted a depth aligned i br
  counted : ∀ i accept, c.accepted[i]? = some accept →
    accept.acceptedPrefix.toNat = a.taken (a.draft depth aligned (UInt32.ofNat i))

def Call.Gathers (a : Authority) (depth aligned branches : UInt32) : Call → Prop
  | .proposing c | .verifying c | .settling c => Gathered a depth aligned branches c
  | .proposalSent c pin => Gathered a depth aligned branches c ∧ ∃ rs, Ready a rs ∧
      pin = proposalInput rs c.request c.planned (UInt32.ofNat c.proposed.length)
  | .verificationSent c vin => Gathered a depth aligned branches c ∧ ∃ rs br candidate, Ready a rs ∧
      c.proposed[c.accepted.length]? = some br ∧ br.pr.candidate = some candidate ∧
      vin = verificationInput rs c.request c.planned br candidate
  | .returned _ _ | .undefined _ => True

section gathering
variable {a : Authority} {depth aligned branches : UInt32} {s : System} {index : Nat} {call next : Call}
  {action : CallAction} {f' : Fabric} {rs : RequestState}

theorem gathersStep (positive : 0 < depth.toNat) (bounded : depth.toNat ≤ 256) (present : s.calls[index]? = some call)
    (found : s.fabric.find call.request = some rs) (ready : Ready a rs)
    (allowed : (cpuExecutors { alignedTokens := aligned }).admits s (.call index action))
    (taken : call.step s.fabric action = some (next,f')) (gathers : call.Gathers a depth aligned branches) :
    next.Gathers a depth aligned branches := by
  cases callStep taken with
  | asks c =>
      have here : s.fabric.find c.request = some rs := found
      rw [entryFound here]
      exact ⟨gathers,rs,ready,rfl⟩
  | proposed c pin pr =>
      obtain ⟨gathered,held,ready,rfl⟩ := gathers
      have drafted := allowed c _ present
      obtain ⟨pr',candidate,answers,_,produced,ids⟩ := Authority.proposes (a := a)
        (proposalInput held c.request c.planned (UInt32.ofNat c.proposed.length)) depth aligned
        (UInt32.ofNat c.proposed.length) ready.state ready.generation ready.revision gathered.planned.1 rfl rfl
        positive bounded
      cases drafted.trans answers
      rw [proposalReturnedOk]
      have grown : Gathered a depth aligned branches
          (c.proposedNext (proposalInput held c.request c.planned (UInt32.ofNat c.proposed.length)) pr) :=
        ⟨gathered.planned,draftedNext gathered.drafted ⟨rfl,ready.revision,candidate,produced,ids⟩,gathered.counted⟩
      split <;> exact grown
  | @sends c br candidate at_ produced =>
      have here : s.fabric.find c.request = some rs := found
      rw [entryFound here]
      exact ⟨gathers,rs,br,candidate,ready,at_,produced,rfl⟩
  | verified c vin accept =>
      obtain ⟨gathered,held,br,candidate,ready,at_,produced,rfl⟩ := gathers
      have judged := allowed c _ present
      have drafted := gathered.drafted _ br at_
      obtain ⟨candidate',produced',ids⟩ := drafted.candidate
      cases produced.symm.trans produced'
      have filled := a.draftFilled aligned (UInt32.ofNat c.accepted.length) positive
      obtain ⟨accept',answers,count⟩ := Authority.verifies (a := a)
        (verificationInput held c.request c.planned br candidate) ready.state ready.generation drafted.revision ids
        filled ready.tokenizer rfl
      cases judged.trans answers
      rw [verificationReturnedOk]
      have grown : Gathered a depth aligned branches
          (c.acceptedNext (verificationInput held c.request c.planned br candidate) accept) :=
        ⟨gathered.planned,gathered.drafted,countedNext gathered.counted count⟩
      split <;> exact grown
  | _ => trivial

end gathering

def oneAtATime (id : RequestId) (s : System) : Action → Prop
  | .runCycle _ _ target => target = id → ∀ call ∈ s.calls, call.request = id → call.cycle = none
  | _ => True

abbrev SessionRun (aligned : UInt32) (id : RequestId) (s : System) (actions : List Action) (t : System) : Prop :=
  Runs.Trace System.step (fun u a => (cpuExecutors { alignedTokens := aligned }).admits u a ∧ oneAtATime id u a) s actions t

def Lone (id : RequestId) (s : System) : Prop :=
  ∀ (i j : Nat) (ci cj : Call), s.calls[i]? = some ci → s.calls[j]? = some cj → ci.request = id → cj.request = id →
    ci.cycle.isSome → cj.cycle.isSome → i = j

theorem loneStep {id : RequestId} {s t : System} {a : Action} (lone : Lone id s) (one : oneAtATime id s a)
    (taken : s.step a = some t) : Lone id t := by
  intro i j ci cj ati atj requesti requestj activei activej
  rcases stepCalls taken with ⟨kept,_⟩ | ⟨now,eventNow,target,rfl,grown⟩ | ⟨index,action,call,next,rfl,present,stepped,set⟩
  · rw [kept] at ati atj
    exact lone i j ci cj ati atj requesti requestj activei activej
  · have idle : ∀ {k : Nat} {call : Call}, s.calls[k]? = some call → call.request = id → call.cycle.isSome → target ≠ id := by
      intro k call at_ request active same
      rw [one same call (List.mem_of_getElem? at_) request] at active
      cases active
    rw [grown] at ati atj
    rcases appendedAt ati with oldi | ⟨rfl,rfl⟩ <;> rcases appendedAt atj with oldj | ⟨rfl,rfl⟩
    · exact lone i j ci cj oldi oldj requesti requestj activei activej
    · exact absurd ((begunRequest _ _).symm.trans requestj) (idle oldi requesti activei)
    · exact absurd ((begunRequest _ _).symm.trans requesti) (idle oldj requestj activej)
    · rfl
  · have before : ∀ {k : Nat} {c : Call}, t.calls[k]? = some c → c.request = id → c.cycle.isSome →
        ∃ c', s.calls[k]? = some c' ∧ c'.request = id ∧ c'.cycle.isSome := by
      intro k c at_ request active
      by_cases here : index = k
      · subst here
        rw [set,List.getElem?_set_self (List.getElem?_eq_some_iff.mp present).1] at at_
        cases Option.some.inj at_
        exact ⟨call,present,(callStays stepped).1.symm.trans request,(callStays stepped).2⟩
      · rw [set,List.getElem?_set_ne here] at at_
        exact ⟨c,at_,request,active⟩
    obtain ⟨bi,oldi,ri,ai⟩ := before ati requesti activei
    obtain ⟨bj,oldj,rj,aj⟩ := before atj requestj activej
    exact lone i j bi bj oldi oldj ri rj ai aj

def SpeculationRequest.authority (req : SpeculationRequest) : Authority :=
  ⟨⟨⟨req.sequence.value * 0x9E3779B97F4A7C15⟩,⟨0⟩⟩,⟨0⟩,req.draftModel.revision⟩

def RequestState.heldPart (rs : RequestState) : SpeculationRequest × List UInt32 × Authority × List Proposal :=
  (rs.req,rs.committed,rs.authority,rs.proposals)

structure Session (limit aligned depth branches : UInt32) (id : RequestId) (s : System) (rs : RequestState) : Prop where
  tokens : rs.committed =
    rs.req.prefixTokens ++ (rs.req.authority.session depth aligned branches rs.proposals.length).1
  authority : rs.authority = (rs.req.authority.session depth aligned branches rs.proposals.length).2
  below : limit ≠ 0 → rs.proposals.length ≤ limit.toNat
  calls : ∀ call ∈ s.calls, call.request = id → call.cycle.isSome → rs.req.draftModel.tokenizer.id.isNull = false ∧
    (limit ≠ 0 → rs.proposals.length < limit.toNat) ∧ call.Gathers rs.authority depth aligned branches

section steps
variable {limit aligned depth branches : UInt32} {id : RequestId} {s t : System} {a : Action} {rs rs' : RequestState}

theorem effectHeld (effect : Effect s id a rs rs') (named : rs.req.id.isNull = false) :
    rs'.heldPart = rs.heldPart ∨ ∃ index now c won accept candidate, a = .call index (.settle now) ∧
      s.calls[index]? = some (.settling c) ∧ c.request = id ∧ Settled c rs won accept candidate rs' := by
  cases effect with
  | resubmitted events same null => exact absurd null (by rw [named]; exact Bool.false_ne_true)
  | settled call same facts => exact .inr ⟨_,_,_,_,_,_,rfl,call,same,facts⟩
  | _ => exact .inl rfl

theorem plannedGathers {now eventNow : UInt64} {f : Fabric} (limits : f.scheduler.policy.maxOutstandingSpeculativeWork = limit)
    (fixed : FixedPolicy f.scheduler.policy depth branches) (positive : 0 < depth.toNat) (some_ : 0 < branches.toNat)
    (found : f.find id = some rs) (below : limit ≠ 0 → rs.proposals.length ≤ limit.toNat)
    (active : (begun id (f.planCycle now eventNow id).1).cycle.isSome) :
    rs.req.draftModel.tokenizer.id.isNull = false ∧ (limit ≠ 0 → rs.proposals.length < limit.toNat) ∧
      (begun id (f.planCycle now eventNow id).1).Gathers rs.authority depth aligned branches := by
  obtain ⟨p,planned⟩ := activePlanned active
  obtain ⟨held,goes⟩ := planGoes planned
  cases found.symm.trans goes.found
  refine ⟨compatibleTokenizer goes.compatible,?_,?_⟩
  · intro positive
    subst limits
    have open_ : ¬ f.scheduler.atLimit (UInt32.ofNat rs.proposals.length) := by
      intro full
      have blocked : (f.backpressure rs).blocked = true := limitBlocks full
      rw [goes.unblocked] at blocked
      cases blocked
    have most := below positive
    have small := f.scheduler.policy.maxOutstandingSpeculativeWork.toNat_lt
    rcases (belowLimit positive _).mp open_ with off | less
    · have blocked : (f.backpressure rs).blocked = true := by
        simp only [Fabric.backpressure,SpeculationScheduler.checkBackpressure,off,Bool.not_false,if_true]
        rfl
      rw [goes.unblocked] at blocked
      cases blocked
    · rwa [Nat.mod_eq_of_lt (Nat.lt_of_le_of_lt most small)] at less
  · have depths : p.depth = depth := by
      rw [goes.plan]
      simp only [SpeculationScheduler.planProposal,fixed.adaptive,fixed.latency,fixed.depth,ne_eq,not_true_eq_false,
        Bool.false_eq_true,if_false,maxOneSelf positive]
    have counts : p.branchCount = branches := by
      rw [goes.plan]
      simp only [SpeculationScheduler.planProposal,fixed.branches,maxOneSelf some_]
    rw [planned]
    refine ⟨⟨depths,counts⟩,?_,?_⟩
    · intro i br at_
      cases at_
    · intro i accept at_
      cases at_

theorem settledSession {index : Nat} {now : UInt64} {c : Cycle} {won accept candidate} (some_ : 0 < branches.toNat)
    (session : Session limit aligned depth branches id s rs) (found : s.fabric.find id = some rs) (lone : Lone id s)
    (facts : CallFacts (cpuExecutors { alignedTokens := aligned }) (.settling c))
    (present : s.calls[index]? = some (.settling c)) (same : c.request = id)
    (settled : Settled c rs won accept candidate rs') (stored : t.fabric.find id = some rs')
    (taken : s.step (.call index (.settle now)) = some t) : Session limit aligned depth branches id t rs' := by
  subst same
  obtain ⟨_,less,gathered⟩ := session.calls _ (List.mem_of_getElem? present) rfl rfl
  obtain ⟨_,length,full,_⟩ := facts
  obtain ⟨o,f',w,k,rs₁,settles,stored₁,cpu⟩ := cpuSettles found settled.live some_ (length.trans (congrArg _ gathered.planned.2))
    full gathered.drafted gathered.counted now
  obtain ⟨call,next,f,there,moved,same⟩ := callMoved taken
  cases present.symm.trans there
  cases settles.symm.trans moved
  subst same
  cases stored.symm.trans stored₁
  obtain ⟨gains,count⟩ := Authority.chosenGains cpu.chosen
  have word : k.toUInt64 = UInt64.ofNat (rs.authority.gains depth aligned branches).length := by
    rw [← count,UInt64.ofNat_uInt32ToNat]
  have one : rs'.proposals.length = rs.proposals.length + 1 := by
    rw [settled.advanced.proposals,List.length_append]
    rfl
  refine ⟨?_,?_,?_,?_⟩
  · rw [cpu.committed,session.tokens,gains,settled.advanced.req,one,Authority.session,← session.authority,List.append_assoc]
  · rw [RequestState.authority,settled.advanced.req,one,Authority.session,← session.authority,cpu.authGen,cpu.authState,
      word]
    rfl
  · intro positive
    rw [one]
    exact less positive
  · intro call member request active
    obtain ⟨j,at_⟩ := List.mem_iff_getElem?.mp member
    rcases stepCallFrom taken at_ with ⟨old,other⟩ | ⟨_,_,_,begins,_⟩ | ⟨action,old,here,before,stepped⟩
    · cases lone index j _ _ present old rfl request rfl active
      exact absurd rfl (other (.settle now))
    · cases begins
    · cases here
      rw [settleEnds stepped] at active
      cases active

theorem keptSession (positive : 0 < depth.toNat) (bounded : depth.toNat ≤ 256) (some_ : 0 < branches.toNat)
    (limits : s.fabric.scheduler.policy.maxOutstandingSpeculativeWork = limit)
    (fixed : FixedPolicy s.fabric.scheduler.policy depth branches)
    (session : Session limit aligned depth branches id s rs) (found : s.fabric.find id = some rs)
    (same : rs'.heldPart = rs.heldPart) (allowed : (cpuExecutors { alignedTokens := aligned }).admits s a)
    (taken : s.step a = some t) : Session limit aligned depth branches id t rs' := by
  obtain ⟨req,rest⟩ := Prod.mk.inj same
  obtain ⟨committed,rest⟩ := Prod.mk.inj rest
  obtain ⟨authority,proposals⟩ := Prod.mk.inj rest
  refine ⟨?_,?_,?_,?_⟩
  · rw [committed,req,proposals]
    exact session.tokens
  · rw [authority,req,proposals]
    exact session.authority
  · rw [proposals]
    exact session.below
  · rw [req,proposals,authority]
    intro call member request active
    obtain ⟨j,at_⟩ := List.mem_iff_getElem?.mp member
    rcases stepCallFrom taken at_ with ⟨old,_⟩ | ⟨now,eventNow,target,rfl,rfl⟩ | ⟨action,old,rfl,before,stepped⟩
    · exact session.calls call (List.mem_of_getElem? old) request active
    · rw [begunRequest] at request
      subst request
      exact plannedGathers limits fixed positive some_ found session.below active
    · obtain ⟨requests,ongoing⟩ := callStays stepped
      have own := requests.symm.trans request
      obtain ⟨tokenizer,less,gathers⟩ := session.calls old (List.mem_of_getElem? before) own ongoing
      exact ⟨tokenizer,less,gathersStep positive bounded before (own.symm ▸ found) ⟨rfl,rfl,rfl,tokenizer⟩ allowed
        stepped gathers⟩

end steps

structure InSession (cfg : Config) (aligned depth branches : UInt32) (id : RequestId) (s : System) : Prop where
  registry : Registry s
  facts : ∀ call ∈ s.calls, CallFacts (cpuExecutors { alignedTokens := aligned }) call
  policy : s.fabric.scheduler.policy = cfg.policy
  lone : Lone id s
  session : ∀ rs, s.fabric.find id = some rs →
    Session cfg.policy.maxOutstandingSpeculativeWork aligned depth branches id s rs

theorem freshSession {s t : System} {a : Action} {limit aligned depth branches : UInt32} {id : RequestId} {rs : RequestState}
    (registry : Registry s) (taken : s.step a = some t) (missing : s.fabric.find id = none)
    (found : t.fabric.find id = some rs) : Session limit aligned depth branches id t rs := by
  obtain ⟨now,req,events,rfl,rfl,rfl⟩ := stepAppears registry taken missing found
  refine ⟨?_,rfl,fun _ => Nat.zero_le _,?_⟩
  · show req.prefixTokens = req.prefixTokens ++ []
    rw [List.append_nil]
  · cases Option.some.inj taken
    intro call member request active
    have there := registry.registered call member active
    rw [request,missing] at there
    cases there

theorem inSessionStep {cfg : Config} {aligned depth branches : UInt32} {id : RequestId} {s t : System} {a : Action}
    (fixed : FixedPolicy cfg.policy depth branches) (positive : 0 < depth.toNat) (bounded : depth.toNat ≤ 256)
    (some_ : 0 < branches.toNat) (named : id.isNull = false) (before : InSession cfg aligned depth branches id s)
    (allowed : (cpuExecutors { alignedTokens := aligned }).admits s a ∧ oneAtATime id s a)
    (taken : s.step a = some t) : InSession cfg aligned depth branches id t := by
  refine ⟨registryStep taken before.registry,callFactsStep taken allowed.1 before.facts,
    (stepFixed taken).2.trans before.policy,loneStep before.lone allowed.2 taken,?_⟩
  intro rs' stored
  cases found : s.fabric.find id with
  | none => exact freshSession before.registry taken found stored
  | some rs =>
      obtain ⟨next,there,effect⟩ := stepEffect taken found
      cases stored.symm.trans there
      have own : rs.req.id.isNull = false := by rw [before.registry.named id rs found]; exact named
      rcases effectHeld effect own with same | ⟨index,now,c,won,accept,candidate,rfl,present,request,settled⟩
      · exact keptSession positive bounded some_ (congrArg _ before.policy) (before.policy ▸ fixed)
          (before.session rs found) found same allowed.1 taken
      · exact settledSession some_ (before.session rs found) found before.lone
          (before.facts _ (List.mem_of_getElem? present)) present request settled stored taken

theorem inSession {cfg : Config} {aligned depth branches : UInt32} {id : RequestId} {actions : List Action} {s : System}
    (fixed : FixedPolicy cfg.policy depth branches) (positive : 0 < depth.toNat) (bounded : depth.toNat ≤ 256)
    (some_ : 0 < branches.toNat) (named : id.isNull = false) (run : SessionRun aligned id (.start cfg) actions s) :
    InSession cfg aligned depth branches id s := by
  refine Runs.invariant run ⟨registryStart cfg,?_,rfl,?_,?_⟩ ?_
  · intro call member
    cases member
  · intro i j ci cj at_
    cases at_
  · intro rs found
    exact absurd found (startRecordless _ _ _)
  · intro u a v before allowed taken
    exact inSessionStep fixed positive bounded some_ named before allowed taken

theorem sessionsDecode {cfg : Config} {aligned depth branches : UInt32} {id : RequestId} {actions : List Action}
    {s : System} {rs : RequestState} (fixed : FixedPolicy cfg.policy depth branches) (positive : 0 < depth.toNat)
    (bounded : depth.toNat ≤ 256) (some_ : 0 < branches.toNat) (named : id.isNull = false)
    (run : SessionRun aligned id (.start cfg) actions s) (found : s.fabric.find id = some rs) :
    rs.committed = rs.req.prefixTokens ++ (rs.req.authority.session depth aligned branches rs.proposals.length).1 ∧
    rs.authority = (rs.req.authority.session depth aligned branches rs.proposals.length).2 ∧
    (depth ≤ aligned → rs.committed = rs.req.prefixTokens ++ (rs.req.authority.spoken depth rs.proposals.length).1) ∧
    rs.proposals.length * min aligned.toNat depth.toNat + rs.req.prefixTokens.length ≤ rs.committed.length ∧
    rs.committed.length ≤ rs.proposals.length * depth.toNat + rs.req.prefixTokens.length ∧
    (cfg.policy.maxOutstandingSpeculativeWork ≠ 0 →
      rs.proposals.length ≤ cfg.policy.maxOutstandingSpeculativeWork.toNat) := by
  have session := (inSession fixed positive bounded some_ named run).session rs found
  have bounds := rs.req.authority.sessionBounds depth aligned some_ rs.proposals.length
  have size := congrArg List.length session.tokens
  rw [List.length_append] at size
  refine ⟨session.tokens,session.authority,?_,by omega,by omega,session.below⟩
  intro deep
  rw [← Authority.sessionSpoken rs.req.authority some_ deep]
  exact session.tokens

def startsAlone (id : RequestId) (s : System) : Action → Bool
  | .runCycle _ _ target => decide (target ≠ id) || s.calls.all fun call => decide (call.request ≠ id) || call.cycle.isNone
  | _ => true

theorem startedAlone {id : RequestId} {s : System} {a : Action} (passed : startsAlone id s a = true) :
    oneAtATime id s a := by
  cases a with
  | runCycle now eventNow target =>
      intro same call member request
      have all : (s.calls.all fun call => decide (call.request ≠ id) || call.cycle.isNone) = true := by
        simpa [startsAlone,same] using passed
      have here := List.all_eq_true.mp all call member
      rwa [decide_eq_false (not_not_intro request),Bool.false_or,Option.isNone_iff_eq_none] at here
  | _ => trivial

/- A schedule is operations, and calls in flight by the place they stand at. -/
def scheduled (aligned : UInt32) : System → List (Nat ⊕ Action) → List Action
  | _,[] => []
  | s,.inr a :: rest => a :: scheduled aligned ((s.step a).getD s) rest
  | s,.inl i :: rest =>
      match (s.calls[i]?).bind (Call.turn (CpuProposer.propose { alignedTokens := aligned }) verify 9) with
      | some action => .call i action :: scheduled aligned ((s.step (.call i action)).getD s) rest
      | none => scheduled aligned s rest

def twoSteps : Config := { policy := { adaptiveDepthEnabled := false, maxDepth := 2 } }

def mingled : List (Nat ⊕ Action) :=
  [.inr (.submit 1 (makeReq ⟨100⟩ [7])),.inr (.runCycle 2 2 ⟨100⟩),.inr (.submit 3 (makeReq ⟨200⟩ [])),.inl 0,
    .inr (.runCycle 4 4 ⟨200⟩),.inl 1,.inl 0,.inl 1,.inr (.rollback 5 ⟨100⟩ "again"),.inl 0,.inl 0,.inl 0,
    .inr (.runCycle 6 6 ⟨100⟩),.inl 1,.inl 2,.inr (.cancel 7 ⟨200⟩ "enough"),.inl 2,.inl 1,.inl 1,.inl 2,.inl 2,.inl 2]

def mingledActions : List Action := scheduled 1 (.start twoSteps) mingled

def mingledSystem : Option System :=
  Runs.exec System.step (fun u a => answersAs (CpuProposer.propose { alignedTokens := 1 }) verify u a && startsAlone ⟨100⟩ u a)
    (.start twoSteps) mingledActions

theorem mingledChecked {s : System} (ended : mingledSystem = some s) :
    SessionRun 1 ⟨100⟩ (.start twoSteps) mingledActions s := by
  refine Runs.ofExec ?_ ended
  intro u a passed
  obtain ⟨answers,alone⟩ := Bool.and_eq_true_iff.mp passed
  exact ⟨answersAdmitted u a answers,startedAlone alone⟩

theorem mingledRuns : ∃ s, SessionRun 1 ⟨100⟩ (.start twoSteps) mingledActions s := by
  have finishes : mingledSystem.isSome := by decide +kernel
  obtain ⟨s,ended⟩ := Option.isSome_iff_exists.mp finishes
  exact ⟨s,mingledChecked ended⟩

theorem mingledDecodes : ∃ s rs, SessionRun 1 ⟨100⟩ (.start twoSteps) mingledActions s ∧ s.fabric.find ⟨100⟩ = some rs ∧
    rs.proposals.length = 2 ∧ rs.committed = [7] ++ ((makeReq ⟨100⟩ [7]).authority.session 2 1 1 2).1 ∧
    3 ≤ rs.committed.length := by
  have held : (mingledSystem.bind fun s => s.fabric.find ⟨100⟩).map (fun rs => (rs.req,rs.proposals.length)) =
      some (makeReq ⟨100⟩ [7],2) := by decide +kernel
  obtain ⟨rs,stored,seen⟩ := Option.map_eq_some_iff.mp held
  obtain ⟨s,ended,found⟩ := Option.bind_eq_some_iff.mp stored
  obtain ⟨req,count⟩ := Prod.mk.inj seen
  have run := mingledChecked ended
  have fixed : FixedPolicy twoSteps.policy 2 1 := ⟨rfl,by decide,rfl,rfl⟩
  obtain ⟨tokens,_,_,least,_,_⟩ := sessionsDecode fixed (by decide) (by decide) (by decide) (by decide) run found
  rw [req,count] at tokens least
  exact ⟨s,rs,run,found,count,tokens,least⟩

end SpeculationFabric
