import SpeculationFabric.CpuCycle
import SpeculationFabric.DriveOutcomes
import SpeculationFabric.WorkerFacts

/-! One cycle of a coordinator whose workers answer every dispatch, each message through
both codecs. Whatever the record it starts from holds, every result passes the gate,
each branch comes back with its draft and its count, and the first best is committed. -/
namespace SpeculationFabric.Dist

open Wire

def Coordinator.delivered (c : Coordinator) : Option Coordinator :=
  match c.log.getLast? with
  | some (.toProposer m) | some (.toVerifier m) =>
      match encode m with
      | .error _ => none
      | .ok frame =>
          match serve frame with
          | .sent answer => c.step (.reply (.frame answer))
          | _ => none
  | _ => none

theorem deliveredAnswer {c : Coordinator} {m : Message} {answer : List UInt8}
    (last : c.log.getLast? = some (.toProposer m) ∨ c.log.getLast? = some (.toVerifier m)) (sound : Conforming m)
    (serves : serve (layout m) = .sent answer) : c.delivered = c.step (.reply (.frame answer)) := by
  rw [Coordinator.delivered]
  rcases last with last | last
  · simp only [last,conformingEncodes sound,serves]
  · simp only [last,conformingEncodes sound,serves]

theorem proposalGoes {c : Coordinator} {d : Drive} {bytes : List UInt8} {pr : Message} {toks : List UInt32}
    (decoded : decode bytes = .ok pr) (current : ProposalCurrent c d pr)
    (success : pr.u32Fields[prOutcome]? = some kOutcomeSuccess)
    (tokens : readFields pr.u32Fields prTokens d.depth.toNat = some toks) :
    c.proposerReply d (.frame bytes) =
      c.send .toVerifier (verificationDispatch (c.request d.reqid) d toks c.verifierBoot) (.verifying d toks) := by
  simp only [Coordinator.proposerReply,decoded,readProposalGoes current success tokens,Option.getD_some]

theorem verdictGoes {c : Coordinator} {d : Drive} {toks : List UInt32} {bytes : List UInt8} {vr : Message}
    {accepted firstrej outcome : UInt32} (decoded : decode bytes = .ok vr) (current : VerdictCurrent c d vr)
    (atAccepted : vr.u32Fields[vrAccepted]? = some accepted) (atFirst : vr.u32Fields[vrFirstRej]? = some firstrej)
    (atOutcome : vr.u32Fields[vrOutcome]? = some outcome) :
    c.verifierReply d toks (.frame bytes) =
      c.advance (d.recorded ⟨(d.b + 1).toUInt64,toks,d.depth,accepted,firstrej,outcome⟩) := by
  have clear := (validateClear (c.request d.reqid) _ _ _ _ _ c.verifierBoot).mpr ⟨rfl,rfl,rfl,rfl,rfl⟩
  simp only [Coordinator.verifierReply,decoded,Coordinator.readVerdict,current.epoch,current.attempt,
    current.baseGen,atAccepted,atFirst,atOutcome,bind,Option.bind_some,clear,ne_eq,not_true_eq_false,if_false,
    Option.getD_some,Drive.recorded]

/- Every dispatch carries the revision 1. -/
def CReq.authority (r : CReq) : Authority := ⟨r.authState,r.authGen,⟨1⟩⟩

theorem Unmoved.authority {r s : CReq} (unmoved : Unmoved r s) : s.authority = r.authority := by
  rw [CReq.authority,unmoved.authState,unmoved.authGen,CReq.authority]

structure Worked (a : Authority) (depth aligned : UInt32) (i : Nat) (br : Br) : Prop where
  branch : br.branch = (branchIdAt (UInt32.ofNat i)).value
  toks : br.toks = a.draft depth aligned (UInt32.ofNat i)
  accepted : br.accepted.toNat = a.taken br.toks

section branch
variable {d : Drive} (positive : 0 < d.depth.toNat) (shallow : d.depth.toNat ≤ 61)
include positive shallow

theorem proposalDelivered {t : Coordinator} (waits : t.phase = .proposing d)
    (last : t.log.getLast? = some (.toProposer (t.asked d))) :
    t.delivered = some (t.questioned d ((t.request d.reqid).authority.draft d.depth d.aligned d.b)) := by
  obtain ⟨res,candidate,proposes,success,produced,ids⟩ := Authority.proposes (a := (t.request d.reqid).authority)
    (dispatchedInput (t.request d.reqid) d t.proposerBoot) d.depth d.aligned d.b rfl rfl rfl rfl rfl rfl positive (by omega)
  have size := (t.request d.reqid).authority.draftSize d.depth d.aligned d.b
  have fields : candidateFields d.depth res.candidate = (t.request d.reqid).authority.draft d.depth d.aligned d.b := by
    rw [produced]
    exact ids
  have sound : Conforming (proposalResultMessage (t.request d.reqid) d t.proposerBoot res) :=
    proposalResultConforms (by rw [fields,size]; omega)
  have serves : serve (layout (proposalDispatch (t.request d.reqid) d t.proposerBoot)) =
      .sent (layout (proposalResultMessage (t.request d.reqid) d t.proposerBoot res)) := by
    rw [proposalServed,proposalAnswered proposes]
    exact sentConforming sound
  have tokens : readFields (proposalResultMessage (t.request d.reqid) d t.proposerBoot res).u32Fields prTokens
      d.depth.toNat = some ((t.request d.reqid).authority.draft d.depth d.aligned d.b) := by
    rw [← fields] at size ⊢
    exact readFieldsAll [outcomeCode res,d.depth] rfl size
  have outcome : outcomeCode res = kOutcomeSuccess := if_pos success
  rw [deliveredAnswer (.inl last) (proposalDispatchConforms _ _ _) serves]
  simp only [Coordinator.step,waits]
  rw [proposalGoes (layoutDecodes sound) ⟨rfl,rfl,rfl,rfl,rfl⟩ (congrArg some outcome) tokens,
    sendConforming _ _ _ (verificationDispatchConforms _ _ _ (by rw [size]; exact shallow)),Coordinator.questioned]

theorem verdictDelivered {t : Coordinator} {toks : List UInt32} (size : toks.length = d.depth.toNat)
    (waits : t.phase = .verifying d toks)
    (last : t.log.getLast? = some (.toVerifier (verificationDispatch (t.request d.reqid) d toks t.verifierBoot))) :
    ∃ br : Br, t.delivered = some (t.advance (d.recorded br)) ∧ br.branch = (d.b + 1).toUInt64 ∧ br.toks = toks ∧
      br.accepted.toNat = (t.request d.reqid).authority.taken toks := by
  have filled : toks ≠ [] := by
    rintro rfl
    rw [List.length_nil] at size
    omega
  have ids : (toks.map fun id => ({ id := id } : Token)).map Token.id = toks := by simp [Function.comp_def]
  obtain ⟨res,verifies,count⟩ := Authority.verifies (a := (t.request d.reqid).authority)
    (dispatchedVerification (t.request d.reqid) d toks t.verifierBoot) rfl rfl rfl ids filled rfl rfl
  rw [deliveredAnswer (.inr last) (verificationDispatchConforms _ _ _ (by rw [size]; exact shallow))
    (verificationServed size shallow verifies)]
  simp only [Coordinator.step,waits]
  rw [verdictGoes (layoutDecodes (verificationResultConforms _ _ _)) ⟨rfl,rfl,rfl⟩ rfl rfl rfl]
  exact ⟨_,rfl,rfl,rfl,count⟩

theorem branchDelivered (c : Coordinator) :
    ∃ (t : Coordinator) (br : Br), Runs.Leads Coordinator.delivered 2 (c.openBranch d) (t.advance (d.recorded br)) ∧
      Unmoved (c.request d.reqid) (t.request d.reqid) ∧ (∃ middle, t.log = c.log ++ middle) ∧
      Worked (c.request d.reqid).authority d.depth d.aligned d.brs.length br := by
  have waits : (c.openBranch d).phase = .proposing d := by rw [openBranchSends]
  have unmoved : Unmoved (c.request d.reqid) ((c.openBranch d).request d.reqid) := by
    rw [openBranchRequest]
    exact countedUnmoved _
  have log : ∃ middle, (c.openBranch d).log = c.log ++ middle := by
    rw [openBranchSends]
    exact ⟨_,rfl⟩
  have first := proposalDelivered positive shallow waits (openBranchAsks c d)
  obtain ⟨br,second,branch,toks,accepted⟩ := verdictDelivered positive shallow
    (t := (c.openBranch d).questioned d (((c.openBranch d).request d.reqid).authority.draft d.depth d.aligned d.b))
    (Authority.draftSize _ _ _ _) rfl List.getLast?_concat
  refine ⟨_,br,.step first (.step second .here),unmoved,?_,branch,?_,?_⟩
  · obtain ⟨middle,same⟩ := log
    exact ⟨middle ++ [_],by rw [Coordinator.questioned,same,List.append_assoc]⟩
  · rw [toks,unmoved.authority]
    rfl
  · rw [accepted,toks,← unmoved.authority]
    rfl

theorem loopDelivered {c : Coordinator} {a : Authority} (n : Nat) (authority : (c.request d.reqid).authority = a)
    (left : d.brs.length + n = d.branches.toNat)
    (worked : ∀ i br, d.brs[i]? = some br → Worked a d.depth d.aligned i br) :
    ∃ (t : Coordinator) (brs : List Br),
      Runs.Leads Coordinator.delivered (2 * n) (c.advance d) (t.conclude { d with brs := brs }) ∧
      Unmoved (c.request d.reqid) (t.request d.reqid) ∧ (∃ middle, t.log = c.log ++ middle) ∧
      brs.length = d.branches.toNat ∧ ∀ i br, brs[i]? = some br → Worked a d.depth d.aligned i br := by
  induction n generalizing c d with
  | zero =>
      have all : ¬d.brs.length < d.branches.toNat := by omega
      rw [Coordinator.advance,if_neg all]
      exact ⟨c,d.brs,.here,.refl _,⟨[],(List.append_nil _).symm⟩,left,worked⟩
  | succ n ih =>
      have more : d.brs.length < d.branches.toNat := by omega
      rw [Coordinator.advance,if_pos more]
      obtain ⟨u,br,leads,unmoved,⟨front,log⟩,recorded⟩ := branchDelivered positive shallow c
      rw [authority] at recorded
      have next : ∀ i x, (d.recorded br).brs[i]? = some x → Worked a d.depth d.aligned i x := by
        intro i x at_
        rcases appendedAt at_ with old | ⟨rfl,rfl⟩
        · exact worked i x old
        · exact recorded
      have length : (d.recorded br).brs.length = d.brs.length + 1 := by
        rw [Drive.recorded,List.length_append]
        rfl
      have remaining : (d.recorded br).brs.length + n = (d.recorded br).branches.toNat := by
        rw [length,Nat.add_right_comm]
        exact left
      obtain ⟨t,brs,rest,still,⟨back,later⟩,full,all⟩ := ih (d := d.recorded br) (c := u) positive shallow
        (unmoved.authority.trans authority) remaining next
      refine ⟨t,brs,?_,unmoved.trans still,⟨front ++ back,by rw [later,log,List.append_assoc]⟩,full,all⟩
      have whole := leads.trans rest
      rwa [show 2 + 2 * n = 2 * (n + 1) by omega] at whole

end branch

theorem winningFirstBest {brs : List Br} (filled : 0 < brs.length)
    (rising : ∀ (w i : Nat) (best br : Br), w < i → brs[w]? = some best → brs[i]? = some br → best.branch < br.branch) :
    FirstBest (brs.map fun br => br.accepted.toNat) (winningBr brs) := by
  have moves : ∀ w i, w < i → i < (brs.map fun br => br.accepted.toNat).length →
      betterBr brs w i = if (brs.map fun br => br.accepted.toNat).getD w 0 <
        (brs.map fun br => br.accepted.toNat).getD i 0 then i else w := by
    intro w i later inside
    rw [List.length_map] at inside
    have challenger := List.getElem?_eq_getElem inside
    have best := List.getElem?_eq_getElem (show w < brs.length by omega)
    have order := rising w i _ _ later best challenger
    rw [UInt64.lt_iff_toNat_lt] at order
    simp only [betterBr,challenger,best,List.getD_eq_getElem?_getD,List.getElem?_map,Option.map_some,Option.getD_some]
    refine if_congr ?_ rfl rfl
    constructor
    · rintro (more | ⟨_,earlier⟩)
      · exact UInt32.lt_iff_toNat_lt.mp more
      · have := UInt64.lt_iff_toNat_lt.mp earlier
        omega
    · intro more
      exact .inl (UInt32.lt_iff_toNat_lt.mpr more)
  obtain ⟨inside,most,first⟩ := Selection.firstBest _ _ (by rw [List.length_map]; exact filled) moves
  rw [winningBr,← List.length_map fun br : Br => br.accepted.toNat]
  exact ⟨inside,most,first⟩

theorem driveWorked (c : Coordinator) (aligned : UInt32) {reqid : UInt64} {depth branches : UInt32} {a : Authority}
    (authority : (c.request reqid).authority = a) (some_ : 0 < branches.toNat) (positive : 0 < depth.toNat)
    (shallow : depth.toNat ≤ 61) :
    ∃ (t : Coordinator) (w : Nat) (k firstrej : UInt32),
      Runs.Leads Coordinator.delivered (2 * branches.toNat) (c.driveCycle reqid depth branches aligned) t ∧
      t.delivered = none ∧ Returned c t reqid (.ok k (branchIdAt (UInt32.ofNat w)).value firstrej) ∧
      a.Chosen depth aligned branches w k ∧
      Grown (c.request reqid) (t.request reqid) ((a.draft depth aligned (UInt32.ofNat w)).take k.toNat) k := by
  rw [Coordinator.driveCycle]
  have begun : Unmoved (c.request reqid) ((c.store reqid { c.request reqid with
      depth := depth, branches := branches, aligned := aligned, epoch := c.epoch }).request reqid) := by
    rw [requestStoreSelf]
    exact ⟨rfl,rfl,rfl,rfl⟩
  obtain ⟨u,brs,leads,unmoved,⟨middle,log⟩,length,worked⟩ := loopDelivered positive shallow
    (d := ⟨reqid,depth,branches,aligned,[]⟩) branches.toNat (begun.authority.trans authority) (Nat.zero_add _)
    (by simp)
  have filled : 0 < brs.length := by
    rw [length]
    exact some_
  have best : FirstBest (brs.map fun br => br.accepted.toNat) (winningBr brs) := by
    apply winningFirstBest filled
    intro v i one other later at_ above
    have inside : i < branches.toNat := Nat.lt_of_lt_of_eq (List.getElem?_eq_some_iff.mp above).1 length
    have bound := branches.toNat_lt
    rw [(worked v one at_).branch,(worked i other above).branch]
    exact branchOrder later (by omega)
  obtain ⟨win,won⟩ : ∃ win, brs[winningBr brs]? = some win := ⟨_,List.getElem?_eq_getElem (winningInside filled)⟩
  have recorded := worked _ win won
  have chosen := Authority.chosenBy Br.accepted length
    (fun i br at_ => (worked i br at_).toks ▸ (worked i br at_).accepted) best won
  have fits : win.accepted.toNat ≤ win.toks.length := by
    rw [recorded.accepted]
    exact Authority.takenInside _
  simp only [Coordinator.conclude,won] at leads
  rw [if_pos fits,finishOk] at leads
  refine ⟨_,winningBr brs,win.accepted,win.firstrej,leads,?_,⟨rfl,middle,?_⟩,chosen,?_⟩
  · simp [Coordinator.delivered]
  · rw [← recorded.branch]
    exact congrArg (· ++ _) log
  · have after := requestStoreSelf u reqid ((u.request reqid).commit win.toks win.accepted)
    rw [← recorded.toks]
    exact after.symm ▸ commitGrown (begun.trans unmoved) fits

end SpeculationFabric.Dist
