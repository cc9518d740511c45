import SpeculationFabric.CoordinatorRuns
import SpeculationFabric.WorkerFacts

/-! Proposal results that were made for an earlier dispatch. The gate holds the epoch,
the boot, the attempt, the base and the proposal generation against the request. A
cycle starts from attempt one and base zero whatever came before it, and the generation
counts its branches, so the same branch of another submission passes. -/
namespace SpeculationFabric.Dist

open Wire

def ProposalRefused (c : Coordinator) (d : Drive) (frame : List UInt8) : Prop :=
  ∃ why, c.proposerReply d (.frame frame) = c.finish d (.failed why) ∧
    (c.proposerReply d (.frame frame)).requests = c.requests

/- What tells the result of an earlier dispatch from the outstanding one's: another
epoch, another proposer, another branch, or no token at all. -/
def ToldApart (c : Coordinator) (d : Drive) (earlier : Message) : Prop :=
  earlier.u64Fields[pdEpoch]? ≠ some c.epoch.value ∨ earlier.u64Fields[pdProposerBoot]? ≠ some c.proposerBoot ∨
    earlier.u64Fields[pdBranch]? ≠ some d.b.toUInt64 ∨ earlier.u32Fields[pdDepth]? = some 0

theorem finishLog (c : Coordinator) (d : Drive) (result : DriveResult) :
    ∃ more, (c.finish d result).log = c.log ++ .submitted d.reqid result :: more := by
  rw [Coordinator.finish]
  obtain same | same := sendCases { c with log := c.log ++ [.submitted d.reqid result] } .toDriver
    (driverMessage (c.request d.reqid) d.reqid result) .waiting
  · rw [same]
    exact ⟨[],rfl⟩
  · rw [same]
    exact ⟨[_],List.append_assoc _ _ _⟩

theorem refusedLonger {c t : Coordinator} {d : Drive} {why : String} (same : t = c.finish d (.failed why)) :
    t.log ≠ c.log ∧ ∀ m, t.log ≠ c.log ++ [.toVerifier m] := by
  obtain ⟨more,log⟩ := finishLog c d (.failed why)
  rw [same,log]
  refine ⟨?_,?_⟩
  · intro shorter
    have lengths := congrArg List.length shorter
    simp at lengths
  · intro m other
    have heads := List.append_cancel_left other
    simp at heads

theorem currentPasses {c : Coordinator} {d : Drive} {pr : Message} (current : ProposalCurrent c d pr)
    (success : pr.u32Fields[prOutcome]? = some kOutcomeSuccess) (why : String) :
    (c.readProposal d pr).getD c.undefine ≠ c.finish d (.failed why) := by
  intro same
  obtain ⟨longer,notAsked⟩ := refusedLonger same
  cases found : c.readProposal d pr with
  | none =>
      rw [found] at longer
      exact longer rfl
  | some t =>
      rw [found,Option.getD_some] at longer notAsked
      obtain ⟨_,refused,_⟩ | ⟨toks,_,_,_,rfl⟩ := readProposalCases found
      · exact refused ⟨current,success⟩
      · obtain large | sent := sendCases c .toVerifier
          (verificationDispatch (c.request d.reqid) d toks c.verifierBoot) (.verifying d toks)
        · rw [large] at longer
          exact longer rfl
        · rw [sent] at notAsked
          exact notAsked _ rfl

theorem refusedExactly (c : Coordinator) (d : Drive) {frame : List UInt8} {pr : Message} (decoded : decode frame = .ok pr)
    (u64s : 11 ≤ pr.u64Fields.length) (u32s : 2 ≤ pr.u32Fields.length) :
    ProposalRefused c d frame ↔ ¬(ProposalCurrent c d pr ∧ pr.u32Fields[prOutcome]? = some kOutcomeSuccess) := by
  have reply : c.proposerReply d (.frame frame) = (c.readProposal d pr).getD c.undefine := by
    simp only [Coordinator.proposerReply,decoded]
  constructor
  · rintro ⟨why,same,_⟩ ⟨current,success⟩
    exact currentPasses current success why (reply.symm.trans same)
  · intro stale
    obtain ⟨why,found⟩ := readProposalStale u64s u32s stale
    rw [found,Option.getD_some] at reply
    exact ⟨why,reply,by rw [reply,finishRequests]⟩

theorem advanceAsked {c : Coordinator} {d e : Drive} (waits : (c.advance e).phase = .proposing d) :
    (c.advance e).log.getLast? = some (.toProposer ((c.advance e).asked d)) := by
  obtain ⟨_,opened⟩ | large | ⟨win,_,_,done⟩ := advanceCases c e
  · rw [opened] at waits ⊢
    rw [openBranchSends] at waits
    cases waits
    exact openBranchAsks c d
  · rw [large] at waits
    cases waits
  · rw [done,finishOk] at waits
    cases waits

theorem stepAsked {c t : Coordinator} {e : Event} {d : Drive} (taken : c.step e = some t)
    (waits : t.phase = .proposing d) : t.log.getLast? = some (.toProposer (t.asked d)) := by
  obtain ⟨_,quiet⟩ | ⟨frame,reqid,depth,branches,aligned,_,_,_,rfl⟩ | ⟨d',r,_,_,rfl⟩ | ⟨d',toks,r,_,_,rfl⟩ :=
    stepCases taken
  · have idle := quiet.idle
    simp [waits] at idle
  · exact advanceAsked waits
  · obtain same | ⟨why,short,same⟩ | ⟨toks,_,same⟩ := proposerReplyCases c d' r
    · rw [same] at waits
      cases waits
    · rw [same,finishFailed c d' short] at waits
      cases waits
    · rw [same] at waits
      cases waits
  · obtain same | ⟨why,short,same⟩ | ⟨_,_,br,_,_,_,_,_,_,same⟩ := verifierReplyCases c d' toks r
    · rw [same] at waits
      cases waits
    · rw [same,finishFailed c d' short] at waits
      cases waits
    · rw [same] at waits ⊢
      exact advanceAsked waits

theorem currentExactly {t : Coordinator} {d e : Drive} {r : CReq} {boot : UInt64} {res : ProposalResult}
    (sound : Sound t) (waits : t.phase = .proposing d) (attempt : r.attempt = ⟨1⟩) (base : r.authGen = ⟨0⟩)
    (propGen : r.propGen = e.b.toUInt64 + 1) :
    ProposalCurrent t d (proposalResultMessage r e boot res) ↔
      r.epoch.value = t.epoch.value ∧ boot = t.proposerBoot ∧ e.b.toUInt64 = d.b.toUInt64 := by
  obtain ⟨driving,more⟩ := sound.proposing d waits
  have standing := driving.standing sound.steady
  have now : (t.request d.reqid).propGen = d.b.toUInt64 + 1 := by
    rw [driving.propGen,driveIndex more,UInt64.ofNat_add]
    rfl
  constructor
  · intro current
    refine ⟨?_,Option.some.inj current.boot,?_⟩
    · rw [← driving.epoch]
      exact Option.some.inj current.epoch
    · have same : r.propGen = (t.request d.reqid).propGen := Option.some.inj current.propGen
      rw [propGen,now] at same
      exact add_right_cancel same
  · rintro ⟨epoch,rfl,branch⟩
    refine ⟨?_,rfl,?_,?_,?_⟩
    · rw [driving.epoch]
      exact congrArg some epoch
    · rw [standing.attempt]
      exact congrArg (fun a => some (StrongId.value a)) attempt
    · rw [driving.authGen sound.steady]
      exact congrArg (fun a => some (StrongId.value a)) base
    · rw [now,← branch]
      exact congrArg some propGen

theorem earlierRefusedExactly {proposerBoot verifierBoot : UInt64} {events : List Event} {t : Coordinator} {d : Drive}
    {earlier : Message} {frame : List UInt8}
    (run : CoordinatorRun (fun _ _ => True) (.start proposerBoot verifierBoot) events t)
    (waits : t.phase = .proposing d) (before : .toProposer earlier ∈ t.log.dropLast)
    (answers : serve (layout earlier) = .sent frame) :
    t.log.getLast? = some (.toProposer (t.asked d)) ∧ (ProposalRefused t d frame ↔ ToldApart t d earlier) := by
  have sound := reachableSound run
  obtain ⟨r,e,boot,rfl,attempt,base,propGen⟩ := sound.steady.dispatched earlier (List.mem_of_mem_dropLast before)
  obtain ⟨res,decoded,success⟩ := proposalFrame answers
  constructor
  · cases run with
    | nil => cases waits
    | snoc _ _ taken => exact stepAsked taken waits
  · have outcome : (proposalResultMessage r e boot res).u32Fields[prOutcome]? = some kOutcomeSuccess ↔ e.depth ≠ 0 := by
      rw [← success]
      exact Option.some_inj
    rw [refusedExactly t d decoded (by simp [proposalResultMessage]) (by simp [proposalResultMessage]),outcome,
      currentExactly sound waits attempt base propGen]
    have fields : ToldApart t d (proposalDispatch r e boot) ↔ r.epoch.value ≠ t.epoch.value ∨ boot ≠ t.proposerBoot ∨
        e.b.toUInt64 ≠ d.b.toUInt64 ∨ e.depth = 0 := by
      rw [ToldApart]
      exact or_congr (not_congr Option.some_inj) (or_congr (not_congr Option.some_inj)
        (or_congr (not_congr Option.some_inj) Option.some_inj))
    simp only [fields,not_and_or,ne_eq,not_not,or_assoc]

def askedAgain : List Event := firstCommit ++ [fromDriver (submission 42 1 1 0)]

theorem askedAgainRuns : (runFrom (.start 7 8) askedAgain).isSome := by decide +kernel

def afterAskedAgain : Coordinator := (runFrom (.start 7 8) askedAgain).get askedAgainRuns

def firstDispatch (branches : UInt32) : Message :=
  { type := Msg.proposalDispatch
    u64Fields := [42,43,1,1,17661420568835545970,0,0,1,1042,0,7,1]
    u32Fields := [1,1,branches] }

theorem askedAgainState :
    afterAskedAgain.phase = .proposing ⟨42,1,1,0,[]⟩ ∧ .toProposer (firstDispatch 1) ∈ afterAskedAgain.log.dropLast ∧
    afterAskedAgain.request 42 = { ({} : CReq).submitted 42 ⟨1⟩ with depth := 1, branches := 1, propGen := 1 } ∧
    afterAskedAgain.proposerBoot = 7 ∧
    (((afterAskedAgain.proposerReply ⟨42,1,1,0,[]⟩ (.frame (layout drafted))).verifierReply ⟨42,1,1,0,[]⟩ [3270]
      (.frame (layout judged))).request 42).committed = [3270] := by
  decide +kernel

theorem earlierResultCommits :
    CoordinatorRun (fun _ _ => True) (.start 7 8) askedAgain afterAskedAgain ∧
    afterAskedAgain.phase = .proposing ⟨42,1,1,0,[]⟩ ∧
    .toProposer (firstDispatch 1) ∈ afterAskedAgain.log.dropLast ∧
    serve (layout (firstDispatch 1)) = .sent (layout drafted) ∧
    ¬ProposalRefused afterAskedAgain ⟨42,1,1,0,[]⟩ (layout drafted) ∧
    (((afterAskedAgain.proposerReply ⟨42,1,1,0,[]⟩ (.frame (layout drafted))).verifierReply ⟨42,1,1,0,[]⟩ [3270]
      (.frame (layout judged))).request 42).committed = [3270] := by
  obtain ⟨waits,before,request,boot,committed⟩ := askedAgainState
  refine ⟨runFromRun _,waits,before,by decide +kernel,?_,committed⟩
  rw [refusedExactly _ _ draftedRead (by decide) (by decide),not_not]
  refine ⟨⟨?_,by rw [boot]; rfl,?_,?_,?_⟩,rfl⟩
  all_goals rw [request]; rfl

def secondBranch : List Event := [fromDriver (submission 42 1 2 1),fromWorker drafted,fromWorker judged]

theorem secondBranchWaits : ∃ t, CoordinatorRun (fun _ _ => True) (.start 7 8) secondBranch t ∧
    t.phase = .proposing ⟨42,1,2,1,[⟨1,[3270],1,1,1,0⟩]⟩ ∧ .toProposer (firstDispatch 2) ∈ t.log.dropLast :=
  reaches (by decide +kernel)

theorem otherBranchRefused :
    ∃ t d, CoordinatorRun (fun _ _ => True) (.start 7 8) secondBranch t ∧ t.phase = .proposing d ∧
      .toProposer (firstDispatch 2) ∈ t.log.dropLast ∧ serve (layout (firstDispatch 2)) = .sent (layout drafted) ∧
      ToldApart t d (firstDispatch 2) ∧ ProposalRefused t d (layout drafted) := by
  obtain ⟨t,run,waits,before⟩ := secondBranchWaits
  have answers : serve (layout (firstDispatch 2)) = .sent (layout drafted) := by decide +kernel
  have apart : ToldApart t ⟨42,1,2,1,[⟨1,[3270],1,1,1,0⟩]⟩ (firstDispatch 2) := .inr (.inr (.inl (by decide)))
  exact ⟨t,_,run,waits,before,answers,apart,(earlierRefusedExactly run waits before answers).2.mpr apart⟩

end SpeculationFabric.Dist
