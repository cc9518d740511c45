import SpeculationFabric.DriveOutcomes

/-! Verdicts that were made for another dispatch. The gate a verdict passes sees its
epoch, its attempt and its base generation; the request, the dispatch and the process
it comes from are not looked at, and every dispatch of an epoch shares the other three. -/
namespace SpeculationFabric.Dist

open Wire

def Coordinator.outstanding (c : Coordinator) (d : Drive) (toks : List UInt32) : Message :=
  verificationDispatch (c.request d.reqid) d toks c.verifierBoot

/- The process a verdict was made by is not part of the message, so it stands beside it. -/
structure Answers (vd vr : Message) (madeBy : UInt64) : Prop where
  request : vr.u64Fields[vrRequest]? = vd.u64Fields[vdRequest]?
  dispatch : vr.u64Fields[vrDispatch]? = vd.u64Fields[vdDispatch]?
  boot : vd.u64Fields[vdProposerBoot]? = some madeBy

def VerdictUsed (c : Coordinator) (d : Drive) (toks : List UInt32) (bytes : List UInt8) (vr : Message) : Prop :=
  ∃ br : Br, vr.u32Fields[vrAccepted]? = some br.accepted ∧
    c.verifierReply d toks (.frame bytes) = c.advance (d.recorded br)

def VerdictStale (c : Coordinator) (d : Drive) (toks : List UInt32) (bytes : List UInt8) : Prop :=
  ∃ reason, c.verifierReply d toks (.frame bytes) = c.finish d (.failed ("stale:" ++ reason)) ∧
    (c.verifierReply d toks (.frame bytes)).requests = c.requests

theorem advanceNotFailed (c : Coordinator) (d : Drive) {why : String} (short : Short why) (e : Drive) :
    c.finish d (.failed why) ≠ c.advance e := by
  rw [finishFailed c d short]
  intro same
  obtain ⟨_,opened⟩ | large | ⟨win,_,_,done⟩ := advanceCases c e
  · rw [opened,openBranchSends] at same
    cases congrArg Coordinator.phase same
  · rw [large] at same
    cases congrArg Coordinator.phase same
  · rw [done,finishOk] at same
    have logs := List.append_cancel_left (congrArg Coordinator.log same)
    simp at logs

theorem verdictRead (c : Coordinator) (d : Drive) (toks : List UInt32) {bytes : List UInt8} {vr : Message}
    (decoded : decode bytes = .ok vr) (u64s : 8 ≤ vr.u64Fields.length) (u32s : 4 ≤ vr.u32Fields.length) :
    (VerdictCurrent c d vr ∧ VerdictUsed c d toks bytes vr) ∨
    (¬VerdictCurrent c d vr ∧ VerdictStale c d toks bytes ∧ ¬VerdictUsed c d toks bytes vr) := by
  obtain ⟨t,found⟩ := readVerdictDefined c d toks u64s u32s
  have reply : c.verifierReply d toks (.frame bytes) = t := by
    simp only [Coordinator.verifierReply,decoded,found,Option.getD_some]
  obtain ⟨reason,stale,short,same⟩ | ⟨br,current,_,_,accepted,same⟩ := readVerdictCases found
  · refine .inr ⟨stale,⟨reason,reply.trans same,?_⟩,?_⟩
    · rw [reply,same,finishRequests]
    · rintro ⟨br,_,used⟩
      exact advanceNotFailed c d short _ ((reply.trans same).symm.trans used)
  · exact .inl ⟨current,br,accepted,reply.trans same⟩

structure Delivery where
  madeBy : UInt64
  event : Event

abbrev DeliveryRun (ok : Coordinator → Delivery → Prop) (s : Coordinator) (past : List Delivery) (t : Coordinator) :
    Prop :=
  Runs.Trace (fun c x => c.step x.event) ok s past t

def Separated (c : Coordinator) (x : Delivery) : Prop :=
  ∀ d toks bytes vr, c.phase = .verifying d toks → x.event = .reply (.frame bytes) → decode bytes = .ok vr →
    Answers (c.outstanding d toks) vr x.madeBy ∨ ¬VerdictCurrent c d vr

def Backed (past : List Delivery) (log : List Output) (reqid branch : UInt64) (accepted : UInt32) : Prop :=
  ∃ x bytes vr vd, x ∈ past ∧ x.event = .reply (.frame bytes) ∧ decode bytes = .ok vr ∧ .toVerifier vd ∈ log ∧
    Answers vd vr x.madeBy ∧ vd.u64Fields[vdRequest]? = some reqid ∧
    vd.u64Fields[vdDispatch]? = some (1999 + reqid + branch) ∧ vr.u32Fields[vrAccepted]? = some accepted

theorem Backed.grows {past more : List Delivery} {log sent : List Output} {reqid branch : UInt64} {accepted : UInt32}
    (backed : Backed past log reqid branch accepted) (later : past ⊆ more) (longer : log ⊆ sent) :
    Backed more sent reqid branch accepted := by
  obtain ⟨x,bytes,vr,vd,member,event,decoded,dispatched,rest⟩ := backed
  exact ⟨x,bytes,vr,vd,later member,event,decoded,longer dispatched,rest⟩

def Reported (past : List Delivery) (log : List Output) : Prop :=
  ∀ reqid k branch firstrej, .submitted reqid (.ok k branch firstrej) ∈ log → Backed past log reqid branch k

theorem Reported.sent {past : List Delivery} {log more : List Output} (reported : Reported past log)
    (new : ∀ reqid k branch firstrej, .submitted reqid (.ok k branch firstrej) ∈ more → Backed past log reqid branch k) :
    Reported past (log ++ more) := by
  intro reqid k branch firstrej member
  have longer := List.subset_append_left log more
  rcases List.mem_append.mp member with old | added
  · exact (reported reqid k branch firstrej old).grows (List.Subset.refl _) longer
  · exact (new reqid k branch firstrej added).grows (List.Subset.refl _) longer

structure Founded (past : List Delivery) (c : Coordinator) : Prop where
  reported : Reported past c.log
  proposing : ∀ d, c.phase = .proposing d → ∀ br ∈ d.brs, Backed past c.log d.reqid br.branch br.accepted
  verifying : ∀ d toks, c.phase = .verifying d toks → .toVerifier (c.outstanding d toks) ∈ c.log ∧
    ∀ br ∈ d.brs, Backed past c.log d.reqid br.branch br.accepted

theorem Founded.later {past more : List Delivery} {c : Coordinator} (founded : Founded past c) (later : past ⊆ more) :
    Founded more c := by
  have same := List.Subset.refl c.log
  refine ⟨?_,?_,?_⟩
  · intro reqid k branch firstrej member
    exact (founded.reported reqid k branch firstrej member).grows later same
  · intro d waits br member
    exact (founded.proposing d waits br member).grows later same
  · intro d toks waits
    obtain ⟨awaited,backed⟩ := founded.verifying d toks waits
    exact ⟨awaited,fun br member => (backed br member).grows later same⟩

theorem idleFounded {past : List Delivery} {c : Coordinator} (reported : Reported past c.log)
    (idle : c.phase = .waiting ∨ c.phase = .stopped ∨ c.phase = .undefined) : Founded past c := by
  refine ⟨reported,?_,?_⟩
  · intro d waits
    simp [waits] at idle
  · intro d toks waits
    simp [waits] at idle

theorem failedFounded {past : List Delivery} {c : Coordinator} (d : Drive) {why : String}
    (reported : Reported past c.log) (short : Short why) : Founded past (c.finish d (.failed why)) := by
  rw [finishFailed c d short]
  refine idleFounded (reported.sent ?_) (.inl rfl)
  intro reqid k branch firstrej member
  simp at member

theorem advanceFounded {past : List Delivery} {c : Coordinator} {d : Drive} (reported : Reported past c.log)
    (backed : ∀ br ∈ d.brs, Backed past c.log d.reqid br.branch br.accepted) : Founded past (c.advance d) := by
  obtain ⟨_,opened⟩ | large | ⟨win,won,_,done⟩ := advanceCases c d
  · rw [opened,openBranchSends]
    refine ⟨reported.sent (by simp),?_,?_⟩
    · intro e same br member
      cases same
      exact (backed br member).grows (List.Subset.refl _) (List.subset_append_left _ _)
    · intro e toks same
      cases same
  · rw [large]
    exact idleFounded reported (.inr (.inr rfl))
  · rw [done,finishOk]
    refine idleFounded (reported.sent ?_) (.inl rfl)
    intro reqid k branch firstrej member
    simp only [List.mem_cons,Output.submitted.injEq,DriveResult.ok.injEq,reduceCtorEq,List.not_mem_nil,
      or_false] at member
    obtain ⟨rfl,rfl,rfl,_⟩ := member
    exact backed win won

theorem proposerFounded {past : List Delivery} {c : Coordinator} {d : Drive} (reported : Reported past c.log)
    (backed : ∀ br ∈ d.brs, Backed past c.log d.reqid br.branch br.accepted) (reply : Reply) :
    Founded past (c.proposerReply d reply) := by
  obtain same | ⟨why,short,same⟩ | ⟨toks,_,same⟩ := proposerReplyCases c d reply
  · rw [same]
    exact idleFounded reported (.inr (.inr rfl))
  · rw [same]
    exact failedFounded d reported short
  · rw [same,Coordinator.questioned]
    refine ⟨reported.sent (by simp),?_,?_⟩
    · intro e same
      cases same
    · intro e toks' same
      cases same
      refine ⟨List.mem_append_right _ (List.mem_singleton_self _),?_⟩
      intro br member
      exact (backed br member).grows (List.Subset.refl _) (List.subset_append_left _ _)

theorem dispatchOfBranch {d : Drive} (more : d.brs.length < d.branches.toNat) :
    1999 + d.reqid + (d.b + 1).toUInt64 = 2000 + d.reqid + d.b.toUInt64 := by
  have small := d.branches.toNat_lt
  have index : d.b.toNat = d.brs.length := UInt32.toNat_ofNat_of_lt' (by simp only [UInt32.size]; omega)
  have next : (d.b + 1).toUInt64 = d.b.toUInt64 + 1 := by
    apply UInt64.toNat_inj.mp
    simp only [UInt32.toNat_toUInt64,UInt32.toNat_add,UInt64.toNat_add,index,UInt32.toNat_one,UInt64.toNat_one]
    omega
  rw [next]
  grind

theorem verifierFounded {past : List Delivery} {c : Coordinator} {d : Drive} {toks : List UInt32} {x : Delivery}
    {reply : Reply} (founded : Founded past c) (waits : c.phase = .verifying d toks)
    (more : d.brs.length < d.branches.toNat) (arrived : x ∈ past) (event : x.event = .reply reply)
    (separated : Separated c x) : Founded past (c.verifierReply d toks reply) := by
  obtain ⟨awaited,backed⟩ := founded.verifying d toks waits
  obtain same | ⟨why,short,same⟩ | ⟨bytes,vr,br,rfl,decoded,current,branch,_,accepted,same⟩ :=
    verifierReplyCases c d toks reply
  · rw [same]
    exact idleFounded founded.reported (.inr (.inr rfl))
  · rw [same]
    exact failedFounded d founded.reported short
  · rw [same]
    apply advanceFounded founded.reported
    intro other member
    rcases List.mem_append.mp member with old | new
    · exact backed other old
    · cases List.mem_singleton.mp new
      have answers := (separated d toks bytes vr waits event decoded).resolve_right (not_not.mpr current)
      refine ⟨x,bytes,vr,_,arrived,event,decoded,awaited,answers,rfl,?_,accepted⟩
      rw [branch]
      exact congrArg some (dispatchOfBranch more).symm

theorem stepFounded {past : List Delivery} {c t : Coordinator} {x : Delivery} (sound : Sound c)
    (founded : Founded past c) (arrived : x ∈ past) (separated : Separated c x)
    (taken : c.step x.event = some t) : Founded past t := by
  obtain ⟨_,quiet⟩ | ⟨frame,reqid,depth,branches,aligned,_,_,_,rfl⟩ | ⟨d,r,waits,_,rfl⟩ | ⟨d,toks,r,waits,event,rfl⟩ :=
    stepCases taken
  · refine idleFounded ?_ quiet.idle
    obtain same | ⟨out,same⟩ := quiet.log
    · rw [same]
      exact founded.reported
    · rw [same]
      exact founded.reported.sent (by simp)
  · exact advanceFounded founded.reported (by simp)
  · exact proposerFounded founded.reported (founded.proposing d waits) r
  · obtain ⟨_,more,_⟩ := sound.verifying d toks waits
    exact verifierFounded founded waits more arrived event separated

theorem runFounded {proposerBoot verifierBoot : UInt64} {past : List Delivery} {t : Coordinator}
    (run : DeliveryRun Separated (.start proposerBoot verifierBoot) past t) : Sound t ∧ Founded past t := by
  refine Runs.recorded (P := fun past c => Sound c ∧ Founded past c) run ⟨startSound _ _,?_⟩ ?_
  · exact idleFounded (by intro _ _ _ _ member; simp [Coordinator.start] at member) (.inl rfl)
  · intro before c x u holds separated taken
    have arrived : x ∈ before ++ [x] := List.mem_append_right _ (List.mem_singleton_self x)
    exact ⟨stepSound holds.1 taken,
      stepFounded holds.1 (holds.2.later (List.subset_append_left _ _)) arrived separated taken⟩

theorem verdictDecidesExactly (c : Coordinator) :
    (∀ (d : Drive) (toks : List UInt32) (bytes : List UInt8) (vr : Message) (madeBy : UInt64),
      c.phase = .verifying d toks → decode bytes = .ok vr → 8 ≤ vr.u64Fields.length → 4 ≤ vr.u32Fields.length →
      ((VerdictUsed c d toks bytes vr → Answers (c.outstanding d toks) vr madeBy) ∧
          (¬Answers (c.outstanding d toks) vr madeBy → VerdictStale c d toks bytes) ↔
        Answers (c.outstanding d toks) vr madeBy ∨ ¬VerdictCurrent c d vr)) ∧
    ∀ (proposerBoot verifierBoot : UInt64) (past : List Delivery),
      DeliveryRun Separated (.start proposerBoot verifierBoot) past c → Reported past c.log := by
  constructor
  · intro d toks bytes vr madeBy _ decoded u64s u32s
    obtain ⟨current,used⟩ | ⟨stale,rejected,unused⟩ := verdictRead c d toks decoded u64s u32s
    · constructor
      · rintro ⟨only,_⟩
        exact .inl (only used)
      · rintro (answers | stale)
        · exact ⟨fun _ => answers,fun other => absurd answers other⟩
        · exact absurd current stale
    · constructor
      · intro _
        exact .inr stale
      · intro _
        exact ⟨fun used => absurd used unused,fun _ => rejected⟩
  · intro proposerBoot verifierBoot past run
    exact (runFounded run).2.reported

def refusedDraft : Message :=
  { type := Msg.proposalResult, u64Fields := [43,44,1,1,1043,0,0,7,1,1,1], u32Fields := [0,1,2496] }

def refusedVerdict : Message :=
  { type := Msg.verificationResult, u64Fields := [43,44,1,1,0,2043,10615391314449192839,0], u32Fields := [2,0,1,0] }

def secondAsked : List Event := firstCommit ++ [fromDriver (submission 43 1 1 0),fromWorker refusedDraft]

theorem secondAskedRuns : (runFrom (.start 7 8) secondAsked).isSome := by decide +kernel

def afterSecondAsked : Coordinator := (runFrom (.start 7 8) secondAsked).get secondAskedRuns

theorem secondAskedState :
    afterSecondAsked.phase = .verifying ⟨43,1,1,0,[]⟩ [2496] ∧ afterSecondAsked.verifierBoot = 8 ∧
    afterSecondAsked.request 43 = { ({} : CReq).submitted 43 ⟨1⟩ with depth := 1, branches := 1, propGen := 1 } := by
  decide +kernel

theorem secondOutstanding : afterSecondAsked.outstanding ⟨43,1,1,0,[]⟩ [2496] =
    { type := Msg.verificationDispatch
      u64Fields := [43,44,1,1,10615391314449192839,0,0,1,2043,8]
      u32Fields := [9,4096,1,2496] } := by
  rw [Coordinator.outstanding,secondAskedState.2.1,secondAskedState.2.2]
  decide

theorem judgedCurrent : VerdictCurrent afterSecondAsked ⟨43,1,1,0,[]⟩ judged := by
  refine ⟨?_,?_,?_⟩
  all_goals rw [secondAskedState.2.2]; rfl

theorem refusedVerdictAnswers : Answers (afterSecondAsked.outstanding ⟨43,1,1,0,[]⟩ [2496]) refusedVerdict 8 := by
  rw [secondOutstanding]
  exact ⟨rfl,rfl,rfl⟩

theorem lateVerdictCommits :
    CoordinatorRun (fun _ _ => True) (.start 7 8) secondAsked afterSecondAsked ∧
    afterSecondAsked.phase = .verifying ⟨43,1,1,0,[]⟩ [2496] ∧
    serve (layout (afterSecondAsked.outstanding ⟨43,1,1,0,[]⟩ [2496])) = .sent (layout refusedVerdict) ∧
    decode (layout judged) = .ok judged ∧ judged.u64Fields.length = 8 ∧
    judged.u32Fields.length = 4 ∧
    ¬Answers (afterSecondAsked.outstanding ⟨43,1,1,0,[]⟩ [2496]) judged 8 ∧
    VerdictUsed afterSecondAsked ⟨43,1,1,0,[]⟩ [2496] (layout judged) judged ∧
    ((afterSecondAsked.verifierReply ⟨43,1,1,0,[]⟩ [2496] (.frame (layout judged))).request 43).committed =
      [2496] := by
  refine ⟨runFromRun _,secondAskedState.1,?_,judgedRead,rfl,rfl,?_,?_,by decide +kernel⟩
  · rw [secondOutstanding]
    decide +kernel
  · intro answers
    rw [secondOutstanding] at answers
    exact absurd answers.request (by decide)
  · obtain ⟨_,used⟩ | ⟨stale,_⟩ := verdictRead afterSecondAsked ⟨43,1,1,0,[]⟩ [2496] judgedRead (by decide) (by decide)
    · exact used
    · exact absurd judgedCurrent stale

theorem separatedElsewhere {c : Coordinator} {x : Delivery} (elsewhere : ∀ d toks, c.phase ≠ .verifying d toks) :
    Separated c x :=
  fun d toks _ _ waits _ _ => absurd waits (elsewhere d toks)

def firstDelivered : List Delivery :=
  [⟨12345,fromDriver (submission 42 1 1 1)⟩,⟨7,fromWorker drafted⟩,⟨8,fromWorker judged⟩]

def firstSubmitted : Coordinator := (Coordinator.start 7 8).driverFrame (some (layout (submission 42 1 1 1)))

def firstAsked : Coordinator := firstSubmitted.proposerReply ⟨42,1,1,1,[]⟩ (.frame (layout drafted))

def firstDone : Coordinator := firstAsked.verifierReply ⟨42,1,1,1,[]⟩ [3270] (.frame (layout judged))

theorem firstAskedState :
    firstAsked.phase = .verifying ⟨42,1,1,1,[]⟩ [3270] ∧ firstAsked.verifierBoot = 8 ∧
    firstAsked.request 42 =
      { ({} : CReq).submitted 42 ⟨1⟩ with depth := 1, branches := 1, aligned := 1, propGen := 1 } := by
  decide +kernel

theorem firstAnswers : Answers (firstAsked.outstanding ⟨42,1,1,1,[]⟩ [3270]) judged 8 := by
  rw [Coordinator.outstanding,firstAskedState.2.1,firstAskedState.2.2]
  exact ⟨rfl,rfl,rfl⟩

theorem firstDeliveredRun : DeliveryRun Separated (.start 7 8) firstDelivered firstDone := by
  have proposes : firstSubmitted.phase = .proposing ⟨42,1,1,1,[]⟩ := by decide +kernel
  have verifies := firstAskedState.1
  refine Runs.cons (t := firstSubmitted) (separatedElsewhere nofun) rfl ?_
  refine Runs.cons (t := firstAsked) (separatedElsewhere ?_) ?_ (.snoc .nil ?_ ?_)
  · simp [proposes]
  · simp only [fromWorker,Coordinator.step,proposes]
    rfl
  · intro d toks bytes vr waits event decoded
    cases verifies.symm.trans waits
    cases event
    cases judgedRead.symm.trans decoded
    exact .inl firstAnswers
  · simp only [fromWorker,Coordinator.step,verifies]
    rfl

theorem ownVerdictDecides :
    afterSecondAsked.phase = .verifying ⟨43,1,1,0,[]⟩ [2496] ∧
    (VerdictUsed afterSecondAsked ⟨43,1,1,0,[]⟩ [2496] (layout refusedVerdict) refusedVerdict →
      Answers (afterSecondAsked.outstanding ⟨43,1,1,0,[]⟩ [2496]) refusedVerdict 8) ∧
    (¬Answers (afterSecondAsked.outstanding ⟨43,1,1,0,[]⟩ [2496]) refusedVerdict 8 →
      VerdictStale afterSecondAsked ⟨43,1,1,0,[]⟩ [2496] (layout refusedVerdict)) ∧
    firstDone.log.length = 4 ∧ Reported firstDelivered firstDone.log := by
  have decoded : decode (layout refusedVerdict) = .ok refusedVerdict :=
    layoutDecodes (typedConforms Msg.verificationResult rfl rfl (by decide) (by decide) (by decide) (by decide))
  have property := ((verdictDecidesExactly afterSecondAsked).1 _ _ _ _ 8 secondAskedState.1 decoded (by decide)
    (by decide)).mpr (.inl refusedVerdictAnswers)
  have reported := (verdictDecidesExactly firstDone).2 7 8 _ firstDeliveredRun
  exact ⟨secondAskedState.1,property.1,property.2,by decide +kernel,reported⟩

end SpeculationFabric.Dist
