import Mathlib.Data.List.MinMax
import SpeculationFabric.DeploymentRuns
import SpeculationFabric.DraftTarget

/-! A driver that only submits. Every submission within the protocol's bounds is attended
to whatever came before it, and what it commits is a function of the submission alone,
so the replies of the whole plant are known before it runs. -/
namespace SpeculationFabric.Dist

open Wire Networks

structure Submission where
  reqid : UInt64
  depth : UInt32
  branches : UInt32
  aligned : UInt32
  deriving DecidableEq, Repr

def Submission.frame (s : Submission) : Frame :=
  ⟨layout (submission s.reqid s.depth s.branches s.aligned),layoutFrameable (submissionConforms _ _ _ _)⟩

/- The depths both messages with a draft have room for, and at least one branch. -/
structure Submission.Fits (s : Submission) : Prop where
  positive : 0 < s.depth.toNat
  shallow : s.depth.toNat ≤ 61
  some_ : 0 < s.branches.toNat

def Submission.authority (s : Submission) : Authority :=
  ⟨⟨⟨s.reqid * 0x9E3779B97F4A7C15⟩,⟨0⟩⟩,⟨0⟩,⟨1⟩⟩

def Submission.count (s : Submission) : Nat :=
  (s.authority.counts s.depth s.aligned s.branches.toNat).foldr max ⊥

def Submission.commit (s : Submission) : Message :=
  { type := Msg.commit, u64Fields := [s.reqid,UInt64.ofNat s.count,UInt64.ofNat s.count] }

theorem commitConforms (s : Submission) : Conforming s.commit :=
  typedConforms Msg.commit rfl rfl (by decide) (by simp [Submission.commit]) (by simp [Submission.commit])
    (by simp [Submission.commit])

def Submission.reply (s : Submission) : Frame := ⟨layout s.commit,layoutFrameable (commitConforms s)⟩

def Submission.moves (s : Submission) : Nat := 3 + 4 * s.branches.toNat

theorem foldrMost {counts : List Nat} {w : Nat} (best : FirstBest counts w) : counts.foldr max ⊥ = counts.getD w 0 := by
  have inside := best.inside
  have there : counts.getD w 0 = counts[w] := by
    rw [List.getD_eq_getElem?_getD,List.getElem?_eq_getElem best.inside,Option.getD_some]
  refine Nat.le_antisymm (List.max_le_of_forall_le counts _ ?_)
    (List.le_max_of_le (there ▸ List.getElem_mem best.inside) (Nat.le_refl _))
  intro n member
  obtain ⟨j,inside,rfl⟩ := List.getElem_of_mem member
  have most := best.most j inside
  rwa [List.getD_eq_getElem?_getD,List.getElem?_eq_getElem inside,Option.getD_some] at most

theorem chosenCount {s : Submission} {w : Nat} {k : UInt32} (chosen : s.authority.Chosen s.depth s.aligned s.branches w k) :
    k.toNat = s.count := by
  have inside := chosen.best.inside
  rw [Authority.counts,List.length_map,List.length_range] at inside
  rw [Submission.count,foldrMost chosen.best,chosen.count,Authority.counts,List.getD_eq_getElem?_getD,List.getElem?_map,
    List.getElem?_range inside]
  rfl

theorem takenAligned (a : Authority) (depth aligned : UInt32) :
    min aligned.toNat depth.toNat ≤ a.taken (a.draft depth aligned 0) := by
  let vin := { a.verdictInput [] with candidate := ⟨CpuProposer.draft { alignedTokens := aligned } (a.draftInput depth 0)⟩ }
  have shared : CpuProposer.SameAuthority (a.draftInput depth 0) vin := ⟨rfl,rfl,rfl,rfl⟩
  have leads := CpuProposer.leadingOfDraft shared rfl
  have asked : agreements vin = agreements (a.verdictInput (a.draft depth aligned 0)) := Authority.agreementsOf rfl rfl rfl rfl
  rw [asked] at leads
  have most := Leading.leadingLeCount (agreements (a.verdictInput (a.draft depth aligned 0)))
  rw [leads] at most
  refine Nat.le_trans ?_ most
  rw [CpuProposer.agreedLength]
  split
  · exact Nat.min_le_right _ _
  · exact Nat.min_le_left _ _

theorem countBounds {s : Submission} (fits : s.Fits) :
    min s.aligned.toNat s.depth.toNat ≤ s.count ∧ s.count ≤ s.depth.toNat := by
  constructor
  · refine List.le_max_of_le (x := s.authority.taken (s.authority.draft s.depth s.aligned 0)) ?_ (takenAligned _ _ _)
    exact List.mem_map.mpr ⟨0,List.mem_range.mpr fits.some_,rfl⟩
  · refine List.max_le_of_forall_le _ _ ?_
    intro n member
    obtain ⟨i,_,rfl⟩ := List.mem_map.mp member
    have inside := Authority.takenInside (a := s.authority) (s.authority.draft s.depth s.aligned (UInt32.ofNat i))
    rwa [Authority.draftSize] at inside

theorem deliveredBusy {c t : Coordinator} (awaiting : Awaiting c) (taken : c.delivered = some t) :
    (∃ d, c.phase = .proposing d) ∨ ∃ d toks, c.phase = .verifying d toks := by
  obtain ⟨_,_,_,_,answer,_,_,_,_,_,_,steps⟩ := deliveredRound awaiting taken
  cases phase : c.phase with
  | proposing d => exact .inl ⟨d,rfl⟩
  | verifying d toks => exact .inr ⟨d,toks,rfl⟩
  | waiting | stopped | undefined =>
      simp only [Coordinator.step,phase] at steps
      cases steps

theorem onWireOwn (channel : Channel) (m : Message) :
    sentTo channel (onWire channel m).toList = (onWire channel m).toList.map Prod.snd := by
  cases posted : onWire channel m with
  | none => rfl
  | some x =>
      have own : x.1 = channel := onWireChannel x posted
      simp [sentTo,own]

theorem answersLast {n : Nat} {c t : Coordinator} (leads : Runs.Leads Coordinator.delivered n c t) (awaiting : Awaiting c)
    (back : t.phase = .waiting) (busy : c.phase ≠ .waiting) :
    ∃ m, t.log.getLast? = some (.toDriver m) ∧ answers c t = (onWire .replies m).toList.map Prod.snd := by
  induction leads with
  | here => exact absurd back busy
  | @step n c u t taken rest ih =>
      obtain ⟨_,_,_,_,answer,_,_,_,_,_,_,steps⟩ := deliveredRound awaiting taken
      have later := replyAwaiting steps
      have emits := (replyEmits steps).2
      by_cases waits : u.phase = .waiting
      · have last : t = u := by
          cases rest with
          | here => rfl
          | step more _ =>
              obtain ⟨_,no⟩ | ⟨_,_,no⟩ := deliveredBusy later more <;> cases waits.symm.trans no
        subst last
        cases emits with
        | undefined phase => cases waits.symm.trans phase
        | asked d phase log => cases waits.symm.trans phase
        | questioned d toks phase log => cases waits.symm.trans phase
        | answered reqid result phase log =>
            refine ⟨driverMessage (t.request reqid) reqid result,?_,?_⟩
            · rw [log]
              simp
            · rw [answers,postsAfter log,List.filterMap_cons_none rfl,filterMapOne,Output.posted]
              exact onWireOwn .replies _
      · obtain ⟨m,last,rest_⟩ := ih later back waits
        have defined := leadsDefined rest later back
        refine ⟨m,last,?_⟩
        have front : answers c u = [] := by
          cases rest with
          | here => exact absurd back waits
          | step more _ => exact emitsAnswers emits (deliveredBusy later more)
        rw [answersJoin (emitsLog emits defined) (deliversAll [] [] [] [] rest later back).2.1,front,rest_]
        rfl

structure Apart (id : UInt64) (c : Coordinator) : Prop where
  proposing : ∀ d, c.phase = .proposing d → d.reqid ≠ id
  verifying : ∀ d toks, c.phase = .verifying d toks → d.reqid ≠ id

theorem restApart {id : UInt64} {c : Coordinator} (rests : c.phase = .waiting ∨ c.phase = .undefined) : Apart id c := by
  constructor
  · intro d waits
    rcases rests with no | no <;> cases no.symm.trans waits
  · intro d toks waits
    rcases rests with no | no <;> cases no.symm.trans waits

theorem advanceApart {id : UInt64} (c : Coordinator) {d : Drive} (other : d.reqid ≠ id) :
    (c.advance d).requests.lookup id = c.requests.lookup id ∧ Apart id (c.advance d) := by
  obtain ⟨_,opens⟩ | undefined | ⟨win,_,_,concludes⟩ := advanceCases c d
  · rw [opens,openBranchSends]
    refine ⟨AList.lookup_insert_ne (Ne.symm other),?_,?_⟩
    · intro e waits
      cases waits
      exact other
    · intro e toks waits
      cases waits
  · rw [undefined]
    exact ⟨rfl,restApart (.inr rfl)⟩
  · rw [concludes,finishOk]
    exact ⟨lookupStoreOther c _ (Ne.symm other),restApart (.inl rfl)⟩

theorem driveApart {id : UInt64} (c : Coordinator) (reqid : UInt64) (depth branches aligned : UInt32) (other : reqid ≠ id) :
    (c.driveCycle reqid depth branches aligned).requests.lookup id = c.requests.lookup id ∧
      Apart id (c.driveCycle reqid depth branches aligned) := by
  obtain ⟨same,apart⟩ := advanceApart (c.store reqid { c.request reqid with
    depth := depth, branches := branches, aligned := aligned, epoch := c.epoch }) (d := ⟨reqid,depth,branches,aligned,[]⟩)
    other
  exact ⟨same.trans (lookupStoreOther c _ (Ne.symm other)),apart⟩

theorem replyApart {id : UInt64} {c t : Coordinator} {r : Reply} (apart : Apart id c)
    (taken : c.step (.reply r) = some t) : t.requests.lookup id = c.requests.lookup id ∧ Apart id t := by
  obtain ⟨waits,_⟩ | ⟨_,_,_,_,_,_,same,_⟩ | ⟨d,r',waits,_,rfl⟩ | ⟨d,toks,r',waits,_,rfl⟩ := stepCases taken
  · simp only [Coordinator.step,waits] at taken
    cases taken
  · cases same
  · obtain undefined | ⟨why,short,failed⟩ | ⟨toks,_,asks⟩ := proposerReplyCases c d r'
    · rw [undefined]
      exact ⟨rfl,restApart (.inr rfl)⟩
    · rw [failed,finishFailed c d short]
      exact ⟨rfl,restApart (.inl rfl)⟩
    · rw [asks]
      refine ⟨rfl,?_,?_⟩
      · intro e busy
        cases busy
      · intro e toks busy
        cases busy
        exact apart.proposing d waits
  · obtain undefined | ⟨why,short,failed⟩ | ⟨_,_,br,_,_,_,_,_,_,next⟩ := verifierReplyCases c d toks r'
    · rw [undefined]
      exact ⟨rfl,restApart (.inr rfl)⟩
    · rw [failed,finishFailed c d short]
      exact ⟨rfl,restApart (.inl rfl)⟩
    · rw [next]
      exact advanceApart c (apart.verifying d toks waits)

theorem leadsApart {id : UInt64} {n : Nat} {c t : Coordinator} (leads : Runs.Leads Coordinator.delivered n c t)
    (awaiting : Awaiting c) (apart : Apart id c) : t.requests.lookup id = c.requests.lookup id := by
  induction leads with
  | here => rfl
  | step taken _ ih =>
      obtain ⟨_,_,_,_,answer,_,_,_,_,_,_,steps⟩ := deliveredRound awaiting taken
      obtain ⟨same,next⟩ := replyApart apart steps
      exact (ih (replyAwaiting steps) next).trans same

structure Answered (c : Coordinator) (s : Submission) (t : Coordinator) : Prop where
  attends : Attends c s.frame t (2 * s.branches.toNat)
  driver : t.driver = true
  reply : answers c t = [s.reply]
  committed : (t.request s.reqid).committed.length = s.count
  others : ∀ id, id ≠ s.reqid → t.requests.lookup id = c.requests.lookup id

theorem submissionAnswered {c : Coordinator} {s : Submission} (waits : c.phase = .waiting) (driver : c.driver = true)
    (fits : s.Fits) : ∃ t, Answered c s t := by
  have taken : c.step (.driverFrame (some s.frame.val)) = some (c.driverFrame (some s.frame.val)) := by
    simp only [Coordinator.step,waits]
    exact if_pos driver
  have driven := submitTaken taken (submissionSubmits s.reqid s.depth s.branches s.aligned)
  have authority : ((c.store s.reqid ((c.request s.reqid).submitted s.reqid c.epoch)).request s.reqid).authority =
      s.authority := by
    rw [requestStoreSelf]
    rfl
  obtain ⟨t,w,k,firstrej,leads,_,back,chosen,grown⟩ := driveWorked
    (c.store s.reqid ((c.request s.reqid).submitted s.reqid c.epoch)) s.aligned authority fits.some_ fits.positive
    fits.shallow
  rw [← driven] at leads
  have record : (c.store s.reqid ((c.request s.reqid).submitted s.reqid c.epoch)).request s.reqid =
      (c.request s.reqid).submitted s.reqid c.epoch := requestStoreSelf _ _ _
  rw [record] at grown
  have committed : (t.request s.reqid).committed.length = s.count := by
    rw [grown.committed,List.length_append,grown.count,chosenCount chosen]
    exact Nat.zero_add _
  have generation : (t.request s.reqid).authGen.value = UInt64.ofNat s.count := by
    rw [grown.authGen,← chosenCount chosen,widened]
    exact UInt64.zero_add _
  have attends : Attends c s.frame t (2 * s.branches.toNat) := ⟨waits,driver,leads,back.1⟩
  obtain ⟨still,_,_⟩ := attends.keeps [] [] [] []
  have awaiting := frameAwaiting waits s.frame
  have defined := leadsDefined leads awaiting back.1
  refine ⟨t,attends,still,?_,committed,?_⟩
  · have opened := frameOpened waits s.frame defined
    have busy : (c.driverFrame (some s.frame.val)).phase = .proposing ⟨s.reqid,s.depth,s.branches,s.aligned,[]⟩ := by
      rw [driven]
      exact driveOpens _ s.reqid s.depth s.aligned fits.some_
    have told : Emits c (c.driverFrame (some s.frame.val)) := by
      rw [driven]
      exact (driveEmits _ _ _ _ _).2.sameLog rfl
    obtain ⟨m,last,rest⟩ := answersLast leads awaiting back.1 (by rw [busy]; exact Phase.noConfusion)
    obtain ⟨middle,log⟩ := back.2
    rw [log,List.getLast?_append_of_ne_nil _ (by simp)] at last
    cases last
    obtain ⟨_,later,_⟩ := deliversAll [] [] [] [] leads awaiting back.1
    have message : driverMessage (t.request s.reqid) s.reqid (.ok k (branchIdAt (UInt32.ofNat w)).value firstrej) =
        s.commit := by
      simp only [driverMessage,generation,committed,Submission.commit]
    have sent : onWire .replies s.commit = some (.replies,s.reply) := by
      simp only [onWire,conformingEncodes (commitConforms s)]
      exact frameOnFits .replies s.reply.property
    rw [answersJoin opened.log later,emitsAnswers told (.inl ⟨_,busy⟩),rest,message,sent]
    rfl
  · intro id other
    obtain ⟨same,apart⟩ := driveApart (c.store s.reqid ((c.request s.reqid).submitted s.reqid c.epoch)) s.reqid s.depth
      s.branches s.aligned (Ne.symm other)
    rw [leadsApart leads awaiting (driven ▸ apart),driven,same]
    exact lookupStoreOther c _ other

def KeepsLast (script : List Submission) (t : Coordinator) : Prop :=
  ∀ before s after, script = before ++ s :: after → (∀ x ∈ after, x.reqid ≠ s.reqid) →
    (t.request s.reqid).committed.length = s.count

theorem submissionsAttended {c : Coordinator} {script : List Submission} (waits : c.phase = .waiting)
    (driver : c.driver = true) (fits : ∀ s ∈ script, s.Fits) :
    ∃ t n, AttendsAll c (script.map Submission.frame) t n ∧ answers c t = script.map Submission.reply ∧
      2 * script.length + n = (script.map Submission.moves).sum ∧ KeepsLast script t ∧
      ∀ id, (∀ s ∈ script, s.reqid ≠ id) → t.requests.lookup id = c.requests.lookup id := by
  induction script generalizing c with
  | nil =>
      refine ⟨c,0,.nil waits,answersNone rfl,rfl,?_,fun _ _ => rfl⟩
      intro before s after whole
      cases List.append_eq_nil_iff.mp whole.symm |>.2
  | cons s script ih =>
      obtain ⟨u,first⟩ := submissionAnswered waits driver (fits s List.mem_cons_self)
      obtain ⟨t,n,rest,replies,count,last,others⟩ := ih first.attends.back first.driver
        (fun x member => fits x (List.mem_cons_of_mem _ member))
      obtain ⟨_,log,_⟩ := first.attends.keeps [] [] [] []
      obtain ⟨_,later,_⟩ := attendsRun rest [] []
      refine ⟨t,_,.cons first.attends rest,?_,?_,?_,?_⟩
      · rw [answersJoin log later,first.reply,replies]
        rfl
      · rw [List.length_cons,List.map_cons,List.sum_cons,← count,Submission.moves]
        omega
      · intro before x after whole alone
        cases before with
        | nil =>
            obtain ⟨rfl,rfl⟩ := List.cons.inj whole
            rw [Coordinator.request,others s.reqid alone]
            exact first.committed
        | cons y before => exact last before x after (List.cons.inj whole).2 alone
      · intro id apart
        rw [others id fun x member => apart x (List.mem_cons_of_mem _ member)]
        exact first.others id (Ne.symm (apart s List.mem_cons_self))

theorem submissionsCommitInOrder (proposerBoot verifierBoot : UInt64) (script : List Submission)
    (fits : ∀ s ∈ script, s.Fits) :
    ∃ t, (∀ moves u, deployment.Run (deployed (.start proposerBoot verifierBoot) (script.map Submission.frame)) moves u →
        (∃ left, deployment.Run u left (finished t (script.map Submission.reply)) ∧
          moves.length + left.length = (script.map Submission.moves).sum) ∧
        (u.Done → u = finished t (script.map Submission.reply))) ∧
      t.phase = .waiting ∧ KeepsLast script t ∧
      ∀ s ∈ script, min s.aligned.toNat s.depth.toNat ≤ s.count ∧ s.count ≤ s.depth.toNat := by
  obtain ⟨t,n,attends,replies,count,last,_⟩ := submissionsAttended (c := .start proposerBoot verifierBoot) rfl rfl fits
  refine ⟨t,?_,(attendsRun attends [] []).1,last,fun s member => countBounds (fits s member)⟩
  intro moves u run
  have ended := plantEnds attends run
  rw [replies,List.length_map,List.length_map] at ended
  obtain ⟨⟨left,ends,size⟩,same⟩ := ended
  exact ⟨⟨left,ends,by omega⟩,same⟩

def driverScript : List Submission := [⟨42,5,1,5⟩,⟨43,6,1,3⟩,⟨44,5,1,0⟩,⟨45,5,2,2⟩]

theorem driverScriptCommits :
    (∀ s ∈ driverScript, s.Fits) ∧
    ∃ t, ∀ moves u, deployment.Run (deployed (.start 7 8) (driverScript.map Submission.frame)) moves u →
      ∃ left, deployment.Run u left (finished t (driverScript.map Submission.reply)) ∧
        moves.length + left.length = 32 := by
  have fits : ∀ s ∈ driverScript, s.Fits := by
    intro s member
    simp only [driverScript,List.mem_cons,List.not_mem_nil,or_false] at member
    rcases member with rfl | rfl | rfl | rfl <;> exact ⟨by decide,by decide,by decide⟩
  obtain ⟨t,every,_⟩ := submissionsCommitInOrder 7 8 driverScript fits
  exact ⟨fits,t,fun moves u run => (every moves u run).1⟩

end SpeculationFabric.Dist
