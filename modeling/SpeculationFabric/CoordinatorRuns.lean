import SpeculationFabric.CoordinatorFacts

/-! What holds in every state a coordinator reaches, whatever its peers send: the
authority counters follow the committed tokens, every attempt is the first, and a
cycle in flight started from nothing under the current epoch. -/
namespace SpeculationFabric.Dist

open Wire

structure Unmoved (r s : CReq) : Prop where
  committed : s.committed = r.committed
  authGen : s.authGen = r.authGen
  authState : s.authState = r.authState
  stateGen : s.stateGen = r.stateGen

theorem Unmoved.refl (r : CReq) : Unmoved r r := ⟨rfl,rfl,rfl,rfl⟩

theorem Unmoved.trans {r s t : CReq} (first : Unmoved r s) (second : Unmoved s t) : Unmoved r t :=
  ⟨second.committed.trans first.committed,second.authGen.trans first.authGen,second.authState.trans first.authState,
    second.stateGen.trans first.stateGen⟩

theorem countedUnmoved (r : CReq) : Unmoved r r.counted := ⟨rfl,rfl,rfl,rfl⟩

structure Level (r : CReq) : Prop where
  authGen : r.authGen.value = UInt64.ofNat r.committed.length
  generation : r.authState.generation.value = UInt64.ofNat r.committed.length
  stateGen : r.stateGen = r.authState.generation

structure Standing (id : UInt64) (r : CReq) : Prop where
  attempt : r.attempt = ⟨1⟩
  stateId : r.authState.id = ⟨id * 0x9E3779B97F4A7C15⟩
  level : Level r

theorem Unmoved.level {r s : CReq} (unmoved : Unmoved r s) (level : Level r) : Level s :=
  ⟨by rw [unmoved.authGen,unmoved.committed,level.authGen],
    by rw [unmoved.authState,unmoved.committed,level.generation],
    by rw [unmoved.stateGen,unmoved.authState,level.stateGen]⟩

theorem Standing.unmoved {r s : CReq} {id : UInt64} (standing : Standing id r) (unmoved : Unmoved r s)
    (attempt : s.attempt = r.attempt) : Standing id s :=
  ⟨attempt.trans standing.attempt,(congrArg StateRef.id unmoved.authState).trans standing.stateId,
    unmoved.level standing.level⟩

def Dispatched (m : Message) : Prop :=
  ∃ (r : CReq) (d : Drive) (boot : UInt64), m = proposalDispatch r d boot ∧ r.attempt = ⟨1⟩ ∧ r.authGen = ⟨0⟩ ∧
    r.propGen = d.b.toUInt64 + 1

structure Steady (c : Coordinator) : Prop where
  standing : ∀ id r, c.requests.lookup id = some r → Standing id r
  dispatched : ∀ m, .toProposer m ∈ c.log → Dispatched m

structure Driving (c : Coordinator) (d : Drive) (n : Nat) : Prop where
  known : c.requests.lookup d.reqid = some (c.request d.reqid)
  epoch : (c.request d.reqid).epoch = c.epoch
  fresh : (c.request d.reqid).committed = []
  propGen : (c.request d.reqid).propGen = UInt64.ofNat n

structure Sound (c : Coordinator) : Prop where
  steady : Steady c
  proposing : ∀ d, c.phase = .proposing d → Driving c d (d.brs.length + 1) ∧ d.brs.length < d.branches.toNat
  verifying : ∀ d toks, c.phase = .verifying d toks →
    Driving c d (d.brs.length + 1) ∧ d.brs.length < d.branches.toNat ∧ toks.length = d.depth.toNat

theorem widened (w : UInt32) : UInt64.ofNat w.toNat = w.toUInt64 := by
  apply UInt64.toNat_inj.mp
  have small := w.toNat_lt
  rw [UInt64.toNat_ofNat',UInt32.toNat_toUInt64]
  omega

theorem commitLevel {r : CReq} {toks : List UInt32} {accepted : UInt32} (level : Level r)
    (inside : accepted.toNat ≤ toks.length) : Level (r.commit toks accepted) := by
  have length : (r.commit toks accepted).committed.length = r.committed.length + accepted.toNat := by
    rw [CReq.commit,List.length_append,List.length_take,Nat.min_eq_left inside]
  have sum : UInt64.ofNat (r.committed.length + accepted.toNat) =
      UInt64.ofNat r.committed.length + accepted.toUInt64 := by
    rw [UInt64.ofNat_add,widened]
  refine ⟨?_,?_,rfl⟩
  · rw [length,sum,← level.authGen]
    rfl
  · rw [length,sum,← level.generation]
    rfl

theorem answeredSound {c : Coordinator} (steady : Steady c) (reqid : UInt64) (result : DriveResult) (m : Message) :
    Sound { c with log := c.log ++ [.submitted reqid result,.toDriver m], phase := .waiting } := by
  refine ⟨⟨steady.standing,?_⟩,nofun,nofun⟩
  intro out member
  simp only [List.mem_append,List.mem_cons,List.not_mem_nil,or_false,reduceCtorEq] at member
  exact steady.dispatched out member

theorem failedSound {c : Coordinator} {d : Drive} {why : String} (steady : Steady c) (short : Short why) :
    Sound (c.finish d (.failed why)) := by
  rw [finishFailed c d short]
  exact answeredSound steady _ _ _

theorem undefineSound {c : Coordinator} (steady : Steady c) : Sound c.undefine :=
  ⟨⟨steady.standing,steady.dispatched⟩,nofun,nofun⟩

theorem storeSteady {c : Coordinator} {id : UInt64} {r : CReq} (steady : Steady c) (standing : Standing id r) :
    Steady (c.store id r) := by
  refine ⟨?_,steady.dispatched⟩
  intro other found inside
  by_cases same : other = id
  · subst same
    rw [lookupStoreSelf] at inside
    cases inside
    exact standing
  · rw [lookupStoreOther c r same] at inside
    exact steady.standing other found inside

theorem Driving.standing {c : Coordinator} {d : Drive} {n : Nat} (driving : Driving c d n) (steady : Steady c) :
    Standing d.reqid (c.request d.reqid) :=
  steady.standing _ _ driving.known

theorem Driving.authGen {c : Coordinator} {d : Drive} {n : Nat} (driving : Driving c d n) (steady : Steady c) :
    (c.request d.reqid).authGen = ⟨0⟩ := by
  have level := (driving.standing steady).level.authGen
  rw [driving.fresh] at level
  exact congrArg StrongId.mk level

theorem driveIndex {d : Drive} (more : d.brs.length < d.branches.toNat) :
    d.b.toUInt64 = UInt64.ofNat d.brs.length := by
  have small := d.branches.toNat_lt
  rw [Drive.b,← widened,UInt32.toNat_ofNat_of_lt' (by simp only [UInt32.size]; omega)]

theorem openBranchSound {c : Coordinator} {d : Drive} (steady : Steady c) (driving : Driving c d d.brs.length)
    (more : d.brs.length < d.branches.toNat) : Sound (c.openBranch d) := by
  have standing := driving.standing steady
  have base := driving.authGen steady
  have counted : (c.request d.reqid).counted.propGen = UInt64.ofNat (d.brs.length + 1) := by
    rw [CReq.counted,driving.propGen,UInt64.ofNat_add]
    rfl
  have stored := storeSteady steady (standing.unmoved (countedUnmoved _) rfl)
  rw [openBranchSends]
  refine ⟨⟨stored.standing,?_⟩,?_,nofun⟩
  · intro m member
    rcases List.mem_append.mp member with old | new
    · exact steady.dispatched m old
    · simp only [List.mem_singleton,Output.toProposer.injEq] at new
      refine ⟨_,d,_,new,standing.attempt,base,?_⟩
      rw [counted,driveIndex more,UInt64.ofNat_add]
      rfl
  · intro d' same
    cases same
    have here := requestStoreSelf c d.reqid (c.request d.reqid).counted
    refine ⟨⟨?_,?_,?_,?_⟩,more⟩
    · exact (lookupStoreSelf c d.reqid _).trans (congrArg some here.symm)
    · exact (congrArg CReq.epoch here).trans driving.epoch
    · exact (congrArg CReq.committed here).trans driving.fresh
    · exact (congrArg CReq.propGen here).trans counted

theorem concludeSound {c : Coordinator} {d : Drive} (steady : Steady c) (driving : Driving c d d.brs.length) :
    Sound (c.conclude d) := by
  have standing := driving.standing steady
  obtain same | ⟨win,_,inside,same⟩ := concludeCases c d
  · rw [same]
    exact undefineSound steady
  · rw [same,finishOk]
    have stored := storeSteady steady (r := (c.request d.reqid).commit win.toks win.accepted)
      ⟨standing.attempt,standing.stateId,commitLevel standing.level inside⟩
    exact answeredSound stored _ _ _

theorem advanceSound {c : Coordinator} {d : Drive} (steady : Steady c) (driving : Driving c d d.brs.length) :
    Sound (c.advance d) := by
  rw [Coordinator.advance]
  split
  · rename_i more
    exact openBranchSound steady driving more
  · exact concludeSound steady driving

theorem submitSound {c : Coordinator} (steady : Steady c) (reqid : UInt64) (depth branches aligned : UInt32) :
    Sound ((c.store reqid ((c.request reqid).submitted reqid c.epoch)).driveCycle reqid depth branches aligned) := by
  have entry : Standing reqid ((c.request reqid).submitted reqid c.epoch) := ⟨rfl,rfl,⟨rfl,rfl,rfl⟩⟩
  rw [Coordinator.driveCycle,requestStoreSelf]
  apply advanceSound
  · exact storeSteady (storeSteady steady entry) (entry.unmoved ⟨rfl,rfl,rfl,rfl⟩ rfl)
  · refine ⟨?_,?_,?_,?_⟩
    · rw [requestStoreSelf]
      exact lookupStoreSelf _ _ _
    · rw [requestStoreSelf]
      rfl
    · rw [requestStoreSelf]
      rfl
    · rw [requestStoreSelf]
      rfl

theorem Driving.congr {c t : Coordinator} {d e : Drive} {n : Nat} (driving : Driving c d n)
    (requests : t.requests = c.requests) (epoch : t.epoch = c.epoch) (reqid : e.reqid = d.reqid) : Driving t e n := by
  have same : t.request e.reqid = c.request d.reqid := by
    rw [Coordinator.request,requests,reqid,Coordinator.request]
  exact ⟨by rw [requests,reqid,driving.known,← reqid,same,reqid],by rw [same,driving.epoch,epoch],
    by rw [same,driving.fresh],by rw [same,driving.propGen]⟩

theorem proposerReplySound {c : Coordinator} {d : Drive} (steady : Steady c) (driving : Driving c d (d.brs.length + 1))
    (more : d.brs.length < d.branches.toNat) (reply : Reply) : Sound (c.proposerReply d reply) := by
  obtain same | ⟨why,short,same⟩ | ⟨toks,size,same⟩ := proposerReplyCases c d reply
  · rw [same]
    exact undefineSound steady
  · rw [same]
    exact failedSound steady short
  · rw [same]
    refine ⟨⟨steady.standing,?_⟩,nofun,?_⟩
    · intro m member
      simp only [Coordinator.questioned,List.mem_append,List.mem_cons,List.not_mem_nil,or_false,reduceCtorEq] at member
      exact steady.dispatched m member
    · intro d' toks' same
      cases same
      exact ⟨driving.congr rfl rfl rfl,more,size⟩

theorem verifierReplySound {c : Coordinator} {d : Drive} {toks : List UInt32} (steady : Steady c)
    (driving : Driving c d (d.brs.length + 1)) (reply : Reply) : Sound (c.verifierReply d toks reply) := by
  obtain same | ⟨why,short,same⟩ | ⟨_,_,br,_,_,_,_,_,_,same⟩ := verifierReplyCases c d toks reply
  · rw [same]
    exact undefineSound steady
  · rw [same]
    exact failedSound steady short
  · rw [same]
    apply advanceSound steady
    rw [Drive.recorded,List.length_append]
    exact driving.congr rfl rfl rfl

theorem stepSound {c t : Coordinator} {e : Event} (sound : Sound c) (taken : c.step e = some t) : Sound t := by
  obtain ⟨_,quiet⟩ | ⟨frame,reqid,depth,branches,aligned,_,_,_,rfl⟩ | ⟨d,r,waits,_,rfl⟩ | ⟨d,toks,r,waits,_,rfl⟩ :=
    stepCases taken
  · refine ⟨⟨by rw [quiet.requests]; exact sound.steady.standing,?_⟩,?_,?_⟩
    · intro m member
      obtain same | ⟨out,same⟩ := quiet.log
      · exact sound.steady.dispatched m (same ▸ member)
      · rw [same] at member
        simp only [List.mem_append,List.mem_cons,List.not_mem_nil,or_false,reduceCtorEq] at member
        exact sound.steady.dispatched m member
    · intro d waits
      have idle := quiet.idle
      simp [waits] at idle
    · intro d toks waits
      have idle := quiet.idle
      simp [waits] at idle
  · exact submitSound sound.steady reqid depth branches aligned
  · obtain ⟨driving,more⟩ := sound.proposing d waits
    exact proposerReplySound sound.steady driving more r
  · obtain ⟨driving,_⟩ := sound.verifying d toks waits
    exact verifierReplySound sound.steady driving r

theorem startSound (proposerBoot verifierBoot : UInt64) : Sound (.start proposerBoot verifierBoot) := by
  refine ⟨⟨?_,?_⟩,nofun,nofun⟩
  · intro id r inside
    simp [Coordinator.start] at inside
  · intro m member
    simp [Coordinator.start] at member

theorem reachableSound {ok : Coordinator → Event → Prop} {proposerBoot verifierBoot : UInt64} {events : List Event}
    {t : Coordinator} (run : CoordinatorRun ok (.start proposerBoot verifierBoot) events t) : Sound t :=
  Runs.invariant run (startSound _ _) (fun _ _ _ sound _ taken => stepSound sound taken)

def runFrom (c : Coordinator) (events : List Event) : Option Coordinator :=
  Runs.exec Coordinator.step (fun _ _ => true) c events

theorem runFromRun {c : Coordinator} {events : List Event} (finishes : (runFrom c events).isSome) :
    CoordinatorRun (fun _ _ => True) c events ((runFrom c events).get finishes) :=
  Runs.ofExec (fun _ _ _ => trivial) (Option.some_get finishes).symm

theorem reaches {c : Coordinator} {events : List Event} {P : Coordinator → Prop} [DecidablePred P]
    (ends : (runFrom c events).any (fun t => decide (P t)) = true) :
    ∃ t, CoordinatorRun (fun _ _ => True) c events t ∧ P t := by
  obtain ⟨t,runs,holds⟩ := (Option.any_eq_true _ _).mp ends
  exact ⟨t,Runs.ofExec (fun _ _ _ => trivial) runs,of_decide_eq_true holds⟩

/- The frames of the concrete runs below: a submission, and what the workers answer for
one aligned token of request 42, which the verifier takes. -/
def submission (reqid : UInt64) (depth branches aligned : UInt32) : Message :=
  { type := Msg.submitRequest, u64Fields := [reqid], u32Fields := [depth,branches,aligned] }

def drafted : Message :=
  { type := Msg.proposalResult, u64Fields := [42,43,1,1,1042,0,0,7,1,1,1], u32Fields := [0,1,3270] }

def judged : Message :=
  { type := Msg.verificationResult, u64Fields := [42,43,1,1,0,2042,17661420568835545970,0], u32Fields := [0,1,1,1] }

theorem draftedRead : decode (layout drafted) = .ok drafted :=
  layoutDecodes (typedConforms Msg.proposalResult rfl rfl (by decide) (by decide) (by decide) (by decide))

theorem judgedRead : decode (layout judged) = .ok judged :=
  layoutDecodes (typedConforms Msg.verificationResult rfl rfl (by decide) (by decide) (by decide) (by decide))

def fromDriver (m : Message) : Event := .driverFrame (some (layout m))

def fromWorker (m : Message) : Event := .reply (.frame (layout m))

def firstCommit : List Event := [fromDriver (submission 42 1 1 1),fromWorker drafted,fromWorker judged]

theorem firstCommitRuns : (runFrom (.start 7 8) firstCommit).isSome := by decide +kernel

def afterFirst : Coordinator := (runFrom (.start 7 8) firstCommit).get firstCommitRuns

def firstRecord : CReq :=
  { ({} : CReq).submitted 42 ⟨1⟩ with
    authGen := ⟨1⟩
    authState := ⟨⟨17661420568835545970⟩,⟨1⟩⟩
    stateGen := ⟨1⟩
    committed := [3270]
    depth := 1
    branches := 1
    aligned := 1
    propGen := 1 }

theorem afterFirstState : afterFirst.inOrder = [⟨42,firstRecord⟩] ∧ afterFirst.requests.lookup 42 = some firstRecord ∧
    afterFirst.epoch = ⟨1⟩ ∧ afterFirst.proposerBoot = 7 ∧ afterFirst.phase = .waiting ∧ afterFirst.driver = true := by
  decide +kernel

theorem afterFirstRecord : afterFirst.request 42 = firstRecord := by
  rw [Coordinator.request,afterFirstState.2.1,Option.getD_some]

theorem afterFirstTakes (frame : Option (List UInt8)) :
    afterFirst.step (.driverFrame frame) = some (afterFirst.driverFrame frame) := by
  obtain ⟨_,_,_,_,waits,driver⟩ := afterFirstState
  simp only [Coordinator.step,waits,driver,if_true]

end SpeculationFabric.Dist
