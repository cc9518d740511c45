import SpeculationFabric.SoloCycle
import SpeculationFabric.WorkedCycle

/-! The two drivers on the same authority. The coordinator asks the proposer and the
verifier in turn over positional messages, the engine keeps everything in memory and
proposes every branch before it verifies the first; both end where the cycle over the
CPU executors ends. -/
namespace SpeculationFabric.Dist

open Wire

theorem coordinatorRefinesEngine {c : Coordinator} {s : System} {reqid : UInt64} {id : RequestId} {rs : RequestState}
    {depth branches : UInt32} (aligned : UInt32) (now eventNow settledAt : UInt64)
    (found : s.fabric.find id = some rs) (startable : Startable s.fabric rs)
    (fixed : FixedPolicy s.fabric.scheduler.policy depth branches) (revision : rs.req.draftModel.revision = ⟨1⟩)
    (state : rs.authState = (c.request reqid).authState) (generation : rs.authGen = (c.request reqid).authGen)
    (positive : 1 ≤ depth.toNat) (shallow : depth.toNat ≤ 61) (some_ : 1 ≤ branches.toNat) :
    ∃ t k branch firstrej s₁ u o rs' tokens,
      (∀ fuel, 2 * branches.toNat ≤ fuel →
        Runs.follow Coordinator.delivered fuel (c.driveCycle reqid depth branches aligned) = t) ∧
      Returned c t reqid (.ok k branch firstrej) ∧
      s.step (.runCycle now eventNow id) = some s₁ ∧
      (∀ fuel, 4 * branches.toNat + 1 ≤ fuel →
        Runs.follow (System.cpuTurn aligned settledAt s.calls.length) fuel s₁ = u) ∧
      u.calls[s.calls.length]? = some (.returned id (.ok o)) ∧ u.fabric.find id = some rs' ∧
      (t.request reqid).committed = (c.request reqid).committed ++ tokens ∧ rs'.committed = rs.committed ++ tokens ∧
      tokens.length = k.toNat ∧ o.branch = ⟨branch⟩ ∧
      (t.request reqid).authGen = rs'.authGen ∧ rs'.authGen.value = rs.authGen.value + k.toUInt64 ∧
      (t.request reqid).authState = rs'.authState ∧
      rs'.authState.generation.value = rs.authState.generation.value + k.toUInt64 := by
  obtain ⟨t,w,k,firstrej,leads,done,back,chosen,grown⟩ := driveWorked c aligned rfl some_ positive shallow
  obtain ⟨s₁,u,o,rs',v,l,begins,turns,ended,returned,stored,settled⟩ := soloCycle
    (a := (c.request reqid).authority) aligned now eventNow settledAt found startable fixed state generation revision
    positive (by omega) some_
  obtain ⟨rfl,rfl⟩ := settled.chosen.unique chosen
  refine ⟨t,_,_,firstrej,s₁,u,o,rs',_,fun fuel enough => Runs.followEnds leads done enough,back,begins,
    fun fuel enough => Runs.followEnds turns ended enough,returned,stored,grown.committed,settled.committed,grown.count,
    settled.branch,?_,?_,?_,?_⟩
  · rw [settled.authGen,generation]
    exact congrArg StrongId.mk grown.authGen
  · rw [settled.authGen]
  · rw [settled.authState,state]
    exact congrArg₂ StateRef.mk grown.stateId (congrArg StrongId.mk grown.generation)
  · rw [settled.authState]

def engineSample : System :=
  { fabric := ((Fabric.new { policy := { adaptiveDepthEnabled := false, maxDepth := 1, maxBranches := 2 } }).submit 1
      (makeReq ⟨100⟩ [])).2 }

def engineRecord : RequestState := (engineSample.fabric.entry ⟨100⟩).1

def coordinatorSample : Coordinator := (Coordinator.start 7 8).store 7 (({} : CReq).submitted 7 ⟨1⟩)

theorem engineSampleFound : engineSample.fabric.find ⟨100⟩ = some engineRecord := by decide +kernel

theorem engineSampleStarts : Startable engineSample.fabric engineRecord :=
  ⟨⟨by decide +kernel,by decide +kernel,by decide +kernel⟩,by decide +kernel,rfl,rfl⟩

theorem engineSamplePolicy : FixedPolicy engineSample.fabric.scheduler.policy 1 2 := ⟨rfl,by decide,rfl,rfl⟩

theorem samplesAgree :
    engineRecord.authState = (coordinatorSample.request 7).authState ∧
    engineRecord.authGen = (coordinatorSample.request 7).authGen ∧
    ∃ t u k rs' tokens, Runs.follow Coordinator.delivered 4 (coordinatorSample.driveCycle 7 1 2 1) = t ∧
      (∃ s₁, engineSample.step (.runCycle 2 2 ⟨100⟩) = some s₁ ∧ Runs.follow (System.cpuTurn 1 9 0) 9 s₁ = u) ∧
      u.fabric.find ⟨100⟩ = some rs' ∧ tokens.length = UInt32.toNat k ∧
      (t.request 7).committed = (coordinatorSample.request 7).committed ++ tokens ∧
      rs'.committed = engineRecord.committed ++ tokens := by
  have state : engineRecord.authState = (coordinatorSample.request 7).authState := by decide +kernel
  have generation : engineRecord.authGen = (coordinatorSample.request 7).authGen := by decide +kernel
  obtain ⟨t,k,branch,firstrej,s₁,u,o,rs',tokens,follows,_,begins,turns,_,stored,committed,same,count,_⟩ :=
    coordinatorRefinesEngine (c := coordinatorSample) (s := engineSample) 1 2 2 9 engineSampleFound engineSampleStarts
      engineSamplePolicy (by decide +kernel) state generation (by decide) (by decide) (by decide)
  exact ⟨state,generation,t,u,k,rs',tokens,follows 4 (by decide),⟨s₁,begins,turns 9 (by decide)⟩,stored,count,
    committed,same⟩

end SpeculationFabric.Dist
