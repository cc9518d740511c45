import SpeculationFabric.CoordinatorRuns

/-! Committed tokens over whole runs of a coordinator. They only grow as long as no
submission names an id that already has some; one that does clears them, where the
engine's own `submit` turns a known id away. -/
namespace SpeculationFabric.Dist

open Wire

def SparesCommitted (c : Coordinator) : Event → Prop
  | .driverFrame frame => ∀ reqid depth branches aligned, Submits frame reqid depth branches aligned →
      (c.request reqid).committed = []
  | _ => True

structure Kept (r s : CReq) : Prop where
  committed : r.committed <+: s.committed
  stateId : s.authState.id = r.authState.id
  authGen : s.authGen.value = r.authGen.value + UInt64.ofNat (s.committed.length - r.committed.length)
  generation : s.authState.generation.value =
    r.authState.generation.value + UInt64.ofNat (s.committed.length - r.committed.length)

def Grows (c t : Coordinator) : Prop :=
  ∀ id r, c.requests.lookup id = some r → ∃ s, t.requests.lookup id = some s ∧ r.committed <+: s.committed

theorem Grows.same {c t : Coordinator} (requests : t.requests = c.requests) : Grows c t := by
  intro id r found
  exact ⟨r,requests ▸ found,List.prefix_rfl⟩

theorem Grows.trans {c t u : Coordinator} (first : Grows c t) (second : Grows t u) : Grows c u := by
  intro id r found
  obtain ⟨s,there,grows⟩ := first id r found
  obtain ⟨w,later,more⟩ := second id s there
  exact ⟨w,later,grows.trans more⟩

theorem storeGrows (c : Coordinator) {id : UInt64} {s : CReq} (grows : (c.request id).committed <+: s.committed) :
    Grows c (c.store id s) := by
  intro other r found
  by_cases same : other = id
  · subst same
    rw [Coordinator.request,found,Option.getD_some] at grows
    exact ⟨s,lookupStoreSelf _ _ _,grows⟩
  · exact ⟨r,(lookupStoreOther c s same).trans found,List.prefix_rfl⟩

theorem advanceGrows (c : Coordinator) (d : Drive) : Grows c (c.advance d) := by
  obtain ⟨_,opened⟩ | large | ⟨win,_,_,done⟩ := advanceCases c d
  · have counted : Grows c (c.store d.reqid (c.request d.reqid).counted) := storeGrows c List.prefix_rfl
    exact counted.trans (.same (by rw [opened,openBranchSends]; rfl))
  · exact .same (by rw [large]; rfl)
  · have committed : Grows c (c.store d.reqid ((c.request d.reqid).commit win.toks win.accepted)) :=
      storeGrows c (List.prefix_append _ _)
    exact committed.trans (.same (by rw [done,finishRequests]))

theorem driveGrows (c : Coordinator) (reqid : UInt64) (depth branches aligned : UInt32) :
    Grows c (c.driveCycle reqid depth branches aligned) := by
  rw [Coordinator.driveCycle]
  refine Grows.trans (storeGrows c ?_) (advanceGrows _ _)
  exact List.prefix_rfl

theorem stepGrows {c t : Coordinator} {e : Event} (spares : SparesCommitted c e) (taken : c.step e = some t) :
    Grows c t := by
  obtain ⟨_,quiet⟩ | ⟨frame,reqid,depth,branches,aligned,_,rfl,submits,rfl⟩ | ⟨d,r,_,_,rfl⟩ | ⟨d,toks,r,_,_,rfl⟩ :=
    stepCases taken
  · exact .same quiet.requests
  · have empty := spares reqid depth branches aligned submits
    exact (storeGrows c (by rw [empty]; exact List.nil_prefix)).trans (driveGrows _ _ _ _ _)
  · obtain same | ⟨why,_,same⟩ | ⟨toks,_,same⟩ := proposerReplyCases c d r
    · exact .same (by rw [same]; rfl)
    · exact .same (by rw [same,finishRequests])
    · exact .same (by rw [same]; rfl)
  · obtain same | ⟨why,_,same⟩ | ⟨_,_,br,_,_,_,_,_,_,same⟩ := verifierReplyCases c d toks r
    · exact .same (by rw [same]; rfl)
    · exact .same (by rw [same,finishRequests])
    · exact same ▸ advanceGrows _ _

theorem runGrows {s t : Coordinator} {later : List Event} (run : CoordinatorRun SparesCommitted s later t) : Grows s t :=
  Runs.invariant run (.same rfl) (fun _ _ _ before spares taken => before.trans (stepGrows spares taken))

theorem keptOfGrown {id : UInt64} {r s : CReq} (before : Standing id r) (after : Standing id s)
    (grows : r.committed <+: s.committed) : Kept r s := by
  have sum : UInt64.ofNat s.committed.length =
      UInt64.ofNat r.committed.length + UInt64.ofNat (s.committed.length - r.committed.length) := by
    rw [← UInt64.ofNat_add,Nat.add_sub_cancel' grows.length_le]
  exact ⟨grows,by rw [before.stateId,after.stateId],by rw [after.level.authGen,before.level.authGen,sum],
    by rw [after.level.generation,before.level.generation,sum]⟩

/- A fresh cycle has no winner yet, so what a submission wrote is still there. -/
theorem submittedCleared (c : Coordinator) (reqid : UInt64) (depth branches aligned : UInt32) :
    ∃ s, ((c.store reqid ((c.request reqid).submitted reqid c.epoch)).driveCycle reqid depth branches
      aligned).requests.lookup reqid = some s ∧ s.committed = [] := by
  rw [Coordinator.driveCycle,requestStoreSelf,Coordinator.advance]
  split
  · rw [openBranchSends]
    refine ⟨_,AList.lookup_insert _,?_⟩
    rw [CReq.counted,requestStoreSelf]
    rfl
  · exact ⟨_,lookupStoreSelf _ _ _,rfl⟩

theorem committedKeptExactly (s : Coordinator) :
    (∀ (proposerBoot verifierBoot : UInt64) (events later : List Event) (t : Coordinator),
      CoordinatorRun (fun _ _ => True) (.start proposerBoot verifierBoot) events s →
      CoordinatorRun SparesCommitted s later t →
      ∀ id r, s.requests.lookup id = some r → ∃ r', t.requests.lookup id = some r' ∧ Kept r r') ∧
    ∀ (t : Coordinator) (frame : Option (List UInt8)) (reqid : UInt64) (depth branches aligned : UInt32),
      s.step (.driverFrame frame) = some t → Submits frame reqid depth branches aligned →
      ∃ r', t.requests.lookup reqid = some r' ∧ r'.committed = [] := by
  constructor
  · intro proposerBoot verifierBoot events later t before after id r found
    have ends := Runs.append before (Runs.weaken after (fun _ _ _ => trivial))
    obtain ⟨r',there,grows⟩ := runGrows after id r found
    exact ⟨r',there,keptOfGrown ((reachableSound before).steady.standing id r found)
      ((reachableSound ends).steady.standing id r' there) grows⟩
  · intro t frame reqid depth branches aligned taken submits
    have same := submitTaken taken submits
    rw [same]
    exact submittedCleared s reqid depth branches aligned

theorem resubmitted : (runFrom afterFirst [fromDriver (submission 42 1 1 1)]).isSome := by decide +kernel

theorem resubmissionClears :
    CoordinatorRun (fun _ _ => True) (.start 7 8) firstCommit afterFirst ∧
    CoordinatorRun (fun _ _ => True) afterFirst [fromDriver (submission 42 1 1 1)] ((runFrom _ _).get resubmitted) ∧
    (afterFirst.request 42).committed = [3270] ∧ (afterFirst.request 42).authGen = ⟨1⟩ ∧
    (((runFrom _ _).get resubmitted).request 42).committed = [] ∧
    (((runFrom _ _).get resubmitted).request 42).authGen = ⟨0⟩ := by
  have cleared : (((runFrom _ _).get resubmitted).request 42).committed = [] ∧
      (((runFrom _ _).get resubmitted).request 42).authGen = ⟨0⟩ := by decide +kernel
  rw [afterFirstRecord]
  exact ⟨runFromRun _,runFromRun _,rfl,rfl,cleared⟩

theorem otherSubmissionKeeps :
    ∃ t r', CoordinatorRun SparesCommitted afterFirst [fromDriver (submission 43 1 1 1)] t ∧
      afterFirst.requests.lookup 42 = some (afterFirst.request 42) ∧ (afterFirst.request 42).committed = [3270] ∧
      t.requests.lookup 42 = some r' ∧ Kept (afterFirst.request 42) r' := by
  have spares : SparesCommitted afterFirst (fromDriver (submission 43 1 1 1)) := by
    rintro reqid depth branches aligned ⟨bytes,m,sent,decoded,_,atId,_⟩
    cases sent
    have whole : decode (layout (submission 43 1 1 1)) = .ok (submission 43 1 1 1) :=
      layoutDecodes (typedConforms Msg.submitRequest rfl rfl (by decide) (by decide) (by decide) (by decide))
    rw [whole] at decoded
    cases decoded
    cases atId
    decide +kernel
  have later := Runs.Trace.snoc (s := afterFirst) .nil spares (afterFirstTakes _)
  have found := afterFirstState.2.1
  obtain ⟨r',there,kept⟩ := (committedKeptExactly afterFirst).1 7 8 firstCommit _ _ (runFromRun firstCommitRuns) later
    42 _ found
  rw [afterFirstRecord]
  exact ⟨_,r',later,found,rfl,there,kept⟩

end SpeculationFabric.Dist
