import SpeculationFabric.Branches
import SpeculationFabric.Provenance

/-! The records of the branches and the count of the retired ones. The first settled cycle
of a request records all its branches, with the generation that settlement has just
moved to, and counts each loser at both sites; every later cycle finds them all
recorded, leaves what they say and counts each loser, whether it was active or not. -/
namespace SpeculationFabric

structure FirstRecords (k : Nat) (rs : RequestState) : Prop where
  listed : rs.branches = [] ∨ rs.branches.map Branch.id = branchIds k
  first : ∀ b ∈ rs.branches, b.cycle = ⟨1⟩
  uncounted : rs.branches = [] → rs.completedCycles = 0

theorem FirstRecords.retired {k : Nat} {rs rs' : RequestState} (records : FirstRecords k rs)
    (branches : rs'.branches = rs.branches.map fun b => { b with retired := true })
    (cycles : rs'.completedCycles = rs.completedCycles) : FirstRecords k rs' := by
  refine ⟨?_,?_,?_⟩
  · rw [branches,List.map_map,List.map_eq_nil_iff]
    exact records.listed
  · rw [branches]
    intro b member
    obtain ⟨old,inside,rfl⟩ := List.mem_map.mp member
    exact records.first old inside
  · rw [branches,cycles,List.map_eq_nil_iff]
    exact records.uncounted

section settled
variable {k : Nat} {c : Cycle} {rs rs' : RequestState} {won : BranchResult} {accept : AcceptanceResult}
  {candidate : CandidateSequence}

theorem settledRecords (records : FirstRecords k rs) (small : k < 2^32)
    (ids : c.proposed.map BranchResult.branch = branchIds k) (facts : Settled c rs won accept candidate rs') :
    FirstRecords k rs' := by
  have recorded' := settledIds records.listed small ids facts
  refine ⟨.inr recorded',?_,?_⟩
  · rcases records.listed with empty | recorded
    · rw [settledNew empty small ids facts]
      intro b member
      obtain ⟨br,_,rfl⟩ := List.mem_map.mp member
      show (⟨(rs.completedCycles + 1).toUInt64⟩ : CycleId) = ⟨1⟩
      rw [records.uncounted empty]
      rfl
    · rw [settledOld recorded small ids facts]
      intro b member
      obtain ⟨old,inside,rfl⟩ := List.mem_map.mp member
      exact records.first old inside
  · intro none
    have winner := winnerListed ids facts
    rw [← recorded',none] at winner
    cases winner

end settled

theorem firstRecords {x : Executors} {cfg : Config} {actions : List Action} {s : System}
    (run : Run x (.start cfg) actions s) :
    ∀ id rs, s.fabric.find id = some rs → FirstRecords (max 1 cfg.policy.maxBranches).toNat rs := by
  refine everyRecord (P := FirstRecords (max 1 cfg.policy.maxBranches).toNat) run ?_ ?_
  · intro epoch req events
    refine ⟨.inl rfl,?_,fun _ => rfl⟩
    intro b member
    cases member
  · intro past u id a rs rs' before effect records
    cases effect with
    | resubmitted events same null => exact ⟨records.listed,records.first,fun _ => rfl⟩
    | cancelled events live => exact records.retired rfl rfl
    | rolledBack events => exact records.retired rfl rfl
    | settled call same facts =>
        exact settledRecords records (UInt32.toNat_lt _) (settlingIds before call) facts
    | _ => exact ⟨records.listed,records.first,records.uncounted⟩

theorem settleBranchRetires {rs proposed keep candidate prop outcome count rejected len o rs'}
    (ok : settleBranch rs proposed keep candidate prop outcome count rejected len = some (o,rs')) :
    o.rollback.retiredBranches =
      (proposed.foldl (recordBranch { rs with authGen := rs'.authGen } keep) (rs.branches,0)).2.toUInt32 := by
  rcases settleBranchCases ok with ⟨_,taken⟩ | ⟨_,_,taken⟩ | ⟨_,_,refused⟩
  · exact (settleAcceptedAs taken).retiredBranches
  · exact (settleAcceptedAs taken).retiredBranches
  · cases refused
    rfl

theorem settleRetires {f f' : Fabric} {now : UInt64} {c : Cycle} {o : CycleOutcome} {rs rs' : RequestState}
    {won : BranchResult} (ok : f.settle now c = some (.ok o,f')) (found : f.find c.request = some rs)
    (live : rs.terminal = false ∧ rs.cancelled = false)
    (winner : c.proposed[selectWinner c.accepted c.proposed]? = some won) (stored : f'.find c.request = some rs') :
    o.rollback.retiredBranches =
      (c.proposed.foldl (recordBranch { rs with authGen := rs'.authGen } won.branch) (rs.branches,0)).2.toUInt32 := by
  unfold Fabric.settle at ok
  simp only [found,live.1,live.2,Bool.or_self,Bool.false_eq_true,if_false,bind,Option.bind_eq_some_iff] at ok
  obtain ⟨same,at_,accept,_,candidate,_,⟨given,mid⟩,branch,last⟩ := ok
  cases Option.some.inj (winner.symm.trans at_)
  cases Option.some.inj last
  obtain ⟨events,held⟩ := concludeFound f now c.request mid given.outcome (UInt32.ofNat candidate.size)
    accept.acceptedPrefix (UInt32.ofNat candidate.size - accept.acceptedPrefix)
  dsimp only at stored ⊢
  rw [held] at stored
  cases Option.some.inj stored
  -- the lifecycle is no part of a branch's record
  generalize rs.cycle.applyAll _ = machine at branch
  have counted := settleBranchRetires branch
  exact counted

def newlyRetired (before after : List Branch) : Nat :=
  after.countP fun b => b.retired && !before.any fun old => old.id == b.id && old.retired

def RecordedAs (branches : List Branch) (pin : ProposalInput) : Prop :=
  ∃ b ∈ branches, b.id = pin.provenance.branch ∧ b.cycle = pin.provenance.cycle ∧
    b.attempt = pin.provenance.attempt ∧ b.baseGeneration = pin.provenance.baseGeneration

structure Accurate (c : Cycle) (rs rs' : RequestState) (o : CycleOutcome) : Prop where
  records : ∀ pin ∈ c.pins, RecordedAs rs'.branches pin
  count : o.rollback.retiredBranches.toNat = newlyRetired rs.branches rs'.branches

section counts
variable {k : Nat} {keep : BranchId}

theorem losingNone (small : k < 2^32) (winner : keep ∈ branchIds k) : losing keep (branchIds k) = 0 ↔ k = 1 := by
  have length : (branchIds k).length = k := by simp [branchIds]
  unfold losing
  rw [List.countP_eq_zero]
  constructor
  · intro all
    have only : ∀ id ∈ branchIds k, id = keep := by
      intro id member
      simpa using all id member
    have single : (branchIds k).Perm [keep] := by
      rw [List.perm_ext_iff_of_nodup (branchIdsUnique small) (List.nodup_singleton keep)]
      intro id
      rw [List.mem_singleton]
      exact ⟨only id,fun same => same ▸ winner⟩
    rw [← length,single.length_eq]
    rfl
  · rintro rfl id member
    have same : id = keep := (List.mem_singleton.mp member).trans (List.mem_singleton.mp winner).symm
    simp [same]

/- The count of a cycle that found no records is doubled, and a doubled count is right only at zero. -/
theorem doubledRight {n : Nat} (small : n < 2^32) : ((UInt64.ofNat (2 * n)).toUInt32).toNat = n ↔ n = 0 := by
  rw [UInt64.toNat_toUInt32,UInt64.toNat_ofNat']
  omega

theorem countedRight {n : Nat} (small : n < 2^32) : ((UInt64.ofNat n).toUInt32).toNat = n := by
  rw [UInt64.toNat_toUInt32,UInt64.toNat_ofNat']
  omega

theorem newlyRetiredNew (held : RequestState) {proposed : List BranchResult} :
    newlyRetired [] (proposed.map (newBranch held · keep)) = losing keep (proposed.map BranchResult.branch) := by
  unfold newlyRetired losing
  rw [List.countP_map,List.countP_map]
  apply List.countP_congr
  intro br _
  simp [newBranch]

theorem newlyRetiredOld {branches : List Branch} (unique : (branches.map Branch.id).Nodup) :
    newlyRetired branches (branches.map (retireUnless keep)) =
      branches.countP fun b => !b.retired && decide (b.id ≠ keep) := by
  unfold newlyRetired
  rw [List.countP_map]
  apply List.countP_congr
  intro b member
  have before : (branches.any fun old => old.id == b.id && old.retired) = b.retired := by
    rw [Bool.eq_iff_iff,List.any_eq_true]
    constructor
    · rintro ⟨old,inside,both⟩
      obtain ⟨same,retired⟩ : old.id = b.id ∧ old.retired = true := by simpa using both
      rwa [List.inj_on_of_nodup_map unique inside member same] at retired
    · intro retired
      exact ⟨b,member,by simp [retired]⟩
  show ((b.retired || decide (b.id ≠ keep)) && !branches.any fun old => old.id == b.id && old.retired) = true ↔ _
  rw [before]
  cases b.retired <;> simp

theorem losingRecorded {branches : List Branch} (ids : branches.map Branch.id = branchIds k) :
    losing keep (branchIds k) = branches.countP fun b => decide (b.id ≠ keep) := by
  unfold losing
  rw [← ids,List.countP_map]
  rfl

theorem countedOld {branches : List Branch} (ids : branches.map Branch.id = branchIds k) (small : k < 2^32) :
    losing keep (branchIds k) = newlyRetired branches (branches.map (retireUnless keep)) ↔
      ∀ b ∈ branches, b.id ≠ keep → b.retired = false := by
  rw [newlyRetiredOld (by rw [ids]; exact branchIdsUnique small),losingRecorded ids,← List.countP_filter,
    List.countP_eq_length_filter,eq_comm,List.countP_eq_length]
  simp only [List.mem_filter,decide_eq_true_eq,Bool.not_eq_true',and_imp]

end counts

structure BegunFrom (base : RequestState) (b : Branch) : Prop where
  cycle : b.cycle = ⟨(base.completedCycles + 1).toUInt64⟩
  attempt : b.attempt = base.attempt
  baseGeneration : b.baseGeneration = base.authGen

theorem begunRetired {base : RequestState} {branches : List Branch} {keep : BranchId} :
    (∀ b ∈ branches.map (retireUnless keep), BegunFrom base b) ↔ ∀ b ∈ branches, BegunFrom base b := by
  constructor
  · intro all b member
    obtain ⟨cycle,attempt,generation⟩ := all _ (List.mem_map.mpr ⟨b,member,rfl⟩)
    exact ⟨cycle,attempt,generation⟩
  · intro all b member
    obtain ⟨old,inside,rfl⟩ := List.mem_map.mp member
    obtain ⟨cycle,attempt,generation⟩ := all old inside
    exact ⟨cycle,attempt,generation⟩

theorem begunFirst {k : Nat} {rs : RequestState} (first : FirstRecords k rs) (some_ : rs.branches ≠ []) :
    (∀ b ∈ rs.branches, BegunFrom rs b) ↔ rs.completedCycles = 0 ∧ (∀ b ∈ rs.branches, b.attempt = rs.attempt) ∧
      ∀ b ∈ rs.branches, b.baseGeneration = rs.authGen := by
  have number : (⟨1⟩ : CycleId) = ⟨(rs.completedCycles + 1).toUInt64⟩ ↔ rs.completedCycles = 0 :=
    (cycleNumbers 1 _).trans (eq_comm.trans UInt32.add_eq_right)
  constructor
  · intro all
    obtain ⟨b,member⟩ := List.exists_mem_of_ne_nil _ some_
    have cycle := (all b member).cycle
    rw [first.first b member] at cycle
    exact ⟨number.mp cycle,fun b inside => (all b inside).attempt,fun b inside => (all b inside).baseGeneration⟩
  · rintro ⟨uncounted,attempt,generation⟩ b member
    refine ⟨?_,attempt b member,generation b member⟩
    rw [first.first b member]
    exact number.mpr uncounted

theorem pinIds {k : Nat} {c : Cycle} (built : PinsBuilt c) (ids : c.proposed.map BranchResult.branch = branchIds k) :
    (c.pins.map fun pin => pin.provenance.branch) = branchIds k := by
  have length : c.pins.length = k := by
    have lengths := congrArg List.length ids
    simpa [branchIds,← built.lockstep] using lengths
  apply List.ext_getElem?
  intro i
  rw [branchIds,List.getElem?_map,List.getElem?_map]
  cases at_ : c.pins[i]? with
  | none =>
      rw [List.getElem?_eq_none_iff,length] at at_
      rw [List.getElem?_eq_none (by simpa using at_)]
      rfl
  | some pin =>
      obtain ⟨held,rfl⟩ := built.built i pin at_
      have inside := (List.getElem?_eq_some_iff.mp at_).1
      rw [length] at inside
      rw [List.getElem?_range inside]
      rfl

theorem everyRecordedAs {base : RequestState} {id : RequestId} {branches : List Branch} {pins : List ProposalInput}
    (ids : branches.map Branch.id = pins.map fun pin => pin.provenance.branch)
    (unique : (branches.map Branch.id).Nodup) (asked : ∀ pin ∈ pins, askedFrom base id pin) :
    (∀ pin ∈ pins, RecordedAs branches pin) ↔ ∀ b ∈ branches, BegunFrom base b := by
  constructor
  · intro all b member
    have listed : b.id ∈ branches.map Branch.id := List.mem_map.mpr ⟨b,member,rfl⟩
    rw [ids] at listed
    obtain ⟨pin,inside,same⟩ := List.mem_map.mp listed
    obtain ⟨held,present,named,cycle,attempt,generation⟩ := all pin inside
    cases List.inj_on_of_nodup_map unique member present (same.symm.trans named.symm)
    obtain ⟨rs,p,index,⟨machine,events,rfl⟩,rfl⟩ := asked pin inside
    exact ⟨cycle,attempt,generation⟩
  · intro all pin member
    have listed : pin.provenance.branch ∈ pins.map fun pin => pin.provenance.branch :=
      List.mem_map.mpr ⟨pin,member,rfl⟩
    rw [← ids] at listed
    obtain ⟨b,inside,same⟩ := List.mem_map.mp listed
    obtain ⟨cycle,attempt,generation⟩ := all b inside
    obtain ⟨rs,p,index,⟨machine,events,rfl⟩,rfl⟩ := asked pin member
    exact ⟨b,inside,same,cycle,attempt,generation⟩

structure QuietFirst (maxBranches : UInt32) (base : RequestState) (accepted : List AcceptanceResult) : Prop where
  unrecorded : base.branches = []
  single : maxBranches ≤ 1
  nothing : ∀ accept ∈ accepted, accept.acceptedPrefix = 0

structure FirstAgain (base : RequestState) (winner : BranchId) : Prop where
  recorded : base.branches ≠ []
  uncounted : base.completedCycles = 0
  attempt : ∀ b ∈ base.branches, b.attempt = base.attempt
  baseGeneration : ∀ b ∈ base.branches, b.baseGeneration = base.authGen
  active : ∀ b ∈ base.branches, b.id ≠ winner → b.retired = false

theorem maxOneSingle (n : UInt32) : (max 1 n).toNat = 1 ↔ n ≤ 1 := by
  rw [wordMax,UInt32.le_iff_toNat_le]
  exact max_eq_left_iff

theorem bestNothing {accepted : List AcceptanceResult} {winner : Nat} {accept : AcceptanceResult}
    (best : FirstBest (accepted.map fun a => a.acceptedPrefix.toNat) winner) (at_ : accepted[winner]? = some accept) :
    accept.acceptedPrefix = 0 ↔ ∀ a ∈ accepted, a.acceptedPrefix = 0 := by
  constructor
  · intro nothing a member
    obtain ⟨j,inside⟩ := List.mem_iff_getElem?.mp member
    have below := best.most j (by simpa using (List.getElem?_eq_some_iff.mp inside).1)
    simp only [List.getD_eq_getElem?_getD,List.getElem?_map,inside,at_,Option.map_some,Option.getD_some] at below
    rw [nothing] at below
    exact UInt32.toNat_inj.mp (Nat.le_zero.mp below)
  · intro all
    exact all accept (List.mem_of_getElem? at_)

section accurate
variable {k : Nat} {c : Cycle} {id : RequestId} {rs rs' : RequestState} {won : BranchResult}
  {accept : AcceptanceResult} {candidate : CandidateSequence} {o : CycleOutcome}

theorem firstAccurate (empty : rs.branches = []) (small : k < 2^32)
    (ids : c.proposed.map BranchResult.branch = branchIds k) (built : PinsBuilt c)
    (asked : ∀ pin ∈ c.pins, askedFrom rs id pin) (facts : Settled c rs won accept candidate rs')
    (counted : o.rollback.retiredBranches =
      (c.proposed.foldl (recordBranch { rs with authGen := rs'.authGen } won.branch) (rs.branches,0)).2.toUInt32) :
    Accurate c rs rs' o ↔ k = 1 ∧ accept.acceptedPrefix = 0 := by
  have winner := winnerListed ids facts
  have branches := settledNew empty small ids facts
  have listed := settledIds (.inl empty) small ids facts
  rw [empty,recordedNew _ _ small ids] at counted
  have records := everyRecordedAs (listed.trans (pinIds built ids).symm)
    (by rw [listed]; exact branchIdsUnique small) asked
  have begun : (∀ b ∈ rs'.branches, BegunFrom rs b) ↔ accept.acceptedPrefix = 0 := by
    have unmoved : rs'.authGen = rs.authGen ↔ accept.acceptedPrefix = 0 := by
      rw [facts.advanced.authGen,← UInt32.toUInt64_inj]
      constructor
      · intro same
        exact UInt64.add_eq_left.mp (congrArg StrongId.value same)
      · intro zero
        exact congrArg StrongId.mk (UInt64.add_eq_left.mpr zero)
    rw [← unmoved,branches]
    constructor
    · intro all
      exact (all _ (List.mem_map.mpr ⟨won,List.mem_of_getElem? facts.winner,rfl⟩)).baseGeneration
    · intro same b member
      obtain ⟨br,_,rfl⟩ := List.mem_map.mp member
      exact ⟨rfl,rfl,same⟩
  have right : o.rollback.retiredBranches.toNat = newlyRetired rs.branches rs'.branches ↔ k = 1 := by
    rw [counted,empty,branches,newlyRetiredNew,ids,← losingNone small winner]
    exact doubledRight (Nat.lt_of_le_of_lt List.countP_le_length (by simpa [branchIds] using small))
  constructor
  · rintro ⟨all,count⟩
    exact ⟨right.mp count,begun.mp (records.mp all)⟩
  · rintro ⟨single,nothing⟩
    exact ⟨records.mpr (begun.mpr nothing),right.mpr single⟩

theorem laterAccurate (first : FirstRecords k rs) (recorded : rs.branches.map Branch.id = branchIds k)
    (small : k < 2^32) (ids : c.proposed.map BranchResult.branch = branchIds k) (built : PinsBuilt c)
    (asked : ∀ pin ∈ c.pins, askedFrom rs id pin) (facts : Settled c rs won accept candidate rs')
    (counted : o.rollback.retiredBranches =
      (c.proposed.foldl (recordBranch { rs with authGen := rs'.authGen } won.branch) (rs.branches,0)).2.toUInt32) :
    Accurate c rs rs' o ↔ FirstAgain rs won.branch := by
  have branches := settledOld recorded small ids facts
  have listed := settledIds (.inr recorded) small ids facts
  rw [recordedOld _ _ recorded small ids] at counted
  have records := everyRecordedAs (listed.trans (pinIds built ids).symm)
    (by rw [listed]; exact branchIdsUnique small) asked
  have right : o.rollback.retiredBranches.toNat = newlyRetired rs.branches rs'.branches ↔
      ∀ b ∈ rs.branches, b.id ≠ won.branch → b.retired = false := by
    rw [counted,branches,← countedOld recorded small,countedRight]
    exact Nat.lt_of_le_of_lt List.countP_le_length (by simpa [branchIds] using small)
  have some_ : rs.branches ≠ [] := by
    intro none
    have winner := winnerListed ids facts
    rw [← recorded,none] at winner
    cases winner
  have begun := begunFirst first some_
  rw [branches,begunRetired] at records
  constructor
  · rintro ⟨all,count⟩
    rw [branches] at all
    obtain ⟨uncounted,attempt,generation⟩ := begun.mp (records.mp all)
    exact ⟨some_,uncounted,attempt,generation,right.mp count⟩
  · rintro ⟨_,uncounted,attempt,generation,active⟩
    refine ⟨?_,right.mpr active⟩
    rw [branches]
    exact records.mpr (begun.mpr ⟨uncounted,attempt,generation⟩)

theorem settledAccurate {maxBranches : UInt32} (records : FirstRecords (max 1 maxBranches).toNat rs)
    (ids : c.proposed.map BranchResult.branch = branchIds (max 1 maxBranches).toNat) (built : PinsBuilt c)
    (asked : ∀ pin ∈ c.pins, askedFrom rs id pin) (facts : Settled c rs won accept candidate rs')
    (best : FirstBest (c.accepted.map fun a => a.acceptedPrefix.toNat) (selectWinner c.accepted c.proposed))
    (counted : o.rollback.retiredBranches =
      (c.proposed.foldl (recordBranch { rs with authGen := rs'.authGen } won.branch) (rs.branches,0)).2.toUInt32) :
    Accurate c rs rs' o ↔ QuietFirst maxBranches rs c.accepted ∨ FirstAgain rs won.branch := by
  have small : (max 1 maxBranches).toNat < 2^32 := UInt32.toNat_lt _
  rcases records.listed with empty | recorded
  · rw [firstAccurate empty small ids built asked facts counted,maxOneSingle,bestNothing best facts.acceptance]
    constructor
    · rintro ⟨single,nothing⟩
      exact .inl ⟨empty,single,nothing⟩
    · rintro (quiet | later)
      · exact ⟨quiet.single,quiet.nothing⟩
      · exact absurd empty later.recorded
  · rw [laterAccurate records recorded small ids built asked facts counted]
    refine ⟨.inr,?_⟩
    rintro (quiet | later)
    · have winner := winnerListed ids facts
      rw [← recorded,quiet.unrecorded] at winner
      cases winner
    · exact later

end accurate

theorem SameRecord.asked {base rs : RequestState} {id : RequestId} {pin : ProposalInput} (same : SameRecord base rs)
    (asked : askedFrom base id pin) : askedFrom rs id pin := by
  obtain ⟨held,p,b,⟨machine,events,rfl⟩,rfl⟩ := asked
  obtain ⟨_,_,rfl⟩ := same
  exact ⟨_,p,b,⟨machine,events,rfl⟩,rfl⟩

theorem branchRecordsAccurateWhen {x : Executors} {cfg : Config} {past middle : List Action}
    {now eventNow settledAt : UInt64} {id : RequestId} {s₀ s₁ s₂ s₃ : System} {c : Cycle}
    {answer : Result CycleOutcome} (before : Run x (.start cfg) past s₀)
    (begins : s₀.step (.runCycle now eventNow id) = some s₁)
    (alone : RunAlone x id s₀.calls.length s₁ middle s₂)
    (ready : s₂.calls[s₀.calls.length]? = some (.settling c))
    (settles : s₂.step (.call s₀.calls.length (.settle settledAt)) = some s₃)
    (returned : s₃.calls[s₀.calls.length]? = some (.returned id answer)) :
    ∃ base rs' o winner, s₀.fabric.find id = some base ∧ s₃.fabric.find id = some rs' ∧
      answer = .ok o ∧ SettledKind o.outcome ∧
      FirstBest (c.accepted.map (fun accept => accept.acceptedPrefix.toNat)) winner ∧
      (Accurate c base rs' o ↔
        QuietFirst cfg.policy.maxBranches base c.accepted ∨ FirstAgain base (branchIdAt (UInt32.ofNat winner))) := by
  obtain ⟨base,until_⟩ := aloneUntil begins alone ready
  obtain ⟨rs,found,same⟩ := until_.record
  have reached : Run x (.start cfg) (past ++ .runCycle now eventNow id :: middle) s₂ :=
    Runs.append before (Runs.cons trivial begins (Runs.weaken alone (fun _ _ both => both.1)))
  have member := List.mem_of_getElem? ready
  have ids := settlingIds reached ready
  have built : PinsBuilt c := callsBuilt reached _ member
  have records := firstRecords reached id rs found
  have asked : ∀ pin ∈ c.pins, askedFrom rs id pin := fun pin inside => same.asked (until_.pins pin inside)
  have live : rs.terminal = false ∧ rs.cancelled = false := by
    obtain ⟨_,_,rfl⟩ := same
    exact until_.admitted.live
  rw [← until_.request] at found
  obtain ⟨rs',o,won,accept,candidate,stored,rfl,kind,branch,facts⟩ := returnedLive ready settles returned found live
  have counted := settleRetires (returnedSettles ready settles returned) found live facts.winner stored
  have settling := callFacts reached _ member
  have best := winnerFirstBest settling
  have reported : won.branch = branchIdAt (UInt32.ofNat (selectWinner c.accepted c.proposed)) :=
    (settling.1.proposal _ won facts.winner).1
  rw [until_.request] at stored
  refine ⟨base,rs',o,_,until_.found,stored,rfl,kind,best,?_⟩
  rw [← reported]
  have exactly_ := settledAccurate records ids built asked facts best counted
  -- the cycle so far has changed nothing that either side reads
  obtain ⟨machine,events,rfl⟩ := same
  constructor
  · rintro ⟨all,count⟩
    rcases exactly_.mp ⟨all,count⟩ with quiet | later
    · exact .inl ⟨quiet.unrecorded,quiet.single,quiet.nothing⟩
    · exact .inr ⟨later.recorded,later.uncounted,later.attempt,later.baseGeneration,later.active⟩
  · intro when_
    have accurate := exactly_.mpr (when_.imp (fun quiet => ⟨quiet.unrecorded,quiet.single,quiet.nothing⟩)
      (fun later => ⟨later.recorded,later.uncounted,later.attempt,later.baseGeneration,later.active⟩))
    exact ⟨accurate.records,accurate.count⟩

def submittedIn (cfg : Config) : System := ⟨((Fabric.new cfg).submit 1 (makeReq ⟨100⟩ [])).2,[]⟩

theorem submittedInRun (x : Executors) (cfg : Config) :
    Run x (.start cfg) [.submit 1 (makeReq ⟨100⟩ [])] (submittedIn cfg) := Runs.cons trivial rfl .nil

def quietActions : List Action := oneBranchAnswers 0 (proposedTokens [5]) (acceptedFirst 0)

def quietReady : System :=
  (aloneOf (drafts [5]) (accepts 0) 0 (nextPlanned (submittedIn {})) quietActions).get (by decide +kernel)

def quietSettled : System := (quietReady.step (.call 0 (.settle 5))).get (by decide +kernel)

theorem quietAccurate : ∃ c base rs' o, quietReady.calls[0]? = some (.settling c) ∧
    (submittedIn {}).fabric.find ⟨100⟩ = some base ∧ quietSettled.fabric.find ⟨100⟩ = some rs' ∧
    quietSettled.calls[0]? = some (.returned ⟨100⟩ (.ok o)) ∧ Accurate c base rs' o := by
  obtain ⟨c,ready⟩ := readyCall (by decide +kernel : ((quietReady.calls[0]?).bind Call.ready).isSome)
  obtain ⟨answer,returned⟩ := answeredCall
    (by decide +kernel : ((quietSettled.calls[0]?).bind Call.answer).map Prod.fst = some ⟨100⟩)
  have accepted : ((quietReady.calls[0]?).bind Call.ready).map Cycle.accepted = some [acceptedFirst 0] := by
    decide +kernel
  rw [ready] at accepted
  have accepted : c.accepted = [acceptedFirst 0] := Option.some.inj accepted
  have none : ((submittedIn {}).fabric.find ⟨100⟩).map RequestState.branches = some [] := by decide +kernel
  obtain ⟨base,rs',o,winner,found,stored,rfl,_,_,exactly_⟩ :=
    branchRecordsAccurateWhen (submittedInRun (.functions (drafts [5]) (accepts 0)) {}) (nextBegins (submittedIn {}))
      (aloneOfRun ⟨100⟩ (by decide +kernel)) ready (Option.some_get _).symm returned
  rw [found] at none
  refine ⟨c,base,rs',o,ready,found,stored,returned,exactly_.mpr (.inl ⟨Option.some.inj none,by decide,?_⟩)⟩
  rw [accepted]
  intro accept member
  rw [List.mem_singleton.mp member]
  rfl

def pairConfig : Config := { policy := { maxBranches := 2 } }

def pairActions : List Action :=
  [.call 0 .proposalInput,.call 0 (.proposalResult (.ok (proposedTokens [5]))),.call 0 .proposalInput,
    .call 0 (.proposalResult (.ok (proposedTokens [5]))),.call 0 .verificationInput,
    .call 0 (.verificationResult (.ok (acceptedFirst 1))),.call 0 .verificationInput,
    .call 0 (.verificationResult (.ok (acceptedFirst 1)))]

def pairReady : System :=
  (aloneOf (drafts [5]) (accepts 1) 0 (nextPlanned (submittedIn pairConfig)) pairActions).get (by decide +kernel)

def pairSettled : System := (pairReady.step (.call 0 (.settle 5))).get (by decide +kernel)

def Call.retiredBranches (call : Call) : Option UInt32 :=
  call.answer.bind fun back => back.2.toOption.map fun o => o.rollback.retiredBranches

theorem pairMiscounted : ∃ c base rs' o,
    Run (.functions (drafts [5]) (accepts 1)) (.start pairConfig) [.submit 1 (makeReq ⟨100⟩ [])]
      (submittedIn pairConfig) ∧
    (submittedIn pairConfig).step (.runCycle 4 4 ⟨100⟩) = some (nextPlanned (submittedIn pairConfig)) ∧
    RunAlone (.functions (drafts [5]) (accepts 1)) ⟨100⟩ 0 (nextPlanned (submittedIn pairConfig)) pairActions pairReady ∧
    pairReady.calls[0]? = some (.settling c) ∧ pairReady.step (.call 0 (.settle 5)) = some pairSettled ∧
    pairSettled.calls[0]? = some (.returned ⟨100⟩ (.ok o)) ∧
    (submittedIn pairConfig).fabric.find ⟨100⟩ = some base ∧ pairSettled.fabric.find ⟨100⟩ = some rs' ∧
    o.rollback.retiredBranches = 2 ∧ newlyRetired base.branches rs'.branches = 1 ∧
    (∀ pin ∈ c.pins, pin.provenance.baseGeneration = ⟨0⟩) ∧ (∀ b ∈ rs'.branches, b.baseGeneration = ⟨1⟩) ∧
    ¬Accurate c base rs' o := by
  obtain ⟨c,ready⟩ := readyCall (by decide +kernel : ((pairReady.calls[0]?).bind Call.ready).isSome)
  obtain ⟨answer,returned⟩ := answeredCall
    (by decide +kernel : ((pairSettled.calls[0]?).bind Call.answer).map Prod.fst = some ⟨100⟩)
  have reported : (pairSettled.calls[0]?).bind Call.retiredBranches = some 2 := by decide +kernel
  have asked : ((pairReady.calls[0]?).bind Call.ready).map
      (fun c => c.pins.all fun pin => decide (pin.provenance.baseGeneration = ⟨0⟩)) = some true := by decide +kernel
  have before : ((submittedIn pairConfig).fabric.find ⟨100⟩).map RequestState.branches = some [] := by decide +kernel
  have after : (pairSettled.fabric.find ⟨100⟩).map (fun rs => (newlyRetired [] rs.branches,
      rs.branches.all fun b => decide (b.baseGeneration = ⟨1⟩))) = some (1,true) := by decide +kernel
  obtain ⟨base,found,none⟩ := Option.map_eq_some_iff.mp before
  obtain ⟨rs',stored,values⟩ := Option.map_eq_some_iff.mp after
  rw [ready] at asked
  rw [returned] at reported
  cases answer with
  | error e => cases reported
  | ok o =>
      have two : o.rollback.retiredBranches = 2 := Option.some.inj reported
      have one : newlyRetired base.branches rs'.branches = 1 := by
        rw [none]
        exact congrArg Prod.fst values
      refine ⟨c,base,rs',o,submittedInRun _ _,nextBegins _,aloneOfRun ⟨100⟩ (by decide +kernel),ready,
        (Option.some_get _).symm,returned,found,stored,two,one,?_,?_,?_⟩
      · intro pin member
        exact of_decide_eq_true (List.all_eq_true.mp (Option.some.inj asked) pin member)
      · intro b member
        exact of_decide_eq_true (List.all_eq_true.mp (congrArg Prod.snd values) b member)
      · intro accurate
        have count := accurate.count
        rw [two,one] at count
        exact absurd count (by decide)

end SpeculationFabric
