import SpeculationFabric.Isolation

/-! Recorded branches. Branch ids start at one again in every cycle while the retired
flags stay, so a branch that was retired once cannot become active again. The winner
is the one active branch exactly as long as it has always been the winner. -/
namespace SpeculationFabric

def Active (branches : List Branch) (id : BranchId) : Prop := ∃ b ∈ branches, b.id = id ∧ b.retired = false

theorem anyRecorded (branches : List Branch) (id : BranchId) :
    branches.any (fun b => b.id == id) = true ↔ id ∈ branches.map Branch.id := by
  simp [List.any_eq_true]

def losing (keep : BranchId) (ids : List BranchId) : Nat := ids.countP fun id => decide (id ≠ keep)

def retireUnless (keep : BranchId) (b : Branch) : Branch := { b with retired := b.retired || decide (b.id ≠ keep) }

theorem retireUnlessKeeps {keep : BranchId} {b : Branch} (wins : b.id = keep) : retireUnless keep b = b := by
  have still : (b.retired || decide (b.id ≠ keep)) = b.retired := by simp [wins]
  unfold retireUnless
  rw [still]

theorem retireUnlessLoses {keep : BranchId} {b : Branch} (loses : b.id ≠ keep) :
    retireUnless keep b = { b with retired := true } := by
  simp [retireUnless,loses]

section loop
variable (rs : RequestState) (keep : BranchId)

theorem retireFirstMap {branches : List Branch} (unique : (branches.map Branch.id).Nodup) (id : BranchId) :
    retireFirst id branches = branches.map fun b => if b.id = id then { b with retired := true } else b := by
  induction branches with
  | nil => rfl
  | cons b rest ih =>
      rw [List.map_cons,List.nodup_cons] at unique
      obtain ⟨fresh,unique⟩ := unique
      unfold retireFirst
      by_cases here : b.id = id
      · have others : (rest.map fun b => if b.id = id then { b with retired := true } else b) = rest.map fun b => b := by
          apply List.map_congr_left
          intro other member
          rw [if_neg]
          intro same
          exact fresh (List.mem_map.mpr ⟨other,member,same.trans here.symm⟩)
        rw [if_pos here,List.map_cons,if_pos here,others,List.map_id']
      · rw [if_neg here,List.map_cons,if_neg here,ih unique]

/- A new branch that loses is retired when it is written, and found retired again. -/
theorem retireAppended {branches : List Branch} {b : Branch} (fresh : b.id ∉ branches.map Branch.id)
    (retired : b.retired = true) : retireFirst b.id (branches ++ [b]) = branches ++ [b] := by
  induction branches with
  | nil =>
      have same : { b with retired := true } = b := by rw [← retired]
      simp only [List.nil_append,retireFirst,if_true,same]
  | cons first rest ih =>
      rw [List.map_cons,List.mem_cons,not_or] at fresh
      rw [List.cons_append,retireFirst,if_neg (Ne.symm fresh.1),ih fresh.2]

theorem recordKnown {acc : List Branch × UInt64} {br : BranchResult} (unique : (acc.1.map Branch.id).Nodup)
    (known : br.branch ∈ acc.1.map Branch.id) :
    recordBranch rs keep acc br =
      (acc.1.map fun b => if b.id = br.branch then retireUnless keep b else b,
        if br.branch ≠ keep then acc.2 + 1 else acc.2) := by
  have present := (anyRecorded acc.1 br.branch).mpr known
  unfold recordBranch
  simp only [present,if_true]
  by_cases wins : br.branch = keep
  · have kept : (acc.1.map fun b => if b.id = br.branch then retireUnless keep b else b) = acc.1.map fun b => b := by
      apply List.map_congr_left
      intro b _
      split
      · rename_i same
        exact retireUnlessKeeps (same.trans wins)
      · rfl
    rw [kept,List.map_id',if_neg (not_not_intro wins),if_neg (not_not_intro wins)]
  · rw [if_pos wins,if_pos wins,retireFirstMap unique]
    congr 1
    apply List.map_congr_left
    intro b _
    split
    · rename_i same
      exact (retireUnlessLoses (same ▸ wins)).symm
    · rfl

theorem recordFresh {acc : List Branch × UInt64} {br : BranchResult} (fresh : br.branch ∉ acc.1.map Branch.id) :
    recordBranch rs keep acc br =
      (acc.1 ++ [newBranch rs br keep],if br.branch ≠ keep then acc.2 + 2 else acc.2) := by
  have absent := mt (anyRecorded acc.1 br.branch).mp fresh
  have present : (acc.1 ++ [newBranch rs br keep]).any (fun b => b.id == br.branch) = true := by
    rw [anyRecorded,List.map_append]
    exact List.mem_append_right _ (List.mem_singleton_self _)
  unfold recordBranch
  simp only [absent,if_false,Bool.false_eq_true]
  by_cases wins : br.branch = keep
  · simp only [wins,ne_eq,not_true_eq_false,if_false]
  · have again : retireFirst br.branch (acc.1 ++ [newBranch rs br keep]) = acc.1 ++ [newBranch rs br keep] :=
      retireAppended (b := newBranch rs br keep) fresh (decide_eq_true wins)
    have twice : acc.2 + 1 + 1 = acc.2 + 2 := by rw [UInt64.add_assoc]; rfl
    simp only [ne_eq,wins,not_false_eq_true,if_true,present,twice]
    rw [again]

theorem losingCons (id : BranchId) (rest : List BranchId) :
    losing keep (id :: rest) = losing keep rest + if id ≠ keep then 1 else 0 := by
  unfold losing
  rw [List.countP_cons]
  simp only [decide_eq_true_eq]

theorem recordAllNew (proposed : List BranchResult) (acc : List Branch × UInt64)
    (unique : (acc.1.map Branch.id ++ proposed.map BranchResult.branch).Nodup) :
    proposed.foldl (recordBranch rs keep) acc = (acc.1 ++ proposed.map (newBranch rs · keep),
      acc.2 + UInt64.ofNat (2 * losing keep (proposed.map BranchResult.branch))) := by
  induction proposed generalizing acc with
  | nil => simp [losing]
  | cons br rest ih =>
      have fresh : br.branch ∉ acc.1.map Branch.id := by
        intro member
        exact (List.nodup_append.mp unique).2.2 _ member _ List.mem_cons_self rfl
      rw [List.foldl_cons,recordFresh rs keep fresh,ih]
      · rw [List.map_cons,List.map_cons,List.append_assoc,losingCons]
        congr 1
        by_cases wins : br.branch = keep
        · simp [wins]
        · simp only [ne_eq,wins,not_false_eq_true,if_true,Nat.mul_add,UInt64.ofNat_add]
          rw [UInt64.add_comm (UInt64.ofNat _),← UInt64.add_assoc]
          rfl
      · simpa [newBranch] using unique

theorem recordAllOld (proposed : List BranchResult) (acc : List Branch × UInt64)
    (unique : (acc.1.map Branch.id).Nodup) (known : ∀ br ∈ proposed, br.branch ∈ acc.1.map Branch.id) :
    proposed.foldl (recordBranch rs keep) acc =
      (acc.1.map fun b => if b.id ∈ proposed.map BranchResult.branch then retireUnless keep b else b,
        acc.2 + UInt64.ofNat (losing keep (proposed.map BranchResult.branch))) := by
  induction proposed generalizing acc with
  | nil => simp [losing]
  | cons br rest ih =>
      have here := known br List.mem_cons_self
      have ids : (recordBranch rs keep acc br).1.map Branch.id = acc.1.map Branch.id := by
        rw [recordKnown rs keep unique here,List.map_map]
        apply List.map_congr_left
        intro b _
        simp only [Function.comp_apply]
        split <;> rfl
      rw [List.foldl_cons,ih _ (by rw [ids]; exact unique)]
      · rw [recordKnown rs keep unique here,List.map_cons,losingCons,List.map_map]
        congr 1
        · apply List.map_congr_left
          intro b _
          simp only [Function.comp_apply,List.mem_cons]
          have again : retireUnless keep (retireUnless keep b) = retireUnless keep b := by
            show { b with retired := b.retired || decide (b.id ≠ keep) || decide (b.id ≠ keep) } = retireUnless keep b
            rw [Bool.or_assoc,Bool.or_self]
            rfl
          have kept : (retireUnless keep b).id = b.id := rfl
          by_cases same : b.id = br.branch
          · rw [if_pos same,if_pos (Or.inl same),kept,again,ite_self]
          · rw [if_neg same]
            simp only [same,false_or]
        · by_cases wins : br.branch = keep
          · simp [wins]
          · simp only [ne_eq,wins,not_false_eq_true,if_true,UInt64.ofNat_add]
            rw [UInt64.add_comm (UInt64.ofNat _),← UInt64.add_assoc]
            rfl
      · intro other member
        rw [ids]
        exact known other (List.mem_cons_of_mem br member)

end loop

section closed
variable {k : Nat} {proposed : List BranchResult} (held : RequestState) (keep : BranchId)

theorem recordedNew (small : k < 2^32) (ids : proposed.map BranchResult.branch = branchIds k) :
    proposed.foldl (recordBranch held keep) ([],0) =
      (proposed.map (newBranch held · keep),UInt64.ofNat (2 * losing keep (branchIds k))) := by
  rw [recordAllNew,ids]
  · simp
  · rw [ids]
    exact branchIdsUnique small

theorem recordedOld {branches : List Branch} (recorded : branches.map Branch.id = branchIds k) (small : k < 2^32)
    (ids : proposed.map BranchResult.branch = branchIds k) :
    proposed.foldl (recordBranch held keep) (branches,0) =
      (branches.map (retireUnless keep),UInt64.ofNat (losing keep (branchIds k))) := by
  rw [recordAllOld,ids]
  · congr 1
    · apply List.map_congr_left
      intro b member
      rw [if_pos]
      rw [← recorded]
      exact List.mem_map.mpr ⟨b,member,rfl⟩
    · exact UInt64.zero_add _
  · show (branches.map Branch.id).Nodup
    rw [recorded]
    exact branchIdsUnique small
  · intro br member
    show br.branch ∈ branches.map Branch.id
    rw [recorded,← ids]
    exact List.mem_map.mpr ⟨br,member,rfl⟩

theorem activeNew (id : BranchId) :
    Active (proposed.map (newBranch held · keep)) id ↔ id = keep ∧ keep ∈ proposed.map BranchResult.branch := by
  constructor
  · rintro ⟨b,member,same,active⟩
    obtain ⟨br,inside,rfl⟩ := List.mem_map.mp member
    have wins : br.branch = keep := by simpa [newBranch] using active
    exact ⟨same.symm.trans wins,List.mem_map.mpr ⟨br,inside,wins⟩⟩
  · rintro ⟨rfl,member⟩
    obtain ⟨br,inside,wins⟩ := List.mem_map.mp member
    exact ⟨_,List.mem_map.mpr ⟨br,inside,rfl⟩,wins,by simp [newBranch,wins]⟩

theorem activeOld (branches : List Branch) (id : BranchId) :
    Active (branches.map (retireUnless keep)) id ↔ id = keep ∧ Active branches id := by
  constructor
  · rintro ⟨b,member,same,active⟩
    obtain ⟨old,inside,rfl⟩ := List.mem_map.mp member
    obtain ⟨unretired,wins⟩ : old.retired = false ∧ old.id = keep := by simpa [retireUnless] using active
    exact ⟨same.symm.trans wins,old,inside,same,unretired⟩
  · rintro ⟨rfl,old,inside,same,unretired⟩
    exact ⟨_,List.mem_map.mpr ⟨old,inside,rfl⟩,same,by simp [retireUnless,same,unretired]⟩

end closed

/- The branches of one request against its history: `k` branches in every cycle, and
`late` says that a rollback came after a settled cycle. -/
structure BranchHistory (k : Nat) (late : Prop) (rs : RequestState) : Prop where
  recorded : (rs.proposals = [] ∧ rs.branches = []) ∨
    (rs.proposals ≠ [] ∧ rs.branches.map Branch.id = branchIds k)
  active : ∀ id, Active rs.branches id ↔
    rs.proposals ≠ [] ∧ (∀ p ∈ rs.proposals, p.provenance.branch = id) ∧ ¬ late
  settledBefore : late → rs.proposals ≠ []

theorem BranchHistory.listed {k : Nat} {late : Prop} {rs : RequestState} (history : BranchHistory k late rs) :
    rs.branches = [] ∨ rs.branches.map Branch.id = branchIds k :=
  history.recorded.imp And.right And.right

theorem BranchHistory.unique {k : Nat} {late : Prop} {rs : RequestState} (history : BranchHistory k late rs)
    (small : k < 2^32) : (rs.branches.map Branch.id).Nodup := by
  rcases history.recorded with ⟨_,none⟩ | ⟨_,ids⟩
  · rw [none]
    exact List.nodup_nil
  · rw [ids]
    exact branchIdsUnique small

theorem freshHistory (k : Nat) {late : Prop} (never : ¬ late) (epoch : CoordinatorEpoch) (req : SpeculationRequest)
    (events : List Event) : BranchHistory k late { RequestState.admitted {} epoch req with events := events } := by
  refine ⟨.inl ⟨rfl,rfl⟩,?_,fun happened => absurd happened never⟩
  intro id
  constructor
  · rintro ⟨b,member,_⟩
    cases member
  · rintro ⟨some_,_⟩
    exact absurd rfl some_

theorem rolledBackHistory {k : Nat} {late : Prop} {rs : RequestState} (history : BranchHistory k late rs)
    (events : List Event) :
    BranchHistory k (late ∨ rs.proposals ≠ []) { rs.rolledBack with events := events } := by
  have ids : rs.rolledBack.branches.map Branch.id = rs.branches.map Branch.id := by
    simp [RequestState.rolledBack]
  have noneActive : ∀ id, ¬ Active rs.rolledBack.branches id := by
    rintro id ⟨b,member,_,active⟩
    obtain ⟨old,_,rfl⟩ := List.mem_map.mp member
    contradiction
  refine ⟨?_,?_,?_⟩
  · rcases history.recorded with ⟨none,empty⟩ | ⟨some_,recorded⟩
    · exact .inl ⟨none,by simp [RequestState.rolledBack,empty]⟩
    · exact .inr ⟨some_,ids.trans recorded⟩
  · intro id
    refine ⟨fun active => absurd active (noneActive id),?_⟩
    rintro ⟨some_,_,never⟩
    exact absurd (.inr some_) never
  · rintro (happened | some_)
    · exact history.settledBefore happened
    · exact some_

section settled
variable {x : Executors} {k : Nat} {late : Prop} {c : Cycle} {rs rs' : RequestState} {won : BranchResult}
  {accept : AcceptanceResult} {candidate : CandidateSequence}

theorem winnerListed (ids : c.proposed.map BranchResult.branch = branchIds k)
    (facts : Settled c rs won accept candidate rs') : won.branch ∈ branchIds k := by
  rw [← ids]
  exact List.mem_map.mpr ⟨won,List.mem_of_getElem? facts.winner,rfl⟩

theorem settledNew (empty : rs.branches = []) (small : k < 2^32)
    (ids : c.proposed.map BranchResult.branch = branchIds k) (facts : Settled c rs won accept candidate rs') :
    rs'.branches = c.proposed.map (newBranch { rs with authGen := rs'.authGen } · won.branch) := by
  rw [facts.advanced.branches,empty,recordedNew _ _ small ids]

theorem settledOld (recorded : rs.branches.map Branch.id = branchIds k) (small : k < 2^32)
    (ids : c.proposed.map BranchResult.branch = branchIds k) (facts : Settled c rs won accept candidate rs') :
    rs'.branches = rs.branches.map (retireUnless won.branch) := by
  rw [facts.advanced.branches,recordedOld _ _ recorded small ids]

theorem settledActive (history : BranchHistory k late rs) (small : k < 2^32)
    (ids : c.proposed.map BranchResult.branch = branchIds k) (facts : Settled c rs won accept candidate rs')
    (id : BranchId) :
    Active rs'.branches id ↔ id = won.branch ∧ (rs.proposals = [] ∨ Active rs.branches id) := by
  rcases history.recorded with ⟨none,empty⟩ | ⟨some_,recorded⟩
  · rw [settledNew empty small ids facts,activeNew,ids]
    exact ⟨fun both => ⟨both.1,.inl none⟩,fun both => ⟨both.1,winnerListed ids facts⟩⟩
  · rw [settledOld recorded small ids facts,activeOld,or_iff_right some_]

theorem settledIds (listed : rs.branches = [] ∨ rs.branches.map Branch.id = branchIds k) (small : k < 2^32)
    (ids : c.proposed.map BranchResult.branch = branchIds k) (facts : Settled c rs won accept candidate rs') :
    rs'.branches.map Branch.id = branchIds k := by
  rcases listed with empty | recorded
  · rw [settledNew empty small ids facts,List.map_map]
    exact ids
  · rw [settledOld recorded small ids facts,List.map_map]
    exact recorded

theorem settledHistory (history : BranchHistory k late rs) (small : k < 2^32)
    (ids : c.proposed.map BranchResult.branch = branchIds k) (facts : Settled c rs won accept candidate rs') :
    BranchHistory k late rs' := by
  have grown : rs'.proposals ≠ [] := by
    rw [facts.advanced.proposals]
    exact List.append_ne_nil_of_right_ne_nil _ (List.cons_ne_nil _ _)
  refine ⟨.inr ⟨grown,settledIds history.listed small ids facts⟩,?_,fun _ => grown⟩
  intro id
  rw [settledActive history small ids facts id,history.active id,facts.advanced.proposals]
  constructor
  · rintro ⟨same,none | ⟨some_,all,never⟩⟩
    · refine ⟨by rw [← facts.advanced.proposals]; exact grown,?_,fun happened => history.settledBefore happened none⟩
      rw [none]
      intro p member
      rw [List.mem_singleton.mp member]
      exact same.symm
    · exact ⟨by rw [← facts.advanced.proposals]; exact grown,everyAppended all same.symm,never⟩
  · rintro ⟨_,all,never⟩
    have last : won.branch = id := all _ (List.mem_append_right _ (List.mem_singleton_self _))
    refine ⟨last.symm,?_⟩
    by_cases none : rs.proposals = []
    · exact .inl none
    · exact .inr ⟨none,fun p member => all p (List.mem_append_left _ member),never⟩

end settled

def uncancelled (id : RequestId) : Action → Prop
  | .cancel _ target _ => target ≠ id
  | _ => True

abbrev BranchRun (x : Executors) (id : RequestId) (s : System) (actions : List Action) (t : System) : Prop :=
  Runs.Trace System.step (fun u a => x.admits u a ∧ uncancelled id a) s actions t

def RolledBackLate (x : Executors) (cfg : Config) (id : RequestId) (actions : List Action) : Prop :=
  ∃ before now why after s rs, actions = before ++ .rollback now id why :: after ∧
    BranchRun x id (.start cfg) before s ∧ s.fabric.find id = some rs ∧ rs.proposals ≠ []

section history
variable {x : Executors} {cfg : Config} {id : RequestId} {past : List Action} {s s' : System} {a : Action}

theorem lateKept (late : RolledBackLate x cfg id past) (a : Action) : RolledBackLate x cfg id (past ++ [a]) := by
  obtain ⟨before,now,why,after,u,rs,rfl,rest⟩ := late
  exact ⟨before,now,why,after ++ [a],u,rs,by simp,rest⟩

theorem lateNext (run : BranchRun x id (.start cfg) past s) (late : RolledBackLate x cfg id (past ++ [a])) :
    RolledBackLate x cfg id past ∨
      ((∃ now why, a = .rollback now id why) ∧ ∃ rs, s.fabric.find id = some rs ∧ rs.proposals ≠ []) := by
  obtain ⟨before,now,why,after,u,rs,whole,reached,found,some_⟩ := late
  rcases List.eq_nil_or_concat after with rfl | ⟨front,last,rfl⟩
  · obtain ⟨same,tail⟩ := List.append_inj' whole rfl
    cases tail
    subst same
    cases Runs.determined reached run
    exact .inr ⟨⟨now,why,rfl⟩,rs,found,some_⟩
  · rw [List.concat_eq_append,← List.cons_append,← List.append_assoc] at whole
    obtain ⟨same,_⟩ := List.append_inj' whole rfl
    exact .inl ⟨before,now,why,front,u,rs,same,reached,found,some_⟩

theorem BranchHistory.congr {k : Nat} {late late' : Prop} {rs : RequestState} (history : BranchHistory k late rs)
    (same : late' ↔ late) : BranchHistory k late' rs := by
  rw [propext same]
  exact history

theorem effectHistory {k : Nat} {late : Prop} {rs rs' : RequestState} (effect : Effect s id a rs rs')
    (spared : uncancelled id a) (other : ∀ now why, a ≠ .rollback now id why) (small : k < 2^32)
    (ids : ∀ (index : Nat) (c : Cycle), s.calls[index]? = some (.settling c) →
      c.proposed.map BranchResult.branch = branchIds k)
    (history : BranchHistory k late rs) : BranchHistory k late rs' := by
  cases effect with
  | cancelled events live => exact absurd rfl spared
  | rolledBack events => exact absurd rfl (other _ _)
  | settled call same facts => exact settledHistory history small (ids _ _ call) facts
  | _ => exact ⟨history.recorded,history.active,history.settledBefore⟩

theorem rollbackStored {f : Fabric} {rs : RequestState} (found : f.find id = some rs) (now : UInt64) (why : String) :
    ∃ events, (f.rollback now id why).2.find id = some { rs.rolledBack with events := events } := by
  simp only [Fabric.rollback,found]
  exact updateSelf f now id rs.rolledBack _ _ _

structure BranchesKept (x : Executors) (cfg : Config) (id : RequestId) (past : List Action) (s : System) : Prop where
  run : BranchRun x id (.start cfg) past s
  found : RolledBackLate x cfg id past → (s.fabric.find id).isSome
  record : ∀ rs, s.fabric.find id = some rs →
    BranchHistory (max 1 cfg.policy.maxBranches).toNat (RolledBackLate x cfg id past) rs

theorem settlingIds (run : Run x (.start cfg) past s) {index : Nat} {c : Cycle}
    (ready : s.calls[index]? = some (.settling c)) :
    c.proposed.map BranchResult.branch = branchIds (max 1 cfg.policy.maxBranches).toNat := by
  have member := List.mem_of_getElem? ready
  obtain ⟨facts,full,_⟩ := callFacts run _ member
  rw [proposedIds facts,full,branchCountFixed run _ member c rfl]

theorem branchesStep (before : BranchesKept x cfg id past s) (allowed : x.admits s a ∧ uncancelled id a)
    (taken : s.step a = some s') : BranchesKept x cfg id (past ++ [a]) s' := by
  have run : Run x (.start cfg) past s := Runs.weaken before.run (fun _ _ both => both.1)
  have small : (max 1 cfg.policy.maxBranches).toNat < 2^32 := UInt32.toNat_lt _
  refine ⟨before.run.snoc allowed taken,?_,?_⟩
  · intro late
    rcases lateNext before.run late with old | ⟨_,rs,found,_⟩
    · exact stepFound taken (before.found old)
    · exact stepFound taken (by rw [found]; rfl)
  · intro rs' found'
    cases found : s.fabric.find id with
    | none =>
        obtain ⟨now,req,events,rfl,_,rfl⟩ := stepAppears (registry run) taken found found'
        refine freshHistory _ ?_ _ req events
        intro late
        rcases lateNext before.run late with old | ⟨⟨_,_,rolled⟩,_⟩
        · have present := before.found old
          rw [found] at present
          contradiction
        · cases rolled
    | some rs =>
        have history := before.record rs found
        by_cases rolled : ∃ now why, a = .rollback now id why
        · obtain ⟨now,why,rfl⟩ := rolled
          cases Option.some.inj taken
          obtain ⟨events,stored⟩ := rollbackStored found now why
          cases Option.some.inj (found'.symm.trans stored)
          refine (rolledBackHistory history events).congr ⟨fun late => ?_,?_⟩
          · rcases lateNext before.run late with old | ⟨_,held,present,some_⟩
            · exact .inl old
            · cases Option.some.inj (found.symm.trans present)
              exact .inr some_
          · rintro (old | some_)
            · exact lateKept old _
            · exact ⟨past,now,why,[],s,rs,rfl,before.run,found,some_⟩
        · obtain ⟨next,stored,effect⟩ := stepEffect taken found
          cases Option.some.inj (found'.symm.trans stored)
          have other : ∀ now why, a ≠ .rollback now id why := fun now why same => rolled ⟨now,why,same⟩
          refine (effectHistory effect allowed.2 other small (fun _ _ ready => settlingIds run ready) history).congr ?_
          refine ⟨fun late => ?_,fun late => lateKept late a⟩
          rcases lateNext before.run late with old | ⟨rolledBack,_⟩
          · exact old
          · exact absurd rolledBack rolled

theorem branchesKept (run : BranchRun x id (.start cfg) past s) : BranchesKept x cfg id past s := by
  refine Runs.recorded run ⟨.nil,?_,?_⟩ (fun _ _ _ _ before allowed taken => branchesStep before allowed taken)
  · rintro ⟨before,now,why,after,u,rs,whole,_⟩
    exact absurd whole (by simp)
  · intro rs found
    exact absurd found (startRecordless _ _ _)

end history

structure OneActiveWinner (base rs rs' : RequestState) (winner : BranchId) : Prop where
  unretired : rs'.committed ≠ rs.committed → ∀ b ∈ base.branches, b.id = winner → b.retired = false
  only : (rs'.branches.filter (fun b => !b.retired)).map Branch.id = [winner]

theorem onlyActive {branches : List Branch} (unique : (branches.map Branch.id).Nodup) (winner : BranchId) :
    (branches.filter (fun b => !b.retired)).map Branch.id = [winner] ↔ ∀ id, Active branches id ↔ id = winner := by
  have listed : ∀ id, id ∈ (branches.filter (fun b => !b.retired)).map Branch.id ↔ Active branches id := by
    intro id
    constructor
    · intro member
      obtain ⟨b,kept,same⟩ := List.mem_map.mp member
      obtain ⟨inside,active⟩ := List.mem_filter.mp kept
      exact ⟨b,inside,same,by simpa using active⟩
    · rintro ⟨b,inside,same,active⟩
      exact List.mem_map.mpr ⟨b,List.mem_filter.mpr ⟨inside,by simpa using active⟩,same⟩
  constructor
  · intro only id
    rw [← listed,only,List.mem_singleton]
  · intro all
    have sub : List.Sublist ((branches.filter (fun b => !b.retired)).map Branch.id) (branches.map Branch.id) :=
      List.filter_sublist.map Branch.id
    apply List.perm_singleton.mp
    rw [List.perm_ext_iff_of_nodup (unique.sublist sub) (List.nodup_singleton winner)]
    intro id
    rw [listed,all,List.mem_singleton]

theorem historyWinner {k : Nat} {late : Prop} {rs : RequestState} (history : BranchHistory k late rs)
    (winner : BranchId) :
    (rs.proposals = [] ∨ Active rs.branches winner) ↔
      (∀ p ∈ rs.proposals, p.provenance.branch = winner) ∧ ¬ late := by
  rw [history.active]
  constructor
  · rintro (none | ⟨_,all,never⟩)
    · refine ⟨?_,fun happened => history.settledBefore happened none⟩
      rw [none]
      intro p member
      cases member
    · exact ⟨all,never⟩
  · rintro ⟨all,never⟩
    by_cases none : rs.proposals = []
    · exact .inl none
    · exact .inr ⟨none,all,never⟩

theorem activeUnretired {branches : List Branch} (unique : (branches.map Branch.id).Nodup) {id : BranchId}
    (active : Active branches id) : ∀ b ∈ branches, b.id = id → b.retired = false := by
  obtain ⟨held,member,same,unretired⟩ := active
  intro b inside other
  have equal : b = held := List.inj_on_of_nodup_map unique inside member (other.trans same.symm)
  rw [equal]
  exact unretired

theorem settledOneActive {k : Nat} {late : Prop} {c : Cycle} {base rs rs' : RequestState} {won : BranchResult}
    {accept : AcceptanceResult} {candidate : CandidateSequence} (history : BranchHistory k late rs) (small : k < 2^32)
    (ids : c.proposed.map BranchResult.branch = branchIds k) (facts : Settled c rs won accept candidate rs')
    (kept : base.branches = rs.branches) :
    OneActiveWinner base rs rs' won.branch ↔ rs.proposals = [] ∨ Active rs.branches won.branch := by
  have unique : (rs'.branches.map Branch.id).Nodup := by
    rw [settledIds history.listed small ids facts]
    exact branchIdsUnique small
  have after := settledActive history small ids facts
  constructor
  · intro one
    exact ((after won.branch).mp (((onlyActive unique won.branch).mp one.only won.branch).mpr rfl)).2
  · intro fresh
    refine ⟨fun _ => ?_,(onlyActive unique won.branch).mpr ?_⟩
    · rw [kept]
      rcases fresh with none | active
      · rcases history.recorded with ⟨_,empty⟩ | ⟨some_,_⟩
        · rw [empty]
          intro b member
          cases member
        · exact absurd none some_
      · exact activeUnretired (history.unique small) active
    · intro other
      rw [after]
      refine ⟨fun both => both.1,?_⟩
      rintro rfl
      exact ⟨rfl,fresh⟩

theorem winnerOnlyActiveExactly {x : Executors} {cfg : Config} {past middle : List Action}
    {now eventNow settledAt : UInt64} {id : RequestId} {s₀ s₁ s₂ s₃ : System} {c : Cycle}
    {answer : Result CycleOutcome} (before : BranchRun x id (.start cfg) past s₀)
    (begins : s₀.step (.runCycle now eventNow id) = some s₁)
    (alone : RunAlone x id s₀.calls.length s₁ middle s₂)
    (ready : s₂.calls[s₀.calls.length]? = some (.settling c))
    (settles : s₂.step (.call s₀.calls.length (.settle settledAt)) = some s₃)
    (returned : s₃.calls[s₀.calls.length]? = some (.returned id answer)) :
    ∃ base rs rs' o winner, s₀.fabric.find id = some base ∧ s₂.fabric.find id = some rs ∧
      s₃.fabric.find id = some rs' ∧ answer = .ok o ∧ SettledKind o.outcome ∧
      FirstBest (c.accepted.map (fun accept => accept.acceptedPrefix.toNat)) winner ∧
      o.branch = branchIdAt (UInt32.ofNat winner) ∧
      (OneActiveWinner base rs rs' o.branch ↔
        (∀ p ∈ base.proposals, p.provenance.branch = branchIdAt (UInt32.ofNat winner)) ∧
          ¬ RolledBackLate x cfg id past) := by
  obtain ⟨base,until_⟩ := aloneUntil begins alone ready
  obtain ⟨rs,found,machine,events,same⟩ := until_.record
  have small : (max 1 cfg.policy.maxBranches).toNat < 2^32 := UInt32.toNat_lt _
  have reached : Run x (.start cfg) (past ++ .runCycle now eventNow id :: middle) s₂ :=
    Runs.append (Runs.weaken before (fun _ _ both => both.1))
      (Runs.cons trivial begins (Runs.weaken alone (fun _ _ both => both.1)))
  have ids := settlingIds reached ready
  have history := (branchesKept before).record base until_.found
  have history' : BranchHistory (max 1 cfg.policy.maxBranches).toNat (RolledBackLate x cfg id past) rs := by
    rw [same]
    exact ⟨history.recorded,history.active,history.settledBefore⟩
  have live : rs.terminal = false ∧ rs.cancelled = false := by
    rw [same]
    exact until_.admitted.live
  obtain ⟨rs',o,won,accept,candidate,stored,answered,kind,branch,facts⟩ :=
    returnedLive ready settles returned (by rw [until_.request]; exact found) live
  rw [until_.request] at stored
  have settling := callFacts reached _ (List.mem_of_getElem? ready)
  have reported : won.branch = branchIdAt (UInt32.ofNat (selectWinner c.accepted c.proposed)) :=
    (settling.1.proposal _ won facts.winner).1
  refine ⟨base,rs,rs',o,_,until_.found,found,stored,answered,kind,winnerFirstBest settling,branch.trans reported,?_⟩
  -- the cycle so far has left the branches and proposals of the record alone
  have branches : base.branches = rs.branches := by rw [same]
  have proposals : base.proposals = rs.proposals := by rw [same]
  rw [branch,← reported,← historyWinner history won.branch,settledOneActive history' small ids facts branches,
    branches,proposals]

def firstCycle : List Action :=
  .submit 1 (makeReq ⟨100⟩ []) :: .runCycle 2 2 ⟨100⟩ :: oneBranchCycle 0 (proposedTokens [5]) (acceptedFirst 1)

def firstSettled : System := (runOf (drafts [5]) (accepts 1) (.start {}) firstCycle).get (by decide +kernel)

def rolledBackSystem : System := { firstSettled with fabric := (firstSettled.fabric.rollback 3 ⟨100⟩ "undo").2 }

def nextPlanned (s : System) : System :=
  ⟨(s.fabric.planCycle 4 4 ⟨100⟩).2,s.calls ++ [begun ⟨100⟩ (s.fabric.planCycle 4 4 ⟨100⟩).1]⟩

theorem nextBegins (s : System) : s.step (.runCycle 4 4 ⟨100⟩) = some (nextPlanned s) := rfl

def nextActions (s : System) : List Action :=
  oneBranchAnswers s.calls.length (proposedTokens [5]) (acceptedFirst 1)

def nextReady (s : System) : Option System :=
  aloneOf (drafts [5]) (accepts 1) s.calls.length (nextPlanned s) (nextActions s)

def secondReadyToSettle : System := (nextReady firstSettled).get (by decide +kernel)

def secondCycleSettled : System :=
  (secondReadyToSettle.step (.call firstSettled.calls.length (.settle 5))).get (by decide +kernel)

theorem firstRun (id : RequestId) :
    BranchRun (.functions (drafts [5]) (accepts 1)) id (.start {}) firstCycle firstSettled := by
  have run : Run (.functions (drafts [5]) (accepts 1)) (.start {}) firstCycle firstSettled :=
    runOfRun (by decide +kernel)
  refine Runs.strengthen run ?_
  simp [firstCycle,oneBranchCycle,oneBranchAnswers,uncancelled]

theorem secondWinnerOnlyActive : ∃ base rs rs' winner, firstSettled.fabric.find ⟨100⟩ = some base ∧
    secondReadyToSettle.fabric.find ⟨100⟩ = some rs ∧ secondCycleSettled.fabric.find ⟨100⟩ = some rs' ∧
    OneActiveWinner base rs rs' winner := by
  obtain ⟨c,ready⟩ := readyCall
    (by decide +kernel : ((secondReadyToSettle.calls[firstSettled.calls.length]?).bind Call.ready).isSome)
  obtain ⟨answer,returned⟩ := answeredCall (by decide +kernel :
    ((secondCycleSettled.calls[firstSettled.calls.length]?).bind Call.answer).map Prod.fst = some ⟨100⟩)
  have settles : secondReadyToSettle.step (.call firstSettled.calls.length (.settle 5)) = some secondCycleSettled :=
    (Option.some_get _).symm
  have alone : RunAlone (.functions (drafts [5]) (accepts 1)) ⟨100⟩ firstSettled.calls.length (nextPlanned firstSettled)
      (nextActions firstSettled) secondReadyToSettle := aloneOfRun ⟨100⟩ (by decide +kernel)
  obtain ⟨base,rs,rs',o,winner,found,found',stored,answered,_,_,at_,exactly_⟩ :=
    winnerOnlyActiveExactly (firstRun ⟨100⟩) (nextBegins firstSettled) alone ready settles returned
  have winners : (firstSettled.fabric.find ⟨100⟩).map (fun rs => rs.proposals.map (fun p => p.provenance.branch)) =
      some [⟨1⟩] := by decide +kernel
  have reported : ((secondCycleSettled.calls[firstSettled.calls.length]?).bind Call.answer).map
      (fun r => r.2.toOption.map CycleOutcome.branch) = some (some ⟨1⟩) := by decide +kernel
  rw [found] at winners
  rw [returned,answered] at reported
  have first : o.branch = ⟨1⟩ := Option.some.inj (Option.some.inj reported)
  rw [← at_] at exactly_
  refine ⟨base,rs,rs',o.branch,found,found',stored,exactly_.mpr ⟨?_,?_⟩⟩
  · intro p member
    have listed : p.provenance.branch ∈ base.proposals.map (fun p => p.provenance.branch) :=
      List.mem_map.mpr ⟨p,member,rfl⟩
    have only : base.proposals.map (fun p => p.provenance.branch) = [⟨1⟩] := Option.some.inj winners
    rw [only,List.mem_singleton] at listed
    rw [listed,first]
  · rintro ⟨before,now,why,after,u,held,whole,_⟩
    have member : Action.rollback now ⟨100⟩ why ∈ firstCycle := by
      rw [whole]
      exact List.mem_append_right _ List.mem_cons_self
    simp [firstCycle,oneBranchCycle,oneBranchAnswers] at member

def retiredReady : System := (nextReady rolledBackSystem).get (by decide +kernel)

def retiredSettled : System :=
  (retiredReady.step (.call rolledBackSystem.calls.length (.settle 5))).get (by decide +kernel)

theorem retiredBranchCommits : ∃ base rs rs' answer,
    BranchRun (.functions (drafts [5]) (accepts 1)) ⟨100⟩ (.start {}) (firstCycle ++ [.rollback 3 ⟨100⟩ "undo"])
      rolledBackSystem ∧
    rolledBackSystem.step (.runCycle 4 4 ⟨100⟩) = some (nextPlanned rolledBackSystem) ∧
    RunAlone (.functions (drafts [5]) (accepts 1)) ⟨100⟩ rolledBackSystem.calls.length (nextPlanned rolledBackSystem)
      (nextActions rolledBackSystem) retiredReady ∧
    retiredReady.step (.call rolledBackSystem.calls.length (.settle 5)) = some retiredSettled ∧
    retiredSettled.calls[rolledBackSystem.calls.length]? = some (.returned ⟨100⟩ (.ok answer)) ∧
    rolledBackSystem.fabric.find ⟨100⟩ = some base ∧ retiredReady.fabric.find ⟨100⟩ = some rs ∧
    retiredSettled.fabric.find ⟨100⟩ = some rs' ∧ rs'.committed = rs.committed ++ [5] ∧ answer.branch = ⟨1⟩ ∧
    (∃ b ∈ base.branches, b.id = ⟨1⟩ ∧ b.retired = true) ∧ (∀ b ∈ rs'.branches, b.retired = true) ∧
    ¬ OneActiveWinner base rs rs' answer.branch := by
  have run : BranchRun (.functions (drafts [5]) (accepts 1)) ⟨100⟩ (.start {})
      (firstCycle ++ [.rollback 3 ⟨100⟩ "undo"]) rolledBackSystem :=
    .snoc (firstRun ⟨100⟩) ⟨trivial,trivial⟩ rfl
  have alone : RunAlone (.functions (drafts [5]) (accepts 1)) ⟨100⟩ rolledBackSystem.calls.length
      (nextPlanned rolledBackSystem) (nextActions rolledBackSystem) retiredReady := aloneOfRun ⟨100⟩ (by decide +kernel)
  have settles : retiredReady.step (.call rolledBackSystem.calls.length (.settle 5)) = some retiredSettled :=
    (Option.some_get _).symm
  obtain ⟨answer,returned⟩ := answeredCall (by decide +kernel :
    ((retiredSettled.calls[rolledBackSystem.calls.length]?).bind Call.answer).map Prod.fst = some ⟨100⟩)
  have reported : ((retiredSettled.calls[rolledBackSystem.calls.length]?).bind Call.answer).map
      (fun r => r.2.toOption.map CycleOutcome.branch) = some (some ⟨1⟩) := by decide +kernel
  have retired : (rolledBackSystem.fabric.find ⟨100⟩).map (fun rs => rs.branches.map (fun b => (b.id,b.retired))) =
      some [(⟨1⟩,true)] := by decide +kernel
  have ready : (retiredReady.fabric.find ⟨100⟩).map RequestState.committed = some [5] := by decide +kernel
  have after : (retiredSettled.fabric.find ⟨100⟩).map (fun rs => (rs.committed,rs.branches.all Branch.retired)) =
      some ([5,5],true) := by decide +kernel
  obtain ⟨base,found,marked⟩ := Option.map_eq_some_iff.mp retired
  obtain ⟨rs,found',short⟩ := Option.map_eq_some_iff.mp ready
  obtain ⟨rs',stored,values⟩ := Option.map_eq_some_iff.mp after
  have long : rs'.committed = [5,5] := congrArg Prod.fst values
  have all : ∀ b ∈ rs'.branches, b.retired = true := List.all_eq_true.mp (congrArg Prod.snd values)
  rw [returned] at reported
  cases answer with
  | error e => exact absurd (Option.some.inj reported) (by simp [Except.toOption])
  | ok o =>
      have first : o.branch = ⟨1⟩ := Option.some.inj (Option.some.inj reported)
      have listed : ((⟨1⟩ : BranchId),true) ∈ base.branches.map (fun b => (b.id,b.retired)) := by
        rw [marked]
        exact List.mem_singleton_self _
      obtain ⟨b,member,same⟩ := List.mem_map.mp listed
      refine ⟨base,rs,rs',o,run,nextBegins rolledBackSystem,alone,settles,returned,found,found',stored,?_,first,
        ⟨b,member,congrArg Prod.fst same,congrArg Prod.snd same⟩,all,?_⟩
      · rw [long,short]
        rfl
      · intro one
        have listed : o.branch ∈ (rs'.branches.filter (fun b => !b.retired)).map Branch.id := by
          rw [one.only]
          exact List.mem_singleton_self _
        obtain ⟨left,kept,_⟩ := List.mem_map.mp listed
        obtain ⟨inside,unretired⟩ := List.mem_filter.mp kept
        rw [all left inside] at unretired
        exact absurd unretired (by decide)

end SpeculationFabric
