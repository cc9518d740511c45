import SpeculationFabric.Observations
import SpeculationFabric.Service

/-! The workload that the benchmark and the command line tool measure: one thread submits
a request, runs one cycle of it and goes on to the next. No request of it is turned away
and no cycle fails, so what is counted follows from the workload and not from the clock. -/
namespace SpeculationFabric

section counts
variable {rs rs' : RequestState} {proposed : List BranchResult} {keep : BranchId} {candidate : CandidateSequence}
  {prop : Proposal} {outcome o : CycleOutcome} {count rejected len : UInt32}

theorem settleBranchCounts
    (ok : settleBranch rs proposed keep candidate prop outcome count (len - count) len = some (o,rs')) :
    o.proposedTokens = outcome.proposedTokens ∧ o.acceptedTokens = count ∧ o.rejectedTokens = len - count := by
  rcases settleBranchCases ok with ⟨full,taken⟩ | ⟨_,_,taken⟩ | ⟨_,none,refused⟩
  · have reported := settleAcceptedAs taken
    exact ⟨reported.proposedTokens,reported.acceptedTokens,by rw [reported.rejectedTokens,full,UInt32.sub_self]⟩
  · have reported := settleAcceptedAs taken
    exact ⟨reported.proposedTokens,reported.acceptedTokens,reported.rejectedTokens⟩
  · subst none
    cases refused
    exact ⟨phaseTokens _ _,rfl,(UInt32.sub_zero len).symm⟩

end counts

theorem answerCounts {f f' : Fabric} {now : UInt64} {c : Cycle} {o : CycleOutcome} {depth : UInt32}
    (settled : f.settle now c = some (.ok o,f')) (kind : SettledKind o.outcome)
    (sizes : ∀ br ∈ c.proposed, ∀ candidate, br.pr.candidate = some candidate → UInt32.ofNat candidate.size = depth) :
    o.proposedTokens = depth ∧ o.rejectedTokens = depth - o.acceptedTokens := by
  rw [settleSection] at settled
  obtain ⟨⟨answer,w⟩,decided,last⟩ := Option.map_eq_some_iff.mp settled
  cases last
  cases found : f.find c.request with
  | none =>
      rw [found] at decided
      cases Option.some.inj decided
  | some rs =>
      rw [found] at decided
      simp only [settleDecision] at decided
      split at decided
      · cases Option.some.inj decided
        cases kind
      · simp only [bind,Option.bind_eq_some_iff] at decided
        obtain ⟨won,winner,_,_,candidate,produced,⟨o',mid⟩,branch,last⟩ := decided
        cases Option.some.inj last
        obtain ⟨proposed,accepted,rejected⟩ := settleBranchCounts branch
        have size := sizes won (List.mem_of_getElem? winner) candidate produced
        rw [size] at proposed rejected
        exact ⟨proposed,by rw [rejected,accepted]⟩

section solo
variable {a : Authority} {depth branches : UInt32} {s : System} {id : RequestId} {rs : RequestState}

theorem callCounts {index : Nat} {f : Fabric} {p : Planned} (aligned : UInt32) (settledAt : UInt64)
    (inside : index < s.calls.length) (found : f.find id = some rs) (live : rs.terminal = false ∧ rs.cancelled = false)
    (ready : Ready a rs) (positive : 0 < depth.toNat) (bounded : depth.toNat ≤ 256) (some_ : 0 < branches.toNat)
    (depths : p.depth = depth) (counts : p.branchCount = branches) :
    ∃ o f', Runs.Leads (System.cpuTurn aligned settledAt index) (4 * branches.toNat + 1)
        (s.holding index (.proposing { request := id, planned := p },f)) (s.holding index (.returned id (.ok o),f')) ∧
      o.proposedTokens = depth ∧ o.acceptedTokens.toNat = (a.gains depth aligned branches).length ∧
      o.rejectedTokens = depth - o.acceptedTokens := by
  obtain ⟨n,total⟩ : ∃ n, branches.toNat = n + 1 := ⟨branches.toNat - 1,by omega⟩
  obtain ⟨c,proposals,rfl,plan,none,length,drafted⟩ := proposalRounds (c := { request := id, planned := p }) aligned
    settledAt inside ready positive bounded found n depths (by rw [counts,total]; exact Nat.zero_add _) (by simp)
  rw [counts] at length
  obtain ⟨c',verifications,request,same,full,counted⟩ := verificationRounds (c := c) aligned settledAt inside ready
    positive found n (by rw [none,length,total]; exact Nat.zero_add _) drafted (by simp [none])
  rw [← request] at found
  rw [← same] at length full drafted
  obtain ⟨o,f',settles,kind,accepted⟩ := settleServes found live some_ length full drafted counted settledAt
  have sizes : ∀ br ∈ c'.proposed, ∀ candidate, br.pr.candidate = some candidate →
      UInt32.ofNat candidate.size = depth := by
    intro br member candidate produced
    obtain ⟨i,at_⟩ := List.mem_iff_getElem?.mp member
    obtain ⟨candidate',produced',ids⟩ := (drafted i br at_).candidate
    cases produced.symm.trans produced'
    have size := congrArg List.length ids
    rw [List.length_map,Authority.draftSize] at size
    show UInt32.ofNat candidate.tokens.length = depth
    rw [size,UInt32.ofNat_toNat]
  have settled : f.settle settledAt c' = some (.ok o,f') := by
    cases callStep settles with
    | settles settled => exact settled
  obtain ⟨proposed,rejected⟩ := answerCounts settled kind sizes
  rw [request] at settles
  refine ⟨o,f',?_,proposed,accepted,rejected⟩
  have whole := (proposals.trans verifications).trans (.step (turnTaken inside rfl settles) .here)
  rwa [show 2 * (n + 1) + 2 * (n + 1) + (0 + 1) = 4 * branches.toNat + 1 by omega] at whole

theorem soloCounts (aligned : UInt32) (now eventNow settledAt : UInt64) (found : s.fabric.find id = some rs)
    (startable : Startable s.fabric rs) (fixed : FixedPolicy s.fabric.scheduler.policy depth branches)
    (state : rs.authState = a.state) (generation : rs.authGen = a.generation)
    (revision : rs.req.draftModel.revision = a.revision) (positive : 0 < depth.toNat) (bounded : depth.toNat ≤ 256)
    (some_ : 0 < branches.toNat) :
    ∃ s₁ t o, s.step (.runCycle now eventNow id) = some s₁ ∧
      Runs.Leads (System.cpuTurn aligned settledAt s.calls.length) (4 * branches.toNat + 1) s₁ t ∧
      t.cpuTurn aligned settledAt s.calls.length = none ∧ t.calls[s.calls.length]? = some (.returned id (.ok o)) ∧
      o.proposedTokens = depth ∧ o.acceptedTokens.toNat = (a.gains depth aligned branches).length ∧
      o.rejectedTokens = depth - o.acceptedTokens := by
  obtain ⟨p,machine,planned,depths,counts⟩ := planFixed now eventNow found startable fixed positive some_
  have tokenizer := compatibleTokenizer startable.admitted.compatible
  have begins : s.step (.runCycle now eventNow id) = some ⟨s.fabric.store id { rs with cycle := machine },
      s.calls ++ [.proposing { request := id, planned := p }]⟩ := by
    simp only [System.step,planned,begun]
  have inside : s.calls.length < (s.calls ++ [Call.proposing { request := id, planned := p }]).length := by
    rw [List.length_append]
    exact Nat.lt_succ_self _
  obtain ⟨o,f',leads,counted⟩ := callCounts (a := a)
    (s := ⟨s.fabric.store id { rs with cycle := machine },s.calls ++ [.proposing { request := id, planned := p }]⟩)
    aligned settledAt inside (findStoreSelf s.fabric id { rs with cycle := machine }) startable.admitted.live
    ⟨state,generation,revision,tokenizer⟩ positive bounded some_ depths counts
  rw [holdingSelf] at leads
  exact ⟨_,_,o,begins,leads,turnEnds inside,holdingCall inside _,counted⟩

end solo

section turns
variable {propose : ProposalInput → Result ProposalResult} {verify : VerificationInput → Result AcceptanceResult}
  {settledAt : UInt64} {index n : Nat} {s t : System}

theorem turnStep (taken : s.turn propose verify settledAt index = some t) : ∃ action,
    (Executors.functions propose verify).admits s (.call index action) ∧ s.step (.call index action) = some t := by
  simp only [System.turn,bind,Option.bind_eq_some_iff] at taken
  obtain ⟨call,present,action,turns,stepped⟩ := taken
  refine ⟨action,?_,stepped⟩
  cases call with
  | proposalSent c pin =>
      cases Option.some.inj turns
      intro c' pin' held
      cases Option.some.inj (present.symm.trans held)
      rfl
  | verificationSent c vin =>
      cases Option.some.inj turns
      intro c' vin' held
      cases Option.some.inj (present.symm.trans held)
      rfl
  | proposing c => cases Option.some.inj turns; trivial
  | verifying c => cases Option.some.inj turns; trivial
  | settling c => cases Option.some.inj turns; trivial
  | _ => cases turns

theorem turnsRun (leads : Runs.Leads (System.turn propose verify settledAt index) n s t) : ∃ actions,
    Run (.functions propose verify) s actions t ∧ submittedIds actions = [] := by
  induction leads with
  | here => exact ⟨[],.nil,rfl⟩
  | step taken _ ih =>
      obtain ⟨action,allowed,stepped⟩ := turnStep taken
      obtain ⟨rest,run,none⟩ := ih
      exact ⟨_,Runs.cons allowed stepped run,none⟩

end turns

def Call.answered : Call → Option (Result CycleOutcome)
  | .returned _ answer => some answer
  | _ => none

def System.runCycle (s : System) (aligned : UInt32) (fuel : Nat) (now eventNow settledAt : UInt64) (id : RequestId) :
    System × Option (Result CycleOutcome) :=
  match s.step (.runCycle now eventNow id) with
  | none => (s,none)
  | some begun =>
      let t := Runs.follow (System.cpuTurn aligned settledAt s.calls.length) fuel begun
      (t,t.calls[s.calls.length]?.bind Call.answered)

/- The tool and the benchmark name their model and its tokenizer differently. -/
def workloadModel (tokenizer name : String) : ModelIdentity := {
  model := ⟨101⟩
  revision := ⟨1⟩
  tokenizer := { id := ⟨9⟩, name := tokenizer, vocabSize := 4096 }
  executor := { kind := .cpu, protocolVersion := 1 }
  name := name }

structure Wl where
  requests : UInt64 := 5000
  depth : UInt32 := 4
  branches : UInt32 := 1
  aligned : UInt32 := 4
  deriving DecidableEq, Repr

structure Measured where
  cycles : UInt64 := 0
  proposed : UInt64 := 0
  accepted : UInt64 := 0
  rejected : UInt64 := 0
  deriving DecidableEq, Repr

def Measured.add (m : Measured) : Option (Result CycleOutcome) → Measured
  | some (.ok o) => {
      cycles := m.cycles + 1
      proposed := m.proposed + o.proposedTokens.toUInt64
      accepted := m.accepted + o.acceptedTokens.toUInt64
      rejected := m.rejected + o.rejectedTokens.toUInt64 }
  | _ => m

def Wl.config (wl : Wl) : Config :=
  { policy := { maxDepth := wl.depth, maxBranches := wl.branches, adaptiveDepthEnabled := false } }

def Wl.request (wl : Wl) (model : ModelIdentity) (i : UInt64) : SpeculationRequest := {
  id := ⟨i + 1⟩
  sequence := ⟨i + 2⟩
  tenant := ⟨1⟩
  draftModel := model
  targetModel := model
  pairKey := { proposer := model, verifier := model, protocolVersion := 1 }
  policy := wl.config.policy }

def Wl.turns (wl : Wl) : Nat := 4 * (max 1 wl.branches).toNat + 1

/- One turn of the loop. The clock is read at the submission, twice as the cycle is let in, and as it settles. -/
def Wl.round (wl : Wl) (model : ModelIdentity) (clock : Nat → UInt64) (i : Nat) (s : System) (m : Measured) :
    System × Measured :=
  let req := wl.request model (UInt64.ofNat i)
  let submitted : System := { s with fabric := (s.fabric.submit (clock (4 * i)) req).2 }
  let (t,answer) :=
    submitted.runCycle wl.aligned wl.turns (clock (4 * i + 1)) (clock (4 * i + 2)) (clock (4 * i + 3)) req.id
  (t,m.add answer)

def Wl.rounds (wl : Wl) (model : ModelIdentity) (clock : Nat → UInt64) : Nat → System × Measured
  | 0 => (.start wl.config,{})
  | i + 1 =>
      let before := wl.rounds model clock i
      wl.round model clock i before.1 before.2

def Wl.bench (wl : Wl) (clock : Nat → UInt64) : Measured :=
  (wl.rounds (workloadModel "bench-tok" "bench-model") clock wl.requests.toNat).2

def cmdBench (depth requests : UInt32) (clock : Nat → UInt64) : Measured :=
  let wl : Wl := { requests := requests.toUInt64, depth := depth, branches := 1, aligned := depth }
  (wl.rounds (workloadModel "cli-tok" "cli-model") clock wl.requests.toNat).2

section rounds
variable {wl : Wl} {tokenizer name : String} {clock : Nat → UInt64}

def PairsWithItself (model : ModelIdentity) : Prop :=
  (evaluateCompatibility { proposer := model, verifier := model, protocolVersion := 1 }).compatible = true

theorem workloadCompatible (tokenizer name : String) : PairsWithItself (workloadModel tokenizer name) :=
  (compatibleIff _).mpr ⟨⟨⟨rfl,rfl,rfl,rfl⟩,rfl,.inl ⟨rfl,rfl⟩,.inl rfl,.inl rfl⟩,Nat.le_refl 1⟩

theorem workloadFixed (wl : Wl) : FixedPolicy wl.config.policy wl.depth wl.branches :=
  ⟨rfl,by rintro ⟨⟩,rfl,rfl⟩

structure Benched (wl : Wl) (i : Nat) (s : System) (m : Measured) : Prop where
  run : ∃ actions, Run (cpuExecutors { alignedTokens := wl.aligned }) (.start wl.config) actions s ∧
    submittedIds actions = (List.range i).map fun j => (⟨UInt64.ofNat j + 1⟩ : RequestId)
  cycles : m.cycles = UInt64.ofNat i
  proposed : m.proposed = UInt64.ofNat (i * wl.depth.toNat)
  split : ∃ accepted, m.accepted = UInt64.ofNat accepted ∧ m.rejected = UInt64.ofNat (i * wl.depth.toNat - accepted) ∧
    i * min wl.aligned.toNat wl.depth.toNat ≤ accepted ∧ accepted ≤ i * wl.depth.toNat

theorem benchedStart (wl : Wl) : Benched wl 0 (.start wl.config) {} := by
  refine ⟨⟨[],.nil,rfl⟩,rfl,?_,0,rfl,?_,?_,Nat.zero_le _⟩
  · rw [Nat.zero_mul]
    rfl
  · rw [Nat.zero_mul]
    rfl
  · rw [Nat.zero_mul]

theorem workloadStartable {f : Fabric} {model : ModelIdentity} (i : UInt64) (epoch : CoordinatorEpoch)
    (events : List Event) (compatible : PairsWithItself model) (cfg : f.cfg = wl.config)
    (policy : f.scheduler.policy = wl.config.policy) :
    Startable f { RequestState.admitted {} epoch (wl.request model i) with events := events } := by
  refine ⟨⟨⟨rfl,rfl⟩,compatible,?_⟩,rfl,by rw [cfg]; rfl,by rw [cfg]; rfl⟩
  have enabled : f.scheduler.policy.speculatingEnabled = true := by rw [policy]; rfl
  have below : ¬ ((0 : UInt32) ≥ f.scheduler.policy.maxOutstandingSpeculativeWork ∧
      f.scheduler.policy.maxOutstandingSpeculativeWork ≠ 0) := by
    rw [policy]
    show ¬ ((0 : UInt32) ≥ 8 ∧ (8 : UInt32) ≠ 0)
    decide
  have unasked : ¬ (f.scheduler.policy.minEconomicAcceptanceRatio > 0.0 ∧
      f.stats.acceptanceRatio < f.scheduler.policy.minEconomicAcceptanceRatio) := by
    rw [policy]
    have none : ¬ (0.0 : Float) > 0.0 := by decide +kernel
    exact fun both => none both.1
  show (f.scheduler.checkBackpressure _ 0 0 1 f.stats.acceptanceRatio).blocked = false
  simp only [SpeculationScheduler.checkBackpressure,enabled,if_neg below,if_neg unasked]
  rfl

theorem freshId {i : Nat} (inside : i < 2^64) :
    (⟨UInt64.ofNat i + 1⟩ : RequestId) ∉ (List.range i).map fun j => (⟨UInt64.ofNat j + 1⟩ : RequestId) := by
  intro member
  obtain ⟨j,before,same⟩ := List.mem_map.mp member
  have less := List.mem_range.mp before
  have equal := congrArg UInt64.toNat ((UInt64.add_left_inj _).mp (congrArg StrongId.value same))
  rw [UInt64.toNat_ofNat',UInt64.toNat_ofNat',Nat.mod_eq_of_lt (less.trans inside),Nat.mod_eq_of_lt inside] at equal
  exact absurd equal (Nat.ne_of_lt less)

theorem benchedAdds {i : Nat} {s t : System} {m : Measured} {o : CycleOutcome} {a : Authority}
    (some_ : 0 < wl.branches.toNat) (benched : Benched wl i s m)
    (run : ∃ actions, Run (cpuExecutors { alignedTokens := wl.aligned }) (.start wl.config) actions t ∧
      submittedIds actions = (List.range (i + 1)).map fun j => (⟨UInt64.ofNat j + 1⟩ : RequestId))
    (proposed : o.proposedTokens = wl.depth)
    (accepted : o.acceptedTokens.toNat = (a.gains wl.depth wl.aligned wl.branches).length)
    (rejected : o.rejectedTokens = wl.depth - o.acceptedTokens) : Benched wl (i + 1) t (m.add (some (.ok o))) := by
  obtain ⟨before,taken,left,least,most⟩ := benched.split
  have few : o.acceptedTokens.toNat ≤ wl.depth.toNat := accepted ▸ a.gainsSize wl.depth wl.aligned wl.branches
  have many : min wl.aligned.toNat wl.depth.toNat ≤ o.acceptedTokens.toNat :=
    accepted ▸ a.gainsLeast wl.depth wl.aligned some_
  refine ⟨run,?_,?_,before + o.acceptedTokens.toNat,?_,?_,?_,?_⟩
  · show m.cycles + 1 = UInt64.ofNat (i + 1)
    rw [benched.cycles,UInt64.ofNat_add]
    rfl
  · show m.proposed + o.proposedTokens.toUInt64 = UInt64.ofNat ((i + 1) * wl.depth.toNat)
    rw [benched.proposed,proposed,Nat.succ_mul,UInt64.ofNat_add,UInt64.ofNat_uInt32ToNat]
  · show m.accepted + o.acceptedTokens.toUInt64 = _
    rw [taken,UInt64.ofNat_add,UInt64.ofNat_uInt32ToNat]
  · show m.rejected + o.rejectedTokens.toUInt64 = _
    have rest : o.rejectedTokens.toNat = wl.depth.toNat - o.acceptedTokens.toNat := by
      rw [rejected,UInt32.toNat_sub_of_le _ _ (UInt32.le_iff_toNat_le.mpr few)]
    have whole : (i + 1) * wl.depth.toNat - (before + o.acceptedTokens.toNat) =
        (i * wl.depth.toNat - before) + o.rejectedTokens.toNat := by
      rw [rest,Nat.succ_mul]
      omega
    rw [left,whole,UInt64.ofNat_add,UInt64.ofNat_uInt32ToNat]
  · rw [Nat.succ_mul]
    omega
  · rw [Nat.succ_mul]
    omega

theorem benchedRound {i : Nat} {s : System} {m : Measured} {model : ModelIdentity}
    (compatible : PairsWithItself model) (positive : 0 < wl.depth.toNat)
    (bounded : wl.depth.toNat ≤ 256) (some_ : 0 < wl.branches.toNat) (inside : i < 2^64) (benched : Benched wl i s m) :
    Benched wl (i + 1) (wl.round model clock i s m).1 (wl.round model clock i s m).2 := by
  obtain ⟨actions,run,ids⟩ := benched.run
  have missing : s.fabric.find (wl.request model (UInt64.ofNat i)).id = none := by
    rw [← Option.not_isSome_iff_eq_none,keptSubmitted run,ids]
    exact freshId inside
  obtain ⟨_,events,stored⟩ := submitFresh missing (clock (4 * i))
  have opened : Run (cpuExecutors { alignedTokens := wl.aligned }) (.start wl.config)
      (actions ++ [.submit (clock (4 * i)) (wl.request model (UInt64.ofNat i))])
      { s with fabric := (s.fabric.submit (clock (4 * i)) (wl.request model (UInt64.ofNat i))).2 } :=
    run.snoc trivial rfl
  obtain ⟨cfg,policy⟩ := configurationFixed opened
  obtain ⟨s₁,t,o,begins,leads,ended,returned,proposed,accepted,rejected⟩ := soloCounts
    (a := (wl.request model (UInt64.ofNat i)).authority) wl.aligned (clock (4 * i + 1)) (clock (4 * i + 2))
    (clock (4 * i + 3)) stored (workloadStartable _ _ events compatible cfg policy)
    (policy ▸ workloadFixed wl) rfl rfl rfl positive bounded some_
  have turns : wl.turns = 4 * wl.branches.toNat + 1 := by rw [Wl.turns,maxOneSelf some_]
  have rounds : wl.round model clock i s m = (t,m.add (some (.ok o))) := by
    simp only [Wl.round,System.runCycle,begins,turns,Runs.followEnds leads ended (Nat.le_refl _)]
    rw [returned]
    rfl
  rw [rounds]
  refine benchedAdds some_ benched ?_ proposed accepted rejected
  obtain ⟨rest,turned,none⟩ := turnsRun leads
  refine ⟨_,Runs.append opened (Runs.cons (by trivial) begins turned),?_⟩
  rw [submittedIds,List.filterMap_append,List.filterMap_append,List.range_succ,List.map_append,← ids]
  exact (congrArg (_ ++ ·) none).trans (List.append_nil _)

theorem benchedRounds (clock : Nat → UInt64) (tokenizer name : String) (positive : 0 < wl.depth.toNat)
    (bounded : wl.depth.toNat ≤ 256) (some_ : 0 < wl.branches.toNat) (i : Nat) (inside : i ≤ 2^64) :
    Benched wl i (wl.rounds (workloadModel tokenizer name) clock i).1
      (wl.rounds (workloadModel tokenizer name) clock i).2 := by
  induction i with
  | zero => exact benchedStart wl
  | succ i ih =>
      exact benchedRound (workloadCompatible tokenizer name) positive bounded some_ inside
        (ih (Nat.le_of_succ_le inside))

structure Wl.Counts (wl : Wl) (m : Measured) : Prop where
  cycles : m.cycles = wl.requests
  proposed : m.proposed = wl.requests * wl.depth.toUInt64
  split : m.accepted + m.rejected = m.proposed
  accepted : ∃ total, m.accepted = UInt64.ofNat total ∧
    wl.requests.toNat * min wl.aligned.toNat wl.depth.toNat ≤ total ∧ total ≤ wl.requests.toNat * wl.depth.toNat
  aligned : wl.depth ≤ wl.aligned → m.accepted = m.proposed ∧ m.rejected = 0

theorem roundsCount (wl : Wl) (clock : Nat → UInt64) (tokenizer name : String) (positive : 0 < wl.depth.toNat)
    (bounded : wl.depth.toNat ≤ 256) (some_ : 0 < wl.branches.toNat) :
    wl.Counts (wl.rounds (workloadModel tokenizer name) clock wl.requests.toNat).2 := by
  have benched := benchedRounds clock tokenizer name positive bounded some_ wl.requests.toNat wl.requests.toNat_lt.le
  obtain ⟨total,accepted,rejected,least,most⟩ := benched.split
  have proposed : UInt64.ofNat (wl.requests.toNat * wl.depth.toNat) = wl.requests * wl.depth.toUInt64 := by
    rw [UInt64.ofNat_mul,UInt64.ofNat_toNat,UInt64.ofNat_uInt32ToNat]
  refine ⟨benched.cycles.trans (UInt64.ofNat_toNat),benched.proposed.trans proposed,?_,⟨total,accepted,least,most⟩,?_⟩
  · rw [accepted,rejected,benched.proposed,← UInt64.ofNat_add,Nat.add_sub_cancel' most]
  · intro deep
    have whole : total = wl.requests.toNat * wl.depth.toNat := by
      rw [Nat.min_eq_right (UInt32.le_iff_toNat_le.mp deep)] at least
      exact Nat.le_antisymm most least
    rw [accepted,rejected,benched.proposed,whole,Nat.sub_self]
    exact ⟨rfl,rfl⟩

end rounds

theorem workloadsCount (wl : Wl) (clock : Nat → UInt64) (positive : 0 < wl.depth.toNat)
    (bounded : wl.depth.toNat ≤ 256) (some_ : 0 < wl.branches.toNat) (requests : UInt32) :
    wl.Counts (wl.bench clock) ∧
    (cmdBench wl.depth requests clock).cycles = requests.toUInt64 ∧
    (cmdBench wl.depth requests clock).accepted = requests.toUInt64 * wl.depth.toUInt64 := by
  have tool := roundsCount { requests := requests.toUInt64, depth := wl.depth, branches := 1, aligned := wl.depth }
    clock "cli-tok" "cli-model" positive bounded Nat.zero_lt_one
  exact ⟨roundsCount wl clock _ _ positive bounded some_,tool.cycles,(tool.aligned UInt32.le_rfl).1.trans tool.proposed⟩

theorem defaultWorkload : (({} : Wl).bench UInt64.ofNat).cycles = 5000 ∧
    (({} : Wl).bench UInt64.ofNat).accepted = 20000 ∧ (({} : Wl).bench UInt64.ofNat).rejected = 0 := by
  obtain ⟨counts,_⟩ := workloadsCount {} UInt64.ofNat (by decide) (by decide) (by decide) 1
  obtain ⟨accepted,rejected⟩ := counts.aligned UInt32.le_rfl
  exact ⟨counts.cycles,accepted.trans counts.proposed,rejected⟩

end SpeculationFabric
