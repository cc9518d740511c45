import SpeculationFabric.Registration

/-! The authority ledger. Each settled cycle leaves one numbered proposal and takes
some leading part of its candidate, so tokens and generations are sums over the
proposals. Which part was taken is the verifier's word; nothing here judges it. -/
namespace SpeculationFabric

def takenTokens (p : Proposal) (k : Nat) : List UInt32 := (p.candidate.tokens.take k).map Token.id

/- Proposals and completed cycles are counted by machine words; `ks` is exact. -/
structure Ledger (rs : RequestState) (ks : List Nat) : Prop where
  counts : ks.length = rs.proposals.length
  cycles : rs.completedCycles = UInt32.ofNat rs.proposals.length
  numbered : ∀ (i : Nat) (p : Proposal), rs.proposals[i]? = some p →
    p.id = ⟨UInt64.ofNat (i + 1)⟩ ∧ p.generation = ⟨(UInt32.ofNat (i + 1)).toUInt64⟩
  taken : ∀ (i : Nat) (p : Proposal) (k : Nat), rs.proposals[i]? = some p → ks[i]? = some k →
    k ≤ p.candidate.size ∧ (0 < k ↔ p.committed = true)
  committed : rs.committed = rs.req.prefixTokens ++ (List.zipWith takenTokens rs.proposals ks).flatten
  authGen : rs.authGen = ⟨UInt64.ofNat ks.sum⟩
  authState : rs.authState = ⟨⟨rs.req.sequence.value * 0x9E3779B97F4A7C15⟩,⟨UInt64.ofNat ks.sum⟩⟩
  authStateGen : rs.authStateGen = ⟨UInt64.ofNat ks.sum⟩

theorem admittedLedger (epoch : CoordinatorEpoch) (req : SpeculationRequest) (events : List Event) :
    Ledger { RequestState.admitted {} epoch req with events := events } [] := by
  refine ⟨rfl,rfl,?_,?_,?_,rfl,rfl,rfl⟩
  · intro i p at_
    exact absurd at_ (by simp [RequestState.admitted])
  · intro i p k at_
    exact absurd at_ (by simp [RequestState.admitted])
  · simp [RequestState.admitted]

theorem sumNext (ks : List Nat) (count : UInt32) :
    UInt64.ofNat ks.sum + count.toUInt64 = UInt64.ofNat (ks ++ [count.toNat]).sum := by
  rw [List.sum_append,UInt64.ofNat_add]
  simp

theorem settledLedger {c : Cycle} {rs rs' : RequestState} {won : BranchResult} {accept : AcceptanceResult}
    {candidate : CandidateSequence} {ks : List Nat} (ledger : Ledger rs ks)
    (facts : Settled c rs won accept candidate rs') : Ledger rs' (ks ++ [accept.acceptedPrefix.toNat]) := by
  have advanced := facts.advanced
  have count : rs'.completedCycles = UInt32.ofNat (rs.proposals.length + 1) := by
    rw [facts.completedCycles,ledger.cycles,UInt32.ofNat_add]
    rfl
  have authGen : rs'.authGen = ⟨UInt64.ofNat (ks ++ [accept.acceptedPrefix.toNat]).sum⟩ := by
    rw [advanced.authGen,ledger.authGen,sumNext]
  have authState : rs'.authState =
      ⟨⟨rs'.req.sequence.value * 0x9E3779B97F4A7C15⟩,⟨UInt64.ofNat (ks ++ [accept.acceptedPrefix.toNat]).sum⟩⟩ := by
    rw [advanced.authState,ledger.authState,advanced.req,sumNext]
  refine ⟨?_,?_,?_,?_,?_,authGen,authState,?_⟩
  · rw [advanced.proposals]
    simp [ledger.counts]
  · rw [advanced.proposals,count]
    simp
  · intro i p at_
    rw [advanced.proposals] at at_
    rcases appendedAt at_ with old | ⟨rfl,rfl⟩
    · exact ledger.numbered i p old
    · refine ⟨rfl,?_⟩
      show (⟨(rs.completedCycles + 1).toUInt64⟩ : ProposalGeneration) = _
      rw [← facts.completedCycles,count]
  · intro i p k at_ kth
    rw [advanced.proposals] at at_
    rcases appendedAt at_ with old | ⟨here,rfl⟩
    · rcases appendedAt kth with before | ⟨past,_⟩
      · exact ledger.taken i p k old before
      · have inside := (List.getElem?_eq_some_iff.mp old).1
        rw [past,ledger.counts] at inside
        exact absurd inside (Nat.lt_irrefl _)
    · rw [here,← ledger.counts] at kth
      have last : k = accept.acceptedPrefix.toNat := by simpa using kth.symm
      subst k
      refine ⟨advanced.inside,?_⟩
      show 0 < accept.acceptedPrefix.toNat ↔ decide (accept.acceptedPrefix > 0) = true
      rw [decide_eq_true_iff]
      rfl
  · rw [advanced.committed,advanced.proposals,advanced.req,ledger.committed,
      List.zipWith_append ledger.counts.symm]
    simp only [List.flatten_append,List.append_assoc,List.zipWith_cons_cons,List.zipWith_nil_left,
      List.flatten_singleton]
    rfl
  · rcases advanced.authStateGen with stateGen | ⟨same,unmoved⟩
    · rw [stateGen,authState]
    · rw [same,ledger.authStateGen]
      have generations := congrArg StateRef.generation (authState.symm.trans unmoved)
      rw [ledger.authState] at generations
      exact generations.symm

theorem effectLedger {s : System} {id : RequestId} {a : Action} {rs rs' : RequestState} {ks : List Nat}
    (effect : Effect s id a rs rs') (ledger : Ledger rs ks) (named : rs.req.id = id) (real : id.isNull = false) :
    ∃ more, Ledger rs' (ks ++ more) ∧ rs'.req = rs.req := by
  cases effect with
  | resubmitted events same null =>
      rw [named,real] at null
      contradiction
  | settled call same facts => exact ⟨_,settledLedger ledger facts,facts.advanced.req⟩
  | _ =>
      obtain ⟨counts,cycles,numbered,taken,committed,authGen,authState,authStateGen⟩ := ledger
      refine ⟨[],?_,rfl⟩
      rw [List.append_nil]
      exact ⟨counts,cycles,numbered,taken,committed,authGen,authState,authStateGen⟩

def beginsCycle (id : RequestId) : Action → Bool
  | .runCycle _ _ target => decide (target = id)
  | _ => false

def cyclesOf (id : RequestId) (actions : List Action) : Nat := actions.countP (beginsCycle id)

def inFlight (id : RequestId) (call : Call) : Bool := call.cycle.isSome && decide (call.request = id)

theorem countSet {α : Type} {p : α → Bool} {xs : List α} {i : Nat} {a b : α} (at_ : xs[i]? = some a) :
    (xs.set i b).countP p + (if p a then 1 else 0) = xs.countP p + if p b then 1 else 0 := by
  induction xs generalizing i with
  | nil => cases at_
  | cons x xs ih =>
      cases i with
      | zero =>
          cases Option.some.inj at_
          simp only [List.set_cons_zero,List.countP_cons]
          omega
      | succ i =>
          have rest := ih at_
          simp only [List.set_cons_succ,List.countP_cons]
          omega

theorem cyclesNext (id : RequestId) (past : List Action) (a : Action) :
    cyclesOf id (past ++ [a]) = cyclesOf id past + if beginsCycle id a then 1 else 0 := by
  simp only [cyclesOf,List.countP_append,List.countP_singleton]

theorem flightStep {s s' : System} {a : Action} (id : RequestId) (taken : s.step a = some s') :
    s'.calls.countP (inFlight id) ≤ s.calls.countP (inFlight id) + if beginsCycle id a then 1 else 0 := by
  rcases stepCalls taken with ⟨same,_⟩ | ⟨now,eventNow,target,rfl,grown⟩ | ⟨index,action,call,next,rfl,present,stepped,set⟩
  · rw [same]
    omega
  · rw [grown,List.countP_append,List.countP_singleton]
    by_cases same : target = id
    · simp only [beginsCycle,same,decide_true,if_true]
      split <;> omega
    · simp [inFlight,beginsCycle,same]
  · have moved := countSet (p := inFlight id) (b := next) present
    obtain ⟨request,active⟩ := callStays stepped
    have fewer : inFlight id next = true → inFlight id call = true := by
      intro still
      have target : call.request = id := by
        rw [← request]
        simpa using (Bool.and_eq_true_iff.mp still).2
      simp [inFlight,active,target]
    rw [set]
    split at moved <;> split at moved
    · omega
    · omega
    · rename_i ended still
      exact absurd (fewer still) ended
    · omega

theorem flightSettled {s s' : System} {index : Nat} {now : UInt64} {c : Cycle}
    (taken : s.step (.call index (.settle now)) = some s') (call : s.calls[index]? = some (.settling c)) :
    s'.calls.countP (inFlight c.request) + 1 = s.calls.countP (inFlight c.request) := by
  simp only [System.step,call,bind,Option.bind_some,Call.step] at taken
  cases Option.some.inj taken
  have moved := countSet (p := inFlight c.request) (b := (c.settlementSection s.fabric now).1) call
  have ended : inFlight c.request (c.settlementSection s.fabric now).1 = false := by
    unfold Cycle.settlementSection
    split <;> rfl
  have began : inFlight c.request (.settling c) = true := by simp [inFlight,Call.cycle,Call.request]
  rw [ended,began] at moved
  simpa using moved

structure LedgerRun (id : RequestId) (past : List Action) (s : System) : Prop where
  registry : Registry s
  record : ∀ rs, s.fabric.find id = some rs → ∃ ks, Ledger rs ks ∧
    rs.proposals.length + s.calls.countP (inFlight id) ≤ cyclesOf id past ∧ ∃ now, .submit now rs.req ∈ past

theorem noFlight {s : System} {id : RequestId} (registry : Registry s) (missing : s.fabric.find id = none) :
    s.calls.countP (inFlight id) = 0 := by
  rw [List.countP_eq_zero]
  intro call member active
  obtain ⟨ongoing,request⟩ := Bool.and_eq_true_iff.mp active
  have present := registry.registered call member ongoing
  rw [of_decide_eq_true request,missing] at present
  contradiction

theorem effectProposals {s : System} {id : RequestId} {a : Action} {rs rs' : RequestState}
    (effect : Effect s id a rs rs') : rs'.proposals = rs.proposals ∨
    ∃ index now c, a = .call index (.settle now) ∧ s.calls[index]? = some (.settling c) ∧ c.request = id ∧
      rs'.proposals.length = rs.proposals.length + 1 := by
  cases effect with
  | settled call same facts =>
      refine .inr ⟨_,_,_,rfl,call,same,?_⟩
      rw [facts.advanced.proposals]
      simp
  | _ => exact .inl rfl

theorem ledgerRunStep {s s' : System} {id : RequestId} {past : List Action} {a : Action} (real : id.isNull = false)
    (before : LedgerRun id past s) (taken : s.step a = some s') : LedgerRun id (past ++ [a]) s' := by
  refine ⟨registryStep taken before.registry,?_⟩
  intro rs' found'
  have flight := flightStep id taken
  cases found : s.fabric.find id with
  | none =>
      obtain ⟨now,req,events,rfl,same,rfl⟩ := stepAppears before.registry taken found found'
      refine ⟨[],admittedLedger _ req events,?_,now,by simp [RequestState.admitted]⟩
      have none := noFlight before.registry found
      rw [cyclesNext]
      simp only [RequestState.admitted,beginsCycle,List.length_nil] at flight ⊢
      omega
  | some rs =>
      obtain ⟨ks,ledger,counted,now,submitted⟩ := before.record rs found
      obtain ⟨next,stored,effect⟩ := stepEffect taken found
      cases Option.some.inj (found'.symm.trans stored)
      obtain ⟨more,after,req⟩ := effectLedger effect ledger (before.registry.named id rs found) real
      refine ⟨_,after,?_,now,by rw [req]; exact List.mem_append_left _ submitted⟩
      rw [cyclesNext]
      rcases effectProposals effect with same | ⟨index,at_,c,rfl,call,rfl,grown⟩
      · rw [same]
        omega
      · have settled := flightSettled taken call
        omega

structure ExactLedger (rs : RequestState) (ks : List Nat) : Prop where
  counts : ks.length = rs.proposals.length
  cycles : rs.completedCycles.toNat = rs.proposals.length
  numbered : ∀ (i : Nat) (p : Proposal), rs.proposals[i]? = some p →
    p.id.value.toNat = i + 1 ∧ p.generation.value.toNat = i + 1
  taken : ∀ (i : Nat) (p : Proposal) (k : Nat), rs.proposals[i]? = some p → ks[i]? = some k →
    k ≤ p.candidate.size ∧ (0 < k ↔ p.committed = true)
  committed : rs.committed = rs.req.prefixTokens ++ (List.zipWith takenTokens rs.proposals ks).flatten
  authGen : rs.authGen.value.toNat = ks.sum % 2^64
  stateGeneration : rs.authState.generation.value.toNat = ks.sum % 2^64
  authStateGen : rs.authStateGen.value.toNat = ks.sum % 2^64
  stateId : rs.authState.id.value = rs.req.sequence.value * 0x9E3779B97F4A7C15

theorem exactLedger {rs : RequestState} {ks : List Nat} (ledger : Ledger rs ks)
    (few : rs.proposals.length < 2^32) : ExactLedger rs ks := by
  refine ⟨ledger.counts,?_,?_,ledger.taken,ledger.committed,?_,?_,?_,?_⟩
  · rw [ledger.cycles]
    exact UInt32.toNat_ofNat_of_lt' few
  · intro i p at_
    obtain ⟨number,generation⟩ := ledger.numbered i p at_
    have inside := (List.getElem?_eq_some_iff.mp at_).1
    have small : i + 1 < UInt32.size := by
      show i + 1 < 2^32
      omega
    have wide : i + 1 < UInt64.size := by
      show i + 1 < 2^64
      omega
    rw [number,generation]
    exact ⟨UInt64.toNat_ofNat_of_lt' wide,by rw [UInt32.toNat_toUInt64]; exact UInt32.toNat_ofNat_of_lt' small⟩
  · rw [ledger.authGen]
    exact UInt64.toNat_ofNat'
  · rw [ledger.authState]
    exact UInt64.toNat_ofNat'
  · rw [ledger.authStateGen]
    exact UInt64.toNat_ofNat'
  · rw [ledger.authState]

def Call.defined : Call → Prop
  | .undefined _ => False
  | _ => True

theorem definedStep {x : Executors} {f f' : Fabric} {call next : Call} {action : CallAction}
    (candidates : ∀ pin pr, x.propose pin (.ok pr) → pr.candidate.isSome)
    (bounded : ∀ vin accept, x.verify vin (.ok accept) → accept.acceptedPrefix.toNat ≤ vin.candidate.size)
    (facts : CallFacts x call) (taken : call.step f action = some (next,f')) : next.defined := by
  cases callStep taken with
  | proposed c pin pr => obtain ⟨_,rfl,goes | goes⟩ := proposedGoes c pin pr <;> rw [goes] <;> trivial
  | finds at_ absent =>
      obtain ⟨_,pin,_,answered⟩ := facts.1.proposal _ _ at_
      have produced := candidates pin _ answered
      rw [absent] at produced
      contradiction
  | verified c vin accept => obtain ⟨_,rfl,goes | goes⟩ := verifiedGoes c vin accept <;> rw [goes] <;> trivial
  | undecided nothing =>
      obtain ⟨answer,f'',settled⟩ := settleDefined facts bounded f _
      rw [nothing] at settled
      contradiction
  | _ => trivial

theorem everyCallDefined {x : Executors} {cfg : Config} {actions : List Action} {s : System}
    (candidates : ∀ pin pr, x.propose pin (.ok pr) → pr.candidate.isSome)
    (bounded : ∀ vin accept, x.verify vin (.ok accept) → accept.acceptedPrefix.toNat ≤ vin.candidate.size)
    (run : Run x (.start cfg) actions s) : ∀ call ∈ s.calls, CallFacts x call ∧ call.defined := by
  refine Runs.invariant (P := fun u => ∀ call ∈ u.calls, CallFacts x call ∧ call.defined) run ?_ ?_
  · intro call member
    cases member
  · intro u a v all allowed taken
    refine everyCallKept taken allowed all ?_ ?_
    · intro now eventNow id
      refine ⟨beginFacts x u.fabric now eventNow id,?_⟩
      cases (u.fabric.planCycle now eventNow id).1 <;> trivial
    · intro index call action next f' present may stepped facts
      exact ⟨callFactsKept present may stepped facts.1,definedStep candidates bounded facts.1 stepped⟩

theorem authorityLedger {x : Executors} {cfg : Config} {actions : List Action} {s : System} {id : RequestId}
    (candidates : ∀ pin pr, x.propose pin (.ok pr) → pr.candidate.isSome)
    (bounded : ∀ vin accept, x.verify vin (.ok accept) → accept.acceptedPrefix.toNat ≤ vin.candidate.size)
    (real : id.isNull = false) (run : Run x (.start cfg) actions s) (few : cyclesOf id actions < 2^32) :
    (∀ call ∈ s.calls, call.defined) ∧
    ∀ rs, s.fabric.find id = some rs →
      (∃ ks, ExactLedger rs ks) ∧ (∃ now, .submit now rs.req ∈ actions) ∧
      ∀ a s', s.step a = some s' → ∃ rs', s'.fabric.find id = some rs' ∧ Extends rs rs' := by
  have whole : LedgerRun id actions s := by
    refine Runs.recorded run ⟨registryStart cfg,?_⟩ (fun past u a v before _ taken => ledgerRunStep real before taken)
    intro rs found
    exact absurd found (startRecordless _ _ _)
  refine ⟨fun call member => (everyCallDefined candidates bounded run call member).2,?_⟩
  intro rs found
  obtain ⟨ks,ledger,counted,submitted⟩ := whole.record rs found
  refine ⟨⟨ks,exactLedger ledger (by omega)⟩,submitted,?_⟩
  intro a s' taken
  obtain ⟨rs',stored,effect⟩ := stepEffect taken found
  exact ⟨rs',stored,effectExtends effect (whole.registry.named id rs found) real⟩

/- A partial commit, then a rejection of all, on one request. -/
def acceptsByGeneration (vin : VerificationInput) : Result AcceptanceResult :=
  .ok (acceptedFirst (UInt32.ofNat (min vin.candidate.size (2 - vin.authoritativeGeneration.value.toNat))))

def ledgerActions : List Action :=
  .submit 1 (makeReq ⟨100⟩ [1]) ::
    (.runCycle 2 2 ⟨100⟩ :: oneBranchCycle 0 (proposedTokens [5,6,7]) (acceptedFirst 2)) ++
    (.runCycle 3 3 ⟨100⟩ :: oneBranchCycle 1 (proposedTokens [5,6,7]) (acceptedFirst 0))

def twoCycles : System := (runOf (drafts [5,6,7]) acceptsByGeneration (.start {}) ledgerActions).get (by decide +kernel)

theorem ledgerAfterTwoCycles : ∃ rs ks, Run (.functions (drafts [5,6,7]) acceptsByGeneration) (.start {}) ledgerActions twoCycles ∧
    twoCycles.fabric.find ⟨100⟩ = some rs ∧ rs.committed = [1,5,6] ∧ rs.proposals.length = 2 ∧ ExactLedger rs ks := by
  have run : Run (.functions (drafts [5,6,7]) acceptsByGeneration) (.start {}) ledgerActions twoCycles :=
    runOfRun (by decide +kernel)
  have candidates : ∀ pin pr, (Executors.functions (drafts [5,6,7]) acceptsByGeneration).propose pin (.ok pr) →
      pr.candidate.isSome := by
    intro pin pr answered
    cases answered
    rfl
  have bounded : ∀ vin accept, (Executors.functions (drafts [5,6,7]) acceptsByGeneration).verify vin (.ok accept) →
      accept.acceptedPrefix.toNat ≤ vin.candidate.size := by
    intro vin accept answered
    cases answered
    have below : (UInt32.ofNat (min vin.candidate.size (2 - vin.authoritativeGeneration.value.toNat))).toNat =
        min vin.candidate.size (2 - vin.authoritativeGeneration.value.toNat) :=
      UInt32.toNat_ofNat_of_lt' (by show _ < 2^32; omega)
    show (UInt32.ofNat _).toNat ≤ _
    rw [below]
    exact Nat.min_le_left _ _
  have ledger := authorityLedger candidates bounded (by decide : (⟨100⟩ : RequestId).isNull = false) run (by decide)
  have seen : (twoCycles.fabric.find ⟨100⟩).map (fun rs => (rs.committed,rs.proposals.length)) = some ([1,5,6],2) := by decide +kernel
  obtain ⟨rs,found,values⟩ := Option.map_eq_some_iff.mp seen
  obtain ⟨⟨ks,entries⟩,_⟩ := ledger.2 rs found
  exact ⟨rs,ks,run,found,congrArg Prod.fst values,congrArg Prod.snd values,entries⟩

end SpeculationFabric
