import SpeculationFabric.Pairs
import SpeculationFabric.DraftTarget
import SpeculationFabric.CycleEvents

/-! Committed tokens and the request's vocabulary. The CPU executors work on one fixed
vocabulary and the engine tells the verifier that a candidate is of that vocabulary
whatever the request says, so tokens stay inside the request's own vocabulary only while
every cycle that goes ahead is for a pair of exactly that size. -/
namespace SpeculationFabric

structure Supported (req : SpeculationRequest) : Prop where
  draft : req.draftModel.tokenizer.vocabSize = kSyntheticVocab
  target : req.targetModel.tokenizer.vocabSize = kSyntheticVocab

structure InVocabulary (req : SpeculationRequest) (appended : List UInt32) : Prop where
  draft : ∀ t ∈ appended, t < req.draftModel.tokenizer.vocabSize
  target : ∀ t ∈ appended, t < req.targetModel.tokenizer.vocabSize
  supported : ¬Supported req → appended = []

def Action.ofCycle : Action → Prop
  | .runCycle _ _ _ | .call _ _ => True
  | _ => False

def CommitsInVocabulary (s s' : System) : Prop :=
  ∀ id rs', s'.fabric.find id = some rs' → ∃ rs appended, s.fabric.find id = some rs ∧ rs'.req = rs.req ∧
    rs'.committed = rs.committed ++ appended ∧ InVocabulary rs.req appended

/- A cycle starts on a supported pair or is turned away. Only under the null id can a
request be replaced while one of its cycles is in flight. -/
def FitsVocabulary (s : System) : Action → Prop
  | .runCycle now _ id => TurnedAway s.fabric now id ∨ ∀ rs, s.fabric.find id = some rs → Supported rs.req
  | .submit _ req => req.id.isNull = true → (∃ call ∈ s.calls, call.cycle.isSome ∧ call.request = req.id) →
      Supported req
  | _ => True

def cpuExecutors (cfg : CpuProposer.CpuProposerConfig) : Executors := .functions (CpuProposer.propose cfg) verify

theorem nothingAppended (req : SpeculationRequest) : InVocabulary req [] := by
  refine ⟨?_,?_,fun _ => rfl⟩
  · intro t member
    cases member
  · intro t member
    cases member

theorem supportedBelow {req : SpeculationRequest} {appended : List UInt32} (supported : Supported req)
    (below : ∀ t ∈ appended, t.toNat < 4096) : InVocabulary req appended := by
  have inside : ∀ t ∈ appended, t < kSyntheticVocab := fun t member => UInt32.lt_iff_toNat_lt.mpr (below t member)
  refine ⟨?_,?_,fun unsupported => absurd supported unsupported⟩
  · rw [supported.draft]
    exact inside
  · rw [supported.target]
    exact inside

theorem proposedBelow {cfg : CpuProposer.CpuProposerConfig} {pin : ProposalInput} {pr : ProposalResult}
    {candidate : CandidateSequence} (answers : .ok pr = CpuProposer.propose cfg pin)
    (produced : pr.candidate = some candidate) : ∀ t ∈ candidate.tokens, t.id.toNat < 4096 := by
  have drafted : candidate = ⟨CpuProposer.draft cfg pin⟩ := by
    unfold CpuProposer.propose at answers
    split at answers
    · cases answers
      cases produced
    split at answers
    · cases answers
      cases produced
    split at answers
    · cases answers
      cases produced
    · cases answers
      cases produced
      rfl
  rw [drafted]
  exact CpuProposer.draftBelow _ _ _ _ _ _ _

section steps
variable {s s' : System} {a : Action}

theorem supportedKept {id : RequestId} {rs rs' : RequestState} (registry : Registry s) (fits : FitsVocabulary s a)
    (flying : ∃ call ∈ s.calls, call.cycle.isSome ∧ call.request = id) (found : s.fabric.find id = some rs)
    (supported : Supported rs.req) (effect : Effect s id a rs rs') : Supported rs'.req := by
  cases null : id.isNull with
  | false =>
      rw [effectRequest effect (registry.named id rs found) null]
      exact supported
  | true =>
      cases effect with
      | resubmitted events same _ =>
          subst same
          exact fits null flying
      | settled call same facts =>
          rw [facts.advanced.req]
          exact supported
      | _ => exact supported

structure SupportedCalls (s : System) : Prop where
  registry : Registry s
  records : ∀ call ∈ s.calls, call.cycle.isSome → ∀ rs, s.fabric.find call.request = some rs → Supported rs.req

theorem supportedCallsStep (before : SupportedCalls s) (fits : FitsVocabulary s a) (taken : s.step a = some s') :
    SupportedCalls s' := by
  -- a call that was in flight before the step still finds a supported pair
  have kept : ∀ call ∈ s.calls, call.cycle.isSome → ∀ rs', s'.fabric.find call.request = some rs' →
      Supported rs'.req := by
    intro call member active rs' found'
    obtain ⟨rs,found⟩ := Option.isSome_iff_exists.mp (before.registry.registered call member active)
    obtain ⟨next,stored,effect⟩ := stepEffect taken found
    cases Option.some.inj (found'.symm.trans stored)
    exact supportedKept before.registry fits ⟨call,member,active,rfl⟩ found (before.records call member active rs found)
      effect
  refine ⟨registryStep taken before.registry,?_⟩
  intro call member active
  obtain ⟨j,at_⟩ := List.mem_iff_getElem?.mp member
  rcases stepCallFrom taken at_ with ⟨old,_⟩ | ⟨now,eventNow,id,rfl,rfl⟩ | ⟨action,old,_,present,stepped⟩
  · exact kept call (List.mem_of_getElem? old) active
  · obtain ⟨p,planned⟩ := activePlanned active
    obtain ⟨rs,machine,found,_,stored⟩ := planAdmits planned
    rw [← (runCycleStep taken).1] at stored
    intro rs' found'
    rw [begunRequest] at found'
    cases Option.some.inj (found'.symm.trans stored)
    rcases fits with turned | supported
    · obtain ⟨answer,answered⟩ := (turnedAwayIff _ _ eventNow _).mp turned
      rw [planned] at answered
      contradiction
    · exact supported rs found
  · obtain ⟨request,ongoing⟩ := callStays stepped
    rw [request]
    exact kept old (List.mem_of_getElem? present) ongoing

theorem sectionCommits {cfg : CpuProposer.CpuProposerConfig} (registry : Registry s)
    (facts : ∀ call ∈ s.calls, CallFacts (cpuExecutors cfg) call) (ours : a.ofCycle)
    (supported : ∀ index now c rs, a = .call index (.settle now) → s.calls[index]? = some (.settling c) →
      s.fabric.find c.request = some rs → Supported rs.req) (taken : s.step a = some s') : CommitsInVocabulary s s' := by
  intro id rs' found'
  cases found : s.fabric.find id with
  | none =>
      obtain ⟨now,req,events,rfl,_⟩ := stepAppears registry taken found found'
      contradiction
  | some rs =>
      obtain ⟨next,stored,effect⟩ := stepEffect taken found
      cases Option.some.inj (found'.symm.trans stored)
      cases effect with
      | noted _ _ events => exact ⟨rs,[],rfl,rfl,(List.append_nil _).symm,nothingAppended _⟩
      | planned machine events live => exact ⟨rs,[],rfl,rfl,(List.append_nil _).symm,nothingAppended _⟩
      | settled ready same settled =>
          obtain ⟨_,pin,_,answers⟩ := (facts _ (List.mem_of_getElem? ready)).1.proposal _ _ settled.winner
          refine ⟨rs,_,rfl,settled.advanced.req,settled.advanced.committed,?_⟩
          refine supportedBelow (supported _ _ _ rs rfl ready (by rw [same,found])) ?_
          intro t appended
          obtain ⟨token,kept,rfl⟩ := List.mem_map.mp appended
          exact proposedBelow answers settled.produced token (List.mem_of_mem_take kept)
      | _ => contradiction

end steps

theorem committedInVocabulary {cfg : CpuProposer.CpuProposerConfig} {config : Config} {actions : List Action}
    {s s' : System} {a : Action}
    (run : Runs.Trace System.step (fun u b => (cpuExecutors cfg).admits u b ∧ FitsVocabulary u b) (.start config)
      actions s) (ours : a.ofCycle) (taken : s.step a = some s') : CommitsInVocabulary s s' := by
  have start : SupportedCalls (.start config) := ⟨registryStart config,by intro call member; cases member⟩
  have supported : SupportedCalls s :=
    Runs.invariant run start (fun u b v before allowed stepped => supportedCallsStep before allowed.2 stepped)
  refine sectionCommits supported.registry (callFacts (Runs.weaken run fun _ _ allowed => allowed.1)) ours ?_ taken
  intro index now c rs _ ready found
  exact supported.records _ (List.mem_of_getElem? ready) rfl rs found

theorem acceptedInVocabularyExactly {cfg : CpuProposer.CpuProposerConfig} {config : Config} {actions : List Action}
    {s s' : System} {index : Nat} {now : UInt64} {c : Cycle} {rs rs' : RequestState} {won : BranchResult}
    {accept : AcceptanceResult} {candidate : CandidateSequence} (run : Run (cpuExecutors cfg) (.start config) actions s)
    (ready : s.calls[index]? = some (.settling c)) (taken : s.step (.call index (.settle now)) = some s')
    (found : s.fabric.find c.request = some rs) (found' : s'.fabric.find c.request = some rs')
    (settled : Settled c rs won accept candidate rs') (positive : 0 < accept.acceptedPrefix.toNat) :
    CommitsInVocabulary s s' ↔ Supported rs.req := by
  constructor
  · intro inside
    by_contra unsupported
    obtain ⟨held,appended,present,_,grown,vocabulary⟩ := inside c.request rs' found'
    cases Option.some.inj (found.symm.trans present)
    rw [vocabulary.supported unsupported,List.append_nil] at grown
    have longer := congrArg List.length (settled.advanced.committed.symm.trans grown)
    have within := settled.advanced.inside
    simp only [List.length_append,List.length_map,List.length_take,CandidateSequence.size] at longer within
    omega
  · intro supported
    refine sectionCommits (a := .call index (.settle now)) (registry run) (callFacts run) trivial ?_ taken
    intro _ _ _ held same ready' present
    cases same
    cases Option.some.inj (ready.symm.trans ready')
    cases Option.some.inj (found.symm.trans present)
    exact supported

def vocabularyRequest (vocabSize : UInt32) : SpeculationRequest :=
  let model : ModelIdentity :=
    { makeModel ⟨9⟩ with tokenizer := { id := ⟨9⟩, name := "cpu-tok", vocabSize := vocabSize } }
  { makeReq ⟨100⟩ [] with draftModel := model, targetModel := model }

def oneTokenConfig : Config := { policy := { adaptiveDepthEnabled := false, maxDepth := 1, maxBranches := 1 } }

def alignedOnce : CpuProposer.CpuProposerConfig := { alignedTokens := 1 }

def draftedToken : ProposalResult :=
  { outcome := .success
    candidate := some ⟨[{ id := 273 }]⟩
    speculativeState := some {
      ref := { id := ⟨6018027440424182931⟩, generation := ⟨1⟩ }
      role := .speculative
      reservation := .used
      owner := .proposal
      bytesHeld := 64 }
    computeSpent := 8
    memoryHeld := 64
    executionMeasuredNs := 1
    detail := "proposer produced 1 tokens" }

def acceptedToken : AcceptanceResult :=
  { outcome := .fullAccept
    candidateLength := 1
    acceptedPrefix := 1
    firstRejectionIndex := 1
    perPosition := [1]
    authoritativeNextGeneration := ⟨1⟩
    authoritativeNextState := { id := ⟨6018027440424182931⟩, generation := ⟨1⟩ }
    authoritativeNextStateGeneration := ⟨1⟩
    executionMeasuredNs := 1
    verifierNote := "deterministic verifier accepted 1/1" }

def oneTokenActions (vocabSize : UInt32) : List Action :=
  [.submit 1 (vocabularyRequest vocabSize),.runCycle 2 2 ⟨100⟩] ++ oneBranchAnswers 0 draftedToken acceptedToken

def oneTokenRun (vocabSize : UInt32) : Option System :=
  runOf (CpuProposer.propose alignedOnce) verify (.start oneTokenConfig) (oneTokenActions vocabSize)

def heldTokens (s : System) : Option (SpeculationRequest × List UInt32) :=
  (s.fabric.find ⟨100⟩).map fun rs => (rs.req,rs.committed)

theorem heldRecord {s : System} {req : SpeculationRequest} {tokens : List UInt32}
    (held : heldTokens s = some (req,tokens)) :
    ∃ rs, s.fabric.find ⟨100⟩ = some rs ∧ rs.req = req ∧ rs.committed = tokens := by
  obtain ⟨rs,found,same⟩ := Option.map_eq_some_iff.mp held
  cases same
  exact ⟨rs,found,rfl,rfl⟩

def smallSettling : System := (oneTokenRun 100).get (by decide +kernel)

def smallSettled : System := (smallSettling.step (.call 0 (.settle 0))).get (by decide +kernel)

theorem smallVocabularyExceeded :
    Run (cpuExecutors alignedOnce) (.start oneTokenConfig) (oneTokenActions 100) smallSettling ∧
    smallSettling.step (.call 0 (.settle 0)) = some smallSettled ∧
    (pairDecision { req := vocabularyRequest 100 }).compatible = true ∧
    heldTokens smallSettling = some (vocabularyRequest 100,[]) ∧
    heldTokens smallSettled = some (vocabularyRequest 100,[273]) ∧
    ¬CommitsInVocabulary smallSettling smallSettled := by
  have before : heldTokens smallSettling = some (vocabularyRequest 100,[]) := by decide +kernel
  have after : heldTokens smallSettled = some (vocabularyRequest 100,[273]) := by decide +kernel
  refine ⟨runOfRun (by decide +kernel),(Option.some_get _).symm,by decide +kernel,before,after,?_⟩
  intro inside
  obtain ⟨rs',found',_,tokens'⟩ := heldRecord after
  obtain ⟨held,found,request,tokens⟩ := heldRecord before
  obtain ⟨rs,appended,found₀,_,grown,vocabulary⟩ := inside ⟨100⟩ rs' found'
  cases Option.some.inj (found.symm.trans found₀)
  rw [tokens,tokens',List.nil_append] at grown
  subst grown
  have below := vocabulary.draft 273 List.mem_cons_self
  rw [request] at below
  exact absurd below (by decide)

def ownSizeRegistered : System :=
  (System.step (.start oneTokenConfig) (.submit 1 (vocabularyRequest 4096))).get (by decide +kernel)

def ownSizePlanned : System := (ownSizeRegistered.step (.runCycle 2 2 ⟨100⟩)).get (by decide +kernel)

def ownSizeSettling : System :=
  (runOf (CpuProposer.propose alignedOnce) verify ownSizePlanned (oneBranchAnswers 0 draftedToken acceptedToken)).get
    (by decide +kernel)

def ownSizeSettled : System := (ownSizeSettling.step (.call 0 (.settle 0))).get (by decide +kernel)

theorem wholeVocabularyKept : heldTokens ownSizeSettled = some (vocabularyRequest 4096,[273]) ∧
    CommitsInVocabulary ownSizeSettling ownSizeSettled := by
  refine ⟨by decide +kernel,?_⟩
  have held : heldTokens ownSizeRegistered = some (vocabularyRequest 4096,[]) := by decide +kernel
  have supported : ∀ rs, ownSizeRegistered.fabric.find ⟨100⟩ = some rs → Supported rs.req := by
    intro rs found
    obtain ⟨_,found',request,_⟩ := heldRecord held
    cases Option.some.inj (found.symm.trans found')
    rw [request]
    exact ⟨rfl,rfl⟩
  have answered : Run (cpuExecutors alignedOnce) ownSizePlanned (oneBranchAnswers 0 draftedToken acceptedToken)
      ownSizeSettling := runOfRun (by decide +kernel)
  have fitting : Runs.Trace System.step (fun u b => (cpuExecutors alignedOnce).admits u b ∧ FitsVocabulary u b)
      ownSizePlanned (oneBranchAnswers 0 draftedToken acceptedToken) ownSizeSettling := by
    refine Runs.strengthen answered ?_
    intro a member v
    simp only [oneBranchAnswers,List.mem_cons,List.not_mem_nil,or_false] at member
    rcases member with rfl | rfl | rfl | rfl <;> trivial
  have registered : System.step (.start oneTokenConfig) (.submit 1 (vocabularyRequest 4096)) = some ownSizeRegistered :=
    (Option.some_get _).symm
  have planned : ownSizeRegistered.step (.runCycle 2 2 ⟨100⟩) = some ownSizePlanned := (Option.some_get _).symm
  have admitted : FitsVocabulary (.start oneTokenConfig) (.submit 1 (vocabularyRequest 4096)) := fun _ _ => ⟨rfl,rfl⟩
  have supportedStart : FitsVocabulary ownSizeRegistered (.runCycle 2 2 ⟨100⟩) := Or.inr supported
  have run : Runs.Trace System.step (fun u b => (cpuExecutors alignedOnce).admits u b ∧ FitsVocabulary u b)
      (.start oneTokenConfig) (oneTokenActions 4096) ownSizeSettling := by
    refine Runs.cons (And.intro ?_ admitted) registered (Runs.cons (And.intro ?_ supportedStart) planned fitting)
    · trivial
    · trivial
  exact committedInVocabulary run (a := .call 0 (.settle 0)) trivial (Option.some_get _).symm

end SpeculationFabric
