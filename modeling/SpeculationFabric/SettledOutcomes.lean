import SpeculationFabric.Unchecked

/-! The outcome a verifier reports and the outcome a cycle reports. Settlement decides
by the accepted prefix and the length of the candidate alone, so the two agree exactly
where the verifier's own outcome says the same as this pair of numbers, and a verifier
that failed is settled like one that answered. A prefix longer than the candidate reads
past its end, and nothing is known of what is reported then. -/
namespace SpeculationFabric

def settledAs : AcceptanceOutcome → Option CycleOutcomeKind
  | .fullAccept => some .verificationSuccessFullAccept
  | .partialAccept => some .verificationSuccessPartialAccept
  | .rejectAll => some .verificationRejectAll
  | .verifierFailure => none

def failureKind (retryable : Bool) : CycleOutcomeKind :=
  if retryable then .verificationRetryableFailure else .verificationNonRetryableFailure

structure SameVerdictCounts (before after : Stats) : Prop where
  full : after.fullAcceptCount = before.fullAcceptCount
  part : after.partialAcceptCount = before.partialAcceptCount
  none : after.fullRejectCount = before.fullRejectCount

/- What a settlement of `accept` may report. A request that was closed meanwhile has no
winning branch. -/
structure SettledAsVerified (s s' : System) (index : Nat) (id : RequestId) (rs : RequestState)
    (accept : AcceptanceResult) : Prop where
  answered : ∃ o, s'.calls[index]? = some (.returned id (.ok o))
  failure : accept.outcome = .verifierFailure → rs.terminal = false → rs.cancelled = false →
    ∃ o, s'.calls[index]? = some (.returned id (.ok o)) ∧ o.outcome = failureKind accept.retryable ∧
      o.commit.success = false ∧ SameVerdictCounts s.fabric.stats s'.fabric.stats
  verdict : ∀ o k, s'.calls[index]? = some (.returned id (.ok o)) → settledAs k = some o.outcome → accept.outcome = k

structure OutcomeFits (accept : AcceptanceResult) (candidate : CandidateSequence) : Prop where
  worked : accept.outcome ≠ .verifierFailure
  inside : accept.acceptedPrefix.toNat ≤ candidate.size
  full : accept.acceptedPrefix = UInt32.ofNat candidate.size → accept.outcome = .fullAccept
  part : accept.acceptedPrefix ≠ UInt32.ofNat candidate.size → accept.acceptedPrefix ≠ 0 → accept.outcome = .partialAccept
  none : accept.acceptedPrefix ≠ UInt32.ofNat candidate.size → accept.acceptedPrefix = 0 → accept.outcome = .rejectAll

def countVerdict (count len : UInt32) : AcceptanceOutcome :=
  if count = len then .fullAccept else if count > 0 then .partialAccept else .rejectAll

theorem settleBranchKind {rs proposed keep candidate prop outcome o rs'} {count rejected len : UInt32}
    (ok : settleBranch rs proposed keep candidate prop outcome count rejected len = some (o,rs')) :
    settledAs (countVerdict count len) = some o.outcome := by
  unfold countVerdict
  rcases settleBranchCases ok with ⟨full,taken⟩ | ⟨short,positive,taken⟩ | ⟨short,rfl,refused⟩
  · rw [if_pos full,(settleAcceptedAdvanced taken).2.2.1]
    rfl
  · rw [if_neg short,if_pos positive,(settleAcceptedAdvanced taken).2.2.1]
    rfl
  · rw [if_neg short,if_neg (by decide)]
    cases refused
    rfl

theorem settledAsInjective {j k : AcceptanceOutcome} {kind : CycleOutcomeKind} (one : settledAs j = some kind)
    (other : settledAs k = some kind) : j = k := by
  cases j <;> cases k <;> cases one <;> first | rfl | cases other

theorem countVerdictFits {accept : AcceptanceResult} {candidate : CandidateSequence}
    (inside : accept.acceptedPrefix.toNat ≤ candidate.size) :
    OutcomeFits accept candidate ↔
      accept.outcome = countVerdict accept.acceptedPrefix (UInt32.ofNat candidate.size) := by
  have positive : accept.acceptedPrefix > 0 ↔ accept.acceptedPrefix ≠ 0 := by
    rw [gt_iff_lt,UInt32.pos_iff_ne_zero]
  unfold countVerdict
  by_cases full : accept.acceptedPrefix = UInt32.ofNat candidate.size
  · rw [if_pos full]
    constructor
    · intro fits
      exact fits.full full
    · intro same
      refine ⟨by rw [same]; decide,inside,fun _ => same,fun short => absurd full short,fun short => absurd full short⟩
  rw [if_neg full]
  by_cases some_ : accept.acceptedPrefix ≠ 0
  · rw [if_pos (positive.mpr some_)]
    constructor
    · intro fits
      exact fits.part full some_
    · intro same
      refine ⟨by rw [same]; decide,inside,fun whole => absurd whole full,fun _ _ => same,fun _ zero => absurd zero some_⟩
  · have zero : accept.acceptedPrefix = 0 := not_not.mp some_
    rw [if_neg (fun above => some_ (positive.mp above))]
    constructor
    · intro fits
      exact fits.none full zero
    · intro same
      refine ⟨by rw [same]; decide,inside,fun whole => absurd whole full,fun _ above => absurd zero above,fun _ _ => same⟩

section settlements
variable {s s' : System} {index : Nat} {now : UInt64} {c : Cycle} {rs : RequestState} {accept : AcceptanceResult}
  {candidate : CandidateSequence}

theorem closedSettledAsVerified (ready : s.calls[index]? = some (.settling c))
    (found : s.fabric.find c.request = some rs) (closed : rs.terminal = true ∨ rs.cancelled = true)
    (settles : s.step (.call index (.settle now)) = some s') :
    SettledAsVerified s s' index c.request rs accept := by
  have stale : (rs.terminal || rs.cancelled) = true := by simpa using closed
  constructor
  · rcases settlingStep ready settles with ⟨answer,w,decided,_,returned⟩ | ⟨undecided,_,_⟩
    · simp only [found,settleDecision,stale,if_true] at decided
      cases Option.some.inj decided
      exact ⟨_,returned⟩
    · simp only [found,settleDecision,stale,if_true] at undecided
      cases undecided
  · intro _ open_ kept
    rw [open_,kept] at stale
    cases stale
  · intro o k returned settled
    have outcome := settlement (returnedSettles ready settles returned)
    generalize s'.fabric = f' at outcome
    cases outcome with
    | stale _ _ kind _ =>
        rw [kind] at settled
        cases k <;> cases settled
    | settled present facts _ _ _ =>
        cases Option.some.inj (found.symm.trans present)
        rw [facts.live.1,facts.live.2] at stale
        cases stale

theorem decidedSettledAsVerified {proposed keep prop outcome o mid} {held : RequestState}
    {rejected : UInt32} (branch : settleBranch held proposed keep candidate prop outcome accept.acceptedPrefix rejected
      (UInt32.ofNat candidate.size) = some (o,mid))
    (returned : s'.calls[index]? = some (.returned c.request (.ok o))) :
    SettledAsVerified s s' index c.request rs accept ↔ OutcomeFits accept candidate := by
  have kind := settleBranchKind branch
  rw [countVerdictFits (settleBranchAdvanced branch).1.inside]
  constructor
  · intro verified
    exact verified.verdict o _ returned kind
  · intro same
    refine ⟨⟨o,returned⟩,?_,?_⟩
    · intro failed
      rw [same] at failed
      rw [failed] at kind
      cases kind
    · intro o' k again settled
      cases returned.symm.trans again
      rw [same]
      exact settledAsInjective kind settled

theorem undecidedSettledAsVerified (outside : ¬accept.acceptedPrefix.toNat ≤ candidate.size)
    (undefined : s'.calls[index]? = some (.undefined c.request)) :
    SettledAsVerified s s' index c.request rs accept ↔ OutcomeFits accept candidate := by
  refine iff_of_false ?_ (fun fits => outside fits.inside)
  intro verified
  obtain ⟨o,returned⟩ := verified.answered
  cases undefined.symm.trans returned

theorem liveSettledAsVerified {x : Executors} (facts : CallFacts x (.settling c))
    (ready : s.calls[index]? = some (.settling c)) (found : s.fabric.find c.request = some rs)
    (live : rs.terminal = false ∧ rs.cancelled = false) (wins : Wins c accept candidate)
    (settles : s.step (.call index (.settle now)) = some s') :
    SettledAsVerified s s' index c.request rs accept ↔ OutcomeFits accept candidate := by
  obtain ⟨won,winner,acceptance,produced⟩ := winsSelected facts wins
  rcases settlingStep ready settles with ⟨answer,w,decided,_,returned⟩ | ⟨undecided,_,undefined⟩
  · rw [found] at decided
    obtain ⟨_,_,_,o,mid,branch,_,rfl,_⟩ := liveBranch winner acceptance produced live decided
    exact decidedSettledAsVerified branch returned
  · refine undecidedSettledAsVerified ?_ undefined
    intro inside
    obtain ⟨answer,f',settled⟩ := settleAnswers winner acceptance produced inside s.fabric now
    rw [settleSection,undecided] at settled
    cases settled

end settlements

theorem plannedUnsettled {f : Fabric} {planNow eventNow : UInt64} {id : RequestId} {o : CycleOutcome}
    (planned : (f.planCycle planNow eventNow id).1 = .inl (.ok o)) (k : AcceptanceOutcome) : settledAs k ≠ some o.outcome := by
  intro settled
  rw [planSection] at planned
  cases found : f.find id with
  | none =>
      rw [found] at planned
      cases planned
  | some rs =>
      rw [found] at planned
      dsimp only [planDecision,admitDecision] at planned
      repeat' split at planned
      all_goals cases planned
      all_goals cases k <;> cases settled

theorem answeredBySettling {f f' : Fabric} {call : Call} {action : CallAction} {id : RequestId} {o : CycleOutcome}
    (taken : call.step f action = some (.returned id (.ok o),f')) :
    ∃ c now, call = .settling c ∧ action = .settle now := by
  generalize returned : Call.returned id (.ok o) = next at taken
  cases callStep taken with
  | proposed c pin pr =>
      obtain ⟨_,rfl,goes | goes⟩ := proposedGoes c pin pr <;> rw [goes] at returned <;> cases returned
  | verified c vin accept =>
      obtain ⟨_,rfl,goes | goes⟩ := verifiedGoes c vin accept <;> rw [goes] at returned <;> cases returned
  | settles settled => exact ⟨_,_,rfl,rfl⟩
  | _ => cases returned

theorem settledBySettlement {s s' : System} {a : Action} {index : Nat} {id : RequestId} {o : CycleOutcome}
    {k : AcceptanceOutcome} (taken : s.step a = some s') (returned : s'.calls[index]? = some (.returned id (.ok o)))
    (fresh : s.calls[index]? ≠ some (.returned id (.ok o))) (settled : settledAs k = some o.outcome) :
    ∃ now c, a = .call index (.settle now) ∧ s.calls[index]? = some (.settling c) := by
  rcases stepCallFrom taken returned with ⟨old,_⟩ | ⟨now,eventNow,opened,_,begins⟩ | ⟨action,old,rfl,present,stepped⟩
  · exact absurd old fresh
  · cases planned : (s.fabric.planCycle now eventNow opened).1 with
    | inl answer =>
        rw [planned] at begins
        cases begins
        exact absurd settled (plannedUnsettled planned k)
    | inr p =>
        rw [planned] at begins
        cases begins
  · obtain ⟨c,now,rfl,rfl⟩ := answeredBySettling stepped
    exact ⟨now,c,rfl,present⟩

theorem settledAsVerifiedExactly {x : Executors} {cfg : Config} {actions : List Action} {s : System}
    (run : Run x (.start cfg) actions s) :
    (∀ index now c rs accept candidate s', s.calls[index]? = some (.settling c) →
      s.fabric.find c.request = some rs → Wins c accept candidate → s.step (.call index (.settle now)) = some s' →
      (SettledAsVerified s s' index c.request rs accept ↔
        rs.terminal = true ∨ rs.cancelled = true ∨ OutcomeFits accept candidate)) ∧
    ∀ a s' index id o k, s.step a = some s' → s'.calls[index]? = some (.returned id (.ok o)) →
      s.calls[index]? ≠ some (.returned id (.ok o)) → settledAs k = some o.outcome →
      ∃ now c, a = .call index (.settle now) ∧ s.calls[index]? = some (.settling c) := by
  constructor
  · intro index now c rs accept candidate s' ready found wins settles
    have facts := callFacts run _ (List.mem_of_getElem? ready)
    by_cases closed : rs.terminal = true ∨ rs.cancelled = true
    · have verified : SettledAsVerified s s' index c.request rs accept :=
        closedSettledAsVerified ready found closed settles
      exact iff_of_true verified (closed.elim .inl fun cancelled => .inr (.inl cancelled))
    · have live : rs.terminal = false ∧ rs.cancelled = false := by simpa using closed
      rw [liveSettledAsVerified facts ready found live wins settles,live.1,live.2]
      simp
  · intro a s' index id o k taken returned fresh settled
    exact settledBySettlement taken returned fresh settled

theorem winsOnly {c : Cycle} {accept : AcceptanceResult} {pr : ProposalResult} {candidate : CandidateSequence}
    (accepted : c.accepted = [accept]) (proposed : c.proposed.map BranchResult.pr = [pr])
    (produced : pr.candidate = some candidate) : Wins c accept candidate := by
  obtain ⟨won,only,rfl⟩ := List.map_eq_singleton_iff.mp proposed
  refine ⟨0,won,?_,by rw [only]; rfl,by rw [accepted]; rfl,produced⟩
  rw [accepted]
  refine ⟨Nat.zero_lt_one,?_,fun j before => absurd before (Nat.not_lt_zero j)⟩
  intro j inside
  cases Nat.lt_one_iff.mp inside
  exact Nat.le_refl _

def wholeVerdict : AcceptanceResult := { outcome := .fullAccept, candidateLength := 2, acceptedPrefix := 2 }

def takesWhole (_ : VerificationInput) : Result AcceptanceResult := .ok wholeVerdict

def wholeActions : List Action :=
  [.submit 1 (makeReq ⟨100⟩ []),.runCycle 2 2 ⟨100⟩] ++ oneBranchAnswers 0 (proposedTokens [5,6]) wholeVerdict

def wholeSystem : System := (runOf (drafts [5,6]) takesWhole (.start {}) wholeActions).get (by decide +kernel)

def wholeSettled : System := (wholeSystem.step (.call 0 (.settle 3))).get (by decide +kernel)

theorem wholeSettledAsVerified : ∃ c rs, wholeSystem.calls[0]? = some (.settling c) ∧
    SettledAsVerified wholeSystem wholeSettled 0 c.request rs wholeVerdict := by
  have run : Run (.functions (drafts [5,6]) takesWhole) (.start {}) wholeActions wholeSystem :=
    runOfRun (by decide +kernel)
  obtain ⟨c,ready⟩ := readyCall (by decide +kernel : ((wholeSystem.calls[0]?).bind Call.ready).isSome)
  have answers : ((wholeSystem.calls[0]?).bind Call.ready).map (fun c => (c.accepted,c.proposed.map BranchResult.pr)) =
      some ([wholeVerdict],[proposedTokens [5,6]]) := by decide +kernel
  rw [ready] at answers
  obtain ⟨accepted,proposed⟩ := Prod.mk.inj (Option.some.inj answers)
  have wins := winsOnly accepted proposed rfl
  obtain ⟨⟨rs,found⟩,_⟩ := settlementPosed run ready
  have settles : wholeSystem.step (.call 0 (.settle 3)) = some wholeSettled := (Option.some_get _).symm
  refine ⟨c,rs,ready,((settledAsVerifiedExactly run).1 0 3 c rs _ _ _ ready found wins settles).mpr (.inr (.inr ?_))⟩
  exact ⟨by decide,by decide,fun _ => rfl,fun short => absurd rfl short,fun short => absurd rfl short⟩

def emptyVerdict : AcceptanceResult :=
  { outcome := .verifierFailure, retryable := true, verifierNote := "candidate is empty" }

def emptyActions : List Action :=
  [.submit 1 (makeReq ⟨100⟩ []),.runCycle 2 2 ⟨100⟩] ++ oneBranchAnswers 0 (proposedTokens []) emptyVerdict

def emptySystem : System := (runOf (drafts []) verify (.start {}) emptyActions).get (by decide +kernel)

def emptySettled : System := (emptySystem.step (.call 0 (.settle 3))).get (by decide +kernel)

def reportedVerdict : Call → Option (CycleOutcomeKind × Bool)
  | .returned _ (.ok o) => some (o.outcome,o.commit.success)
  | _ => none

theorem emptyFailureSettled : ∃ c rs, Run (.functions (drafts []) verify) (.start {}) emptyActions emptySystem ∧
    emptySystem.calls[0]? = some (.settling c) ∧ emptySystem.fabric.find c.request = some rs ∧
    rs.terminal = false ∧ rs.cancelled = false ∧ Wins c emptyVerdict ⟨[]⟩ ∧
    emptySystem.step (.call 0 (.settle 3)) = some emptySettled ∧
    (emptySettled.calls[0]?).bind reportedVerdict = some (.verificationSuccessFullAccept,true) ∧
    emptySettled.fabric.stats.fullAcceptCount = emptySystem.fabric.stats.fullAcceptCount + 1 ∧
    ¬SettledAsVerified emptySystem emptySettled 0 c.request rs emptyVerdict := by
  have run : Run (.functions (drafts []) verify) (.start {}) emptyActions emptySystem := runOfRun (by decide +kernel)
  obtain ⟨c,ready⟩ := readyCall (by decide +kernel : ((emptySystem.calls[0]?).bind Call.ready).isSome)
  have answers : ((emptySystem.calls[0]?).bind Call.ready).map
      (fun c => (c.request,c.accepted,c.proposed.map BranchResult.pr)) =
      some (⟨100⟩,[emptyVerdict],[proposedTokens []]) := by decide +kernel
  rw [ready] at answers
  obtain ⟨request,rest⟩ := Prod.mk.inj (Option.some.inj answers)
  obtain ⟨accepted,proposed⟩ := Prod.mk.inj rest
  obtain ⟨⟨rs,found⟩,_⟩ := settlementPosed run ready
  have flags : (emptySystem.fabric.find ⟨100⟩).map (fun rs => (rs.terminal,rs.cancelled)) = some (false,false) := by
    decide +kernel
  rw [← request,found] at flags
  obtain ⟨open_,kept⟩ := Prod.mk.inj (Option.some.inj flags)
  have reported : (emptySettled.calls[0]?).bind reportedVerdict = some (.verificationSuccessFullAccept,true) := by
    decide +kernel
  refine ⟨c,rs,run,ready,found,open_,kept,winsOnly accepted proposed rfl,(Option.some_get _).symm,reported,
    by decide +kernel,?_⟩
  intro verified
  obtain ⟨o,returned,kind,_⟩ := verified.failure rfl open_ kept
  rw [returned,Option.bind_some,reportedVerdict,kind] at reported
  cases reported

end SpeculationFabric
