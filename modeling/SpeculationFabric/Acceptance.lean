import SpeculationFabric.CpuVerifier
import SpeculationFabric.Isolation

/-! What a cycle makes authoritative under the CPU verifier. The verifier counts every
agreeing position and the engine commits that many leading tokens, so the two meet
exactly when no agreement follows a disagreement in the winning candidate. -/
namespace SpeculationFabric

structure OnlyAgreeing (vin : VerificationInput) (accept : AcceptanceResult) (appended : List UInt32) : Prop where
  leading : appended = (vin.candidate.tokens.map Token.id).take (Leading.leading (agreements vin))
  positions : ∀ i < appended.length, accept.perPosition[i]? = some 1
  beforeRejection : appended.length ≤ accept.firstRejectionIndex.toNat

theorem onlyAgreeingExactly {vin : VerificationInput} {accept : AcceptanceResult} (judged : Judged vin accept) :
    OnlyAgreeing vin accept ((vin.candidate.tokens.take accept.acceptedPrefix.toNat).map Token.id) ↔
      ¬ Leading.LateAcceptance (agreements vin) := by
  have within : (agreements vin).count true ≤ vin.candidate.tokens.length := by
    have below : (agreements vin).count true ≤ (agreements vin).length := List.count_le_length
    rw [agreementsLength,UInt32.toNat_ofNat'] at below
    exact below.trans (Nat.mod_le _ _)
  have length : ((vin.candidate.tokens.take accept.acceptedPrefix.toNat).map Token.id).length =
      (agreements vin).count true := by
    rw [List.length_map,List.length_take,judged.acceptedPrefix]
    omega
  have shorter := Leading.leadingLeCount (agreements vin)
  rw [← Leading.countEqLeading]
  constructor
  · intro only
    have before := only.beforeRejection
    rw [length,judged.firstRejection] at before
    omega
  · intro same
    refine ⟨?_,?_,?_⟩
    · rw [judged.acceptedPrefix,same,List.map_take]
    · intro i inside
      rw [length,same] at inside
      rw [judged.perPosition,List.getElem?_map,Leading.acceptedBefore inside]
      rfl
    · rw [length,judged.firstRejection,same]

structure CpuVerified (x : Executors) : Prop where
  proposer : ∀ pin answer, x.propose pin answer → ∃ pr candidate, answer = .ok pr ∧ pr.outcome = .success ∧
    pr.candidate = some candidate ∧ candidate.tokens ≠ []
  verifier : ∀ vin answer, x.verify vin answer → answer = verify vin

theorem everyAnswerJudged {x : Executors} {id : RequestId} {s₀ s₂ : System} {c : Cycle} {base : RequestState}
    (cpu : CpuVerified x) (facts : CycleFacts x c) (alone : AloneUntil id s₀ c s₂ base) {i : Nat}
    {accept : AcceptanceResult} (at_ : c.accepted[i]? = some accept) :
    ∃ vin, c.vins[i]? = some vin ∧ Judged vin accept := by
  obtain ⟨vin,br,sent,proposed,produced,_,verified⟩ := facts.verification i accept at_
  obtain ⟨_,pin,_,answered⟩ := facts.proposal i br proposed
  obtain ⟨pr,candidate,same,_,filled,nonempty⟩ := cpu.proposer pin _ answered
  cases same
  rw [produced] at filled
  cases Option.some.inj filled
  obtain ⟨rs,p,from_,tokens,⟨machine,events,rfl⟩,built⟩ := alone.vins vin (List.mem_of_getElem? sent)
  have tokenizer : vin.candidateIdentity.tokenizer.isNull = false := by
    rw [built]
    exact compatibleTokenizer alone.admitted.compatible
  have vocabulary : vin.candidateIdentity.vocabSize = kSyntheticVocab := by
    rw [built]
    rfl
  obtain ⟨report,reported,judged⟩ := verifyJudged nonempty tokenizer vocabulary
  have ours := (cpu.verifier vin _ verified).trans reported
  cases ours
  exact ⟨vin,sent,judged⟩

def agreementCounts (vins : List VerificationInput) : List Nat :=
  vins.map (fun vin => (agreements vin).count true)

theorem acceptedCounts {x : Executors} {id : RequestId} {s₀ s₂ : System} {c : Cycle} {base : RequestState}
    (cpu : CpuVerified x) (facts : CycleFacts x c) (alone : AloneUntil id s₀ c s₂ base) :
    c.accepted.map (fun accept => accept.acceptedPrefix.toNat) = agreementCounts c.vins := by
  apply List.ext_getElem?
  intro i
  rw [agreementCounts,List.getElem?_map,List.getElem?_map]
  cases at_ : c.accepted[i]? with
  | none =>
      rw [List.getElem?_eq_none_iff] at at_
      have past : c.vins[i]? = none := by
        rw [List.getElem?_eq_none_iff,facts.vins]
        exact at_
      rw [past]
      rfl
  | some accept =>
      obtain ⟨vin,sent,judged⟩ := everyAnswerJudged cpu facts alone at_
      rw [sent]
      exact congrArg some judged.acceptedPrefix

theorem verifyInside {vin : VerificationInput} {accept : AcceptanceResult} (ok : verify vin = .ok accept) :
    accept.acceptedPrefix.toNat ≤ vin.candidate.size := by
  by_cases filled : vin.candidate.tokens = []
  · simp only [verify,filled,List.isEmpty_nil,if_true] at ok
    cases ok
    exact Nat.zero_le _
  · cases tokenizer : vin.candidateIdentity.tokenizer.isNull with
    | true =>
        have nonempty : vin.candidate.tokens.isEmpty = false := by simpa using filled
        simp only [verify,nonempty,tokenizer,if_true,Bool.false_eq_true,if_false] at ok
        cases ok
        exact Nat.zero_le _
    | false =>
        by_cases vocabulary : vin.candidateIdentity.vocabSize = kSyntheticVocab
        · obtain ⟨report,reported,judged⟩ := verifyJudged filled tokenizer vocabulary
          cases reported.symm.trans ok
          rw [judged.acceptedPrefix]
          have below : (agreements vin).count true ≤ (agreements vin).length := List.count_le_length
          rw [agreementsLength,UInt32.toNat_ofNat'] at below
          exact below.trans (Nat.mod_le _ _)
        · have nonempty : vin.candidate.tokens.isEmpty = false := by simpa using filled
          simp only [verify,nonempty,tokenizer,vocabulary,Bool.false_eq_true,if_false,ne_eq,not_false_eq_true,
            if_true] at ok
          cases ok
          exact Nat.zero_le _

theorem settlesReturned {x : Executors} {s s' : System} {index : Nat} {now : UInt64} {c : Cycle}
    (facts : CallFacts x (.settling c))
    (bounded : ∀ vin accept, x.verify vin (.ok accept) → accept.acceptedPrefix.toNat ≤ vin.candidate.size)
    (ready : s.calls[index]? = some (.settling c)) (taken : s.step (.call index (.settle now)) = some s') :
    ∃ answer, s'.calls[index]? = some (.returned c.request answer) := by
  obtain ⟨answer,f',settled⟩ := settleDefined facts bounded s.fabric now
  have inside := (List.getElem?_eq_some_iff.mp ready).1
  simp only [System.step,ready,bind,Option.bind_some,Call.step,Cycle.settlementSection,settled] at taken
  cases Option.some.inj taken
  exact ⟨answer,List.getElem?_set_self inside⟩

theorem onlyAgreeingAuthoritativeExactly {x : Executors} {cfg : Config} {past middle : List Action}
    {now eventNow settledAt : UInt64} {id : RequestId} {s₀ s₁ s₂ s₃ : System} {c : Cycle} (cpu : CpuVerified x)
    (before : Run x (.start cfg) past s₀) (begins : s₀.step (.runCycle now eventNow id) = some s₁)
    (alone : RunAlone x id s₀.calls.length s₁ middle s₂)
    (ready : s₂.calls[s₀.calls.length]? = some (.settling c))
    (settles : s₂.step (.call s₀.calls.length (.settle settledAt)) = some s₃) :
    ∃ rs rs' winner vin accept appended,
      s₂.fabric.find id = some rs ∧ s₃.fabric.find id = some rs' ∧ rs'.committed = rs.committed ++ appended ∧
      winner = selectWinner c.accepted c.proposed ∧ FirstBest (agreementCounts c.vins) winner ∧
      c.vins[winner]? = some vin ∧ c.accepted[winner]? = some accept ∧
      (OnlyAgreeing vin accept appended ↔ ¬ Leading.LateAcceptance (agreements vin)) := by
  obtain ⟨base,until_⟩ := aloneUntil begins alone ready
  obtain ⟨rs,found,machine,events,rfl⟩ := until_.record
  have reached : Run x (.start cfg) (past ++ .runCycle now eventNow id :: middle) s₂ :=
    Runs.append before (Runs.cons trivial begins (Runs.weaken alone (fun _ _ both => both.1)))
  have facts : CallFacts x (.settling c) := callFacts reached _ (List.mem_of_getElem? ready)
  have bounded : ∀ vin accept, x.verify vin (.ok accept) → accept.acceptedPrefix.toNat ≤ vin.candidate.size :=
    fun vin accept verified => verifyInside (cpu.verifier vin _ verified).symm
  have here := until_.request.symm ▸ found
  obtain ⟨answer,returned⟩ := settlesReturned facts bounded ready settles
  obtain ⟨rs',o,won,accept,candidate,stored,_,_,_,settled⟩ :=
    returnedLive ready settles returned here (by exact until_.admitted.live)
  have cycle := facts.1
  obtain ⟨vin,sent,judged⟩ := everyAnswerJudged cpu cycle until_ settled.acceptance
  have same : vin.candidate = candidate := by
    obtain ⟨other,br,sent',winner',produced,_,_⟩ := cycle.verification _ _ settled.acceptance
    cases Option.some.inj (sent.symm.trans sent')
    cases Option.some.inj (settled.winner.symm.trans winner')
    exact Option.some.inj (produced.symm.trans settled.produced)
  have first : FirstBest (agreementCounts c.vins) (selectWinner c.accepted c.proposed) := by
    rw [← acceptedCounts cpu cycle until_]
    exact winnerFirstBest facts
  refine ⟨_,rs',_,vin,accept,_,found,until_.request ▸ stored,settled.advanced.committed,rfl,first,sent,
    settled.acceptance,?_⟩
  rw [← same]
  exact onlyAgreeingExactly judged

/- One cycle of a fixed two-token draft against the CPU verifier. The target of this
request starts 3998, 3669. -/
def soloAdmitted : System := { fabric := ((Fabric.new {}).submit 1 (makeReq ⟨100⟩ [])).2 }

def soloPlanned : System :=
  ⟨(soloAdmitted.fabric.planCycle 2 2 ⟨100⟩).2,[begun ⟨100⟩ (soloAdmitted.fabric.planCycle 2 2 ⟨100⟩).1]⟩

def soloDrafting (ids : List UInt32) : List Action :=
  [.call 0 .proposalInput,.call 0 (.proposalResult (.ok (proposedTokens ids))),.call 0 .verificationInput]

def soloInput (ids : List UInt32) : VerificationInput :=
  match aloneOf (drafts ids) verify 0 soloPlanned (soloDrafting ids) with
  | some ⟨_,[.verificationSent _ vin]⟩ => vin
  | _ => {}

def soloActions (ids : List UInt32) : List Action :=
  soloDrafting ids ++ [.call 0 (.verificationResult (verify (soloInput ids)))]

def soloReady (ids : List UInt32) : Option System := aloneOf (drafts ids) verify 0 soloPlanned (soloActions ids)

theorem draftsVerified {ids : List UInt32} (nonempty : ids ≠ []) : CpuVerified (.functions (drafts ids) verify) := by
  refine ⟨?_,fun _ _ answered => answered⟩
  intro pin answer answered
  refine ⟨proposedTokens ids,_,answered,rfl,rfl,?_⟩
  simpa using nonempty

theorem soloBegins : soloAdmitted.step (.runCycle 2 2 ⟨100⟩) = some soloPlanned := rfl

theorem soloBefore (x : Executors) : Run x (.start {}) [.submit 1 (makeReq ⟨100⟩ [])] soloAdmitted :=
  .snoc .nil trivial rfl

def soloHit : System := (soloReady [3998,0]).get (by decide +kernel)

def soloHitSettled : System := (soloHit.step (.call 0 (.settle 9))).get (by decide +kernel)

theorem soloHitOnlyAgreeing : ∃ rs' vin accept appended, soloHitSettled.fabric.find ⟨100⟩ = some rs' ∧
    rs'.committed = [3998] ∧ vin = soloInput [3998,0] ∧ OnlyAgreeing vin accept appended := by
  obtain ⟨c,ready⟩ := readyCall (by decide +kernel : ((soloHit.calls[0]?).bind Call.ready).isSome)
  have inputs : ((soloHit.calls[0]?).bind Call.ready).map Cycle.vins = some [soloInput [3998,0]] := by decide +kernel
  rw [ready] at inputs
  have vins : c.vins = [soloInput [3998,0]] := Option.some.inj inputs
  have verdicts : agreements (soloInput [3998,0]) = [true,false] := by decide +kernel
  have seen : (soloHitSettled.fabric.find ⟨100⟩).map RequestState.committed = some [3998] := by decide +kernel
  obtain ⟨rs,rs',winner,vin,accept,appended,_,stored,_,_,best,sent,_,exactly_⟩ :=
    onlyAgreeingAuthoritativeExactly (draftsVerified (by decide)) (soloBefore _) soloBegins
      (aloneOfRun ⟨100⟩ (by decide +kernel)) ready
      (show soloHit.step (.call 0 (.settle 9)) = some soloHitSettled from (Option.some_get _).symm)
  rw [stored] at seen
  have here : vin = soloInput [3998,0] := by
    rw [vins] at sent
    exact List.mem_singleton.mp (List.mem_of_getElem? sent)
  refine ⟨rs',vin,accept,appended,stored,Option.some.inj seen,here,exactly_.mpr ?_⟩
  rw [here,verdicts,← Leading.countEqLeading]
  rfl

def soloMissed : System := (soloReady [0,3669]).get (by decide +kernel)

def soloMissedSettled : System := (soloMissed.step (.call 0 (.settle 9))).get (by decide +kernel)

theorem missedTokenCommitted : ∃ (c : Cycle) (rs rs' : RequestState) (vin : VerificationInput)
      (accept : AcceptanceResult),
    Run (.functions (drafts [0,3669]) verify) (.start {}) [.submit 1 (makeReq ⟨100⟩ [])] soloAdmitted ∧
    soloAdmitted.step (.runCycle 2 2 ⟨100⟩) = some soloPlanned ∧
    RunAlone (.functions (drafts [0,3669]) verify) ⟨100⟩ 0 soloPlanned (soloActions [0,3669]) soloMissed ∧
    soloMissed.calls[0]? = some (.settling c) ∧
    soloMissed.step (.call 0 (.settle 9)) = some soloMissedSettled ∧
    soloMissed.fabric.find ⟨100⟩ = some rs ∧ soloMissedSettled.fabric.find ⟨100⟩ = some rs' ∧
    rs'.committed = rs.committed ++ [0] ∧ c.vins[selectWinner c.accepted c.proposed]? = some vin ∧
    c.accepted[selectWinner c.accepted c.proposed]? = some accept ∧
    targetSequence vin = [3998,3669] ∧ accept.perPosition = [0,1] ∧ ¬ OnlyAgreeing vin accept [0] := by
  obtain ⟨c,ready⟩ := readyCall (by decide +kernel : ((soloMissed.calls[0]?).bind Call.ready).isSome)
  have locals : ((soloMissed.calls[0]?).bind Call.ready).map (fun c =>
      (c.vins[selectWinner c.accepted c.proposed]?.map targetSequence,
        c.accepted[selectWinner c.accepted c.proposed]?.map (fun accept =>
          (accept.perPosition,accept.firstRejectionIndex)))) =
      some (some [3998,3669],some ([0,1],0)) := by decide +kernel
  have before : (soloMissed.fabric.find ⟨100⟩).map RequestState.committed = some [] := by decide +kernel
  have after : (soloMissedSettled.fabric.find ⟨100⟩).map RequestState.committed = some [0] := by decide +kernel
  rw [ready] at locals
  obtain ⟨vin,sent,target⟩ := Option.map_eq_some_iff.mp (congrArg Prod.fst (Option.some.inj locals))
  obtain ⟨accept,answered,report⟩ := Option.map_eq_some_iff.mp (congrArg Prod.snd (Option.some.inj locals))
  obtain ⟨rs,found,none⟩ := Option.map_eq_some_iff.mp before
  obtain ⟨rs',stored,one⟩ := Option.map_eq_some_iff.mp after
  have settles : soloMissed.step (.call 0 (.settle 9)) = some soloMissedSettled := (Option.some_get _).symm
  have run : RunAlone (.functions (drafts [0,3669]) verify) ⟨100⟩ 0 soloPlanned (soloActions [0,3669]) soloMissed :=
    aloneOfRun ⟨100⟩ (by decide +kernel)
  refine ⟨c,rs,rs',vin,accept,soloBefore _,soloBegins,run,ready,settles,found,stored,?_,sent,answered,target,congrArg Prod.fst report,?_⟩
  · rw [one,none]
    rfl
  · intro only
    have index : accept.firstRejectionIndex = 0 := congrArg Prod.snd report
    have inside := only.beforeRejection
    rw [index] at inside
    exact absurd inside (by decide)

end SpeculationFabric
