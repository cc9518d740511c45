import SpeculationFabric.Decoding
import SpeculationFabric.Finality
import SpeculationFabric.Progress
import SpeculationFabric.RequestBook

/-! A cycle that was let in is served. Over the CPU executors no turn of it fails, so
after the turns it needs and no sooner it has answered, whatever was interleaved: with
what it committed, or that its request was closed meanwhile. -/
namespace SpeculationFabric

section served
variable {a : Authority} {depth aligned branches : UInt32} {f : Fabric} {c : Cycle} {rs : RequestState}

theorem settleServes (found : f.find c.request = some rs) (live : rs.terminal = false ∧ rs.cancelled = false)
    (some_ : 0 < branches.toNat) (length : c.proposed.length = branches.toNat)
    (full : c.accepted.length = c.proposed.length)
    (drafted : ∀ i br, c.proposed[i]? = some br → Drafted a depth aligned i br)
    (counted : ∀ i accept, c.accepted[i]? = some accept →
      accept.acceptedPrefix.toNat = a.taken (a.draft depth aligned (UInt32.ofNat i))) (now : UInt64) :
    ∃ o f', (Call.settling c).step f (.settle now) = some (.returned c.request (.ok o),f') ∧ SettledKind o.outcome ∧
      o.acceptedTokens.toNat = (a.gains depth aligned branches).length := by
  obtain ⟨o,f',w,k,rs',settles,stored,cpu⟩ := cpuSettles found live some_ length full drafted counted now
  refine ⟨o,f',settles,?_⟩
  cases callStep settles with
  | settles settled =>
      obtain ⟨gains,count⟩ := Authority.chosenGains cpu.chosen
      have kind : SettledKind o.outcome := by
        have outcome := settlement settled
        generalize f' = g at outcome
        cases outcome with
        | stale present closed =>
            cases found.symm.trans present
            rw [live.1,live.2] at closed
            simp at closed
        | settled present facts kind branch there => exact kind
      refine ⟨kind,?_⟩
      rw [settleSection,found] at settled
      have opened : (rs.terminal || rs.cancelled) = false := by rw [live.1,live.2]; rfl
      rcases settlesOpen (c := c) opened with ⟨none,_⟩ | ⟨_,write,mid,tokens,decided,_,record,reply,account⟩
      · rw [none] at settled
        cases settled
      · rw [decided] at settled
        obtain ⟨same,wrote⟩ := Prod.mk.inj (Option.some.inj settled)
        cases same
        have grown : rs'.committed = rs.committed ++ tokens := by
          rw [← wrote,writeSelf,record] at stored
          obtain ⟨events,heard⟩ := heardSame mid (write.note.map (f.event now c.request))
          cases (congrArg some heard).symm.trans stored
          exact congrArg Account.tokens account
        have added : tokens = a.gains depth aligned branches := by
          rw [cpu.committed,gains] at grown
          exact (List.append_cancel_left grown).symm
        have fresh : o.outcome ≠ .staleAuthorityRejected := by
          intro stale
          rw [stale] at kind
          cases kind
        simp only [Answer.reply,if_neg fresh,BookReply.extended.injEq] at reply
        rw [reply,added,← count,UInt32.ofNat_toNat]

end served

def Serves (aligned depth : UInt32) (rs : RequestState) (o : CycleOutcome) : Prop :=
  (o.outcome = .staleAuthorityRejected ∧ (rs.terminal = true ∨ rs.cancelled = true)) ∨
    SettledKind o.outcome ∧ min aligned.toNat depth.toNat ≤ o.acceptedTokens.toNat ∧ o.acceptedTokens.toNat ≤ depth.toNat

def Call.served (aligned depth : UInt32) (rs : RequestState) (call : Call) : Prop :=
  call.cycle.isSome ∨ ∃ o, call = .returned call.request (.ok o) ∧ Serves aligned depth rs o

section turns
variable {aligned depth branches : UInt32} {s : System} {index : Nat} {call next : Call} {action : CallAction}
  {f' : Fabric} {rs : RequestState}

theorem turnServes (positive : 0 < depth.toNat) (bounded : depth.toNat ≤ 256) (some_ : 0 < branches.toNat)
    (present : s.calls[index]? = some call) (found : s.fabric.find call.request = some rs)
    (facts : CallFacts (cpuExecutors { alignedTokens := aligned }) call)
    (allowed : (cpuExecutors { alignedTokens := aligned }).admits s (.call index action))
    (taken : call.step s.fabric action = some (next,f'))
    (gathers : call.Gathers rs.authority depth aligned branches) : next.served aligned depth rs := by
  have ended {c : Cycle} {now : UInt64} (settling : call = .settling c) (last : action = .settle now) :
      next.served aligned depth rs := by
    subst settling last
    have here : s.fabric.find c.request = some rs := found
    cases closed : rs.terminal || rs.cancelled with
    | true =>
        have stale : s.fabric.settle now c = some (s.fabric.settleStale now c.request rs) := by
          simp only [Fabric.settle,here,closed,if_true]
        simp only [Call.step,Cycle.settlementSection,stale] at taken
        cases Option.some.inj taken
        exact .inr ⟨_,rfl,.inl ⟨rfl,by simpa using closed⟩⟩
    | false =>
        obtain ⟨_,length,full,_⟩ := facts
        obtain ⟨o,g,settles,kind,count⟩ := settleServes here (by simpa using closed) some_
          (length.trans (congrArg _ gathers.planned.2)) full gathers.drafted gathers.counted now
        cases settles.symm.trans taken
        have least := rs.authority.gainsLeast depth aligned some_
        have most := rs.authority.gainsSize depth aligned branches
        exact .inr ⟨o,rfl,.inr ⟨kind,count ▸ least,count ▸ most⟩⟩
  cases callStep taken with
  | asks c => exact .inl rfl
  | proposalFailed c pin e =>
      obtain ⟨gathered,held,ready,rfl⟩ := gathers
      obtain ⟨pr,candidate,answers,_⟩ := Authority.proposes (a := rs.authority)
        (proposalInput held c.request c.planned (UInt32.ofNat c.proposed.length)) depth aligned
        (UInt32.ofNat c.proposed.length) ready.state ready.generation ready.revision gathered.planned.1 rfl rfl
        positive bounded
      have failed := allowed c _ present
      cases failed.trans answers
  | proposed c pin pr =>
      obtain ⟨_,_,goes | goes⟩ := proposedGoes c pin pr <;> rw [goes] <;> exact .inl rfl
  | sends at_ produced => exact .inl rfl
  | finds at_ absent =>
      obtain ⟨candidate,produced,_⟩ := (gathers.drafted _ _ at_).candidate
      cases absent.symm.trans produced
  | verificationFailed c vin e =>
      obtain ⟨gathered,held,br,candidate,ready,at_,produced,rfl⟩ := gathers
      have drafted := gathered.drafted _ br at_
      obtain ⟨candidate',produced',ids⟩ := drafted.candidate
      cases produced.symm.trans produced'
      have filled := rs.authority.draftFilled aligned (UInt32.ofNat c.accepted.length) positive
      obtain ⟨accept,answers,_⟩ := Authority.verifies (a := rs.authority)
        (verificationInput held c.request c.planned br candidate) ready.state ready.generation drafted.revision ids
        filled ready.tokenizer rfl
      have failed := allowed c _ present
      cases failed.trans answers
  | verified c vin accept =>
      obtain ⟨_,_,goes | goes⟩ := verifiedGoes c vin accept <;> rw [goes] <;> exact .inl rfl
  | settles => exact ended rfl rfl
  | undecided => exact ended rfl rfl

theorem servedLater {id : RequestId} {a : Action} {rs' : RequestState} (effect : Effect s id a rs rs')
    (own : rs.req.id = id) (named : id.isNull = false) (served : call.served aligned depth rs) :
    call.served aligned depth rs' := by
  rcases served with active | ⟨o,same,⟨stale,closed⟩ | settled⟩
  · exact .inl active
  · have stays := closedEffect effect closed own named
    exact .inr ⟨o,same,.inl ⟨stale,closed.imp stays.terminal stays.cancelled⟩⟩
  · exact .inr ⟨o,same,.inr settled⟩

end turns

structure Serving (aligned depth : UInt32) (index total : Nat) (id : RequestId) (past : List Action) (s : System)
    (call : Call) (rs : RequestState) : Prop where
  at_ : s.calls[index]? = some call
  request : call.request = id
  found : s.fabric.find id = some rs
  counted : turnsTaken index past + call.turnsLeft = total
  served : call.served aligned depth rs

theorem servingStep {cfg : Config} {aligned depth branches : UInt32} {index total : Nat} {id : RequestId}
    {past : List Action} {s t : System} {a : Action} {call : Call} {rs : RequestState} (positive : 0 < depth.toNat)
    (bounded : depth.toNat ≤ 256) (some_ : 0 < branches.toNat) (named : id.isNull = false)
    (session : InSession cfg aligned depth branches id s)
    (allowed : (cpuExecutors { alignedTokens := aligned }).admits s a) (taken : s.step a = some t)
    (serving : Serving aligned depth index total id past s call rs) :
    ∃ next rs', Serving aligned depth index total id (past ++ [a]) t next rs' := by
  obtain ⟨rs',stored,effect⟩ := stepEffect taken serving.found
  have own := session.registry.named id rs serving.found
  rcases stepCallTo taken serving.at_ with ⟨kept,other⟩ | ⟨action,next,rfl,stepped,moved⟩
  · have same := turnsElsewhere other past
    exact ⟨call,rs',kept,serving.request,stored,by rw [same]; exact serving.counted,
      servedLater effect own named serving.served⟩
  · have here := session.facts call (List.mem_of_getElem? serving.at_)
    obtain ⟨requests,ongoing⟩ := callStays stepped
    have found : s.fabric.find call.request = some rs := serving.request ▸ serving.found
    obtain ⟨_,_,gathers⟩ := (session.session rs serving.found).calls call
      (List.mem_of_getElem? serving.at_) serving.request ongoing
    have served := turnServes positive bounded some_ serving.at_ found here allowed stepped gathers
    obtain ⟨_,exactly⟩ := turnSpent here (callFactsKept serving.at_ allowed stepped here) stepped
    have spent : next.turnsLeft + 1 = call.turnsLeft := by
      rcases served with active | ⟨o,ended,_⟩
      · exact exactly active
      · rw [endsBySettling stepped ended,ended]
        rfl
    have one := turnsOwn index past action
    have counted := serving.counted
    exact ⟨next,rs',moved,requests.trans serving.request,stored,by omega,servedLater effect own named served⟩

theorem cyclesServed {cfg : Config} {aligned depth branches : UInt32} {id : RequestId} {before actions : List Action}
    {s t : System} {now eventNow : UInt64} {p : Planned} (fixed : FixedPolicy cfg.policy depth branches)
    (positive : 0 < depth.toNat) (bounded : depth.toNat ≤ 256) (some_ : 0 < branches.toNat) (named : id.isNull = false)
    (run : SessionRun aligned id (.start cfg) before s) (planned : (s.fabric.planCycle now eventNow id).1 = .inr p)
    (later : SessionRun aligned id (.start cfg) (before ++ .runCycle now eventNow id :: actions) t) :
    turnsTaken s.calls.length actions ≤ 4 * branches.toNat + 1 ∧ ∃ call rs', t.calls[s.calls.length]? = some call ∧
      t.fabric.find id = some rs' ∧
      (turnsTaken s.calls.length actions < 4 * branches.toNat + 1 →
        ∃ action, call.awaits action ∧ (t.step (.call s.calls.length action)).isSome) ∧
      (turnsTaken s.calls.length actions = 4 * branches.toNat + 1 →
        ∃ o, call = .returned id (.ok o) ∧ Serves aligned depth rs' o) := by
  obtain ⟨u,allowed,taken,rest⟩ := Runs.resumed run later
  have opens := run.snoc allowed taken
  have session := inSession fixed positive bounded some_ named opens
  obtain ⟨rs,goes⟩ := planGoes planned
  obtain ⟨rs₁,stored,_⟩ := stepEffect taken goes.found
  have there : u.calls[s.calls.length]? = some (.proposing { request := id, planned := p }) := by
    have calls := (runCycleStep taken).2
    rwa [planned] at calls
  have begins : Serving aligned depth s.calls.length (4 * branches.toNat + 1) id [] u
      (.proposing { request := id, planned := p }) rs₁ := by
    obtain ⟨_,_,gathered⟩ := (session.session rs₁ stored).calls _ (List.mem_of_getElem? there) rfl rfl
    have counts : p.branchCount = branches := gathered.planned.2
    refine ⟨there,rfl,stored,?_,.inl rfl⟩
    simp only [turnsTaken,List.countP_nil,Call.turnsLeft,counts,List.length_nil]
    omega
  have all : InSession cfg aligned depth branches id t ∧
      ∃ call rs', Serving aligned depth s.calls.length (4 * branches.toNat + 1) id actions t call rs' := by
    refine Runs.recorded (P := fun past w => InSession cfg aligned depth branches id w ∧
      ∃ call rs', Serving aligned depth s.calls.length (4 * branches.toNat + 1) id past w call rs')
      rest ⟨session,_,_,begins⟩ ?_
    rintro past w a z ⟨inside,call,rs',serving⟩ may moved
    exact ⟨inSessionStep fixed positive bounded some_ named inside may moved,
      servingStep positive bounded some_ named inside may.1 moved serving⟩
  obtain ⟨inside,call,rs',serving⟩ := all
  have here := inside.facts call (List.mem_of_getElem? serving.at_)
  have counted := serving.counted
  refine ⟨by omega,call,rs',serving.at_,serving.found,?_,?_⟩
  · intro less
    have active : call.cycle.isSome := by
      rcases serving.served with active | ⟨o,ended,_⟩
      · exact active
      · rw [ended] at counted
        simp only [Call.turnsLeft] at counted
        omega
    obtain ⟨action,awaits⟩ := awaitsSome active
    have steps := (awaitsTaken here t.fabric action).mpr awaits
    refine ⟨action,awaits,?_⟩
    simp only [System.step,serving.at_,bind,Option.bind_some]
    cases stepped : call.step t.fabric action with
    | none =>
        rw [stepped] at steps
        cases steps
    | some next => rfl
  · intro whole
    rcases serving.served with active | ⟨o,ended,serves⟩
    · have left := turnsPositive here active
      omega
    · exact ⟨o,serving.request ▸ ended,serves⟩

theorem mingledServed : ∃ s t rs o, SessionRun 1 ⟨100⟩ (.start twoSteps) [.submit 1 (makeReq ⟨100⟩ [7])] s ∧
    SessionRun 1 ⟨100⟩ (.start twoSteps) mingledActions t ∧ t.fabric.find ⟨100⟩ = some rs ∧
    turnsTaken 0 (mingledActions.drop 2) = 5 ∧ t.calls[0]? = some (.returned ⟨100⟩ (.ok o)) ∧ Serves 1 2 rs o := by
  have first : SessionRun 1 ⟨100⟩ (.start twoSteps) [.submit 1 (makeReq ⟨100⟩ [7])] _ := .snoc .nil ⟨trivial,trivial⟩ rfl
  have whole : mingledActions = [.submit 1 (makeReq ⟨100⟩ [7])] ++ .runCycle 2 2 ⟨100⟩ :: mingledActions.drop 2 := rfl
  have turns : turnsTaken 0 (mingledActions.drop 2) = 5 := by decide +kernel
  have fixed : FixedPolicy twoSteps.policy 2 1 := ⟨rfl,by decide,rfl,rfl⟩
  obtain ⟨t,run⟩ := mingledRuns
  have later := run
  rw [whole] at later
  obtain ⟨_,call,rs,at_,found,_,answers⟩ := cyclesServed fixed (by decide) (by decide) (by decide) (by decide) first rfl
    later
  obtain ⟨o,rfl,serves⟩ := answers turns
  exact ⟨_,t,rs,o,first,run,found,turns,at_,serves⟩

end SpeculationFabric
