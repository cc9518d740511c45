import SpeculationFabric.Coordinator

/-! What one event can do to a coordinator: one lemma for each operation, and the cases
of a worker's reply, of a driver's message and of a whole step. Everything later is
derived from these; the operations are not unfolded again. -/
namespace SpeculationFabric.Dist

open Wire

theorem lookupStoreSelf (c : Coordinator) (id : UInt64) (r : CReq) : (c.store id r).requests.lookup id = some r :=
  AList.lookup_insert _

theorem lookupStoreOther (c : Coordinator) {id other : UInt64} (r : CReq) (different : other ≠ id) :
    (c.store id r).requests.lookup other = c.requests.lookup other :=
  AList.lookup_insert_ne different

@[simp] theorem requestStoreSelf (c : Coordinator) (id : UInt64) (r : CReq) : (c.store id r).request id = r := by
  rw [Coordinator.request,lookupStoreSelf,Option.getD_some]

theorem validateClear (r : CReq) (epoch boot attempt basegen propgen current : UInt64) :
    validateAuthority r epoch boot attempt basegen propgen current = "" ↔
      epoch = r.epoch.value ∧ boot = current ∧ attempt = r.attempt.value ∧ basegen = r.authGen.value ∧
        propgen = r.propGen := by
  rw [validateAuthority]
  split
  · simp_all [kReasonStaleEpoch]
  split
  · simp_all [kReasonStaleBoot]
  split
  · simp_all [kReasonStaleAttempt]
  split
  · simp_all [kReasonWrongBase]
  split
  · simp_all [kReasonStaleGeneration]
  · simp_all

def Short (why : String) : Prop := (text why).length ≤ 1024 * 1024

theorem staleShort (r : CReq) (epoch boot attempt basegen propgen current : UInt64) :
    Short ("stale:" ++ validateAuthority r epoch boot attempt basegen propgen current) := by
  rw [validateAuthority,Short]
  repeat' split
  all_goals decide +kernel

theorem verdictShort (r : CReq) (epoch boot attempt basegen propgen current : UInt64) :
    Short (validateAuthority r epoch boot attempt basegen propgen current) := by
  rw [validateAuthority,Short]
  repeat' split
  all_goals decide +kernel

theorem sendConforming (c : Coordinator) (channel : Message → Output) {m : Message} (next : Phase)
    (sound : Conforming m) : c.send channel m next = { c with log := c.log ++ [channel m], phase := next } := by
  rw [Coordinator.send,conformingEncodes sound]

theorem sendCases (c : Coordinator) (channel : Message → Output) (m : Message) (next : Phase) :
    c.send channel m next = c.undefine ∨
      c.send channel m next = { c with log := c.log ++ [channel m], phase := next } := by
  rw [Coordinator.send]
  split
  · exact .inl rfl
  · exact .inr rfl

@[simp] theorem sendRequests (c : Coordinator) (channel : Message → Output) (m : Message) (next : Phase) :
    (c.send channel m next).requests = c.requests := by
  obtain same | same := sendCases c channel m next
  · rw [same]
    rfl
  · rw [same]

@[simp] theorem finishRequests (c : Coordinator) (d : Drive) (result : DriveResult) :
    (c.finish d result).requests = c.requests := by
  rw [Coordinator.finish,sendRequests]

theorem typedConforms {m : Message} (t : Msg) (version : m.protocolVersion = Wire.protocolVersion) (same : m.type = t)
    (known : t ∈ Msg.declared ∧ t ≠ Msg.null) (u64s : m.u64Fields.length ≤ 64) (u32s : m.u32Fields.length ≤ 64)
    (body : m.body.length ≤ 1024 * 1024) : Conforming m :=
  ⟨version,same ▸ known.1,same ▸ known.2,u64s,u32s,body⟩

theorem driverMessageConforms (r : CReq) (reqid : UInt64) {result : DriveResult}
    (short : ∀ why, result = .failed why → Short why) : Conforming (driverMessage r reqid result) := by
  cases result with
  | ok accepted branch firstrej =>
      exact typedConforms Msg.commit rfl rfl (by decide) (by simp [driverMessage]) (by simp [driverMessage])
        (by simp [driverMessage])
  | failed why =>
      exact typedConforms Msg.reject rfl rfl (by decide) (by simp [driverMessage]) (by simp [driverMessage]) (short why rfl)

theorem finishAnswers (c : Coordinator) (d : Drive) {result : DriveResult}
    (short : ∀ why, result = .failed why → Short why) :
    c.finish d result = { c with
      log := c.log ++ [.submitted d.reqid result,.toDriver (driverMessage (c.request d.reqid) d.reqid result)]
      phase := .waiting } := by
  rw [Coordinator.finish,sendConforming _ _ _ (driverMessageConforms _ _ short)]
  simp only [List.append_assoc,List.cons_append,List.nil_append]

theorem finishFailed (c : Coordinator) (d : Drive) {why : String} (short : Short why) :
    c.finish d (.failed why) = { c with
      log := c.log ++ [.submitted d.reqid (.failed why),
        .toDriver (driverMessage (c.request d.reqid) d.reqid (.failed why))]
      phase := .waiting } := by
  apply finishAnswers
  intro other same
  cases same
  exact short

theorem finishOk (c : Coordinator) (d : Drive) (accepted : UInt32) (branch : UInt64) (firstrej : UInt32) :
    c.finish d (.ok accepted branch firstrej) = { c with
      log := c.log ++ [.submitted d.reqid (.ok accepted branch firstrej),
        .toDriver (driverMessage (c.request d.reqid) d.reqid (.ok accepted branch firstrej))]
      phase := .waiting } := by
  apply finishAnswers
  intro why failed
  cases failed

theorem proposalDispatchConforms (r : CReq) (d : Drive) (boot : UInt64) : Conforming (proposalDispatch r d boot) :=
  typedConforms Msg.proposalDispatch rfl rfl (by decide) (by simp [proposalDispatch]) (by simp [proposalDispatch])
    (by simp [proposalDispatch])

theorem verificationDispatchConforms (r : CReq) (d : Drive) {toks : List UInt32} (boot : UInt64)
    (fits : toks.length ≤ 61) : Conforming (verificationDispatch r d toks boot) :=
  typedConforms Msg.verificationDispatch rfl rfl (by decide) (by simp [verificationDispatch]) (by simp [verificationDispatch]; omega)
    (by simp [verificationDispatch])

def CReq.counted (r : CReq) : CReq := { r with propGen := r.propGen + 1 }

theorem openBranchSends (c : Coordinator) (d : Drive) :
    c.openBranch d = { c with
      requests := c.requests.insert d.reqid (c.request d.reqid).counted
      log := c.log ++ [.toProposer (proposalDispatch (c.request d.reqid).counted d c.proposerBoot)]
      phase := .proposing d } := by
  rw [Coordinator.openBranch]
  exact sendConforming _ _ _ (proposalDispatchConforms _ _ _)

theorem openBranchRequest (c : Coordinator) (d : Drive) :
    (c.openBranch d).request d.reqid = (c.request d.reqid).counted := by
  rw [openBranchSends]
  exact requestStoreSelf c d.reqid _

def Coordinator.asked (c : Coordinator) (d : Drive) : Message :=
  proposalDispatch (c.request d.reqid) d c.proposerBoot

theorem openBranchAsks (c : Coordinator) (d : Drive) :
    (c.openBranch d).log.getLast? = some (.toProposer ((c.openBranch d).asked d)) := by
  rw [Coordinator.asked,openBranchRequest,openBranchSends]
  exact List.getLast?_concat

theorem readFieldsLength {fields : List UInt32} {start count : Nat} {toks : List UInt32}
    (reads : readFields fields start count = some toks) : toks.length = count := by
  rw [readFields] at reads
  split at reads
  · rename_i there
    cases reads
    rw [List.length_take,List.length_drop]
    omega
  · cases reads

structure ProposalCurrent (c : Coordinator) (d : Drive) (pr : Message) : Prop where
  epoch : pr.u64Fields[prEpoch]? = some (c.request d.reqid).epoch.value
  boot : pr.u64Fields[prProposerBoot]? = some c.proposerBoot
  attempt : pr.u64Fields[prAttempt]? = some (c.request d.reqid).attempt.value
  baseGen : pr.u64Fields[prBaseGen]? = some (c.request d.reqid).authGen.value
  propGen : pr.u64Fields[prPropogen]? = some (c.request d.reqid).propGen

structure VerdictCurrent (c : Coordinator) (d : Drive) (vr : Message) : Prop where
  epoch : vr.u64Fields[vrEpoch]? = some (c.request d.reqid).epoch.value
  attempt : vr.u64Fields[vrAttempt]? = some (c.request d.reqid).attempt.value
  baseGen : vr.u64Fields[vrBaseGen]? = some (c.request d.reqid).authGen.value

theorem readProposalCases {c t : Coordinator} {d : Drive} {pr : Message} (reads : c.readProposal d pr = some t) :
    (∃ why, ¬(ProposalCurrent c d pr ∧ pr.u32Fields[prOutcome]? = some kOutcomeSuccess) ∧ Short why ∧
      t = c.finish d (.failed why)) ∨
    ∃ toks, ProposalCurrent c d pr ∧ pr.u32Fields[prOutcome]? = some kOutcomeSuccess ∧
      readFields pr.u32Fields prTokens d.depth.toNat = some toks ∧
      t = c.send .toVerifier (verificationDispatch (c.request d.reqid) d toks c.verifierBoot) (.verifying d toks) := by
  simp only [Coordinator.readProposal,bind,Option.bind_eq_some_iff] at reads
  obtain ⟨epoch,atEpoch,boot,atBoot,attempt,atAttempt,basegen,atBase,propgen,atProp,reads⟩ := reads
  split at reads
  · rename_i stale
    cases reads
    refine .inl ⟨_,?_,staleShort _ _ _ _ _ _ _,rfl⟩
    rintro ⟨current,_⟩
    exact stale ((validateClear _ _ _ _ _ _ _).mpr ⟨Option.some.inj (atEpoch.symm.trans current.epoch),
      Option.some.inj (atBoot.symm.trans current.boot),Option.some.inj (atAttempt.symm.trans current.attempt),
      Option.some.inj (atBase.symm.trans current.baseGen),Option.some.inj (atProp.symm.trans current.propGen)⟩)
  rename_i clear
  obtain ⟨rfl,rfl,rfl,rfl,rfl⟩ := (validateClear _ _ _ _ _ _ _).mp (not_not.mp clear)
  obtain ⟨outcome,atOutcome,reads⟩ := Option.bind_eq_some_iff.mp reads
  split at reads
  · rename_i failed
    cases reads
    refine .inl ⟨_,?_,by rw [Short]; decide +kernel,rfl⟩
    rintro ⟨_,success⟩
    exact failed (Option.some.inj (atOutcome.symm.trans success))
  rename_i success
  cases not_not.mp success
  obtain ⟨toks,atTokens,last⟩ := Option.bind_eq_some_iff.mp reads
  cases last
  exact .inr ⟨toks,⟨atEpoch,atBoot,atAttempt,atBase,atProp⟩,atOutcome,atTokens,rfl⟩

theorem gateFields {m : Message} (u64s : 11 ≤ m.u64Fields.length) :
    ∃ epoch boot attempt basegen propgen, m.u64Fields[prEpoch]? = some epoch ∧
      m.u64Fields[prProposerBoot]? = some boot ∧ m.u64Fields[prAttempt]? = some attempt ∧
      m.u64Fields[prBaseGen]? = some basegen ∧ m.u64Fields[prPropogen]? = some propgen := by
  have there : ∀ i, i < 11 → ∃ v, m.u64Fields[i]? = some v :=
    fun i small => ⟨_,List.getElem?_eq_getElem (by omega)⟩
  obtain ⟨epoch,atEpoch⟩ := there prEpoch (by decide)
  obtain ⟨boot,atBoot⟩ := there prProposerBoot (by decide)
  obtain ⟨attempt,atAttempt⟩ := there prAttempt (by decide)
  obtain ⟨basegen,atBase⟩ := there prBaseGen (by decide)
  obtain ⟨propgen,atProp⟩ := there prPropogen (by decide)
  exact ⟨epoch,boot,attempt,basegen,propgen,atEpoch,atBoot,atAttempt,atBase,atProp⟩

theorem readProposalStale {c : Coordinator} {d : Drive} {pr : Message} (u64s : 11 ≤ pr.u64Fields.length)
    (u32s : 2 ≤ pr.u32Fields.length)
    (stale : ¬(ProposalCurrent c d pr ∧ pr.u32Fields[prOutcome]? = some kOutcomeSuccess)) :
    ∃ why, c.readProposal d pr = some (c.finish d (.failed why)) := by
  obtain ⟨epoch,boot,attempt,basegen,propgen,atEpoch,atBoot,atAttempt,atBase,atProp⟩ := gateFields u64s
  obtain ⟨outcome,atOutcome⟩ : ∃ v, pr.u32Fields[prOutcome]? = some v :=
    ⟨_,List.getElem?_eq_getElem (show prOutcome < _ by rw [prOutcome]; omega)⟩
  simp only [Coordinator.readProposal,atEpoch,atBoot,atAttempt,atBase,atProp,atOutcome,bind,Option.bind_some]
  split
  · exact ⟨_,rfl⟩
  rename_i clear
  obtain ⟨rfl,rfl,rfl,rfl,rfl⟩ := (validateClear _ _ _ _ _ _ _).mp (not_not.mp clear)
  split
  · exact ⟨_,rfl⟩
  · rename_i success
    cases not_not.mp success
    exact absurd ⟨⟨atEpoch,atBoot,atAttempt,atBase,atProp⟩,atOutcome⟩ stale

theorem readProposalGoes {c : Coordinator} {d : Drive} {pr : Message} {toks : List UInt32}
    (current : ProposalCurrent c d pr) (success : pr.u32Fields[prOutcome]? = some kOutcomeSuccess)
    (tokens : readFields pr.u32Fields prTokens d.depth.toNat = some toks) : c.readProposal d pr =
      some (c.send .toVerifier (verificationDispatch (c.request d.reqid) d toks c.verifierBoot) (.verifying d toks)) := by
  have clear := (validateClear (c.request d.reqid) _ _ _ _ _ c.proposerBoot).mpr ⟨rfl,rfl,rfl,rfl,rfl⟩
  simp only [Coordinator.readProposal,current.epoch,current.boot,current.attempt,current.baseGen,current.propGen,success,
    tokens,bind,Option.bind_some,clear,ne_eq,not_true_eq_false,if_false]

def Coordinator.questioned (c : Coordinator) (d : Drive) (toks : List UInt32) : Coordinator :=
  { c with
    log := c.log ++ [.toVerifier (verificationDispatch (c.request d.reqid) d toks c.verifierBoot)]
    phase := .verifying d toks }

theorem proposerReplyCases (c : Coordinator) (d : Drive) (reply : Reply) :
    c.proposerReply d reply = c.undefine ∨
    (∃ why, Short why ∧ c.proposerReply d reply = c.finish d (.failed why)) ∨
    ∃ toks, toks.length = d.depth.toNat ∧ c.proposerReply d reply = c.questioned d toks := by
  cases reply with
  | sendFailed => exact .inr (.inl ⟨_,by rw [Short]; decide +kernel,rfl⟩)
  | recvFailed => exact .inr (.inl ⟨_,by rw [Short]; decide +kernel,rfl⟩)
  | frame bytes =>
      rw [Coordinator.proposerReply]
      split
      · exact .inr (.inl ⟨_,by rw [Short]; decide +kernel,rfl⟩)
      · rename_i pr _
        cases found : c.readProposal d pr with
        | none => exact .inl rfl
        | some t =>
            rw [Option.getD_some]
            obtain ⟨why,_,failed⟩ | ⟨toks,_,_,tokens,sent⟩ := readProposalCases found
            · exact .inr (.inl ⟨why,failed⟩)
            · rw [sent]
              obtain large | goes := sendCases c .toVerifier
                (verificationDispatch (c.request d.reqid) d toks c.verifierBoot) (.verifying d toks)
              · exact .inl large
              · exact .inr (.inr ⟨toks,readFieldsLength tokens,goes⟩)

def Drive.recorded (d : Drive) (br : Br) : Drive := { d with brs := d.brs ++ [br] }

theorem readVerdictCases {c t : Coordinator} {d : Drive} {toks : List UInt32} {vr : Message}
    (reads : c.readVerdict d toks vr = some t) :
    (∃ reason, ¬VerdictCurrent c d vr ∧ Short ("stale:" ++ reason) ∧
      t = c.finish d (.failed ("stale:" ++ reason))) ∨
    ∃ br : Br, VerdictCurrent c d vr ∧ br.branch = (d.b + 1).toUInt64 ∧ br.toks = toks ∧
      vr.u32Fields[vrAccepted]? = some br.accepted ∧ t = c.advance (d.recorded br) := by
  simp only [Coordinator.readVerdict,bind,Option.bind_eq_some_iff] at reads
  obtain ⟨epoch,atEpoch,attempt,atAttempt,basegen,atBase,reads⟩ := reads
  split at reads
  · rename_i stale
    cases reads
    refine .inl ⟨_,?_,staleShort _ _ _ _ _ _ _,rfl⟩
    intro current
    exact stale ((validateClear _ _ _ _ _ _ _).mpr ⟨Option.some.inj (atEpoch.symm.trans current.epoch),rfl,
      Option.some.inj (atAttempt.symm.trans current.attempt),Option.some.inj (atBase.symm.trans current.baseGen),rfl⟩)
  rename_i clear
  obtain ⟨rfl,_,rfl,rfl,_⟩ := (validateClear _ _ _ _ _ _ _).mp (not_not.mp clear)
  simp only [Option.bind_eq_some_iff] at reads
  obtain ⟨accepted,atAccepted,firstrej,_,outcome,_,last⟩ := reads
  cases last
  exact .inr ⟨_,⟨atEpoch,atAttempt,atBase⟩,rfl,rfl,atAccepted,rfl⟩

theorem verifierReplyCases (c : Coordinator) (d : Drive) (toks : List UInt32) (reply : Reply) :
    c.verifierReply d toks reply = c.undefine ∨
    (∃ why, Short why ∧ c.verifierReply d toks reply = c.finish d (.failed why)) ∨
    ∃ (bytes : List UInt8) (vr : Message) (br : Br), reply = .frame bytes ∧ decode bytes = .ok vr ∧
      VerdictCurrent c d vr ∧ br.branch = (d.b + 1).toUInt64 ∧ br.toks = toks ∧
      vr.u32Fields[vrAccepted]? = some br.accepted ∧ c.verifierReply d toks reply = c.advance (d.recorded br) := by
  cases reply with
  | sendFailed => exact .inr (.inl ⟨_,by rw [Short]; decide +kernel,rfl⟩)
  | recvFailed => exact .inr (.inl ⟨_,by rw [Short]; decide +kernel,rfl⟩)
  | frame bytes =>
      rw [Coordinator.verifierReply]
      split
      · exact .inr (.inl ⟨_,by rw [Short]; decide +kernel,rfl⟩)
      · rename_i vr decoded
        cases found : c.readVerdict d toks vr with
        | none => exact .inl rfl
        | some t =>
            rw [Option.getD_some]
            obtain ⟨reason,_,failed⟩ | ⟨br,current,branch,tokens,accepted,next⟩ := readVerdictCases found
            · exact .inr (.inl ⟨_,failed⟩)
            · exact .inr (.inr ⟨bytes,vr,br,rfl,decoded,current,branch,tokens,accepted,next⟩)

theorem betterInside {brs : List Br} {w i : Nat} (inside : w < brs.length) : betterBr brs w i < brs.length := by
  rw [betterBr]
  split
  · rename_i challenger best found _
    split
    · exact (List.getElem?_eq_some_iff.mp found).1
    · exact inside
  · exact inside

theorem winningInside {brs : List Br} (some_ : 0 < brs.length) : winningBr brs < brs.length := by
  rw [winningBr]
  generalize List.range' 1 (brs.length - 1) = indices
  generalize 0 = w at some_ ⊢
  induction indices generalizing w with
  | nil => exact some_
  | cons i rest ih => exact ih _ (betterInside some_)

theorem concludeCases (c : Coordinator) (d : Drive) :
    c.conclude d = c.undefine ∨
    ∃ win ∈ d.brs, win.accepted.toNat ≤ win.toks.length ∧ c.conclude d =
      (c.store d.reqid ((c.request d.reqid).commit win.toks win.accepted)).finish d
        (.ok win.accepted win.branch win.firstrej) := by
  rw [Coordinator.conclude]
  split
  · exact .inl rfl
  · rename_i win found
    split
    · rename_i inside
      exact .inr ⟨win,List.mem_of_getElem? found,inside,rfl⟩
    · exact .inl rfl

theorem advanceCases (c : Coordinator) (d : Drive) :
    (d.brs.length < d.branches.toNat ∧ c.advance d = c.openBranch d) ∨ c.advance d = c.undefine ∨
    ∃ win ∈ d.brs, win.accepted.toNat ≤ win.toks.length ∧ c.advance d =
      (c.store d.reqid ((c.request d.reqid).commit win.toks win.accepted)).finish d
        (.ok win.accepted win.branch win.firstrej) := by
  rw [Coordinator.advance]
  split
  · rename_i more
    exact .inl ⟨more,rfl⟩
  · exact .inr (concludeCases c d)

theorem replayedCases {c t : Coordinator} {m : Message} (answers : c.replayed m = some t) :
    ∃ out, t = c.send .toDriver out .waiting := by
  rw [Coordinator.replayed] at answers
  split at answers
  · cases answers
    exact ⟨_,rfl⟩
  · simp only [bind,Option.bind_eq_some_iff] at answers
    obtain ⟨_,_,_,_,_,_,_,_,_,_,last⟩ := answers
    cases last
    exact ⟨_,rfl⟩

theorem submitCases {c t : Coordinator} {m : Message} (taken : c.submit m = some t) :
    ∃ reqid depth branches aligned, m.u64Fields[0]? = some reqid ∧ m.u32Fields[0]? = some depth ∧
      m.u32Fields[1]? = some branches ∧ m.u32Fields[2]? = some aligned ∧
      t = (c.store reqid ((c.request reqid).submitted reqid c.epoch)).driveCycle reqid depth branches aligned := by
  simp only [Coordinator.submit,bind,Option.bind_eq_some_iff] at taken
  obtain ⟨reqid,atId,depth,atDepth,branches,atBranches,aligned,atAligned,last⟩ := taken
  cases last
  exact ⟨reqid,depth,branches,aligned,atId,atDepth,atBranches,atAligned,rfl⟩

structure Quiet (c t : Coordinator) : Prop where
  requests : t.requests = c.requests
  idle : t.phase = .waiting ∨ t.phase = .stopped ∨ t.phase = .undefined
  log : t.log = c.log ∨ ∃ m, t.log = c.log ++ [.toDriver m]

theorem sendQuiet (c : Coordinator) (m : Message) : Quiet c (c.send .toDriver m .waiting) := by
  obtain same | same := sendCases c .toDriver m .waiting
  · rw [same]
    exact ⟨rfl,.inr (.inr rfl),.inl rfl⟩
  · rw [same]
    exact ⟨rfl,.inl rfl,.inr ⟨m,rfl⟩⟩

theorem infoQuiet {c : Coordinator} (waits : c.phase = .waiting) (cmd : List UInt8) : Quiet c (c.info cmd) := by
  rw [Coordinator.info]
  split
  · exact ⟨(sendQuiet _ _).requests,(sendQuiet _ _).idle,(sendQuiet _ _).log⟩
  split
  · split
    · exact ⟨rfl,.inl waits,.inl rfl⟩
    · exact sendQuiet _ _
  split
  · exact sendQuiet _ _
  · exact ⟨rfl,.inl waits,.inl rfl⟩

theorem handleCases {c : Coordinator} (waits : c.phase = .waiting) (m : Message) :
    Quiet c (c.handle m) ∨ m.type = Msg.submitRequest ∧ c.submit m = some (c.handle m) := by
  rw [Coordinator.handle]
  split
  · exact .inl ⟨rfl,.inr (.inl rfl),.inl rfl⟩
  split
  · cases answered : c.replayed m with
    | none => exact .inl ⟨rfl,.inr (.inr rfl),.inl rfl⟩
    | some t =>
        obtain ⟨out,rfl⟩ := replayedCases answered
        exact .inl (sendQuiet _ _)
  split
  · rename_i submits
    cases taken : c.submit m with
    | none => exact .inl ⟨rfl,.inr (.inr rfl),.inl rfl⟩
    | some t => exact .inr ⟨submits,rfl⟩
  split
  · exact .inl (infoQuiet waits _)
  · exact .inl ⟨rfl,.inl waits,.inl rfl⟩

theorem acceptedQuiet {c : Coordinator} (waits : c.phase = .waiting) (hello : Option (List UInt8)) :
    Quiet c (c.accepted hello) := by
  cases hello with
  | none => exact ⟨rfl,.inl waits,.inl rfl⟩
  | some bytes =>
      rw [Coordinator.accepted]
      dsimp only
      repeat' split
      all_goals exact ⟨rfl,.inl waits,.inl rfl⟩

def Submits (frame : Option (List UInt8)) (reqid : UInt64) (depth branches aligned : UInt32) : Prop :=
  ∃ bytes m, frame = some bytes ∧ decode bytes = .ok m ∧ m.type = Msg.submitRequest ∧ m.u64Fields[0]? = some reqid ∧
    m.u32Fields[0]? = some depth ∧ m.u32Fields[1]? = some branches ∧ m.u32Fields[2]? = some aligned

theorem driverFrameCases {c : Coordinator} (waits : c.phase = .waiting) (frame : Option (List UInt8)) :
    Quiet c (c.driverFrame frame) ∨
    ∃ reqid depth branches aligned, Submits frame reqid depth branches aligned ∧ c.driverFrame frame =
      (c.store reqid ((c.request reqid).submitted reqid c.epoch)).driveCycle reqid depth branches aligned := by
  cases frame with
  | none => exact .inl ⟨rfl,.inl waits,.inl rfl⟩
  | some bytes =>
      rw [Coordinator.driverFrame]
      split
      · exact .inl ⟨rfl,.inl waits,.inl rfl⟩
      · rename_i m decoded
        obtain quiet | ⟨submits,taken⟩ := handleCases waits m
        · exact .inl quiet
        · obtain ⟨reqid,depth,branches,aligned,atId,atDepth,atBranches,atAligned,same⟩ := submitCases taken
          exact .inr ⟨reqid,depth,branches,aligned,
            ⟨bytes,m,rfl,decoded,submits,atId,atDepth,atBranches,atAligned⟩,same⟩

theorem submitTaken {c t : Coordinator} {frame : Option (List UInt8)} {reqid : UInt64} {depth branches aligned : UInt32}
    (taken : c.step (.driverFrame frame) = some t) (submits : Submits frame reqid depth branches aligned) :
    t = (c.store reqid ((c.request reqid).submitted reqid c.epoch)).driveCycle reqid depth branches aligned := by
  obtain ⟨bytes,m,rfl,decoded,type,atId,atDepth,atBranches,atAligned⟩ := submits
  have handled : c.driverFrame (some bytes) =
      (c.store reqid ((c.request reqid).submitted reqid c.epoch)).driveCycle reqid depth branches aligned := by
    have notShutdown : m.type ≠ Msg.shutdown := by rw [type]; decide
    have notResult : m.type ≠ Msg.proposalResult := by rw [type]; decide
    simp only [Coordinator.driverFrame,decoded]
    rw [Coordinator.handle,if_neg notShutdown,if_neg notResult,if_pos type]
    simp only [Coordinator.submit,atId,atDepth,atBranches,atAligned,bind,Option.bind_some,Option.getD_some]
  rw [Coordinator.step] at taken
  split at taken
  · split at taken
    · rw [← Option.some.inj taken,handled]
    · cases taken
  · cases taken

theorem stepCases {c t : Coordinator} {e : Event} (taken : c.step e = some t) :
    (c.phase = .waiting ∧ Quiet c t) ∨
    (∃ frame reqid depth branches aligned, c.phase = .waiting ∧ e = .driverFrame frame ∧
      Submits frame reqid depth branches aligned ∧
      t = (c.store reqid ((c.request reqid).submitted reqid c.epoch)).driveCycle reqid depth branches aligned) ∨
    (∃ d r, c.phase = .proposing d ∧ e = .reply r ∧ t = c.proposerReply d r) ∨
    ∃ d toks r, c.phase = .verifying d toks ∧ e = .reply r ∧ t = c.verifierReply d toks r := by
  cases e with
  | connection hello =>
      rw [Coordinator.step] at taken
      split at taken
      · rename_i waits
        cases taken
        exact .inl ⟨waits,acceptedQuiet waits hello⟩
      · cases taken
  | driverFrame frame =>
      rw [Coordinator.step] at taken
      split at taken
      · rename_i waits
        split at taken
        · cases taken
          obtain quiet | ⟨reqid,depth,branches,aligned,submits,same⟩ := driverFrameCases waits frame
          · exact .inl ⟨waits,quiet⟩
          · exact .inr (.inl ⟨frame,reqid,depth,branches,aligned,waits,rfl,submits,same⟩)
        · cases taken
      · cases taken
  | reply r =>
      rw [Coordinator.step] at taken
      split at taken
      · rename_i d waits
        cases taken
        exact .inr (.inr (.inl ⟨d,r,waits,rfl,rfl⟩))
      · rename_i d toks waits
        cases taken
        exact .inr (.inr (.inr ⟨d,toks,r,waits,rfl,rfl⟩))
      · cases taken

end SpeculationFabric.Dist
