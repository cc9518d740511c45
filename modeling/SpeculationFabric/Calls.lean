import SpeculationFabric.Cycle
import SpeculationFabric.Runs

/-! Concurrent use of one engine. Every public operation is one atomic step; a
`run_cycle` call is a sequence of critical sections with an executor call between
them, so any number of calls on any requests may interleave. Executors answer
freely within a relation; a stateful executor is such a relation as well. -/
namespace SpeculationFabric

inductive Call where
  | proposing (c : Cycle)
  | proposalSent (c : Cycle) (pin : ProposalInput)
  | verifying (c : Cycle)
  | verificationSent (c : Cycle) (vin : VerificationInput)
  | settling (c : Cycle)
  | returned (request : RequestId) (answer : Result CycleOutcome)
  | undefined (request : RequestId)

def Call.request : Call → RequestId
  | .proposing c | .proposalSent c _ | .verifying c | .verificationSent c _ | .settling c => c.request
  | .returned request _ | .undefined request => request

def Call.cycle : Call → Option Cycle
  | .proposing c | .proposalSent c _ | .verifying c | .verificationSent c _ | .settling c => some c
  | .returned _ _ | .undefined _ => none

/- What happens next in one call: its own section, or the executor's answer. -/
inductive CallAction where
  | proposalInput
  | proposalResult (answer : Result ProposalResult)
  | verificationInput
  | verificationResult (answer : Result AcceptanceResult)
  | settle (now : UInt64)

def Cycle.proposalReturned (c : Cycle) (pin : ProposalInput) : Result ProposalResult → Call
  | .error e => .returned c.request (.error e)
  | .ok pr =>
      let c := { c with
        pins := c.pins ++ [pin]
        proposed := c.proposed ++
          [⟨pr,branchIdAt (UInt32.ofNat c.proposed.length),pin.provenance.proposerModel⟩] }
      if c.proposed.length < c.planned.branchCount.toNat then .proposing c else .verifying c

def Cycle.verificationReturned (c : Cycle) (vin : VerificationInput) : Result AcceptanceResult → Call
  | .error e => .returned c.request (.error e)
  | .ok accept =>
      let c := { c with vins := c.vins ++ [vin], accepted := c.accepted ++ [accept] }
      if c.accepted.length < c.proposed.length then .verifying c else .settling c

def Cycle.verificationSection (c : Cycle) (f : Fabric) : Option (Call × Fabric) := do
  let br ← c.proposed[c.accepted.length]?
  let (rs,f) := f.entry c.request
  match br.pr.candidate with
  | some candidate => some (.verificationSent c (verificationInput rs c.request c.planned br candidate),f)
  | none => some (.undefined c.request,f)

def Cycle.settlementSection (c : Cycle) (f : Fabric) (now : UInt64) : Call × Fabric :=
  match f.settle now c with
  | some (answer,f) => (.returned c.request answer,f)
  | none => (.undefined c.request,f)

def Call.step (f : Fabric) : Call → CallAction → Option (Call × Fabric)
  | .proposing c,.proposalInput =>
      let (rs,f) := f.entry c.request
      some (.proposalSent c (proposalInput rs c.request c.planned (UInt32.ofNat c.proposed.length)),f)
  | .proposalSent c pin,.proposalResult answer => some (c.proposalReturned pin answer,f)
  | .verifying c,.verificationInput => c.verificationSection f
  | .verificationSent c vin,.verificationResult answer => some (c.verificationReturned vin answer,f)
  | .settling c,.settle now => some (c.settlementSection f now)
  | _,_ => none

structure System where
  fabric : Fabric
  calls : List Call := []

inductive Action where
  | submit (now : UInt64) (req : SpeculationRequest)
  | cancel (now : UInt64) (id : RequestId) (why : String)
  | complete (now : UInt64) (id : RequestId)
  | rollback (now : UInt64) (id : RequestId) (why : String)
  | retry (now : UInt64) (id : RequestId)
  | rollEpoch
  | emitEvent (now : UInt64) (id : RequestId) (type detail json : String)
  | runCycle (now eventNow : UInt64) (id : RequestId)
  | call (index : Nat) (action : CallAction)

def begun (id : RequestId) : Result CycleOutcome ⊕ Planned → Call
  | .inl answer => .returned id answer
  | .inr planned => .proposing { request := id, planned := planned }

def System.step (s : System) : Action → Option System
  | .submit now req => some { s with fabric := (s.fabric.submit now req).2 }
  | .cancel now id why => some { s with fabric := (s.fabric.cancel now id why).2 }
  | .complete now id => some { s with fabric := (s.fabric.complete now id).2 }
  | .rollback now id why => some { s with fabric := (s.fabric.rollback now id why).2 }
  | .retry now id => some { s with fabric := (s.fabric.retry now id).2 }
  | .rollEpoch => some { s with fabric := s.fabric.rollEpoch }
  | .emitEvent now id type detail json => some { s with fabric := s.fabric.pushEvent now id type detail json }
  | .runCycle now eventNow id =>
      let (answer,f) := s.fabric.planCycle now eventNow id
      some ⟨f,s.calls ++ [begun id answer]⟩
  | .call index action => do
      let call ← s.calls[index]?
      let (next,f) ← call.step s.fabric action
      some ⟨f,s.calls.set index next⟩

theorem callMoved {s s' : System} {index : Nat} {action : CallAction}
    (taken : s.step (.call index action) = some s') :
    ∃ call next f, s.calls[index]? = some call ∧ call.step s.fabric action = some (next,f) ∧
      s' = ⟨f,s.calls.set index next⟩ := by
  simp only [System.step,bind,Option.bind_eq_some_iff] at taken
  obtain ⟨call,present,⟨next,f⟩,moved,last⟩ := taken
  exact ⟨call,next,f,present,moved,(Option.some.inj last).symm⟩

def System.start (cfg : Config) : System := { fabric := .new cfg }

structure Executors where
  propose : ProposalInput → Result ProposalResult → Prop
  verify : VerificationInput → Result AcceptanceResult → Prop

def Executors.any : Executors := ⟨fun _ _ => True,fun _ _ => True⟩

def Executors.admits (x : Executors) (s : System) : Action → Prop
  | .call index (.proposalResult answer) =>
      ∀ c pin, s.calls[index]? = some (.proposalSent c pin) → x.propose pin answer
  | .call index (.verificationResult answer) =>
      ∀ c vin, s.calls[index]? = some (.verificationSent c vin) → x.verify vin answer
  | _ => True

abbrev Run (x : Executors) (s : System) (actions : List Action) (t : System) : Prop :=
  Runs.Trace System.step x.admits s actions t

def Executors.functions (propose : ProposalInput → Result ProposalResult)
    (verify : VerificationInput → Result AcceptanceResult) : Executors :=
  ⟨fun pin answer => answer = propose pin,fun vin answer => answer = verify vin⟩

def answersAs (propose : ProposalInput → Result ProposalResult) (verify : VerificationInput → Result AcceptanceResult)
    (s : System) : Action → Bool
  | .call index (.proposalResult answer) =>
      match s.calls[index]? with
      | some (.proposalSent _ pin) => decide (answer = propose pin)
      | _ => true
  | .call index (.verificationResult answer) =>
      match s.calls[index]? with
      | some (.verificationSent _ vin) => decide (answer = verify vin)
      | _ => true
  | _ => true

theorem answersAdmitted {propose verify} (s : System) (a : Action) (passed : answersAs propose verify s a = true) :
    (Executors.functions propose verify).admits s a := by
  cases a with
  | call index action =>
      cases action with
      | proposalResult answer =>
          intro c pin sent
          simp only [answersAs,sent] at passed
          exact (of_decide_eq_true passed : answer = propose pin)
      | verificationResult answer =>
          intro c vin sent
          simp only [answersAs,sent] at passed
          exact (of_decide_eq_true passed : answer = verify vin)
      | _ => trivial
  | _ => trivial

def runOf (propose : ProposalInput → Result ProposalResult) (verify : VerificationInput → Result AcceptanceResult)
    (s : System) (actions : List Action) : Option System :=
  Runs.exec System.step (answersAs propose verify) s actions

theorem runOfRun {propose verify} {s : System} {actions : List Action}
    (finishes : (runOf propose verify s actions).isSome) :
    Run (.functions propose verify) s actions ((runOf propose verify s actions).get finishes) :=
  Runs.ofExec answersAdmitted (Option.some_get finishes).symm

def makeModel (tok : TokenizerId) : ModelIdentity :=
  { model := ⟨101⟩
    revision := ⟨1⟩
    tokenizer := { id := tok, name := "cpu-tok", vocabSize := 4096 }
    executor := { id := ⟨1⟩, name := "cpu", kind := .cpu, protocolVersion := 1 }
    name := "cpu-model" }

def makeReq (id : RequestId) (tokens : List UInt32) : SpeculationRequest :=
  { id := id
    sequence := ⟨7⟩
    tenant := ⟨1⟩
    draftModel := makeModel ⟨9⟩
    targetModel := makeModel ⟨9⟩
    prefixTokens := tokens }

def proposedTokens (ids : List UInt32) : ProposalResult :=
  { outcome := .success, candidate := some ⟨ids.map (fun id => { id := id })⟩ }

def acceptedFirst (n : UInt32) : AcceptanceResult := { acceptedPrefix := n }

def drafts (ids : List UInt32) (_ : ProposalInput) : Result ProposalResult := .ok (proposedTokens ids)

def accepts (n : UInt32) (_ : VerificationInput) : Result AcceptanceResult := .ok (acceptedFirst n)

def oneBranchAnswers (index : Nat) (pr : ProposalResult) (accept : AcceptanceResult) : List Action :=
  [.call index .proposalInput,.call index (.proposalResult (.ok pr)),.call index .verificationInput,
    .call index (.verificationResult (.ok accept))]

def oneBranchCycle (index : Nat) (pr : ProposalResult) (accept : AcceptanceResult) : List Action :=
  oneBranchAnswers index pr accept ++ [.call index (.settle 0)]

end SpeculationFabric
