import Mathlib.Data.List.Sort
import SpeculationFabric.Runs
import SpeculationFabric.Worker

/-! The coordinator process after its three peers have connected: one loop that takes
driver frames and new connections, and one cycle that waits for a worker twice for
each branch. A worker's reply is any frame, or a failed send or receive. Reads past
the end of a field list and messages that do not encode have no defined outcome. -/
namespace SpeculationFabric.Dist

open Wire

structure CReq where
  id : RequestId := ⟨0⟩
  seq : SequenceId := ⟨0⟩
  tenant : TenantId := ⟨0⟩
  attempt : AttemptId := ⟨0⟩
  epoch : CoordinatorEpoch := ⟨0⟩
  authGen : AuthGeneration := ⟨0⟩
  authState : StateRef := {}
  stateGen : StateGeneration := ⟨0⟩
  committed : List UInt32 := []
  depth : UInt32 := 0
  branches : UInt32 := 1
  aligned : UInt32 := 0
  propGen : UInt64 := 0
  deriving DecidableEq, Repr

def kReasonStaleEpoch : String := "stale_epoch"
def kReasonStaleBoot : String := "stale_worker_boot"
def kReasonStaleAttempt : String := "stale_attempt"
def kReasonStaleGeneration : String := "stale_generation"
def kReasonWrongBase : String := "wrong_base_generation"

/- The empty text is the verdict that nothing is stale. -/
def validateAuthority (r : CReq) (msgEpoch msgBoot msgAttempt msgBasegen msgPropgen currentBoot : UInt64) : String :=
  if msgEpoch ≠ r.epoch.value then kReasonStaleEpoch
  else if msgBoot ≠ currentBoot then kReasonStaleBoot
  else if msgAttempt ≠ r.attempt.value then kReasonStaleAttempt
  else if msgBasegen ≠ r.authGen.value then kReasonWrongBase
  else if msgPropgen ≠ r.propGen then kReasonStaleGeneration
  else ""

structure Br where
  branch : UInt64
  toks : List UInt32
  depth : UInt32
  accepted : UInt32
  firstrej : UInt32
  outcome : UInt32
  deriving DecidableEq, Repr

/- The parameters and locals of one `drive_cycle` call; its loop counter is the number
of branches already verified. -/
structure Drive where
  reqid : UInt64
  depth : UInt32
  branches : UInt32
  aligned : UInt32
  brs : List Br := []
  deriving DecidableEq, Repr

def Drive.b (d : Drive) : UInt32 := UInt32.ofNat d.brs.length

/- What `drive_cycle` returns. The caller tells the two apart by the text's first three
characters, and no failure starts with them. -/
inductive DriveResult where
  | ok (accepted : UInt32) (branch : UInt64) (firstrej : UInt32)
  | failed (text : String)
  deriving DecidableEq, Repr

inductive Phase where
  | waiting
  | proposing (d : Drive)
  | verifying (d : Drive) (toks : List UInt32)
  | stopped
  | undefined
  deriving DecidableEq, Repr

inductive Output where
  | toProposer (m : Message)
  | toVerifier (m : Message)
  | toDriver (m : Message)
  | submitted (reqid : UInt64) (result : DriveResult)
  deriving DecidableEq, Repr

structure Coordinator where
  epoch : CoordinatorEpoch := ⟨1⟩
  proposerBoot : UInt64
  prevProposerBoot : UInt64
  verifierBoot : UInt64
  driver : Bool := true
  requests : AList (fun _ : UInt64 => CReq) := ∅
  phase : Phase := .waiting
  log : List Output := []

def Coordinator.start (proposerBoot verifierBoot : UInt64) : Coordinator :=
  { proposerBoot := proposerBoot, prevProposerBoot := proposerBoot, verifierBoot := verifierBoot }

def Coordinator.request (c : Coordinator) (reqid : UInt64) : CReq := (c.requests.lookup reqid).getD {}

def Coordinator.store (c : Coordinator) (reqid : UInt64) (r : CReq) : Coordinator :=
  { c with requests := c.requests.insert reqid r }

def Coordinator.inOrder (c : Coordinator) : List (Sigma fun _ : UInt64 => CReq) :=
  c.requests.entries.insertionSort (fun left right => left.1 ≤ right.1)

def Coordinator.undefine (c : Coordinator) : Coordinator := { c with phase := .undefined }

/- Encoding comes first; the bytes of a failed one are read all the same. -/
def Coordinator.send (c : Coordinator) (channel : Message → Output) (m : Message) (next : Phase) : Coordinator :=
  match encode m with
  | .error _ => c.undefine
  | .ok _ => { c with log := c.log ++ [channel m], phase := next }

def text (s : String) : List UInt8 := s.toUTF8.data.toList

def driverMessage (r : CReq) (reqid : UInt64) : DriveResult → Message
  | .ok _ _ _ =>
      { type := Msg.commit, u64Fields := [reqid,r.authGen.value,UInt64.ofNat r.committed.length] }
  | .failed why => { type := Msg.reject, body := text why }

def Coordinator.finish (c : Coordinator) (d : Drive) (result : DriveResult) : Coordinator :=
  Coordinator.send { c with log := c.log ++ [.submitted d.reqid result] } .toDriver
    (driverMessage (c.request d.reqid) d.reqid result) .waiting

def proposalDispatch (r : CReq) (d : Drive) (proposerBoot : UInt64) : Message :=
  { type := Msg.proposalDispatch
    u64Fields := [d.reqid,r.seq.value,r.attempt.value,r.epoch.value,r.authState.id.value,
      r.authState.generation.value,r.authGen.value,1,1000 + d.reqid + d.b.toUInt64,d.b.toUInt64,proposerBoot,r.propGen]
    u32Fields := [d.depth,d.aligned,d.branches] }

def verificationDispatch (r : CReq) (d : Drive) (toks : List UInt32) (verifierBoot : UInt64) : Message :=
  { type := Msg.verificationDispatch
    u64Fields := [d.reqid,r.seq.value,r.attempt.value,r.epoch.value,r.authState.id.value,
      r.authState.generation.value,r.authGen.value,1,2000 + d.reqid + d.b.toUInt64,verifierBoot]
    u32Fields := 9 :: 4096 :: d.depth :: toks }

def Coordinator.openBranch (c : Coordinator) (d : Drive) : Coordinator :=
  let r := c.request d.reqid
  let r := { r with propGen := r.propGen + 1 }
  (c.store d.reqid r).send .toProposer (proposalDispatch r d c.proposerBoot) (.proposing d)

def betterBr (brs : List Br) (w i : Nat) : Nat :=
  match brs[i]?,brs[w]? with
  | some challenger,some best =>
      if challenger.accepted > best.accepted ∨
          (challenger.accepted = best.accepted ∧ challenger.branch < best.branch) then i else w
  | _,_ => w

def winningBr (brs : List Br) : Nat :=
  (List.range' 1 (brs.length - 1)).foldl (betterBr brs) 0

def CReq.commit (r : CReq) (toks : List UInt32) (accepted : UInt32) : CReq :=
  let generation : StateGeneration := ⟨r.authState.generation.value + accepted.toUInt64⟩
  { r with
    committed := r.committed ++ toks.take accepted.toNat
    authGen := ⟨r.authGen.value + accepted.toUInt64⟩
    authState := { r.authState with generation := generation }
    stateGen := generation }

/- After the last branch. With no branch there is no winner to read, and a winner that
accepts more than its candidate has no token to commit. -/
def Coordinator.conclude (c : Coordinator) (d : Drive) : Coordinator :=
  match d.brs[winningBr d.brs]? with
  | none => c.undefine
  | some win =>
      if win.accepted.toNat ≤ win.toks.length then
        (c.store d.reqid ((c.request d.reqid).commit win.toks win.accepted)).finish d
          (.ok win.accepted win.branch win.firstrej)
      else c.undefine

def Coordinator.advance (c : Coordinator) (d : Drive) : Coordinator :=
  if d.brs.length < d.branches.toNat then c.openBranch d else c.conclude d

def Coordinator.driveCycle (c : Coordinator) (reqid : UInt64) (depth branches aligned : UInt32) : Coordinator :=
  let r := c.request reqid
  (c.store reqid { r with depth := depth, branches := branches, aligned := aligned, epoch := c.epoch }).advance
    { reqid := reqid, depth := depth, branches := branches, aligned := aligned }

inductive Reply where
  | sendFailed
  | recvFailed
  | frame (bytes : List UInt8)
  deriving DecidableEq, Repr

def Coordinator.readProposal (c : Coordinator) (d : Drive) (pr : Message) : Option Coordinator := do
  let r := c.request d.reqid
  let epoch ← pr.u64Fields[prEpoch]?
  let boot ← pr.u64Fields[prProposerBoot]?
  let attempt ← pr.u64Fields[prAttempt]?
  let basegen ← pr.u64Fields[prBaseGen]?
  let propgen ← pr.u64Fields[prPropogen]?
  let rej := validateAuthority r epoch boot attempt basegen propgen c.proposerBoot
  if rej ≠ "" then some (c.finish d (.failed ("stale:" ++ rej)))
  else do
    let outcome ← pr.u32Fields[prOutcome]?
    if outcome ≠ kOutcomeSuccess then some (c.finish d (.failed "proposal non-success"))
    else do
      let toks ← readFields pr.u32Fields prTokens d.depth.toNat
      some (c.send .toVerifier (verificationDispatch r d toks c.verifierBoot) (.verifying d toks))

def Coordinator.proposerReply (c : Coordinator) (d : Drive) : Reply → Coordinator
  | .sendFailed => c.finish d (.failed "proposer send failed")
  | .recvFailed => c.finish d (.failed "proposer recv failed")
  | .frame bytes =>
      match decode bytes with
      | .error _ => c.finish d (.failed "proposer decode failed")
      | .ok pr => (c.readProposal d pr).getD c.undefine

/- The boot and the proposal generation handed to the gate are the current ones. -/
def Coordinator.readVerdict (c : Coordinator) (d : Drive) (toks : List UInt32) (vr : Message) : Option Coordinator := do
  let r := c.request d.reqid
  let epoch ← vr.u64Fields[vrEpoch]?
  let attempt ← vr.u64Fields[vrAttempt]?
  let basegen ← vr.u64Fields[vrBaseGen]?
  let rej := validateAuthority r epoch c.verifierBoot attempt basegen r.propGen c.verifierBoot
  if rej ≠ "" then some (c.finish d (.failed ("stale:" ++ rej)))
  else do
    let accepted ← vr.u32Fields[vrAccepted]?
    let firstrej ← vr.u32Fields[vrFirstRej]?
    let outcome ← vr.u32Fields[vrOutcome]?
    some (c.advance { d with brs := d.brs ++ [⟨(d.b + 1).toUInt64,toks,d.depth,accepted,firstrej,outcome⟩] })

def Coordinator.verifierReply (c : Coordinator) (d : Drive) (toks : List UInt32) : Reply → Coordinator
  | .sendFailed => c.finish d (.failed "verifier send failed")
  | .recvFailed => c.finish d (.failed "verifier recv failed")
  | .frame bytes =>
      match decode bytes with
      | .error _ => c.finish d (.failed "verifier decode failed")
      | .ok vr => (c.readVerdict d toks vr).getD c.undefine

def CReq.submitted (r : CReq) (reqid : UInt64) (epoch : CoordinatorEpoch) : CReq :=
  { r with
    id := ⟨reqid⟩
    seq := ⟨reqid + 1⟩
    tenant := ⟨1⟩
    attempt := ⟨1⟩
    epoch := epoch
    authGen := ⟨0⟩
    authState := ⟨⟨reqid * 0x9E3779B97F4A7C15⟩,⟨0⟩⟩
    stateGen := ⟨0⟩
    committed := []
    propGen := 0 }

def Coordinator.submit (c : Coordinator) (m : Message) : Option Coordinator := do
  let reqid ← m.u64Fields[0]?
  let depth ← m.u32Fields[0]?
  let branches ← m.u32Fields[1]?
  let aligned ← m.u32Fields[2]?
  some ((c.store reqid ((c.request reqid).submitted reqid c.epoch)).driveCycle reqid depth branches aligned)

def verdictMessage (rej : String) : Message :=
  if rej = "" then { type := Msg.info, body := text "no_rejection" } else { type := Msg.reject, body := text rej }

/- A result the driver sends is held against the first entry of the map. -/
def Coordinator.replayed (c : Coordinator) (m : Message) : Option Coordinator :=
  match c.inOrder with
  | [] => some (c.send .toDriver { type := Msg.info, body := text "no_request" } .waiting)
  | ⟨_,r⟩ :: _ => do
      let epoch ← m.u64Fields[prEpoch]?
      let boot ← m.u64Fields[prProposerBoot]?
      let attempt ← m.u64Fields[prAttempt]?
      let basegen ← m.u64Fields[prBaseGen]?
      let propgen ← m.u64Fields[prPropogen]?
      some (c.send .toDriver (verdictMessage (validateAuthority r epoch boot attempt basegen propgen c.proposerBoot))
        .waiting)

def probe (c : Coordinator) (r : CReq) (kind : List UInt8) : String :=
  let epoch := if kind = text "epoch" then r.epoch.value - 1 else r.epoch.value
  let boot :=
    if kind = text "boot" then c.proposerBoot + 9999
    else if kind = text "prevBoot" then c.prevProposerBoot
    else c.proposerBoot
  let attempt := if kind = text "attempt" then r.attempt.value + 7 else r.attempt.value
  let base := if kind = text "base" then r.authGen.value + 5 else r.authGen.value
  let prop := if kind = text "generation" then r.propGen + 1 else r.propGen
  validateAuthority r epoch boot attempt base prop c.proposerBoot

def statusText (c : Coordinator) : String :=
  c.inOrder.foldl (fun s kv => s ++ " req" ++ toString kv.1 ++ " committed=" ++ toString kv.2.committed.length ++
      " gen=" ++ toString kv.2.authGen.value)
    ("epoch=" ++ toString c.epoch.value ++ " boot=" ++ toString c.proposerBoot ++ " requests=" ++
      toString c.inOrder.length)

def Coordinator.info (c : Coordinator) (cmd : List UInt8) : Coordinator :=
  if cmd = text "rollEpoch" then
    let epoch : CoordinatorEpoch := ⟨c.epoch.value + 1⟩
    Coordinator.send { c with epoch := epoch } .toDriver
      { type := Msg.info, body := text ("ok epoch=" ++ toString epoch.value) } .waiting
  else if (text "stale:").isPrefixOf cmd then
    match c.inOrder with
    | [] => c
    | ⟨_,r⟩ :: _ => c.send .toDriver (verdictMessage (probe c r (cmd.drop 6))) .waiting
  else if cmd = text "status" then c.send .toDriver { type := Msg.info, body := text (statusText c) } .waiting
  else c

def Coordinator.handle (c : Coordinator) (m : Message) : Coordinator :=
  if m.type = Msg.shutdown then { c with phase := .stopped }
  else if m.type = Msg.proposalResult then (c.replayed m).getD c.undefine
  else if m.type = Msg.submitRequest then (c.submit m).getD c.undefine
  else if m.type = Msg.info then c.info m.body
  else c

def Coordinator.driverFrame (c : Coordinator) : Option (List UInt8) → Coordinator
  | none => { c with driver := false }
  | some bytes =>
      match decode bytes with
      | .error _ => c
      | .ok m => c.handle m

def Coordinator.accepted (c : Coordinator) : Option (List UInt8) → Coordinator
  | none => c
  | some bytes =>
      match decode bytes with
      | .error _ => c
      | .ok h =>
          if h.type ≠ Msg.hello then c
          else
            let role := (h.u32Fields[0]?).getD 0
            let boot := (h.u64Fields[0]?).getD 0
            if role = kRoleProposer then { c with prevProposerBoot := c.proposerBoot, proposerBoot := boot }
            else if role = kRoleVerifier then { c with verifierBoot := boot }
            else if role = kRoleDriver && !c.driver then { c with driver := true }
            else c

inductive Event where
  | connection (hello : Option (List UInt8))
  | driverFrame (frame : Option (List UInt8))
  | reply (r : Reply)
  deriving DecidableEq, Repr

/- Connections and driver frames are taken between cycles only; a cycle takes the reply
it waits for. -/
def Coordinator.step (c : Coordinator) : Event → Option Coordinator
  | .connection hello =>
      match c.phase with
      | .waiting => some (c.accepted hello)
      | _ => none
  | .driverFrame frame =>
      match c.phase with
      | .waiting => if c.driver then some (c.driverFrame frame) else none
      | _ => none
  | .reply r =>
      match c.phase with
      | .proposing d => some (c.proposerReply d r)
      | .verifying d toks => some (c.verifierReply d toks r)
      | _ => none

abbrev CoordinatorRun (ok : Coordinator → Event → Prop) (s : Coordinator) (events : List Event) (t : Coordinator) :
    Prop :=
  Runs.Trace Coordinator.step ok s events t

end SpeculationFabric.Dist
