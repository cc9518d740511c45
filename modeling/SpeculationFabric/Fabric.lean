import SpeculationFabric.Scheduler

/-! The engine's shared state and its atomic operations. Each function is one hold
of the engine's lock. A clock reading is an argument, since the clock is an
interface the caller supplies; a failed operation answers and leaves the state as
it was. Queries only read and are not repeated here. -/
namespace SpeculationFabric

structure Event where
  id : EventId
  timestampNs : UInt64
  request : RequestId
  type : String
  detail : String
  json : String
  deriving DecidableEq, Repr

structure Stats where
  requestsEligibleForSpeculation : UInt64 := 0
  speculativeCyclesStarted : UInt64 := 0
  speculationBypasses : UInt64 := 0
  proposalsProduced : UInt64 := 0
  proposalsRejectedStale : UInt64 := 0
  verificationsRun : UInt64 := 0
  tokensProposed : UInt64 := 0
  tokensAccepted : UInt64 := 0
  tokensRejected : UInt64 := 0
  fullAcceptCount : UInt64 := 0
  partialAcceptCount : UInt64 := 0
  fullRejectCount : UInt64 := 0
  rollbackCount : UInt64 := 0
  retryCount : UInt64 := 0
  cancelCount : UInt64 := 0
  staleRejectionsByEpoch : UInt64 := 0
  staleRejectionsByBoot : UInt64 := 0
  staleRejectionsByAttempt : UInt64 := 0
  staleRejectionsByGeneration : UInt64 := 0
  deriving DecidableEq, Repr

structure RequestState where
  req : SpeculationRequest := {}
  attempt : AttemptId := ⟨0⟩
  epoch : CoordinatorEpoch := ⟨0⟩
  authGen : AuthGeneration := ⟨0⟩
  authState : StateRef := {}
  authStateGen : StateGeneration := ⟨0⟩
  committed : List UInt32 := []
  branches : List Branch := []
  proposals : List Proposal := []
  reservations : List Reservation := []
  cycle : SpeculativeStateMachine := {}
  cancelled : Bool := false
  terminal : Bool := false
  completedCycles : UInt32 := 0
  retryCount : UInt32 := 0
  events : List Event := []
  deriving DecidableEq, Repr

/- Only whether an executor is registered is engine state; what an executor
answers belongs to the caller's side of the interface. -/
structure Config where
  proposer : Bool := true
  verifier : Bool := true
  policy : ProposalPolicy := {}
  epoch : CoordinatorEpoch := ⟨0⟩
  deriving DecidableEq, Repr

/- `epoch` is the one the public class keeps and `roll_epoch` moves. The copy in
the implementation's own configuration is never read after construction. -/
structure Fabric where
  cfg : Config
  epoch : CoordinatorEpoch
  scheduler : SpeculationScheduler
  requests : AList (fun _ : RequestId => RequestState) := ∅
  stats : Stats := {}
  globalEvents : List Event := []

def Fabric.new (cfg : Config) : Fabric :=
  { cfg := cfg, epoch := cfg.epoch, scheduler := { policy := cfg.policy } }

def Fabric.find (f : Fabric) (id : RequestId) : Option RequestState := f.requests.lookup id

def Fabric.store (f : Fabric) (id : RequestId) (rs : RequestState) : Fabric :=
  { f with requests := f.requests.insert id rs }

/- `requests[id]`: a missing entry is default-created and stays in the map. -/
def Fabric.entry (f : Fabric) (id : RequestId) : RequestState × Fabric :=
  match f.find id with
  | some rs => (rs,f)
  | none => ({},f.store id {})

def bounded {α : Type} (limit : Nat) (events : List α) : List α :=
  if events.length > limit then events.drop 1 else events

def Fabric.pushEvent (f : Fabric) (now : UInt64) (id : RequestId) (type detail json : String) : Fabric :=
  let e : Event := {
    id := ⟨UInt64.ofNat (f.globalEvents.length + 1)⟩
    timestampNs := now
    request := id
    type := type
    detail := detail
    json := json }
  let f := { f with globalEvents := bounded 2000 (f.globalEvents ++ [e]) }
  match f.find id with
  | some rs => f.store id { rs with events := bounded 512 (rs.events ++ [e]) }
  | none => f

def Fabric.update (f : Fabric) (now : UInt64) (id : RequestId) (rs : RequestState) (stats : Stats)
    (type detail : String) : Fabric :=
  Fabric.pushEvent { f.store id rs with stats := stats } now id type detail "\x7b\x7d"

def RequestState.admitted (rs : RequestState) (epoch : CoordinatorEpoch) (req : SpeculationRequest) : RequestState :=
  { rs with
    req := req
    attempt := ⟨1⟩
    epoch := epoch
    authGen := ⟨0⟩
    authState := { id := ⟨req.sequence.value * 0x9E3779B97F4A7C15⟩, generation := ⟨0⟩ }
    authStateGen := ⟨0⟩
    committed := req.prefixTokens
    terminal := false
    cancelled := false
    completedCycles := 0
    cycle := ⟨.ready⟩ }

def RequestState.withdrawn (rs : RequestState) : RequestState :=
  { rs with
    cycle := (rs.cycle.apply .cancel).2
    reservations := rs.reservations.map (fun r => { r with state := .released })
    branches := rs.branches.map (fun b => { b with retired := true })
    cancelled := true }

def RequestState.finished (rs : RequestState) : RequestState :=
  { rs with terminal := true, cycle := (rs.cycle.apply .enterTerminal).2 }

def release (r : Reservation) : Reservation := if r.isActive then { r with state := .released } else r

def RequestState.rolledBack (rs : RequestState) : RequestState :=
  { rs with
    branches := rs.branches.map (fun b => { b with retired := true })
    reservations := rs.reservations.map release }

def RequestState.retried (rs : RequestState) : RequestState :=
  { rs with attempt := ⟨rs.attempt.value + 1⟩, retryCount := rs.retryCount + 1, cycle := ⟨.ready⟩ }

def Fabric.submit (f : Fabric) (now : UInt64) (req : SpeculationRequest) : Result Unit × Fabric :=
  let (rs,f) := f.entry req.id
  if !rs.req.id.isNull then
    (Result.err .alreadyExists "request id already registered",f)
  else
    let stats := { f.stats with requestsEligibleForSpeculation := f.stats.requestsEligibleForSpeculation + 1 }
    (.ok (),f.update now req.id (rs.admitted f.epoch req) stats "request.submit" "request admitted")

def Fabric.cancel (f : Fabric) (now : UInt64) (id : RequestId) (why : String) : Result Unit × Fabric :=
  match f.find id with
  | none => (Result.err .notFound "unknown request",f)
  | some rs =>
    if rs.cancelled then (.ok (),f)
    else if rs.terminal then (Result.err .alreadyTerminal "request already terminal",f)
    else
      (.ok (),f.update now id rs.withdrawn { f.stats with cancelCount := f.stats.cancelCount + 1 }
        "request.cancel" why)

def Fabric.complete (f : Fabric) (now : UInt64) (id : RequestId) : Result Unit × Fabric :=
  match f.find id with
  | none => (Result.err .notFound "unknown request",f)
  | some rs =>
    (.ok (),f.update now id rs.finished f.stats "request.complete" "request terminal")

def rollbackResult (rs : RequestState) (why : String) : RollbackResult :=
  { rejectedTokens := rs.proposals.foldl (fun n p =>
      if p.finalized && !p.committed then n + UInt32.ofNat p.candidate.size else n) 0
    acceptedPrefix := UInt32.ofNat rs.committed.length
    restoredGeneration := rs.authGen
    restoredState := rs.authState
    restoredStateGeneration := rs.authStateGen
    retiredBranches := UInt32.ofNat (rs.branches.countP (fun b => !b.retired))
    releasedReservations := UInt32.ofNat (rs.reservations.countP Reservation.isActive)
    success := true
    detail := why }

def Fabric.rollback (f : Fabric) (now : UInt64) (id : RequestId) (why : String) :
    Result RollbackResult × Fabric :=
  match f.find id with
  | none => (Result.err .notFound "unknown request",f)
  | some rs =>
    let rb := rollbackResult rs why
    (.ok rb,f.update now id rs.rolledBack { f.stats with rollbackCount := f.stats.rollbackCount + 1 }
      "request.rollback" rb.detail)

def Fabric.retry (f : Fabric) (now : UInt64) (id : RequestId) : Result AttemptId × Fabric :=
  match f.find id with
  | none => (Result.err .notFound "unknown request",f)
  | some rs =>
    if rs.req.maxAttempts ≠ 0 ∧ rs.retryCount ≥ rs.req.maxAttempts then
      (Result.err .retryableFailure "retry limit reached",f)
    else if rs.terminal || rs.cancelled then
      (Result.err .invalidState "cannot retry a terminal request",f)
    else
      let rs := rs.retried
      (.ok rs.attempt,f.update now id rs { f.stats with retryCount := f.stats.retryCount + 1 }
        "request.retry" ("new attempt " ++ rs.attempt.str))

def Fabric.rollEpoch (f : Fabric) : Fabric := { f with epoch := ⟨f.epoch.value + 1⟩ }

def Fabric.authoritativeLength (f : Fabric) (id : RequestId) : Result UInt64 :=
  match f.find id with
  | none => Result.err .notFound "unknown request"
  | some rs => .ok (UInt64.ofNat rs.committed.length)

end SpeculationFabric
