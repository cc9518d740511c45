import Mathlib.Algebra.BigOperators.Ring.List
import Mathlib.Data.List.Dedup
import SpeculationFabric.Branches
import SpeculationFabric.BranchRecords
import SpeculationFabric.ClampBounds
import SpeculationFabric.Outstanding
import SpeculationFabric.Registration
import SpeculationFabric.Totals

/-! The queries that read the whole engine. What they call active is whatever is kept:
nothing is ever taken out of the map, out of a record's proposals or out of its branches,
so the counts tell how much was submitted and settled, and no reservation is ever seen. -/
namespace SpeculationFabric
open Totals (total share)

/- `requests` is an ordered map: a walk over it meets the ids in ascending order. -/
def Fabric.ordered (f : Fabric) : List (Sigma fun _ : RequestId => RequestState) :=
  f.requests.entries.mergeSort fun a b => decide (a.1.value ≤ b.1.value)

def Fabric.tally (f : Fabric) (g : RequestState → Nat) : Nat := (f.ordered.map fun e => g e.2).sum

def activeReservations (rs : RequestState) : Nat := rs.reservations.countP Reservation.isActive

structure Snapshot where
  takenAt : String := ""
  monotonicNs : UInt64
  epoch : CoordinatorEpoch
  activeRequests : Nat
  activeBranches : Nat
  activeReservations : Nat
  activeProposals : Nat
  summaries : List String
  deriving DecidableEq, Repr

def RequestState.summary (rs : RequestState) : String :=
  "seq=" ++ rs.req.sequence.str ++ " len=" ++ toString rs.committed.length

def Fabric.snapshot (f : Fabric) (now : UInt64) : Snapshot := {
  monotonicNs := now
  epoch := f.epoch
  activeRequests := f.requests.keys.length
  activeBranches := f.tally fun rs => rs.branches.length
  activeReservations := f.tally SpeculationFabric.activeReservations
  activeProposals := f.tally fun rs => rs.proposals.length
  summaries := f.ordered.map fun e => e.2.summary }

structure StatsReading where
  counters : Stats
  acceptanceRatio : Float
  speculativeReservationsCurrent : UInt64
  slotsOutstanding : UInt64

def Fabric.readStats (f : Fabric) : StatsReading := {
  counters := f.stats
  acceptanceRatio :=
    if f.stats.tokensProposed = 0 then 0.0 else f.stats.tokensAccepted.toFloat / f.stats.tokensProposed.toFloat
  speculativeReservationsCurrent := UInt64.ofNat (f.tally SpeculationFabric.activeReservations)
  slotsOutstanding := 0 }

def Fabric.proposals (f : Fabric) (id : RequestId) : Result (List Proposal) :=
  match f.find id with
  | none => Result.err .notFound "unknown request"
  | some rs => .ok rs.proposals

def Fabric.branches (f : Fabric) (id : RequestId) : Result (List Branch) :=
  match f.find id with
  | none => Result.err .notFound "unknown request"
  | some rs => .ok rs.branches

structure Explain where
  question : String
  answerText : String := ""
  answerJson : String := ""
  reasons : List String := []
  deriving DecidableEq, Repr

def Fabric.explain (f : Fabric) (id : RequestId) (question : String) : Explain :=
  match f.find id with
  | none => {
      question := question
      answerText := "unknown request " ++ id.str
      answerJson := "\x7b\"request\":\"unknown\"\x7d" }
  | some rs =>
      let text := "sequence " ++ rs.req.sequence.str ++ " (request " ++ id.str ++ "): authoritative generation "
        ++ rs.authGen.str ++ ", committed " ++ toString rs.committed.length ++ " tokens, attempt " ++ rs.attempt.str
        ++ ", epoch " ++ rs.epoch.str ++ ", cycle phase " ++ rs.cycle.phase.toString ++ ", branches "
        ++ toString rs.branches.length ++ ", proposals " ++ toString rs.proposals.length
        ++ ", active reservations " ++ toString (activeReservationBytes rs)
      { question := question
        answerText := text
        answerJson := "\x7b\"request\":\"" ++ id.str ++ "\",\"gen\":" ++ rs.authGen.str ++ ",\"len\":"
          ++ toString rs.committed.length ++ ",\"phase\":\"" ++ rs.cycle.phase.toString ++ "\"\x7d"
        reasons := [text] }

theorem tallyTotal (f : Fabric) (g : RequestState → Nat) : f.tally g = total g f.requests :=
  ((List.mergeSort_perm f.requests.entries _).map _).sum_eq

theorem tallyKeys (f : Fabric) (g : RequestState → Nat) :
    f.tally g = (f.requests.keys.map fun id => share g (f.find id)).sum :=
  (tallyTotal f g).trans (Totals.totalKeys g f.requests)

theorem keyFound (f : Fabric) (id : RequestId) : id ∈ f.requests.keys ↔ (f.find id).isSome := by
  rw [← AList.mem_keys]
  exact AList.lookup_isSome.symm

def recordedOn (id : RequestId) (call : Call) : Bool := call.recorded && decide (call.request = id)

def proposalsAt (f : Fabric) (id : RequestId) : Nat := share (fun rs => rs.proposals.length) (f.find id)

theorem settleRecorded {f f' : Fabric} {now : UInt64} {c : Cycle} {answer : Result CycleOutcome}
    (settled : f.settle now c = some (answer,f')) :
    proposalsAt f' c.request =
      proposalsAt f c.request + if (Call.returned c.request answer).recorded then 1 else 0 := by
  unfold proposalsAt
  cases settlement settled with
  | missing absent => rw [absent]; rfl
  | stale found closed kind kept =>
      obtain ⟨events,stored⟩ := kept
      rw [found,stored,Call.recorded,kind]
      rfl
  | settled found facts kind branch stored =>
      rw [found,stored,Call.recorded,settledKindSettled kind]
      show List.length _ = _
      rw [facts.advanced.proposals,List.length_append]
      rfl

theorem settlingRecorded {f f' : Fabric} {call next : Call} {now : UInt64}
    (moved : call.step f (.settle now) = some (next,f')) :
    proposalsAt f' call.request = proposalsAt f call.request + if next.recorded then 1 else 0 := by
  cases callStep moved with
  | settles settled => exact settleRecorded settled
  | undecided nothing => rfl

theorem callRecordedOn {f f' : Fabric} {call next : Call} {action : CallAction} (id : RequestId)
    (moved : call.step f action = some (next,f')) : recordedOn id call = false ∧
      (recordedOn id next = true → call.request = id ∧ ∃ now, action = .settle now) := by
  by_cases settles : ∃ now, action = .settle now
  · obtain ⟨now,rfl⟩ := settles
    obtain ⟨before,_⟩ := settlingRecords moved
    refine ⟨by rw [recordedOn,before,Bool.false_and],?_⟩
    intro after
    rw [← (callStays moved).1]
    exact ⟨of_decide_eq_true (Bool.and_eq_true_iff.mp after).2,now,rfl⟩
  · obtain ⟨before,after⟩ := callUnrecorded moved fun now same => settles ⟨now,same⟩
    refine ⟨by rw [recordedOn,before,Bool.false_and],?_⟩
    intro recorded
    rw [recordedOn,after] at recorded
    cases recorded

structure Tallied (s : System) : Prop where
  registry : Registry s
  counted : ∀ id, proposalsAt s.fabric id = s.calls.countP (recordedOn id)

theorem proposalsStay {s t : System} {a : Action} {id : RequestId} (registry : Registry s) (taken : s.step a = some t)
    (other : ∀ index now c, a = .call index (.settle now) → s.calls[index]? = some (.settling c) →
      c.request ≠ id) :
    proposalsAt t.fabric id = proposalsAt s.fabric id := by
  unfold proposalsAt
  cases found : s.fabric.find id with
  | some rs =>
      obtain ⟨rs',stored,effect⟩ := stepEffect taken found
      rw [stored]
      rcases effectProposals effect with same | ⟨index,now,c,settles,call,own,_⟩
      · exact congrArg List.length same
      · exact absurd own (other index now c settles call)
  | none =>
      cases found' : t.fabric.find id with
      | none => rfl
      | some rs' =>
          obtain ⟨now,req,events,_,_,rfl⟩ := stepAppears registry taken found found'
          rfl

theorem talliedStep {s t : System} {a : Action} (tallied : Tallied s) (taken : s.step a = some t) : Tallied t := by
  refine ⟨registryStep taken tallied.registry,?_⟩
  intro id
  rcases stepCalls taken with ⟨same,noCall⟩ | ⟨now,eventNow,target,rfl,grown⟩ |
    ⟨index,action,call,next,rfl,present,moved,set⟩
  · rw [same,proposalsStay tallied.registry taken fun index now _ settles => absurd settles (noCall index _)]
    exact tallied.counted id
  · have begun : recordedOn id (begun target (s.fabric.planCycle now eventNow target).1) = false := by
      rw [recordedOn,begunUnrecorded,Bool.false_and]
    rw [grown,List.countP_append,List.countP_singleton,begun,
      proposalsStay tallied.registry taken fun index now _ settles => by cases settles]
    exact tallied.counted id
  · have moves := countSet (p := recordedOn id) (b := next) present
    obtain ⟨before,after⟩ := callRecordedOn id moved
    rw [← set,before] at moves
    by_cases own : call.request = id ∧ ∃ now, action = .settle now
    · obtain ⟨rfl,now,rfl⟩ := own
      have more := settlingRecorded moved
      rw [tallied.counted] at more
      simpa [recordedOn,(callStays moved).1,more] using moves.symm
    · have unrecorded : recordedOn id next = false := by
        cases recorded : recordedOn id next with
        | false => rfl
        | true => exact absurd (after recorded) own
      rw [unrecorded] at moves
      rw [proposalsStay tallied.registry taken,tallied.counted]
      · exact moves.symm
      · intro j now c settles call' same
        cases settles
        cases Option.some.inj (present.symm.trans call')
        exact own ⟨same,now,rfl⟩

theorem tallied {x : Executors} {cfg : Config} {actions : List Action} {s : System}
    (run : Run x (.start cfg) actions s) : Tallied s :=
  Runs.invariant run ⟨registryStart cfg,fun _ => rfl⟩ fun _ _ _ before _ taken => talliedStep before taken

theorem recordedKept {s : System} (tallied : Tallied s) {id : RequestId} (some_ : 0 < s.calls.countP (recordedOn id)) :
    id ∈ s.fabric.requests.keys := by
  rw [keyFound]
  rw [← tallied.counted,proposalsAt] at some_
  cases found : s.fabric.find id with
  | some rs => rfl
  | none =>
      rw [found] at some_
      cases some_

theorem proposalsTallied {s : System} (tallied : Tallied s) :
    s.fabric.tally (fun rs => rs.proposals.length) = settledCycles s.calls := by
  rw [tallyKeys]
  have each : s.fabric.requests.keys.map (fun id => share (fun rs => rs.proposals.length) (s.fabric.find id)) =
      s.fabric.requests.keys.map fun id => s.calls.countP (recordedOn id) :=
    List.map_congr_left fun id _ => tallied.counted id
  rw [each]
  refine Totals.ownersCount s.fabric.requests.keys_nodup Call.recorded Call.request ?_
  intro call member recorded
  exact recordedKept tallied (List.countP_pos_iff.mpr ⟨call,member,by simp [recordedOn,recorded]⟩)

def settledRequests (calls : List Call) : List RequestId := ((calls.filter Call.recorded).map Call.request).dedup

theorem settledRequestsKept {s : System} (tallied : Tallied s) :
    s.fabric.requests.keys.countP (fun id => decide (0 < s.calls.countP (recordedOn id))) =
      (settledRequests s.calls).length := by
  rw [List.countP_eq_length_filter]
  refine List.Perm.length_eq ((List.perm_ext_iff_of_nodup (s.fabric.requests.keys_nodup.filter _)
    (List.nodup_dedup _)).mpr ?_)
  intro id
  have recorded : 0 < s.calls.countP (recordedOn id) ↔ id ∈ settledRequests s.calls := by
    simp only [settledRequests,List.mem_dedup,List.mem_map,List.mem_filter,List.countP_pos_iff,recordedOn,
      Bool.and_eq_true,decide_eq_true_eq,and_assoc]
  rw [List.mem_filter,decide_eq_true_eq,recorded]
  exact ⟨And.right,fun settled => ⟨recordedKept tallied (recorded.mpr settled),settled⟩⟩

theorem branchesListed {x : Executors} {cfg : Config} {actions : List Action} {s : System}
    (run : Run x (.start cfg) actions s) : ∀ id rs, s.fabric.find id = some rs →
      rs.branches = [] ∧ rs.proposals = [] ∨
        rs.branches.map Branch.id = branchIds (max 1 cfg.policy.maxBranches).toNat ∧ rs.proposals ≠ [] := by
  refine everyRecord run (fun _ _ _ => .inl ⟨rfl,rfl⟩) ?_
  intro past u id a rs rs' before effect listed
  have retired : ∀ bs : List Branch,
      (bs.map fun b => { b with retired := true }).map Branch.id = bs.map Branch.id := by
    intro bs
    rw [List.map_map]
    rfl
  cases effect with
  | cancelled events live =>
      refine listed.imp (fun none => ⟨?_,none.2⟩) (fun all => ⟨(retired rs.branches).trans all.1,all.2⟩)
      exact List.map_eq_nil_iff.mpr none.1
  | rolledBack events =>
      refine listed.imp (fun none => ⟨?_,none.2⟩) (fun all => ⟨(retired rs.branches).trans all.1,all.2⟩)
      exact List.map_eq_nil_iff.mpr none.1
  | settled call same facts =>
      refine .inr ⟨settledIds (listed.imp And.left And.left) (UInt32.toNat_lt _) (settlingIds before call) facts,?_⟩
      rw [facts.advanced.proposals]
      exact List.concat_ne_nil _ _
  | _ => exact listed

theorem branchesTallied {x : Executors} {cfg : Config} {actions : List Action} {s : System}
    (run : Run x (.start cfg) actions s) : s.fabric.tally (fun rs => rs.branches.length) =
      (max 1 cfg.policy.maxBranches).toNat * (settledRequests s.calls).length := by
  have tallied := tallied run
  rw [← settledRequestsKept tallied,← Totals.marksCount,tallyKeys,← List.sum_map_mul_left]
  refine congrArg List.sum (List.map_congr_left ?_)
  intro id _
  rw [← tallied.counted id,proposalsAt]
  cases found : s.fabric.find id with
  | none => rfl
  | some rs =>
      show rs.branches.length = _ * if decide (0 < rs.proposals.length) = true then 1 else 0
      rcases branchesListed run id rs found with ⟨none,unproposed⟩ | ⟨all,proposed⟩
      · rw [none,unproposed]
        rfl
      · rw [if_pos (decide_eq_true (List.length_pos_iff.mpr proposed)),mul_one]
        simpa [branchIds] using congrArg List.length all

theorem neverReserved {x : Executors} {cfg : Config} {actions : List Action} {s : System}
    (run : Run x (.start cfg) actions s) : ∀ id rs, s.fabric.find id = some rs → rs.reservations = [] := by
  refine everyRecord run (fun _ _ _ => rfl) ?_
  intro past u id a rs rs' before effect none
  cases effect with
  | cancelled events live => exact List.map_eq_nil_iff.mpr none
  | rolledBack events => exact List.map_eq_nil_iff.mpr none
  | settled call same facts =>
      rw [facts.advanced.reservations,none]
      rfl
  | _ => exact none

theorem reservationsTallied {x : Executors} {cfg : Config} {actions : List Action} {s : System}
    (run : Run x (.start cfg) actions s) : s.fabric.tally SpeculationFabric.activeReservations = 0 := by
  rw [tallyKeys]
  refine List.sum_eq_zero fun n member => ?_
  obtain ⟨id,_,rfl⟩ := List.mem_map.mp member
  cases found : s.fabric.find id with
  | none => rfl
  | some rs => exact List.countP_eq_zero.mpr (by simp [neverReserved run id rs found])

theorem explainedUnreserved {x : Executors} {cfg : Config} {actions : List Action} {s : System}
    (run : Run x (.start cfg) actions s) {id : RequestId} (present : (s.fabric.find id).isSome) (question : String) :
    ∃ text, (s.fabric.explain id question).answerText = text ++ ", active reservations " ++ "0" := by
  obtain ⟨rs,found⟩ := Option.isSome_iff_exists.mp present
  have none : activeReservationBytes rs = 0 := by rw [activeReservationBytes,neverReserved run id rs found]; rfl
  simp only [Fabric.explain,found,none]
  exact ⟨_,rfl⟩

def Action.submitted : Action → Option RequestId
  | .submit _ req => some req.id
  | _ => none

def submittedIds (actions : List Action) : List RequestId := actions.filterMap Action.submitted

theorem submitFresh {f : Fabric} {req : SpeculationRequest} (missing : f.find req.id = none) (now : UInt64) :
    (f.submit now req).1 = .ok () ∧ ∃ events, (f.submit now req).2.find req.id =
      some { RequestState.admitted {} f.epoch req with events := events } := by
  have accepted : (f.submit now req).1 = .ok () := by
    simp only [Fabric.submit,Fabric.entry,missing]
    rfl
  refine ⟨accepted,?_⟩
  obtain ⟨old,events,stored,⟨present,_⟩ | ⟨_,rfl⟩⟩ := submittedRecord accepted
  · cases missing.symm.trans present
  · exact ⟨events,stored⟩

theorem keptSubmitted {x : Executors} {cfg : Config} {actions : List Action} {s : System}
    (run : Run x (.start cfg) actions s) (id : RequestId) :
    (s.fabric.find id).isSome ↔ id ∈ submittedIds actions := by
  have both : Registry s ∧ ((s.fabric.find id).isSome ↔ id ∈ submittedIds actions) := by
    refine Runs.recorded (P := fun past u => Registry u ∧ ((u.fabric.find id).isSome ↔ id ∈ submittedIds past))
      run ⟨registryStart cfg,iff_of_false (by simp [System.start,Fabric.new,Fabric.find]) ?_⟩ ?_
    · simp [submittedIds]
    rintro past u a v ⟨registry,kept⟩ _ taken
    refine ⟨registryStep taken registry,?_⟩
    rw [submittedIds,List.filterMap_append,List.mem_append]
    refine Iff.trans ?_ (or_congr kept Iff.rfl)
    constructor
    · intro present
      cases missing : u.fabric.find id with
      | some rs => exact .inl rfl
      | none =>
          obtain ⟨rs,found⟩ := Option.isSome_iff_exists.mp present
          obtain ⟨now,req,events,rfl,rfl,_⟩ := stepAppears registry taken missing found
          exact .inr (List.mem_singleton_self _)
    · rintro (present | submitted)
      · exact stepFound taken present
      · cases missing : u.fabric.find id with
        | some rs => exact stepFound taken (by rw [missing]; rfl)
        | none =>
            cases a with
            | submit now req =>
                cases List.mem_singleton.mp submitted
                cases Option.some.inj taken
                obtain ⟨_,events,stored⟩ := submitFresh missing now
                exact Option.isSome_iff_exists.mpr ⟨_,stored⟩
            | _ => cases submitted
  exact both.2

theorem requestsTallied {x : Executors} {cfg : Config} {actions : List Action} {s : System}
    (run : Run x (.start cfg) actions s) : s.fabric.requests.keys.length = (submittedIds actions).dedup.length := by
  refine List.Perm.length_eq ((List.perm_ext_iff_of_nodup s.fabric.requests.keys_nodup (List.nodup_dedup _)).mpr ?_)
  intro id
  rw [keyFound,keptSubmitted run,List.mem_dedup]

theorem observedCounts {x : Executors} {cfg : Config} {actions : List Action} {s : System}
    (run : Run x (.start cfg) actions s) (now : UInt64) :
    (s.fabric.snapshot now).activeRequests = (submittedIds actions).dedup.length ∧
    (s.fabric.snapshot now).activeProposals = settledCycles s.calls ∧
    (s.fabric.snapshot now).activeBranches =
      (max 1 cfg.policy.maxBranches).toNat * (settledRequests s.calls).length ∧
    (s.fabric.snapshot now).activeReservations = 0 ∧ s.fabric.readStats.speculativeReservationsCurrent = 0 ∧
    (∀ id ∈ submittedIds actions, ∀ question,
      ∃ text, (s.fabric.explain id question).answerText = text ++ ", active reservations " ++ "0") ∧
    (s.fabric.snapshot now).summaries.length = (s.fabric.snapshot now).activeRequests ∧
    (∀ id, (∃ ps, s.fabric.proposals id = .ok ps) ↔ id ∈ submittedIds actions) ∧
    (∀ id ps, s.fabric.proposals id = .ok ps → ps.length = s.calls.countP (recordedOn id)) ∧
    ∀ id bs, s.fabric.branches id = .ok bs →
      bs.map Branch.id =
        if s.calls.countP (recordedOn id) = 0 then [] else branchIds (max 1 cfg.policy.maxBranches).toNat := by
  have tallied := tallied run
  refine ⟨requestsTallied run,proposalsTallied tallied,branchesTallied run,reservationsTallied run,?_,?_,?_,?_,?_,?_⟩
  · show UInt64.ofNat (s.fabric.tally SpeculationFabric.activeReservations) = 0
    rw [reservationsTallied run]
    rfl
  · intro id submitted question
    exact explainedUnreserved run ((keptSubmitted run id).mpr submitted) question
  · show (s.fabric.ordered.map _).length = s.fabric.requests.keys.length
    rw [Fabric.ordered,List.length_map,List.length_mergeSort,AList.keys,List.keys,List.length_map]
  · intro id
    rw [← keptSubmitted run,Fabric.proposals]
    cases s.fabric.find id with
    | none => exact iff_of_false (by simp [Result.err]) (by simp)
    | some rs => exact iff_of_true ⟨_,rfl⟩ rfl
  · intro id ps answered
    rw [← tallied.counted,proposalsAt]
    unfold Fabric.proposals at answered
    cases found : s.fabric.find id with
    | none => simp [found,Result.err] at answered
    | some rs =>
        rw [found] at answered
        cases answered
        rfl
  · intro id bs answered
    rw [← tallied.counted,proposalsAt]
    unfold Fabric.branches at answered
    cases found : s.fabric.find id with
    | none => simp [found,Result.err] at answered
    | some rs =>
        rw [found] at answered
        cases answered
        show _ = if rs.proposals.length = 0 then _ else _
        rcases branchesListed run id rs found with ⟨none,unproposed⟩ | ⟨all,proposed⟩
        · rw [none,unproposed]
          rfl
        · rw [if_neg (fun empty => proposed (List.length_eq_zero_iff.mp empty)),all]

def closedAndWaiting : List Action :=
  oneCycle ++ [.cancel 7 ⟨100⟩ "done",.submit 8 (makeReq ⟨101⟩ [3]),.submit 9 (makeReq ⟨101⟩ [])]

def observed : System := (runOf (drafts [5]) (accepts 1) (.start {}) closedAndWaiting).get (by decide +kernel)

theorem closedStillObserved : (observed.fabric.snapshot 10).activeRequests = 2 ∧
    (observed.fabric.snapshot 10).activeProposals = 1 ∧ (observed.fabric.snapshot 10).activeBranches = 1 ∧
    (observed.fabric.find ⟨100⟩).map (fun rs => (rs.cancelled,rs.branches.map Branch.retired)) =
      some (true,[true]) := by
  have run : Run (.functions (drafts [5]) (accepts 1)) (.start {}) closedAndWaiting observed :=
    runOfRun (by decide +kernel)
  obtain ⟨requests,proposals,branches,_⟩ := observedCounts run 10
  exact ⟨requests.trans (by decide +kernel),proposals.trans (by decide +kernel),branches.trans (by decide +kernel),
    by decide +kernel⟩

end SpeculationFabric
