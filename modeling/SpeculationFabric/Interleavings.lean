import SpeculationFabric.Views
import SpeculationFabric.Independent
import SpeculationFabric.CycleEvents
import SpeculationFabric.Ledger

/-! The engine as a system of independent requests. The record of a request and the
calls in flight on it decide everything that happens to it next; the statistics add
up. So the engine is an instance of the general library, and how critical sections of
different requests were interleaved cannot be told from the outcome. -/
namespace SpeculationFabric
open Independent (Round operations results)

inductive Op where
  | submit (req : SpeculationRequest)
  | runCycle
  | cancel (why : String)
  | complete
  | rollback (why : String)
  | retry

inductive Answer where
  | done (answer : Result Unit)
  | rolledBack (answer : Result RollbackResult)
  | attempt (answer : Result AttemptId)
  | cycle (answer : Result CycleOutcome)

def Action.op : Action → Option Op
  | .submit _ req => some (.submit req)
  | .runCycle _ _ _ => some .runCycle
  | .cancel _ _ why => some (.cancel why)
  | .complete _ _ => some .complete
  | .rollback _ _ why => some (.rollback why)
  | .retry _ _ => some .retry
  | .rollEpoch | .emitEvent _ _ _ _ _ | .call _ _ => none

def Call.reports : Call → List Answer
  | .returned _ answer => [.cycle answer]
  | _ => []

def System.answers (s : System) : Action → List Answer
  | .submit now req => [.done (s.fabric.submit now req).1]
  | .runCycle now eventNow id => (begun id (s.fabric.planCycle now eventNow id).1).reports
  | .cancel now id why => [.done (s.fabric.cancel now id why).1]
  | .complete now id => [.done (s.fabric.complete now id).1]
  | .rollback now id why => [.rolledBack (s.fabric.rollback now id why).1]
  | .retry now id => [.attempt (s.fabric.retry now id).1]
  | .call index action =>
      match (s.calls[index]?).bind (fun call => call.step s.fabric action) with
      | some next => next.1.reports
      | none => []
  | .rollEpoch | .emitEvent _ _ _ _ _ => []

def onRequest (id : RequestId) (call : Call) : Bool := decide (call.request = id) && call.cycle.isSome

def System.inFlight (s : System) (id : RequestId) : List Call := s.calls.filter (onRequest id)

structure View where
  record : Option RequestState
  calls : List Call

def System.view (id : RequestId) (s : System) : View := ⟨(s.fabric.find id).map RequestState.bare,s.inFlight id⟩

structure Turn where
  write : Write := {}
  calls : List Call := []
  answers : List Answer := []

def opTurn (cfg : Config) (id : RequestId) (record : Option RequestState) : Op → Turn
  | .submit req =>
      let d := submitDecision cfg.epoch req record
      { write := d.2, answers := [.done d.1] }
  | .runCycle =>
      let d := planDecision cfg { policy := cfg.policy } 1.0 0 record
      { write := d.2, calls := [begun id d.1].filter (onRequest id), answers := (begun id d.1).reports }
  | .cancel why =>
      let d := cancelDecision why record
      { write := d.2, answers := [.done d.1] }
  | .complete =>
      let d := completeDecision record
      { write := d.2, answers := [.done d.1] }
  | .rollback why =>
      let d := rollbackDecision why record
      { write := d.2, answers := [.rolledBack d.1] }
  | .retry =>
      let d := retryDecision record
      { write := d.2, answers := [.attempt d.1] }

section executors
variable (propose : ProposalInput → Result ProposalResult) (verify : VerificationInput → Result AcceptanceResult)

def Call.advance (found : Option RequestState) : Call → Call × Write
  | .proposing c =>
      (.proposalSent c (proposalInput (found.getD {}) c.request c.planned (UInt32.ofNat c.proposed.length)),{})
  | .proposalSent c pin => (c.proposalReturned pin (propose pin),{})
  | .verifying c =>
      match c.proposed[c.accepted.length]? with
      | some br =>
          match br.pr.candidate with
          | some candidate =>
              (.verificationSent c (verificationInput (found.getD {}) c.request c.planned br candidate),{})
          | none => (.undefined c.request,{})
      | none => (.undefined c.request,{})
  | .verificationSent c vin => (c.verificationReturned vin (verify vin),{})
  | .settling c =>
      match settleDecision c found with
      | some d => (.returned c.request d.1,d.2)
      | none => (.undefined c.request,{})
  | .returned id answer => (.returned id answer,{})
  | .undefined id => (.undefined id,{})

def turn (cfg : Config) (id : RequestId) (v : View) : Option Op → Turn
  | some op => opTurn cfg id v.record op
  | none =>
      match v.calls with
      | call :: _ =>
          let d := call.advance propose verify v.record
          { write := d.2, calls := [d.1].filter (onRequest id), answers := d.1.reports }
      | [] => {}

theorem turnCalls (cfg : Config) (id : RequestId) (v : View) (label : Option Op) :
    (turn propose verify cfg id v label).calls.length ≤ 1 := by
  have one : ∀ call : Call, ([call].filter (onRequest id)).length ≤ 1 := fun call => List.length_filter_le _ _
  cases label with
  | some op =>
      cases op with
      | runCycle => exact one _
      | _ => exact Nat.zero_le 1
  | none =>
      cases held : v.calls with
      | nil =>
          simp only [turn,held]
          exact Nat.zero_le 1
      | cons call rest =>
          simp only [turn,held]
          exact one _

theorem advanceBare (call : Call) (found : Option RequestState) :
    call.advance propose verify (found.map RequestState.bare) =
      ((call.advance propose verify found).1,(call.advance propose verify found).2.bare) := by
  cases call with
  | proposing c => cases found <;> rfl
  | verifying c =>
      unfold Call.advance
      dsimp only
      split
      · split
        · cases found <;> rfl
        · rfl
      · rfl
  | settling c =>
      simp only [Call.advance,settleBare]
      cases settleDecision c found <;> rfl
  | _ => rfl

variable {propose verify}

theorem advanceTaken {s : System} {index : Nat} {call next : Call} {action : CallAction} {f' : Fabric}
    (present : s.calls[index]? = some call) (registered : (s.fabric.find call.request).isSome)
    (allowed : (Executors.functions propose verify).admits s (.call index action))
    (taken : call.step s.fabric action = some (next,f')) :
    call.advance propose verify (s.fabric.find call.request) = (next,(s.writes (.call index action)).2) := by
  obtain ⟨rs,found⟩ := Option.isSome_iff_exists.mp registered
  cases callStep taken with
  | asks c =>
      have here : s.fabric.find c.request = some rs := found
      rw [entryFound here]
      show (Call.proposing c).advance propose verify (s.fabric.find c.request) = _
      rw [here]
      rfl
  | proposalFailed c pin e =>
      have drafted : .error e = propose pin := allowed c pin present
      simp only [Call.advance,← drafted]
      rfl
  | proposed c pin pr =>
      have drafted : .ok pr = propose pin := allowed c pin present
      simp only [Call.advance,← drafted]
      rfl
  | @sends c br candidate at_ produced =>
      have here : s.fabric.find c.request = some rs := found
      rw [entryFound here]
      show (Call.verifying c).advance propose verify (s.fabric.find c.request) = _
      simp only [Call.advance,at_,here,produced]
      rfl
  | finds at_ absent =>
      simp only [Call.advance,at_,absent]
      rfl
  | verificationFailed c vin e =>
      have judged : .error e = verify vin := allowed c vin present
      simp only [Call.advance,← judged]
      rfl
  | verified c vin accept =>
      have judged : .ok accept = verify vin := allowed c vin present
      simp only [Call.advance,← judged]
      rfl
  | @settles c now answer _ settled =>
      rw [settleSection] at settled
      obtain ⟨d,decided,same⟩ := Option.map_eq_some_iff.mp settled
      cases same
      show (Call.settling c).advance propose verify (s.fabric.find c.request) = _
      simp only [Call.advance,System.writes,present,decided]
      rfl
  | @undecided c now nothing =>
      rw [settleSection] at nothing
      have decided := Option.map_eq_none_iff.mp nothing
      show (Call.settling c).advance propose verify (s.fabric.find c.request) = _
      simp only [Call.advance,System.writes,present,decided]
      rfl

end executors

section replacing
variable {α : Type} {q : α → Bool} {xs : List α} {i : Nat} {x : α}

theorem filterSetSelf (y : α) (at_ : xs[i]? = some x) (holds : q x = true) (only : xs.filter q = [x]) :
    (xs.set i y).filter q = [y].filter q := by
  induction xs generalizing i with
  | nil => contradiction
  | cons a rest ih =>
      cases i with
      | zero =>
          cases Option.some.inj at_
          rw [List.filter_cons_of_pos holds,List.cons.injEq] at only
          rw [List.set_cons_zero,List.filter_cons,List.filter_cons,only.2,List.filter_nil]
      | succ i =>
          have later : rest[i]? = some x := at_
          have member : x ∈ rest.filter q := List.mem_filter.mpr ⟨List.mem_of_getElem? later,holds⟩
          cases first : q a with
          | true =>
              rw [List.filter_cons_of_pos first,List.cons.injEq] at only
              rw [only.2] at member
              contradiction
          | false =>
              have skip : ¬ q a = true := by rw [first]; exact Bool.false_ne_true
              rw [List.filter_cons_of_neg skip] at only
              rw [List.set_cons_succ,List.filter_cons_of_neg skip]
              exact ih later only

theorem filterSetOther {y : α} (at_ : xs[i]? = some x) (before : q x = false) (after : q y = false) :
    (xs.set i y).filter q = xs.filter q := by
  induction xs generalizing i with
  | nil => rfl
  | cons a rest ih =>
      cases i with
      | zero =>
          cases Option.some.inj at_
          rw [List.set_cons_zero,List.filter_cons,List.filter_cons,before,after]
          rfl
      | succ i =>
          rw [List.set_cons_succ,List.filter_cons,List.filter_cons,ih at_]

theorem onlyOne {ys : List α} (few : ys.length ≤ 1) (member : x ∈ ys) : ys = [x] := by
  cases ys with
  | nil => contradiction
  | cons y rest =>
      cases rest with
      | nil => rw [List.mem_singleton.mp member]
      | cons z rest =>
          simp only [List.length_cons] at few
          omega

end replacing

structure Tidy (cfg : Config) (s : System) : Prop where
  registry : Registry s
  config : s.fabric.cfg = cfg
  epoch : s.fabric.epoch = cfg.epoch
  policy : s.fabric.scheduler.policy = cfg.policy
  timeless : ∀ id rs, s.fabric.find id = some rs → rs.req.deadlineNs = none
  single : ∀ id, (s.inFlight id).length ≤ 1

/- A step of some request: an operation while nothing is in flight on it, or the next
piece of what is. -/
structure Orderly (x : Executors) (s : System) (a : Action) : Prop where
  admitted : x.admits s a
  timeless : ∀ now req, a = .submit now req → req.deadlineNs = none
  placed : a.op.isSome ∨ ∃ index action, a = .call index action
  alone : a.op.isSome → ∀ id, s.target a = some id → s.inFlight id = []

section steps
variable {propose : ProposalInput → Result ProposalResult} {verify : VerificationInput → Result AcceptanceResult}
  {cfg : Config} {s t : System} {a : Action} {id : RequestId}

theorem callOnRequest {index : Nat} {call next : Call} {action : CallAction} {f' : Fabric}
    (present : s.calls[index]? = some call) (moved : call.step s.fabric action = some (next,f')) :
    call ∈ s.inFlight call.request := by
  refine List.mem_filter.mpr ⟨List.mem_of_getElem? present,?_⟩
  simp only [onRequest,decide_true,(callStays moved).2,Bool.and_self]

theorem turnExact (plain : Plain cfg.policy) (tidy : Tidy cfg s) (orderly : Orderly (.functions propose verify) s a)
    (taken : s.step a = some t) (named : s.target a = some id) :
    ∃ now w, t.fabric = s.fabric.write now id w ∧
      turn propose verify cfg id (s.view id) a.op = ⟨w.bare,t.inFlight id,s.answers a⟩ := by
  have quiet : a.op.isSome → s.inFlight id = [] := fun some_ => orderly.alone some_ id named
  cases a with
  | submit now req =>
      cases Option.some.inj named
      cases Option.some.inj taken
      have decided := submitSection s.fabric now req
      rw [tidy.epoch] at decided
      refine ⟨now,_,congrArg Prod.snd decided,?_⟩
      have flights : System.inFlight { s with fabric := (s.fabric.submit now req).2 } req.id = [] := quiet rfl
      simp only [turn,Action.op,opTurn,System.view,submitBare,flights,System.answers,congrArg Prod.fst decided]
  | cancel now target why =>
      cases Option.some.inj named
      cases Option.some.inj taken
      have decided := cancelSection s.fabric now id why
      refine ⟨now,_,congrArg Prod.snd decided,?_⟩
      have flights : System.inFlight { s with fabric := (s.fabric.cancel now id why).2 } id = [] := quiet rfl
      simp only [turn,Action.op,opTurn,System.view,cancelBare,flights,System.answers,congrArg Prod.fst decided]
  | complete now target =>
      cases Option.some.inj named
      cases Option.some.inj taken
      have decided := completeSection s.fabric now id
      refine ⟨now,_,congrArg Prod.snd decided,?_⟩
      have flights : System.inFlight { s with fabric := (s.fabric.complete now id).2 } id = [] := quiet rfl
      simp only [turn,Action.op,opTurn,System.view,completeBare,flights,System.answers,congrArg Prod.fst decided]
  | rollback now target why =>
      cases Option.some.inj named
      cases Option.some.inj taken
      have decided := rollbackSection s.fabric now id why
      refine ⟨now,_,congrArg Prod.snd decided,?_⟩
      have flights : System.inFlight { s with fabric := (s.fabric.rollback now id why).2 } id = [] := quiet rfl
      simp only [turn,Action.op,opTurn,System.view,rollbackBare,flights,System.answers,congrArg Prod.fst decided]
  | retry now target =>
      cases Option.some.inj named
      cases Option.some.inj taken
      have decided := retrySection s.fabric now id
      refine ⟨now,_,congrArg Prod.snd decided,?_⟩
      have flights : System.inFlight { s with fabric := (s.fabric.retry now id).2 } id = [] := quiet rfl
      simp only [turn,Action.op,opTurn,System.view,retryBare,flights,System.answers,congrArg Prod.fst decided]
  | rollEpoch => contradiction
  | emitEvent now target type detail json =>
      rcases orderly.placed with started | ⟨index,action,same⟩
      · contradiction
      · cases same
  | runCycle now eventNow target =>
      cases Option.some.inj named
      have begins : t = ⟨(s.fabric.planCycle now eventNow id).2,
          s.calls ++ [begun id (s.fabric.planCycle now eventNow id).1]⟩ := (Option.some.inj taken).symm
      subst begins
      have decided := planSection s.fabric now eventNow id
      have bare := planBare plain tidy.policy cfg s.fabric.stats.acceptanceRatio now (tidy.timeless id)
      rw [tidy.config] at decided
      refine ⟨eventNow,_,congrArg Prod.snd decided,?_⟩
      have flights : System.inFlight ⟨(s.fabric.planCycle now eventNow id).2,
          s.calls ++ [begun id (s.fabric.planCycle now eventNow id).1]⟩ id =
          [begun id (s.fabric.planCycle now eventNow id).1].filter (onRequest id) := by
        have none : s.calls.filter (onRequest id) = [] := quiet rfl
        show (s.calls ++ [_]).filter (onRequest id) = _
        rw [List.filter_append,none,List.nil_append]
      rw [flights]
      simp only [turn,Action.op,opTurn,System.view,bare,System.answers,congrArg Prod.fst decided]
  | call index action =>
      obtain ⟨call,next,f',present,moved,rfl⟩ := callMoved taken
      have request : call.request = id := by simpa [System.target,present] using named
      subst request
      have member := callOnRequest present moved
      have only := onlyOne (tidy.single call.request) member
      have registered := tidy.registry.registered call (List.mem_of_getElem? present) (callStays moved).2
      have advanced := advanceTaken present registered orderly.admitted moved
      refine ⟨_,_,callWrite present registered moved,?_⟩
      have flights : (s.calls.set index next).filter (onRequest call.request) =
          [next].filter (onRequest call.request) :=
        filterSetSelf next present (List.mem_filter.mp member).2 only
      simp only [turn,Action.op,System.view,only,advanceBare,advanced,System.answers,present,Option.bind_some,moved]
      rw [← flights]
      rfl

theorem turnElsewhere (registry : Registry s) (taken : s.step a = some t) (named : s.target a = some id)
    {other : RequestId} (different : other ≠ id) : t.view other = s.view other := by
  have record : t.fabric.find other = s.fabric.find other := by
    rcases stepWrite registry taken with ⟨rfl,_⟩ | ⟨target,target',written⟩
    · contradiction
    · cases Option.some.inj (named.symm.trans target')
      rw [written]
      exact writeOther _ _ _ different
  have flights : t.inFlight other = s.inFlight other := by
    have away : ∀ call : Call, call.request = id → onRequest other call = false := by
      intro call here
      have no : ¬ call.request = other := fun there => different (there.symm.trans here)
      simp only [onRequest,no,decide_false,Bool.false_and]
    unfold System.inFlight
    rcases stepCalls taken with ⟨kept,_⟩ | ⟨now,eventNow,target,rfl,grown⟩ | ⟨index,action,call,next,rfl,present,moved,set⟩
    · rw [kept]
    · cases Option.some.inj named
      have gone : ¬ onRequest other (begun id (s.fabric.planCycle now eventNow id).1) = true := by
        rw [away _ (begunRequest id _)]
        exact Bool.false_ne_true
      rw [grown,List.filter_append,List.filter_cons_of_neg gone,List.filter_nil,List.append_nil]
    · have request : call.request = id := by simpa [System.target,present] using named
      rw [set]
      exact filterSetOther present (away call request) (away next ((callStays moved).1.trans request))
  unfold System.view
  rw [record,flights]

theorem orderlyTarget {x : Executors} (orderly : Orderly x s a) (taken : s.step a = some t) :
    ∃ id, s.target a = some id := by
  rcases orderly.placed with started | ⟨index,action,rfl⟩
  · cases a with
    | rollEpoch => contradiction
    | call index action => contradiction
    | _ => exact ⟨_,rfl⟩
  · obtain ⟨call,_,_,present,_⟩ := callMoved taken
    exact ⟨call.request,by simp [System.target,present]⟩

theorem tidyStep (plain : Plain cfg.policy) (tidy : Tidy cfg s) (orderly : Orderly (.functions propose verify) s a)
    (taken : s.step a = some t) : Tidy cfg t := by
  obtain ⟨id,named⟩ := orderlyTarget orderly taken
  obtain ⟨now,w,written,exactly_⟩ := turnExact plain tidy orderly taken named
  obtain ⟨config,epoch,policy⟩ := writeFixed s.fabric now id w
  rw [← written] at config epoch policy
  refine ⟨registryStep taken tidy.registry,config.trans tidy.config,epoch.trans tidy.epoch,policy.trans tidy.policy,
    ?_,?_⟩
  · refine recordsKept tidy.registry taken (fun now req _ => orderly.timeless now req) ?_
    intro other rs rs' found _ effect
    have before := tidy.timeless other rs found
    cases effect with
    | @resubmitted now req _ events same null => exact orderly.timeless now req rfl
    | settled call same facts =>
        rw [facts.advanced.req]
        exact before
    | _ => exact before
  · intro other
    by_cases here : other = id
    · subst here
      have calls : (turn propose verify cfg other (s.view other) a.op).calls = t.inFlight other := by rw [exactly_]
      rw [← calls]
      exact turnCalls propose verify cfg other (s.view other) a.op
    · have same : t.inFlight other = s.inFlight other :=
        congrArg View.calls (turnElsewhere tidy.registry taken named here)
      rw [same]
      exact tidy.single other

theorem orderlyPaced {x : Executors} (orderly : Orderly x s a) (taken : s.step a = some t)
    (named : s.target a = some id) : a.op.isSome ↔ s.inFlight id = [] := by
  constructor
  · intro started
    exact orderly.alone started id named
  · intro quiet
    rcases orderly.placed with started | ⟨index,action,rfl⟩
    · exact started
    · -- a call that moves is in flight on its request
      obtain ⟨call,next,f',present,moved,_⟩ := callMoved taken
      have request : call.request = id := by simpa [System.target,present] using named
      have member := callOnRequest present moved
      rw [request,quiet] at member
      contradiction

end steps

def requestParts (cfg : Config) (propose : ProposalInput → Result ProposalResult)
    (verify : VerificationInput → Result AcceptanceResult) (plain : Plain cfg.policy) :
    Independent.Parts System Action RequestId View Op Answer Stats where
  step := System.step
  ok := Orderly (.functions propose verify)
  good := Tidy cfg
  owner s a := (s.target a).getD ⟨0⟩
  label _ a := a.op
  answers := System.answers
  view := System.view
  total s := s.fabric.stats
  move id v label := ⟨written id v.record (turn propose verify cfg id v label).write,
    (turn propose verify cfg id v label).calls⟩
  weigh id v label := (turn propose verify cfg id v label).write.counts
  reply id v label := (turn propose verify cfg id v label).answers
  idle v := v.calls = []
  kept tidy orderly taken := tidyStep plain tidy orderly taken
  own := by
    intro s a t tidy orderly taken
    obtain ⟨id,named⟩ := orderlyTarget orderly taken
    obtain ⟨now,w,changed,exactly_⟩ := turnExact plain tidy orderly taken named
    rw [named,Option.getD_some,exactly_]
    show View.mk ((t.fabric.find id).map RequestState.bare) (t.inFlight id) = _
    rw [changed,writeBare]
    rfl
  others := by
    intro s a t other tidy orderly taken different
    obtain ⟨id,named⟩ := orderlyTarget orderly taken
    rw [named,Option.getD_some] at different
    exact turnElsewhere tidy.registry taken named different
  counted := by
    intro s a t tidy orderly taken
    obtain ⟨id,named⟩ := orderlyTarget orderly taken
    obtain ⟨now,w,changed,exactly_⟩ := turnExact plain tidy orderly taken named
    rw [named,Option.getD_some,exactly_,changed,writeStats]
    rfl
  answered := by
    intro s a t tidy orderly taken
    obtain ⟨id,named⟩ := orderlyTarget orderly taken
    obtain ⟨now,w,changed,exactly_⟩ := turnExact plain tidy orderly taken named
    rw [named,Option.getD_some,exactly_]
  paced := by
    intro s a t tidy orderly taken
    obtain ⟨id,named⟩ := orderlyTarget orderly taken
    rw [named,Option.getD_some]
    exact orderlyPaced orderly taken named

def roundsFrom (s : System) (actions : List Action) : List (Round RequestId Op Answer) :=
  Runs.logged System.step (fun s a => [⟨(s.target a).getD ⟨0⟩,a.op,s.answers a⟩]) s actions

structure Interleaving (cfg : Config) (x : Executors) (wanted : RequestId → List Op) (actions : List Action)
    (s : System) : Prop where
  run : Runs.Trace System.step (Orderly x) (.start cfg) actions s
  asked : ∀ id, operations id (roundsFrom (.start cfg) actions) = wanted id
  finished : ∀ call ∈ s.calls, ∃ id answer, call = .returned id answer

structure SameOutcome (cfg : Config) (actions actions' : List Action) (s s' : System) : Prop where
  records : ∀ id, (s.fabric.find id).map RequestState.bare = (s'.fabric.find id).map RequestState.bare
  stats : s.fabric.stats = s'.fabric.stats
  answers : ∀ id, results id (roundsFrom (.start cfg) actions) = results id (roundsFrom (.start cfg) actions')

theorem restingFlights {s : System} (idle : ∀ call ∈ s.calls, call.cycle = none) (id : RequestId) :
    s.inFlight id = [] := by
  refine List.filter_eq_nil_iff.mpr ?_
  intro call member here
  simp only [onRequest,idle call member,Option.isSome_none,Bool.and_false] at here
  contradiction

theorem tidyStart (cfg : Config) : Tidy cfg (.start cfg) := by
  refine ⟨registryStart cfg,rfl,rfl,rfl,?_,fun _ => Nat.zero_le 1⟩
  intro id rs found
  exact absurd found (startRecordless _ _ _)

theorem Interleaving.idle {cfg : Config} {x : Executors} {wanted : RequestId → List Op} {actions : List Action}
    {s : System} (whole : Interleaving cfg x wanted actions s) : ∀ call ∈ s.calls, call.cycle = none := by
  intro call member
  obtain ⟨id,answer,rfl⟩ := whole.finished call member
  rfl

theorem interleavingsAgree {cfg : Config} {propose : ProposalInput → Result ProposalResult}
    {verify : VerificationInput → Result AcceptanceResult} (plain : Plain cfg.policy) {wanted : RequestId → List Op}
    {actions actions' : List Action} {s s' : System}
    (one : Interleaving cfg (.functions propose verify) wanted actions s)
    (other : Interleaving cfg (.functions propose verify) wanted actions' s') :
    SameOutcome cfg actions actions' s s' := by
  obtain ⟨views,stats,answers⟩ := Independent.Parts.agree (p := requestParts cfg propose verify plain) (tidyStart cfg)
    one.run other.run (restingFlights one.idle) (restingFlights other.idle)
    (fun id => (one.asked id).trans (other.asked id).symm)
  exact ⟨fun id => congrArg View.record (views id),stats,answers⟩

structure Resting (cfg : Config) (x : Executors) (s : System) : Prop where
  tidy : Tidy cfg s
  facts : ∀ call ∈ s.calls, CallFacts x call
  idle : ∀ call ∈ s.calls, call.cycle = none

section driving
variable {cfg : Config} {propose : ProposalInput → Result ProposalResult}
  {verify : VerificationInput → Result AcceptanceResult} {s : System} {id : RequestId}

theorem roundsCons {a : Action} {t : System} (taken : s.step a = some t) (rest : List Action) :
    roundsFrom s (a :: rest) = ⟨(s.target a).getD ⟨0⟩,a.op,s.answers a⟩ :: roundsFrom t rest := by
  simp only [roundsFrom,Runs.logged,taken,List.singleton_append]

def Performs (cfg : Config) (x : Executors) (id : RequestId) (s : System) (ops : List Op) : Prop :=
  ∃ as t, Runs.Trace System.step (Orderly x) s as t ∧ Resting cfg x t ∧ (∀ r ∈ roundsFrom s as, r.owner = id) ∧
    operations id (roundsFrom s as) = ops

theorem performsNothing {x : Executors} (resting : Resting cfg x s) : Performs cfg x id s [] := by
  refine ⟨[],s,.nil,resting,?_,rfl⟩
  intro r member
  cases member

theorem performsStep {x : Executors} {a : Action} {t : System} {ops : List Op} (orderly : Orderly x s a)
    (taken : s.step a = some t) (named : s.target a = some id) (rest : Performs cfg x id t ops) :
    Performs cfg x id s (a.op.toList ++ ops) := by
  obtain ⟨as,u,trace,resting,mine,asked⟩ := rest
  refine ⟨a :: as,u,Runs.cons orderly taken trace,resting,?_,?_⟩
  · rw [roundsCons taken,named,Option.getD_some]
    intro r member
    rcases List.mem_cons.mp member with rfl | later
    · rfl
    · exact mine r later
  · rw [roundsCons taken,named,Option.getD_some,← List.singleton_append,Independent.operationsAppend,asked]
    congr 1
    cases a.op <;> simp [operations,Independent.labels,Independent.roundsOf]

theorem performsAppend {x : Executors} {xs ys : List Op} (first : Performs cfg x id s xs)
    (rest : ∀ {t}, Resting cfg x t → Performs cfg x id t ys) : Performs cfg x id s (xs ++ ys) := by
  obtain ⟨as,t,trace,resting,mine,asked⟩ := first
  obtain ⟨bs,u,trace',resting',mine',asked'⟩ := rest resting
  have joined : roundsFrom s (as ++ bs) = roundsFrom s as ++ roundsFrom t bs := Runs.loggedAppend trace bs
  refine ⟨as ++ bs,u,Runs.append trace trace',resting',?_,?_⟩
  · intro r member
    rw [joined] at member
    rcases List.mem_append.mp member with early | late
    · exact mine r early
    · exact mine' r late
  · rw [joined,Independent.operationsAppend,asked,asked']

theorem driven (plain : Plain cfg.policy) (answers : Answering (.functions propose verify)) :
    ∀ (n : Nat) {s : System} {index : Nat} {call : Call}, call.left < n → s.calls[index]? = some call →
      call.request = id → (∀ j call', j ≠ index → s.calls[j]? = some call' → call'.cycle = none) → Tidy cfg s →
      (∀ call ∈ s.calls, CallFacts (.functions propose verify) call) →
      Performs cfg (.functions propose verify) id s [] := by
  intro n
  induction n with
  | zero =>
      intro s index call none
      omega
  | succ n ih =>
      intro s index call few at_ request others tidy facts
      cases active : call.cycle with
      | none =>
          refine performsNothing ⟨tidy,facts,?_⟩
          intro call' member
          obtain ⟨j,there⟩ := List.mem_iff_getElem?.mp member
          by_cases here : j = index
          · subst here
            cases Option.some.inj (at_.symm.trans there)
            exact active
          · exact others j call' here there
      | some c =>
          obtain ⟨action,next,f',allowed,moved,less,_⟩ :=
            callMoves answers at_ (by rw [active]; rfl) (facts call (List.mem_of_getElem? at_))
          obtain ⟨taken,there⟩ := callTaken at_ moved
          have named : s.target (.call index action) = some id := by simp [System.target,at_,request]
          have orderly : Orderly (.functions propose verify) s (.call index action) := by
            refine ⟨allowed,?_,.inr ⟨index,action,rfl⟩,?_⟩
            · intro now req same
              cases same
            · intro started
              contradiction
          have others' : ∀ j call', j ≠ index → (s.calls.set index next)[j]? = some call' → call'.cycle = none := by
            intro j call' different at'
            rw [List.getElem?_set_ne (fun same => different same.symm)] at at'
            exact others j call' different at'
          exact performsStep orderly taken named (ih (by omega) there ((callStays moved).1.trans request) others'
            (tidyStep plain tidy orderly taken) (callFactsStep taken allowed facts))

def Op.action (id : RequestId) : Op → Action
  | .submit req => .submit 0 req
  | .runCycle => .runCycle 0 0 id
  | .cancel why => .cancel 0 id why
  | .complete => .complete 0 id
  | .rollback why => .rollback 0 id why
  | .retry => .retry 0 id

def Op.Legal (id : RequestId) : Op → Prop
  | .submit req => req.id = id ∧ req.deadlineNs = none
  | _ => True

theorem actionPlaced {op : Op} (legal : op.Legal id) (s : System) :
    (op.action id).op = some op ∧ s.target (op.action id) = some id := by
  cases op with
  | submit req => exact ⟨rfl,congrArg some legal.1⟩
  | _ => exact ⟨rfl,rfl⟩

theorem actionOrderly {x : Executors} {op : Op} (legal : op.Legal id) (idle : ∀ call ∈ s.calls, call.cycle = none) :
    Orderly x s (op.action id) := by
  refine ⟨?_,?_,.inl ?_,fun _ other _ => restingFlights idle other⟩
  · cases op <;> trivial
  · intro now req same
    cases op with
    | submit req' =>
        cases same
        exact legal.2
    | _ => cases same
  · rw [(actionPlaced legal s).1]
    rfl

theorem performed (plain : Plain cfg.policy) (answers : Answering (.functions propose verify)) {op : Op}
    (legal : op.Legal id) (resting : Resting cfg (.functions propose verify) s) :
    Performs cfg (.functions propose verify) id s [op] := by
  obtain ⟨started,named⟩ := actionPlaced legal s
  have orderly : Orderly (.functions propose verify) s (op.action id) := actionOrderly legal resting.idle
  have finish : ∀ t, s.step (op.action id) = some t → Performs cfg (.functions propose verify) id t [] →
      Performs cfg (.functions propose verify) id s [op] := by
    intro t taken rest
    have whole := performsStep orderly taken named rest
    rw [started] at whole
    exact whole
  have tidy : ∀ t, s.step (op.action id) = some t → Tidy cfg t := fun t taken => tidyStep plain resting.tidy orderly taken
  have facts : ∀ t, s.step (op.action id) = some t → ∀ call ∈ t.calls, CallFacts (.functions propose verify) call :=
    fun t taken => callFactsStep taken orderly.admitted resting.facts
  cases op with
  | runCycle =>
      refine finish _ rfl (driven plain answers _ (Nat.lt_succ_self _) List.getElem?_concat_length (begunRequest id _) ?_
        (tidy _ rfl) (facts _ rfl))
      intro j call' different at_
      rcases appendedAt at_ with old | ⟨same,_⟩
      · exact resting.idle call' (List.mem_of_getElem? old)
      · exact absurd same different
  | _ => exact finish _ rfl (performsNothing ⟨tidy _ rfl,facts _ rfl,resting.idle⟩)

theorem performedAll (plain : Plain cfg.policy) (answers : Answering (.functions propose verify)) (ops : List Op)
    (legal : ∀ op ∈ ops, op.Legal id) {s : System} (resting : Resting cfg (.functions propose verify) s) :
    Performs cfg (.functions propose verify) id s ops := by
  induction ops generalizing s with
  | nil => exact performsNothing resting
  | cons op ops ih =>
      exact performsAppend (performed plain answers (legal op List.mem_cons_self) resting)
        (ih (fun op' member => legal op' (List.mem_cons_of_mem op member)))

end driving

structure Dependable (propose : ProposalInput → Result ProposalResult)
    (verify : VerificationInput → Result AcceptanceResult) : Prop where
  candidates : ∀ pin, ∃ pr candidate, propose pin = .ok pr ∧ pr.candidate = some candidate
  bounded : ∀ vin, ∃ accept, verify vin = .ok accept ∧ accept.acceptedPrefix.toNat ≤ vin.candidate.size

section dependable
variable {propose : ProposalInput → Result ProposalResult} {verify : VerificationInput → Result AcceptanceResult}

theorem Dependable.answering (dependable : Dependable propose verify) : Answering (.functions propose verify) := by
  constructor
  · intro pin
    obtain ⟨pr,_,drafted,_⟩ := dependable.candidates pin
    exact ⟨pr,drafted.symm⟩
  · intro vin
    obtain ⟨accept,judged,_⟩ := dependable.bounded vin
    exact ⟨accept,judged.symm⟩

theorem Dependable.returned (dependable : Dependable propose verify) {cfg : Config} {actions : List Action}
    {s : System} (run : Run (.functions propose verify) (.start cfg) actions s)
    (idle : ∀ call ∈ s.calls, call.cycle = none) : ∀ call ∈ s.calls, ∃ id answer, call = .returned id answer := by
  have candidates : ∀ pin pr, (Executors.functions propose verify).propose pin (.ok pr) → pr.candidate.isSome := by
    intro pin pr drafted
    obtain ⟨pr',candidate,same,produced⟩ := dependable.candidates pin
    cases drafted.trans same
    rw [produced]
    rfl
  have bounded : ∀ vin accept, (Executors.functions propose verify).verify vin (.ok accept) →
      accept.acceptedPrefix.toNat ≤ vin.candidate.size := by
    intro vin accept judged
    obtain ⟨accept',same,inside⟩ := dependable.bounded vin
    cases judged.trans same
    exact inside
  intro call member
  have ended := idle call member
  have defined := (everyCallDefined candidates bounded run call member).2
  cases call with
  | returned id answer => exact ⟨id,answer,rfl⟩
  | undefined id => exact defined.elim
  | _ => contradiction

end dependable

theorem requestsIndependent {cfg : Config} {propose : ProposalInput → Result ProposalResult}
    {verify : VerificationInput → Result AcceptanceResult} (plain : Plain cfg.policy)
    (dependable : Dependable propose verify) {wanted : RequestId → List Op}
    (legal : ∀ id, ∀ op ∈ wanted id, op.Legal id) {order : List RequestId} (distinct : order.Nodup)
    (covers : ∀ id, wanted id ≠ [] → id ∈ order) :
    (∃ actions s, Interleaving cfg (.functions propose verify) wanted actions s ∧
      Independent.InOrder order (roundsFrom (.start cfg) actions)) ∧
    ∀ actions actions' s s', Interleaving cfg (.functions propose verify) wanted actions s →
      Interleaving cfg (.functions propose verify) wanted actions' s' → SameOutcome cfg actions actions' s s' := by
  constructor
  · have start : Resting cfg (.functions propose verify) (.start cfg) := by
      refine ⟨tidyStart cfg,?_,?_⟩
      · intro call member
        cases member
      · intro call member
        cases member
    obtain ⟨actions,s,run,resting,ordered,asked⟩ := Independent.sequential (p := requestParts cfg propose verify plain)
      (fun id s resting => performedAll plain dependable.answering (wanted id) (legal id) resting) order distinct start
    refine ⟨actions,s,⟨run,?_,?_⟩,ordered⟩
    · intro id
      refine (asked id).trans ?_
      by_cases some_ : wanted id = []
      · rw [some_,ite_self]
      · exact if_pos (covers id some_)
    · exact dependable.returned (Runs.weaken run (fun _ _ orderly => orderly.admitted)) resting.idle
  · intro actions actions' s s' one other
    exact interleavingsAgree plain one other

def fixedDepth : Config := { policy := { adaptiveDepthEnabled := false } }

def twoRequests (id : RequestId) : List Op :=
  if id = ⟨100⟩ then [.submit (makeReq ⟨100⟩ [1]),.runCycle,.cancel "no longer needed"]
  else if id = ⟨200⟩ then [.submit (makeReq ⟨200⟩ [2]),.retry,.runCycle,.rollback "again",.complete]
  else []

theorem twoRequestsLegal (id : RequestId) : ∀ op ∈ twoRequests id, op.Legal id := by
  intro op member
  unfold twoRequests at member
  split at member
  · rename_i here
    subst here
    simp only [List.mem_cons,List.not_mem_nil,or_false] at member
    rcases member with rfl | rfl | rfl
    · exact ⟨rfl,rfl⟩
    · trivial
    · trivial
  · split at member
    · rename_i here
      subst here
      simp only [List.mem_cons,List.not_mem_nil,or_false] at member
      rcases member with rfl | rfl | rfl | rfl | rfl
      · exact ⟨rfl,rfl⟩
      · trivial
      · trivial
      · trivial
      · trivial
    · contradiction

theorem takesFirstDependable (ids : List UInt32) : Dependable (drafts ids) takesFirst := by
  constructor
  · intro pin
    exact ⟨_,_,rfl,rfl⟩
  · intro vin
    unfold takesFirst
    split
    · rename_i filled
      exact ⟨_,rfl,filled⟩
    · exact ⟨_,rfl,Nat.zero_le _⟩

theorem twoRequestsIndependent :
    (∃ actions s, Interleaving fixedDepth (.functions (drafts [5,6]) takesFirst) twoRequests actions s ∧
      Independent.InOrder [⟨200⟩,⟨100⟩] (roundsFrom (.start fixedDepth) actions)) ∧
    ∀ actions actions' s s', Interleaving fixedDepth (.functions (drafts [5,6]) takesFirst) twoRequests actions s →
      Interleaving fixedDepth (.functions (drafts [5,6]) takesFirst) twoRequests actions' s' →
      SameOutcome fixedDepth actions actions' s s' := by
  have plain : Plain fixedDepth.policy := ⟨rfl,by decide +kernel⟩
  refine requestsIndependent plain (takesFirstDependable [5,6]) twoRequestsLegal (by decide) ?_
  intro id asked
  unfold twoRequests at asked
  split at asked
  · rename_i here
    rw [here]
    decide
  · split at asked
    · rename_i here
      rw [here]
      decide
    · exact absurd rfl asked

end SpeculationFabric
