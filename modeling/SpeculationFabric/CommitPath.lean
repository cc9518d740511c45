import SpeculationFabric.Lifecycle

/-! Histories of one machine. An application carries its guard and what the guard
says when it blocks; a refused one leaves no trace. Every phase on the way to a
commit has one way in, so the phase alone tells what was accepted since the machine
was last ready. -/
namespace SpeculationFabric

structure Application where
  event : SpeculationEvent
  guard : Bool := true
  guardError : ErrorCode := .invalidTransition
  guardMessage : String := ""
  deriving DecidableEq, Repr

namespace SpeculativeStateMachine

def take (m : SpeculativeStateMachine) (a : Application) : Result SpeculativePhase × SpeculativeStateMachine :=
  m.apply a.event a.guard a.guardError a.guardMessage

def after (m : SpeculativeStateMachine) (applications : List Application) : SpeculativeStateMachine :=
  applications.foldl (fun machine a => (machine.take a).2) m

def accepted (m : SpeculativeStateMachine) : List Application → List (Application × SpeculativePhase)
  | [] => []
  | a :: rest =>
      match m.take a with
      | (.ok entered,next) => (a,entered) :: next.accepted rest
      | (.error _,next) => next.accepted rest

end SpeculativeStateMachine

def readyMachine : SpeculativeStateMachine := ⟨.ready⟩

def enter (since : List Application) (step : Application × SpeculativePhase) : List Application :=
  if step.2 = .ready then [] else since ++ [step.1]

def sinceReady (history : List (Application × SpeculativePhase)) : List Application := history.foldl enter []

section step
variable {m m' : SpeculativeStateMachine} {a : Application}

theorem takeAccepted {entered : SpeculativePhase} (taken : m.take a = (.ok entered,m')) :
    a.guard = true ∧ m' = ⟨entered⟩ ∧ ⟨m.phase,a.event,entered⟩ ∈ transitions := by
  unfold SpeculativeStateMachine.take SpeculativeStateMachine.apply at taken
  split at taken
  · cases taken
  · split at taken
    · cases taken
    · rename_i open_
      split at taken
      · cases taken
      · rename_i next target
        cases taken
        obtain ⟨row,found,rfl⟩ := Option.map_eq_some_iff.mp target
        have here := List.find?_some found
        simp only [Bool.and_eq_true,beq_iff_eq] at here
        refine ⟨by simpa using open_,rfl,?_⟩
        rw [← here.1,← here.2]
        exact List.mem_of_find?_eq_some found

theorem takeRejected {e : Error} (taken : m.take a = (.error e,m')) : m' = m := by
  unfold SpeculativeStateMachine.take SpeculativeStateMachine.apply at taken
  split at taken
  · cases taken
    rfl
  · split at taken
    · cases taken
      rfl
    · split at taken
      · cases taken
        rfl
      · cases taken

end step

theorem afterAppend (m : SpeculativeStateMachine) (xs ys : List Application) :
    m.after (xs ++ ys) = (m.after xs).after ys :=
  List.foldl_append

/- The events from `Ready` up to `Verified`, and what may stand before each phase of a
cycle. Phases off the way to a commit are left open. -/
def verifiedEvents : List SpeculationEvent :=
  [.planProposal,.reserveProposal,.dispatchProposal,.proposalStarted,.proposalFinished,.planVerification,
    .reserveVerification,.dispatchVerification,.verificationStarted,.verificationFinished]

def eventsBefore : SpeculativePhase → Option (List (List SpeculationEvent))
  | .ready => some [[]]
  | .proposalPlanned => some [verifiedEvents.take 1]
  | .proposalReserved => some [verifiedEvents.take 2]
  | .proposalDispatched => some [verifiedEvents.take 3]
  | .proposalRunning => some [verifiedEvents.take 4]
  | .proposalProduced => some [verifiedEvents.take 5]
  | .verificationPlanned => some [verifiedEvents.take 6]
  | .verificationReserved => some [verifiedEvents.take 7]
  | .verificationDispatched => some [verifiedEvents.take 8]
  | .verificationRunning => some [verifiedEvents.take 9]
  | .verified => some [verifiedEvents]
  | .fullyAccepted => some [verifiedEvents ++ [.acceptFull]]
  | .partiallyAccepted => some [verifiedEvents ++ [.acceptPartial]]
  | .committed => some [verifiedEvents ++ [.acceptFull,.commit],verifiedEvents ++ [.acceptPartial,.commit]]
  | _ => none

theorem rowsFollow : ∀ row ∈ transitions, row.target = .ready ∨ ∀ after, eventsBefore row.target = some after →
    ∃ before, eventsBefore row.source = some before ∧ ∀ events ∈ before, events ++ [row.event] ∈ after := by
  have table : ∀ row ∈ transitions, row.target = .ready ∨ eventsBefore row.target = none ∨
      (eventsBefore row.source).isSome ∧ ∀ events ∈ (eventsBefore row.source).getD [],
        events ++ [row.event] ∈ (eventsBefore row.target).getD [] := by
    decide +kernel
  intro row member
  rcases table row member with restart | off | ⟨present,follows⟩
  · exact .inl restart
  · refine .inr (fun after held => ?_)
    rw [off] at held
    contradiction
  · refine .inr (fun after held => ?_)
    obtain ⟨before,at_⟩ := Option.isSome_iff_exists.mp present
    simp only [at_,held,Option.getD_some] at follows
    exact ⟨before,at_,follows⟩

structure OnPath (m : SpeculativeStateMachine) (since : List Application) : Prop where
  events : ∀ before, eventsBefore m.phase = some before → since.map Application.event ∈ before
  guards : ∀ a ∈ since, a.guard = true

theorem onPathStep {m m' : SpeculativeStateMachine} {since : List Application} {a : Application}
    {entered : SpeculativePhase} (path : OnPath m since) (taken : m.take a = (.ok entered,m')) :
    OnPath m' (enter since (a,entered)) := by
  obtain ⟨guard,rfl,row⟩ := takeAccepted taken
  unfold enter
  split
  · rename_i restart
    subst restart
    refine ⟨?_,by simp⟩
    intro before held
    cases Option.some.inj held
    simp
  · rename_i onward
    refine ⟨?_,?_⟩
    · intro after held
      rcases rowsFollow _ row with restart | follows
      · exact absurd restart onward
      · obtain ⟨before,at_,extends_⟩ := follows after held
        rw [List.map_append]
        exact extends_ _ (path.events before at_)
    · intro b member
      rcases List.mem_append.mp member with old | new
      · exact path.guards b old
      · rw [List.mem_singleton.mp new]
        exact guard

theorem onPathRun (applications : List Application) {m : SpeculativeStateMachine} {since : List Application}
    (path : OnPath m since) : OnPath (m.after applications) ((m.accepted applications).foldl enter since) := by
  induction applications generalizing m since with
  | nil => exact path
  | cons a rest ih =>
      cases taken : m.take a with
      | mk answer next =>
          simp only [SpeculativeStateMachine.after,List.foldl_cons,SpeculativeStateMachine.accepted,taken]
          cases answer with
          | ok entered => exact ih (onPathStep path taken)
          | error e =>
              rw [takeRejected taken]
              exact ih path

theorem readyPath : OnPath readyMachine [] := by
  refine ⟨?_,by simp⟩
  intro before held
  cases Option.some.inj held
  simp

theorem finishedAccepts {m m' : SpeculativeStateMachine} {a : Application} {entered : SpeculativePhase}
    (finished : isTerminalPhase m.phase = true) (taken : m.take a = (.ok entered,m')) :
    a.event = .enterTerminal ∧ m.phase ≠ .terminal ∧ m' = ⟨.terminal⟩ := by
  have table : ∀ row ∈ transitions, isTerminalPhase row.source = true →
      row.event = .enterTerminal ∧ row.source ≠ .terminal ∧ row.target = .terminal := by
    decide +kernel
  obtain ⟨_,rfl,row⟩ := takeAccepted taken
  obtain ⟨event,source,target⟩ := table _ row finished
  exact ⟨event,source,by rw [show entered = .terminal from target]⟩

theorem terminalAcceptsNothing (applications : List Application) : SpeculativeStateMachine.accepted ⟨.terminal⟩ applications = [] := by
  induction applications with
  | nil => rfl
  | cons a rest ih =>
      cases taken : SpeculativeStateMachine.take ⟨.terminal⟩ a with
      | mk answer next =>
          cases answer with
          | ok entered => exact absurd rfl (finishedAccepts rfl taken).2.1
          | error e =>
              simp only [SpeculativeStateMachine.accepted,taken,takeRejected taken]
              exact ih

theorem finishedAcceptsOnce {m : SpeculativeStateMachine} (applications : List Application)
    (finished : isTerminalPhase m.phase = true) :
    (m.accepted applications).map (fun step => step.1.event) = [] ∨
    (m.accepted applications).map (fun step => step.1.event) = [.enterTerminal] := by
  induction applications with
  | nil => exact .inl rfl
  | cons a rest ih =>
      cases taken : m.take a with
      | mk answer next =>
          simp only [SpeculativeStateMachine.accepted,taken]
          cases answer with
          | ok entered =>
              obtain ⟨event,_,rfl⟩ := finishedAccepts finished taken
              right
              simp only [terminalAcceptsNothing,List.map_cons,event,List.map_nil]
          | error e =>
              rw [takeRejected taken]
              exact ih

def commits (step : Application × SpeculativePhase) : Bool := decide (step.1.event = .commit)

theorem commitAtMostOnce (applications : List Application) (m : SpeculativeStateMachine) :
    (m.accepted applications).countP commits ≤ 1 := by
  induction applications generalizing m with
  | nil => simp [SpeculativeStateMachine.accepted]
  | cons a rest ih =>
      cases taken : m.take a with
      | mk answer next =>
          simp only [SpeculativeStateMachine.accepted,taken]
          cases answer with
          | error e => exact ih next
          | ok entered =>
              by_cases commit : a.event = .commit
              · -- a commit ends in a terminal phase, and nothing accepted from there is a commit
                have table : ∀ row ∈ transitions, row.event = .commit → isTerminalPhase row.target = true := by
                  decide +kernel
                obtain ⟨_,rfl,row⟩ := takeAccepted taken
                have none : (SpeculativeStateMachine.accepted ⟨entered⟩ rest).countP commits = 0 := by
                  rw [List.countP_eq_zero]
                  intro step member same
                  have event : step.1.event ∈ (SpeculativeStateMachine.accepted ⟨entered⟩ rest).map (fun step => step.1.event) :=
                    List.mem_map_of_mem member
                  rw [of_decide_eq_true same] at event
                  rcases finishedAcceptsOnce rest (table _ row commit) with empty | single
                  · rw [empty] at event
                    contradiction
                  · rw [single] at event
                    contradiction
                rw [List.countP_cons,none]
                split <;> omega
              · have skipped : commits (a,entered) = false := decide_eq_false commit
                rw [List.countP_cons,skipped]
                exact ih next

theorem commitRequiresVerifiedCycle (applications : List Application) :
    (∀ before a rest, applications = before ++ a :: rest →
      ((readyMachine.after before).take a).1 = .ok .committed →
      ∃ accept, (accept = .acceptFull ∨ accept = .acceptPartial) ∧
        (sinceReady (readyMachine.accepted (before ++ [a]))).map Application.event =
          [.planProposal,.reserveProposal,.dispatchProposal,.proposalStarted,.proposalFinished,.planVerification,
            .reserveVerification,.dispatchVerification,.verificationStarted,.verificationFinished,accept,.commit] ∧
        ∀ b ∈ sinceReady (readyMachine.accepted (before ++ [a])), b.guard = true) ∧
    (readyMachine.accepted applications).countP (fun step => decide (step.1.event = .commit)) ≤ 1 ∧
    (∀ before rest, applications = before ++ rest → isTerminalPhase (readyMachine.after before).phase = true →
      ((readyMachine.after before).accepted rest).map (fun step => step.1.event) = [] ∨
      ((readyMachine.after before).accepted rest).map (fun step => step.1.event) = [.enterTerminal]) ∧
    ∀ before a rest e, applications = before ++ a :: rest → ((readyMachine.after before).take a).1 = .error e →
      (readyMachine.after (before ++ [a])).phase = (readyMachine.after before).phase := by
  refine ⟨?_,commitAtMostOnce applications readyMachine,fun before rest _ finished => finishedAcceptsOnce rest finished,?_⟩
  · intro before a rest _ committed
    have taken : (readyMachine.after before).take a = (.ok .committed,((readyMachine.after before).take a).2) := Prod.ext committed rfl
    have path := onPathRun (before ++ [a]) readyPath
    have phase : (readyMachine.after (before ++ [a])).phase = .committed := by
      rw [afterAppend]
      exact congrArg SpeculativeStateMachine.phase (takeAccepted taken).2.1
    have events := path.events _ (by rw [phase]; rfl)
    rcases List.mem_pair.mp events with full | part
    · exact ⟨.acceptFull,.inl rfl,full,path.guards⟩
    · exact ⟨.acceptPartial,.inr rfl,part,path.guards⟩
  · intro before a rest e _ refused
    have taken : (readyMachine.after before).take a = (.error e,((readyMachine.after before).take a).2) := Prod.ext refused rfl
    rw [afterAppend]
    exact congrArg SpeculativeStateMachine.phase (takeRejected taken)

def retriedEvents : List SpeculationEvent :=
  [.planProposal,.reserveProposal,.dispatchProposal,.proposalStarted,.proposalRetry,.retry] ++ verifiedEvents ++
    [.acceptPartial]

def beforeCommit : List Application :=
  [{ event := .commit },{ event := .planProposal, guard := false }] ++
    retriedEvents.map (fun event => { event := event })

theorem committedAfterRetry : (readyMachine.after (beforeCommit ++ [{ event := .commit }])).phase = .committed ∧
    ∃ accept, (accept = .acceptFull ∨ accept = .acceptPartial) ∧
      (sinceReady (readyMachine.accepted (beforeCommit ++ [{ event := .commit }]))).map Application.event =
        verifiedEvents ++ [accept,.commit] := by
  obtain ⟨accept,either,events,_⟩ := (commitRequiresVerifiedCycle (beforeCommit ++ [{ event := .commit }])).1
    beforeCommit { event := .commit } [] rfl (by decide +kernel)
  exact ⟨by decide +kernel,accept,either,events⟩

end SpeculationFabric
