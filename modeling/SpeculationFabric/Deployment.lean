import SpeculationFabric.Depths
import SpeculationFabric.Frames
import SpeculationFabric.Networks

/-! The control plane as a whole: a driver, the coordinator and its two workers, each a
process of its own, over the connections between them, which stay up. A connection
carries frames in order; which process runs next is left open. The driver sends without
waiting and reads when it likes, so a driver that waits for its replies, or gives up on
one, is included; one that sends what no reader takes, and is cut off for it, is not. -/
namespace SpeculationFabric.Dist

open Wire Networks

inductive Party where
  | sending | reading | coordinator | proposer | verifier
  deriving DecidableEq, Repr

inductive Channel where
  | submissions | replies | dispatches | proposals | questions | verdicts
  deriving DecidableEq, Repr

/- What `recv_frame` returns: an empty payload or one above the limit is never delivered. -/
abbrev Frame := { payload : List UInt8 // Frameable payload }

def Channel.writer : Channel → Party
  | .submissions => .sending
  | .replies | .dispatches | .questions => .coordinator
  | .proposals => .proposer
  | .verdicts => .verifier

def Channel.reader : Channel → Party
  | .submissions | .proposals | .verdicts => .coordinator
  | .replies => .reading
  | .dispatches => .proposer
  | .questions => .verifier

inductive WorkerStatus where
  | serving | stopped | undefined
  deriving DecidableEq, Repr

/- What each process keeps: the frames still to be sent, the frames read, the
coordinator's own state, and of a worker only whether it is still in its loop. -/
abbrev Party.Local : Party → Type
  | .sending | .reading => List Frame
  | .coordinator => Coordinator
  | .proposer | .verifier => WorkerStatus

def frameOn (channel : Channel) (payload : List UInt8) : Option (Channel × Frame) :=
  if fits : Frameable payload then some (channel,⟨payload,fits⟩) else none

def onWire (channel : Channel) (m : Message) : Option (Channel × Frame) :=
  match encode m with
  | .error _ => none
  | .ok payload => frameOn channel payload

def Output.posted : Output → Option (Channel × Frame)
  | .toProposer m => onWire .dispatches m
  | .toVerifier m => onWire .questions m
  | .toDriver m => onWire .replies m
  | .submitted _ _ => none

def posts (c t : Coordinator) : List (Channel × Frame) := (t.log.drop c.log.length).filterMap Output.posted

def Coordinator.takes (c : Coordinator) (react : Frame → Coordinator) (frame : Frame) :
    Coordinator × List (Channel × Frame) :=
  (react frame,posts c (react frame))

def sendingMove : List Frame → Move Channel Frame (List Frame)
  | [] => .rest
  | frame :: rest => .act rest [(.submissions,frame)]

def readingMove (heard : List Frame) : Move Channel Frame (List Frame) :=
  .await .replies fun frame => (heard ++ [frame],[])

def Coordinator.move (c : Coordinator) : Move Channel Frame Coordinator :=
  match c.phase with
  | .waiting => if c.driver then .await .submissions (c.takes fun frame => c.driverFrame (some frame.val)) else .rest
  | .proposing d => .await .proposals (c.takes fun frame => c.proposerReply d (.frame frame.val))
  | .verifying d toks => .await .verdicts (c.takes fun frame => c.verifierReply d toks (.frame frame.val))
  | .stopped | .undefined => .rest

def Served.after (answers : Channel) : Served → WorkerStatus × List (Channel × Frame)
  | .ignored => (.serving,[])
  | .stopped => (.stopped,[])
  | .undefined => (.undefined,[])
  | .sent payload => (.serving,(frameOn answers payload).toList)

def workerMove (asks answers : Channel) : WorkerStatus → Move Channel Frame WorkerStatus
  | .serving => .await asks fun frame => (serve frame.val).after answers
  | .stopped | .undefined => .rest

def Party.move : (p : Party) → p.Local → Move Channel Frame p.Local
  | .sending,unsent => sendingMove unsent
  | .reading,heard => readingMove heard
  | .coordinator,c => c.move
  | .proposer,status => workerMove .dispatches .proposals status
  | .verifier,status => workerMove .questions .verdicts status

theorem frameOnFits (channel : Channel) {payload : List UInt8} (fits : Frameable payload) :
    frameOn channel payload = some (channel,⟨payload,fits⟩) := dif_pos fits

theorem frameOnChannel {channel : Channel} {payload : List UInt8} : ∀ x ∈ frameOn channel payload, x.1 = channel := by
  intro x member
  rw [frameOn] at member
  split at member
  · cases member
    rfl
  · cases member

theorem onWireChannel {channel : Channel} {m : Message} : ∀ x ∈ onWire channel m, x.1 = channel := by
  intro x member
  rw [onWire] at member
  split at member
  · cases member
  · exact frameOnChannel x member

theorem postsOwned (c t : Coordinator) : ∀ x ∈ posts c t, x.1.writer = .coordinator := by
  intro x member
  obtain ⟨out,_,posted⟩ := List.mem_filterMap.mp member
  cases out with
  | submitted reqid result => cases posted
  | toProposer m | toVerifier m | toDriver m =>
      rw [onWireChannel x posted]
      rfl

theorem coordinatorAwaits {c : Coordinator} {channel : Channel} {react : Frame → Coordinator × List (Channel × Frame)}
    (moves : c.move = .await channel react) :
    channel.reader = .coordinator ∧ ∃ next, react = c.takes next := by
  rw [Coordinator.move] at moves
  split at moves
  · split at moves
    · cases moves
      exact ⟨rfl,_,rfl⟩
    · cases moves
  · cases moves
    exact ⟨rfl,_,rfl⟩
  · cases moves
    exact ⟨rfl,_,rfl⟩
  · cases moves
  · cases moves

theorem coordinatorNeverActs {c next : Coordinator} {sent : List (Channel × Frame)} : c.move ≠ .act next sent := by
  intro moves
  rw [Coordinator.move] at moves
  split at moves
  · split at moves <;> cases moves
  all_goals cases moves

theorem servedOwned (answers : Channel) (served : Served) : ∀ x ∈ (served.after answers).2, x.1 = answers := by
  intro x member
  cases served with
  | sent payload => exact frameOnChannel x (Option.mem_toList.mp member)
  | ignored | stopped | undefined => cases member

def deployment : Network Party Channel Frame where
  Local := Party.Local
  writer := Channel.writer
  reader := Channel.reader
  move := Party.move
  acts := by
    intro p here next sent moves x member
    cases p with
    | sending =>
        cases here with
        | nil => cases moves
        | cons frame rest =>
            cases moves
            cases List.mem_singleton.mp member
            rfl
    | reading => cases moves
    | coordinator => exact absurd moves coordinatorNeverActs
    | proposer | verifier => cases here <;> cases moves
  reads := by
    intro p here channel react moves
    cases p with
    | sending => cases here <;> cases moves
    | reading => cases moves; rfl
    | coordinator => exact (coordinatorAwaits moves).1
    | proposer | verifier => cases here <;> cases moves; rfl
  reacts := by
    intro p here channel react moves m x member
    cases p with
    | sending => cases here <;> cases moves
    | reading => cases moves; cases member
    | coordinator =>
        obtain ⟨_,next,rfl⟩ := coordinatorAwaits moves
        exact postsOwned _ _ x member
    | proposer | verifier =>
        cases here <;> cases moves
        rw [servedOwned _ _ x member]
        rfl

def deployed (c : Coordinator) (script : List Frame) : deployment.State where
  locals
    | .sending => script
    | .reading => []
    | .coordinator => c
    | .proposer | .verifier => .serving
  queues _ := []

end SpeculationFabric.Dist
