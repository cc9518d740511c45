import SpeculationFabric.Deployment

/-! The one run of the control plane that is written out: every frame is sent, then taken
and answered in turn, then every reply is read. That it ends decides all the others, so
the plant as a whole does what a coordinator does that is handed its workers' answers. -/
namespace SpeculationFabric.Dist

open Wire Networks

structure Desk where
  epoch : CoordinatorEpoch
  proposerBoot : UInt64
  prevProposerBoot : UInt64
  verifierBoot : UInt64
  driver : Bool
  deriving DecidableEq, Repr

def Coordinator.desk (c : Coordinator) : Desk :=
  ⟨c.epoch,c.proposerBoot,c.prevProposerBoot,c.verifierBoot,c.driver⟩

inductive Emits (c t : Coordinator) : Prop where
  | undefined (phase : t.phase = .undefined)
  | asked (d : Drive) (phase : t.phase = .proposing d) (log : t.log = c.log ++ [.toProposer (t.asked d)])
  | questioned (d : Drive) (toks : List UInt32) (phase : t.phase = .verifying d toks)
      (log : t.log = c.log ++ [.toVerifier (t.verdictAsked d toks)])
  | answered (reqid : UInt64) (result : DriveResult) (phase : t.phase = .waiting)
      (log : t.log = c.log ++ [.submitted reqid result,.toDriver (driverMessage (t.request reqid) reqid result)])

theorem advanceEmits (c : Coordinator) (d : Drive) : (c.advance d).desk = c.desk ∧ Emits c (c.advance d) := by
  obtain ⟨_,opens⟩ | undefined | ⟨win,_,_,concludes⟩ := advanceCases c d
  · rw [opens]
    refine ⟨by rw [openBranchSends]; rfl,.asked d (by rw [openBranchSends]) ?_⟩
    rw [Coordinator.asked,openBranchRequest,openBranchSends]
  · rw [undefined]
    exact ⟨rfl,.undefined rfl⟩
  · rw [concludes,finishOk]
    exact ⟨rfl,.answered _ _ rfl rfl⟩

theorem Emits.sameLog {c d t : Coordinator} (emits : Emits c t) (log : d.log = c.log) : Emits d t := by
  cases emits with
  | undefined phase => exact .undefined phase
  | asked e phase grown => exact .asked e phase (log ▸ grown)
  | questioned e toks phase grown => exact .questioned e toks phase (log ▸ grown)
  | answered reqid result phase grown => exact .answered reqid result phase (log ▸ grown)

theorem driveEmits (c : Coordinator) (reqid : UInt64) (depth branches aligned : UInt32) :
    (c.driveCycle reqid depth branches aligned).desk = c.desk ∧ Emits c (c.driveCycle reqid depth branches aligned) := by
  obtain ⟨desk,emits⟩ := advanceEmits (c.store reqid { c.request reqid with
    depth := depth, branches := branches, aligned := aligned, epoch := c.epoch }) ⟨reqid,depth,branches,aligned,[]⟩
  exact ⟨desk,emits.sameLog rfl⟩

theorem failedEmits (c : Coordinator) (d : Drive) {why : String} (short : Short why) :
    (c.finish d (.failed why)).desk = c.desk ∧ Emits c (c.finish d (.failed why)) := by
  rw [finishFailed c d short]
  exact ⟨rfl,.answered _ _ rfl rfl⟩

theorem replyEmits {c t : Coordinator} {r : Reply} (taken : c.step (.reply r) = some t) : t.desk = c.desk ∧ Emits c t := by
  obtain ⟨waits,_⟩ | ⟨_,_,_,_,_,_,same,_⟩ | ⟨d,r',_,_,rfl⟩ | ⟨d,toks,r',_,_,rfl⟩ := stepCases taken
  · simp only [Coordinator.step,waits] at taken
    cases taken
  · cases same
  · obtain undefined | ⟨why,short,failed⟩ | ⟨toks,_,asks⟩ := proposerReplyCases c d r'
    · rw [undefined]
      exact ⟨rfl,.undefined rfl⟩
    · rw [failed]
      exact failedEmits c d short
    · rw [asks]
      exact ⟨rfl,.questioned d toks rfl rfl⟩
  · obtain undefined | ⟨why,short,failed⟩ | ⟨_,_,br,_,_,_,_,_,_,next⟩ := verifierReplyCases c d toks r'
    · rw [undefined]
      exact ⟨rfl,.undefined rfl⟩
    · rw [failed]
      exact failedEmits c d short
    · rw [next]
      exact advanceEmits c _

theorem postsAfter {c t : Coordinator} {sent : List Output} (log : t.log = c.log ++ sent) :
    posts c t = sent.filterMap Output.posted := by
  rw [posts,log,List.drop_left]

theorem postsForeign (c t : Coordinator) {channel : Channel} (foreign : channel.writer ≠ .coordinator) :
    sentTo channel (posts c t) = [] :=
  sentNone fun x member same => foreign (same ▸ postsOwned c t x member)

def Coordinator.underWay (c : Coordinator) : List (Channel × Frame) :=
  match c.phase with
  | .proposing d => (onWire .dispatches (c.asked d)).toList
  | .verifying d toks => (onWire .questions (c.verdictAsked d toks)).toList
  | _ => []

def answers (c t : Coordinator) : List Frame := sentTo .replies (posts c t)

theorem onWireApart {channel other : Channel} (apart : channel ≠ other) (m : Message) :
    sentTo other (onWire channel m).toList = [] := by
  refine sentNone fun x member => ?_
  rw [onWireChannel x (Option.mem_toList.mp member)]
  exact apart

theorem filterMapOne {α β : Type} (f : α → Option β) (a : α) : [a].filterMap f = (f a).toList := by
  cases same : f a with
  | none => simp [same]
  | some b => simp [same]

theorem underWayIdle {c : Coordinator} (waits : c.phase = .waiting) : c.underWay = [] := by
  rw [Coordinator.underWay,waits]

theorem emitsUnderWay {c t : Coordinator} (emits : Emits c t) (defined : t.phase ≠ .undefined) {channel : Channel}
    (worker : channel ≠ .replies) : sentTo channel (posts c t) = sentTo channel t.underWay := by
  cases emits with
  | undefined phase => exact absurd phase defined
  | asked d phase log => rw [postsAfter log,filterMapOne,Output.posted,Coordinator.underWay,phase]
  | questioned d toks phase log => rw [postsAfter log,filterMapOne,Output.posted,Coordinator.underWay,phase]
  | answered reqid result phase log =>
      rw [postsAfter log,underWayIdle phase,List.filterMap_cons,Output.posted,filterMapOne,Output.posted]
      exact onWireApart (Ne.symm worker) _

theorem emitsAnswers {c t : Coordinator} (emits : Emits c t) (busy : (∃ d, t.phase = .proposing d) ∨
    ∃ d toks, t.phase = .verifying d toks) : answers c t = [] := by
  cases emits with
  | undefined phase => rw [phase] at busy; obtain ⟨_,no⟩ | ⟨_,_,no⟩ := busy <;> cases no
  | asked d phase log =>
      rw [answers,postsAfter log,filterMapOne,Output.posted]
      exact onWireApart (by decide) _
  | questioned d toks phase log =>
      rw [answers,postsAfter log,filterMapOne,Output.posted]
      exact onWireApart (by decide) _
  | answered reqid result phase log => rw [phase] at busy; obtain ⟨_,no⟩ | ⟨_,_,no⟩ := busy <;> cases no

def midway (c : Coordinator) (unsent heard submitted replied : List Frame) : deployment.State where
  locals
    | .sending => unsent
    | .reading => heard
    | .coordinator => c
    | .proposer | .verifier => .serving
  queues
    | .submissions => submitted
    | .replies => replied
    | channel => sentTo channel c.underWay

theorem midwayStart {c : Coordinator} (waits : c.phase = .waiting) (script : List Frame) :
    deployed c script = midway c script [] [] [] := by
  refine Network.State.ext ?_ ?_
  · funext p
    cases p <;> rfl
  · funext channel
    cases channel <;> simp only [deployed,midway,underWayIdle waits] <;> rfl

section moves
variable {c t : Coordinator} {frame answer : Frame} {unsent heard submitted replied : List Frame}

theorem sendsFrame : (midway c (frame :: unsent) heard submitted replied).step .sending =
    some (midway c unsent heard (submitted ++ [frame]) replied) := by
  rw [actStep (show deployment.move .sending _ = .act unsent [(.submissions,frame)] from rfl)]
  refine congrArg some (Network.State.ext ?_ ?_)
  · funext p
    cases p <;> rfl
  · funext channel
    cases channel <;> simp [Network.State.after,midway,sentTo]

theorem readsReply : (midway c unsent heard submitted (frame :: replied)).step .reading =
    some (midway c unsent (heard ++ [frame]) submitted replied) := by
  rw [awaitStep (show deployment.move .reading _ = readingMove heard from rfl)
    (show (midway c unsent heard submitted (frame :: replied)).queues .replies = frame :: replied from rfl)]
  refine congrArg some (Network.State.ext ?_ ?_)
  · funext p
    cases p <;> rfl
  · funext channel
    cases channel <;> simp [Network.State.after,midway,sentTo]

theorem takesFrame (unsent heard submitted replied : List Frame) (waits : c.phase = .waiting) (driver : c.driver = true)
    (next : c.driverFrame (some frame.val) = t)
    (toWorkers : ∀ channel, channel ≠ .replies → sentTo channel (posts c t) = sentTo channel t.underWay) :
    (midway c unsent heard (frame :: submitted) replied).step .coordinator =
      some (midway t unsent heard submitted (replied ++ answers c t)) := by
  have moves : deployment.move .coordinator ((midway c unsent heard (frame :: submitted) replied).locals .coordinator) =
      .await .submissions (c.takes fun frame => c.driverFrame (some frame.val)) := by
    show c.move = _
    rw [Coordinator.move,waits]
    exact if_pos driver
  rw [awaitStep moves rfl,Coordinator.takes,next]
  refine congrArg some (Network.State.ext ?_ ?_)
  · funext p
    cases p <;> rfl
  · funext channel
    cases channel with
    | submissions =>
        show ((frame :: submitted).drop 1 ++ sentTo .submissions (posts c t)) = submitted
        rw [postsForeign c t (by decide),List.append_nil,List.drop_succ_cons,List.drop_zero]
    | replies => rfl
    | dispatches | proposals | questions | verdicts =>
        show (sentTo _ c.underWay).drop 0 ++ sentTo _ (posts c t) = sentTo _ t.underWay
        rw [underWayIdle waits,toWorkers _ (by decide)]
        rfl

end moves

def answered (c : Coordinator) (unsent heard submitted replied : List Frame) (back : Channel) (answer : Frame) :
    deployment.State where
  locals := (midway c unsent heard submitted replied).locals
  queues
    | .submissions => submitted
    | .replies => replied
    | channel => if channel = back then [answer] else []

inductive Link : Party → Channel → Channel → Prop where
  | proposer : Link .proposer .dispatches .proposals
  | verifier : Link .verifier .questions .verdicts

section moves
variable {c t : Coordinator} {frame answer : Frame} {unsent heard submitted replied : List Frame} {worker : Party}
  {asks back : Channel} (link : Link worker asks back)
include link

theorem workerAnswers (under : c.underWay = [(asks,frame)]) (serves : serve frame.val = .sent answer.val) :
    (midway c unsent heard submitted replied).step worker =
      some (answered c unsent heard submitted replied back answer) := by
  have goes : frameOn back answer.val = some (back,answer) := frameOnFits back answer.property
  cases link with
  | proposer =>
      have front : (midway c unsent heard submitted replied).queues .dispatches = [frame] := by
        simp [midway,under,sentTo]
      rw [awaitStep (show deployment.move .proposer _ = workerMove .dispatches .proposals .serving from rfl) front,serves]
      refine congrArg some (Network.State.ext ?_ ?_)
      · funext p
        cases p <;> rfl
      · funext channel
        cases channel <;> simp [Network.State.after,midway,answered,under,Served.after,goes,sentTo]
  | verifier =>
      have front : (midway c unsent heard submitted replied).queues .questions = [frame] := by
        simp [midway,under,sentTo]
      rw [awaitStep (show deployment.move .verifier _ = workerMove .questions .verdicts .serving from rfl) front,serves]
      refine congrArg some (Network.State.ext ?_ ?_)
      · funext p
        cases p <;> rfl
      · funext channel
        cases channel <;> simp [Network.State.after,midway,answered,under,Served.after,goes,sentTo]

theorem coordinatorTakes {next : Frame → Coordinator} (waits : c.move = .await back (c.takes next)) (taken : next answer = t)
    (toWorkers : ∀ channel, channel ≠ .replies → sentTo channel (posts c t) = sentTo channel t.underWay) :
    (answered c unsent heard submitted replied back answer).step .coordinator =
      some (midway t unsent heard submitted (replied ++ answers c t)) := by
  have front : (answered c unsent heard submitted replied back answer).queues back = [answer] := by
    cases link <;> rfl
  have moves : deployment.move .coordinator ((answered c unsent heard submitted replied back answer).locals .coordinator) =
      .await back (c.takes next) := waits
  have cleared (channel : Channel) :
      List.drop (if channel = back then 1 else 0) (if channel = back then [answer] else []) = [] := by
    split <;> rfl
  rw [awaitStep moves front,Coordinator.takes,taken]
  refine congrArg some (Network.State.ext ?_ ?_)
  · funext p
    cases p <;> rfl
  · funext channel
    cases channel with
    | submissions =>
        have apart : Channel.submissions ≠ back := by rintro rfl; cases link
        show (List.drop (if Channel.submissions = back then 1 else 0) submitted ++ sentTo .submissions (posts c t)) = submitted
        rw [postsForeign c t (by decide),List.append_nil,if_neg apart,List.drop_zero]
    | replies =>
        have apart : Channel.replies ≠ back := by rintro rfl; cases link
        show List.drop (if Channel.replies = back then 1 else 0) replied ++ answers c t = replied ++ answers c t
        rw [if_neg apart,List.drop_zero]
    | dispatches | proposals | questions | verdicts =>
        exact congrArg₂ (· ++ ·) (cleared _) (toWorkers _ (by decide))

end moves

section rounds
variable {c t : Coordinator}

theorem servedFrameable {frame answer : List UInt8} (serves : serve frame = .sent answer) : Frameable answer := by
  have encodes {out : Option Message} (sent : sentFrame out = .sent answer) : Frameable answer := by
    cases out with
    | none => cases sent
    | some m =>
        cases encoded : encode m with
        | error e => simp only [sentFrame,encoded] at sent; cases sent
        | ok payload =>
            simp only [sentFrame,encoded,Served.sent.injEq] at sent
            exact sent ▸ encodedFrameable encoded
  rw [serve] at serves
  split at serves
  · cases serves
  split at serves
  · cases serves
  split at serves
  · exact encodes serves
  split at serves
  · exact encodes serves
  · cases serves

theorem deliveredSource (taken : c.delivered = some t) :
    ∃ m frame answer, (c.log.getLast? = some (.toProposer m) ∨ c.log.getLast? = some (.toVerifier m)) ∧
      encode m = .ok frame ∧ serve frame = .sent answer ∧ c.step (.reply (.frame answer)) = some t := by
  rw [Coordinator.delivered] at taken
  split at taken
  case h_3 => cases taken
  all_goals
    rename_i m last
    cases encoded : encode m with
    | error e =>
        rw [encoded] at taken
        cases taken
    | ok frame =>
        simp only [encoded] at taken
        split at taken
        · rename_i answer serves
          refine ⟨m,frame,answer,?_,encoded,serves,taken⟩
          simp only [last,true_or,or_true]
        · cases taken

theorem deliveredRound (awaiting : Awaiting c) (taken : c.delivered = some t) :
    ∃ (worker : Party) (asks back : Channel) (frame answer : Frame) (next : Frame → Coordinator), Link worker asks back ∧
      c.underWay = [(asks,frame)] ∧ serve frame.val = .sent answer.val ∧ c.move = .await back (c.takes next) ∧
      next answer = t ∧ c.step (.reply (.frame answer.val)) = some t := by
  obtain ⟨m,frame,answer,last,encoded,serves,steps⟩ := deliveredSource taken
  have fits := encodedFrameable encoded
  have back := servedFrameable serves
  cases phase : c.phase with
  | waiting | stopped | undefined =>
      simp only [Coordinator.step,phase] at steps
      cases steps
  | proposing d =>
      simp only [Coordinator.step,phase,Option.some.injEq] at steps
      have asked := awaiting.proposal d phase
      rcases last with last | last
      · cases asked.symm.trans last
        refine ⟨_,_,_,⟨frame,fits⟩,⟨answer,back⟩,fun frame => c.proposerReply d (.frame frame.val),.proposer,?_,serves,?_,
          steps,?_⟩
        · rw [Coordinator.underWay,phase]
          simp only [onWire,encoded,frameOnFits _ fits,Option.toList]
        · rw [Coordinator.move,phase]
        · simp only [Coordinator.step,phase,steps]
      · cases asked.symm.trans last
  | verifying d toks =>
      simp only [Coordinator.step,phase,Option.some.injEq] at steps
      have asked := awaiting.verdict d toks phase
      rcases last with last | last
      · cases asked.symm.trans last
      · cases asked.symm.trans last
        refine ⟨_,_,_,⟨frame,fits⟩,⟨answer,back⟩,fun frame => c.verifierReply d toks (.frame frame.val),.verifier,?_,serves,
          ?_,steps,?_⟩
        · rw [Coordinator.underWay,phase]
          simp only [onWire,encoded,frameOnFits _ fits,Option.toList]
        · rw [Coordinator.move,phase]
        · simp only [Coordinator.step,phase,steps]

theorem delivers (unsent heard submitted replied : List Frame) (awaiting : Awaiting c) (taken : c.delivered = some t)
    (defined : t.phase ≠ .undefined) :
    ∃ worker, deployment.Run (midway c unsent heard submitted replied) [worker,.coordinator]
      (midway t unsent heard submitted (replied ++ answers c t)) := by
  obtain ⟨worker,asks,back,frame,answer,next,link,under,serves,waits,last,steps⟩ := deliveredRound awaiting taken
  have emits := (replyEmits steps).2
  exact ⟨worker,Diamonds.free (workerAnswers link under serves) (Diamonds.free (coordinatorTakes link waits last
    fun channel other => emitsUnderWay emits defined other) .nil)⟩

end rounds

theorem emitsLog {c t : Coordinator} (emits : Emits c t) (defined : t.phase ≠ .undefined) : c.log <+: t.log := by
  cases emits with
  | undefined phase => exact absurd phase defined
  | asked d phase log => exact ⟨_,log.symm⟩
  | questioned d toks phase log => exact ⟨_,log.symm⟩
  | answered reqid result phase log => exact ⟨_,log.symm⟩

theorem answersJoin {c t u : Coordinator} (first : c.log <+: t.log) (second : t.log <+: u.log) :
    answers c u = answers c t ++ answers t u := by
  obtain ⟨one,grown⟩ := first
  obtain ⟨two,later⟩ := second
  rw [answers,answers,answers,postsAfter grown.symm,postsAfter later.symm,
    postsAfter (show u.log = c.log ++ (one ++ two) by rw [← later,← grown,List.append_assoc])]
  simp only [sentTo,List.filterMap_append]

theorem answersNone {c t : Coordinator} (same : t.log = c.log) : answers c t = [] := by
  rw [answers,postsAfter (show t.log = c.log ++ [] by rw [same,List.append_nil])]
  rfl

theorem deliveredDefined {c t : Coordinator} (awaiting : Awaiting c) (taken : c.delivered = some t) :
    c.phase ≠ .undefined := by
  obtain ⟨_,_,_,_,answer,_,_,_,_,_,_,steps⟩ := deliveredRound awaiting taken
  intro phase
  simp only [Coordinator.step,phase] at steps
  cases steps

theorem leadsDefined {n : Nat} {c t : Coordinator} (leads : Runs.Leads Coordinator.delivered n c t) (awaiting : Awaiting c)
    (back : t.phase = .waiting) : c.phase ≠ .undefined := by
  cases leads with
  | here =>
      rw [back]
      decide
  | step taken _ => exact deliveredDefined awaiting taken

theorem deliversAll {n : Nat} {c t : Coordinator} (unsent heard submitted replied : List Frame)
    (leads : Runs.Leads Coordinator.delivered n c t) (awaiting : Awaiting c) (back : t.phase = .waiting) :
    t.desk = c.desk ∧ c.log <+: t.log ∧ ∃ moves, moves.length = 2 * n ∧
      deployment.Run (midway c unsent heard submitted replied) moves
        (midway t unsent heard submitted (replied ++ answers c t)) := by
  induction leads generalizing replied with
  | here =>
      refine ⟨rfl,List.prefix_refl _,[],rfl,?_⟩
      rw [answersNone rfl,List.append_nil]
      exact .nil
  | @step n c u t taken rest ih =>
      obtain ⟨_,_,_,_,answer,_,_,_,_,_,_,steps⟩ := deliveredRound awaiting taken
      have defined := leadsDefined rest (replyAwaiting steps) back
      obtain ⟨desk,emits⟩ := replyEmits steps
      obtain ⟨worker,first⟩ := delivers unsent heard submitted replied awaiting taken defined
      obtain ⟨later,log,moves,count,run⟩ := ih (replied ++ answers c u) (replyAwaiting steps) back
      have front := emitsLog emits defined
      refine ⟨later.trans desk,front.trans log,[worker,.coordinator] ++ moves,?_,?_⟩
      · rw [List.length_append,count]
        show 2 + 2 * n = _
        omega
      · rw [answersJoin front log,← List.append_assoc]
        exact Runs.append first run

theorem sendDriver (c : Coordinator) (channel : Message → Output) (m : Message) (next : Phase) :
    (c.send channel m next).driver = c.driver := by
  obtain same | same := sendCases c channel m next
  · rw [same]
    rfl
  · rw [same]

theorem handleDriver (c : Coordinator) (m : Message) : (c.handle m).driver = c.driver := by
  rw [Coordinator.handle]
  split
  · rfl
  split
  · cases answered : c.replayed m with
    | none => rfl
    | some t =>
        obtain ⟨out,rfl⟩ := replayedCases answered
        exact sendDriver _ _ _ _
  split
  · cases taken : c.submit m with
    | none => rfl
    | some t =>
        obtain ⟨reqid,depth,branches,aligned,_,_,_,_,rfl⟩ := submitCases taken
        exact congrArg Desk.driver (advanceEmits _ _).1
  split
  · rw [Coordinator.info]
    split
    · exact sendDriver _ _ _ _
    split
    · split
      · rfl
      · exact sendDriver _ _ _ _
    split
    · exact sendDriver _ _ _ _
    · rfl
  · rfl

structure Opened (c t : Coordinator) : Prop where
  driver : t.driver = c.driver
  log : c.log <+: t.log
  toWorkers : ∀ channel, channel ≠ .replies → sentTo channel (posts c t) = sentTo channel t.underWay

theorem quietOpened {c t : Coordinator} (quiet : Quiet c t) (driver : t.driver = c.driver) : Opened c t := by
  have idle : t.underWay = [] := by
    rw [Coordinator.underWay]
    rcases quiet.idle with phase | phase | phase <;> rw [phase]
  refine ⟨driver,?_,?_⟩
  · rcases quiet.log with same | ⟨m,more⟩
    · exact ⟨[],by rw [same,List.append_nil]⟩
    · exact ⟨_,more.symm⟩
  · intro channel worker
    rw [idle]
    rcases quiet.log with same | ⟨m,more⟩
    · rw [postsAfter (show t.log = c.log ++ [] by rw [same,List.append_nil])]
      rfl
    · rw [postsAfter more,filterMapOne,Output.posted]
      exact onWireApart (Ne.symm worker) m

theorem frameOpened {c : Coordinator} (waits : c.phase = .waiting) (frame : Frame)
    (defined : (c.driverFrame (some frame.val)).phase ≠ .undefined) : Opened c (c.driverFrame (some frame.val)) := by
  have driver : (c.driverFrame (some frame.val)).driver = c.driver := by
    rw [Coordinator.driverFrame]
    split
    · rfl
    · exact handleDriver _ _
  obtain quiet | ⟨reqid,depth,branches,aligned,_,same⟩ := driverFrameCases waits (some frame.val)
  · exact quietOpened quiet driver
  · rw [same] at defined driver ⊢
    have emits := (driveEmits (c.store reqid ((c.request reqid).submitted reqid c.epoch)) reqid depth branches aligned).2
    have told : Emits c _ := emits.sameLog rfl
    exact ⟨driver,emitsLog told defined,fun channel worker => emitsUnderWay told defined worker⟩

theorem frameAwaiting {c : Coordinator} (waits : c.phase = .waiting) (frame : Frame) :
    Awaiting (c.driverFrame (some frame.val)) := by
  obtain quiet | ⟨reqid,depth,branches,aligned,_,same⟩ := driverFrameCases waits (some frame.val)
  · constructor
    · intro d busy
      rcases quiet.idle with phase | phase | phase <;> cases phase.symm.trans busy
    · intro d toks busy
      rcases quiet.idle with phase | phase | phase <;> cases phase.symm.trans busy
  · rw [same]
    exact advanceAwaiting _ _

structure Attends (c : Coordinator) (frame : Frame) (t : Coordinator) (n : Nat) : Prop where
  waits : c.phase = .waiting
  driver : c.driver = true
  leads : Runs.Leads Coordinator.delivered n (c.driverFrame (some frame.val)) t
  back : t.phase = .waiting

inductive AttendsAll : Coordinator → List Frame → Coordinator → Nat → Prop where
  | nil {c : Coordinator} (waits : c.phase = .waiting) : AttendsAll c [] c 0
  | cons {c t u : Coordinator} {frame : Frame} {frames : List Frame} {n m : Nat} (first : Attends c frame t n)
      (rest : AttendsAll t frames u m) : AttendsAll c (frame :: frames) u (1 + 2 * n + m)

theorem Attends.keeps {c t : Coordinator} {frame : Frame} {n : Nat} (attends : Attends c frame t n)
    (unsent heard submitted replied : List Frame) :
    t.driver = true ∧ c.log <+: t.log ∧ ∃ moves, moves.length = 1 + 2 * n ∧
      deployment.Run (midway c unsent heard (frame :: submitted) replied) moves
        (midway t unsent heard submitted (replied ++ answers c t)) := by
  have awaiting := frameAwaiting attends.waits frame
  have opened := frameOpened attends.waits frame (leadsDefined attends.leads awaiting attends.back)
  have taken := takesFrame unsent heard submitted replied attends.waits attends.driver rfl opened.toWorkers
  obtain ⟨desk,log,moves,count,run⟩ := deliversAll unsent heard submitted
    (replied ++ answers c (c.driverFrame (some frame.val))) attends.leads awaiting attends.back
  refine ⟨?_,opened.log.trans log,.coordinator :: moves,?_,?_⟩
  · exact (congrArg Desk.driver desk).trans (opened.driver.trans attends.driver)
  · rw [List.length_cons,count,Nat.add_comm]
  · rw [answersJoin opened.log log,← List.append_assoc]
    exact Diamonds.free taken run

theorem attendsRun {c t : Coordinator} {script : List Frame} {n : Nat} (attends : AttendsAll c script t n)
    (heard replied : List Frame) :
    t.phase = .waiting ∧ c.log <+: t.log ∧ ∃ moves, moves.length = n ∧
      deployment.Run (midway c [] heard script replied) moves (midway t [] heard [] (replied ++ answers c t)) := by
  induction attends generalizing replied with
  | nil waits =>
      refine ⟨waits,List.prefix_refl _,[],rfl,?_⟩
      rw [answersNone rfl,List.append_nil]
      exact .nil
  | @cons c t u frame frames n m first _ ih =>
      obtain ⟨_,log,moves,count,run⟩ := first.keeps [] heard frames replied
      obtain ⟨back,later,others,counts,rest⟩ := ih (replied ++ answers c t)
      refine ⟨back,log.trans later,moves ++ others,by rw [List.length_append,count,counts],?_⟩
      rw [answersJoin log later,← List.append_assoc]
      exact Runs.append run rest

theorem sendsAll {c : Coordinator} {unsent heard replied : List Frame} (submitted : List Frame) :
    deployment.Run (midway c unsent heard submitted replied) (List.replicate unsent.length .sending)
      (midway c [] heard (submitted ++ unsent) replied) := by
  induction unsent generalizing submitted with
  | nil =>
      rw [List.append_nil]
      exact .nil
  | cons frame rest ih =>
      have later := ih (submitted ++ [frame])
      rw [List.append_assoc] at later
      exact Diamonds.free sendsFrame later

theorem readsAll {c : Coordinator} {unsent submitted replied : List Frame} (heard : List Frame) :
    deployment.Run (midway c unsent heard submitted replied) (List.replicate replied.length .reading)
      (midway c unsent (heard ++ replied) submitted []) := by
  induction replied generalizing heard with
  | nil =>
      rw [List.append_nil]
      exact .nil
  | cons frame rest ih =>
      have later := ih (heard ++ [frame])
      rw [List.append_assoc] at later
      exact Diamonds.free readsReply later

def finished (c : Coordinator) (heard : List Frame) : deployment.State := midway c [] heard [] []

theorem finishedDone {c : Coordinator} (waits : c.phase = .waiting) (heard : List Frame) : (finished c heard).Done := by
  have empty : ∀ channel, (finished c heard).queues channel = [] := by
    intro channel
    cases channel <;> simp only [finished,midway,underWayIdle waits] <;> rfl
  intro p
  cases p with
  | sending => rfl
  | reading => exact awaitNothing (empty .replies) (show deployment.move .reading _ = readingMove heard from rfl)
  | proposer =>
      exact awaitNothing (empty .dispatches)
        (show deployment.move .proposer _ = workerMove .dispatches .proposals .serving from rfl)
  | verifier =>
      exact awaitNothing (empty .questions)
        (show deployment.move .verifier _ = workerMove .questions .verdicts .serving from rfl)
  | coordinator =>
      have moves : deployment.move .coordinator ((finished c heard).locals .coordinator) = c.move := rfl
      by_cases driver : c.driver = true
      · have awaits : c.move = .await .submissions (c.takes fun frame => c.driverFrame (some frame.val)) := by
          rw [Coordinator.move,waits]
          exact if_pos driver
        exact awaitNothing (empty .submissions) (moves.trans awaits)
      · have rests : c.move = .rest := by
          rw [Coordinator.move,waits]
          exact if_neg driver
        simp only [Network.State.step,moves.trans rests]

theorem AttendsAll.waits {c t : Coordinator} {script : List Frame} {n : Nat} (attends : AttendsAll c script t n) :
    c.phase = .waiting := by
  cases attends with
  | nil waits => exact waits
  | cons first _ => exact first.waits

theorem plantFollows {c t : Coordinator} {script : List Frame} {n : Nat} (attends : AttendsAll c script t n) :
    (finished t (answers c t)).Done ∧ ∃ moves, deployment.Run (deployed c script) moves (finished t (answers c t)) ∧
      moves.length = script.length + n + (answers c t).length := by
  obtain ⟨back,_,middle,count,run⟩ := attendsRun attends [] []
  refine ⟨finishedDone back (answers c t),
    List.replicate script.length .sending ++ middle ++ List.replicate (answers c t).length .reading,?_,?_⟩
  · rw [midwayStart attends.waits]
    exact Runs.append (Runs.append (sendsAll []) run) (readsAll [])
  · simp only [List.length_append,List.length_replicate,count]

theorem plantEnds {c t : Coordinator} {script : List Frame} {n : Nat} (attends : AttendsAll c script t n)
    {moves : List Party} {u : deployment.State} (run : deployment.Run (deployed c script) moves u) :
    (∃ left, deployment.Run u left (finished t (answers c t)) ∧
      moves.length + left.length = script.length + n + (answers c t).length) ∧
    (u.Done → u = finished t (answers c t)) := by
  obtain ⟨done,whole,ends,count⟩ := plantFollows attends
  obtain ⟨⟨left,rest,order⟩,same⟩ := networkDeterminate ends done run
  have lengths := order.length_eq
  rw [List.length_append] at lengths
  exact ⟨⟨left,rest,lengths.trans count⟩,same⟩

structure Defined (u : deployment.State) : Prop where
  coordinator : Coordinator.phase (u.locals .coordinator) ≠ .undefined
  proposer : u.locals .proposer ≠ WorkerStatus.undefined
  verifier : u.locals .verifier ≠ WorkerStatus.undefined

theorem undefinedRests {c : Coordinator} (phase : c.phase = .undefined) : c.move = .rest := by
  simp only [Coordinator.move,phase]

theorem definedBefore {u v : deployment.State} {moves : List Party} (run : deployment.Run u moves v) (sound : Defined v) :
    Defined u := by
  refine ⟨?_,?_,?_⟩
  · intro phase
    have rests : deployment.move .coordinator (u.locals .coordinator) = .rest := undefinedRests phase
    exact sound.coordinator ((congrArg Coordinator.phase (restsKept rests run)).trans phase)
  · intro status
    have rests : deployment.move .proposer (u.locals .proposer) = .rest := by
      rw [status]
      rfl
    exact sound.proposer ((restsKept rests run).trans status)
  · intro status
    have rests : deployment.move .verifier (u.locals .verifier) = .rest := by
      rw [status]
      rfl
    exact sound.verifier ((restsKept rests run).trans status)

structure EndsWell (u : deployment.State) : Prop where
  done : u.Done
  defined : Defined u
  taken : u.queues .submissions = []

theorem finishedWell {c : Coordinator} (waits : c.phase = .waiting) (heard : List Frame) : EndsWell (finished c heard) := by
  refine ⟨finishedDone waits heard,⟨?_,?_,?_⟩,rfl⟩
  · intro undefined
    cases waits.symm.trans undefined
  · intro undefined
    cases undefined
  · intro undefined
    cases undefined

/- One complete run decides all the others; and where the coordinator alone gets through a
script, every run of the plant is on its way to the end that gives. -/
theorem deploymentDeterminate (c : Coordinator) (script : List Frame) :
    (∀ moves u others v, deployment.Run (deployed c script) moves u → EndsWell u →
      deployment.Run (deployed c script) others v →
      Defined v ∧ (∃ left, deployment.Run v left u ∧ (others ++ left).Perm moves) ∧ (v.Done → v = u)) ∧
    ∀ t n, AttendsAll c script t n → EndsWell (finished t (answers c t)) ∧
      ∀ moves u, deployment.Run (deployed c script) moves u →
        Defined u ∧ (∃ left, deployment.Run u left (finished t (answers c t)) ∧
          moves.length + left.length = script.length + n + (answers c t).length) ∧
        (u.Done → u = finished t (answers c t)) := by
  constructor
  · intro moves u others v run well other
    obtain ⟨⟨left,rest,order⟩,same⟩ := networkDeterminate run well.done other
    exact ⟨definedBefore rest well.defined,⟨left,rest,order⟩,same⟩
  · intro t n attends
    obtain ⟨back,_⟩ := attendsRun attends [] []
    have well := finishedWell back (answers c t)
    refine ⟨well,?_⟩
    intro moves u run
    obtain ⟨⟨left,rest,count⟩,same⟩ := plantEnds attends run
    exact ⟨definedBefore rest well.defined,⟨left,rest,count⟩,same⟩

def rollScript : List Frame :=
  [⟨[1,2,3],by decide⟩,⟨layout { type := Msg.info, body := text "rollEpoch" },by decide +kernel⟩]

def rolled : Coordinator := (Coordinator.start 7 8).driverFrame (some (layout { type := Msg.info, body := text "rollEpoch" }))

theorem rollScriptPasses : AttendsAll (.start 7 8) rollScript rolled 2 ∧ (answers (.start 7 8) rolled).length = 1 ∧
    (∀ moves u, deployment.Run (deployed (.start 7 8) rollScript) moves u →
      Defined u ∧ ∃ left, deployment.Run u left (finished rolled (answers (.start 7 8) rolled)) ∧
        moves.length + left.length = 5) ∧
    ∃ moves, deployment.Run (deployed (.start 7 8) rollScript) moves (finished rolled (answers (.start 7 8) rolled)) ∧
      ∀ others v, deployment.Run (deployed (.start 7 8) rollScript) others v →
        ∃ left, deployment.Run v left (finished rolled (answers (.start 7 8) rolled)) ∧ (others ++ left).Perm moves := by
  have ignored : (Coordinator.start 7 8).driverFrame (some [1,2,3]) = .start 7 8 := rfl
  have back : rolled.phase = .waiting := by decide +kernel
  have attends : AttendsAll (.start 7 8) rollScript rolled 2 :=
    .cons (t := .start 7 8) (n := 0) ⟨rfl,rfl,by rw [ignored]; exact .here,rfl⟩
      (.cons (t := rolled) (n := 0) ⟨rfl,rfl,.here,back⟩ (.nil back))
  have reply : (answers (.start 7 8) rolled).length = 1 := by decide +kernel
  obtain ⟨every,through⟩ := deploymentDeterminate (.start 7 8) rollScript
  obtain ⟨well,ends⟩ := through rolled 2 attends
  obtain ⟨_,moves,run,_⟩ := plantFollows attends
  refine ⟨attends,reply,?_,moves,run,?_⟩
  · intro moves u run
    obtain ⟨defined,⟨left,rest,count⟩,_⟩ := ends moves u run
    rw [reply] at count
    exact ⟨defined,left,rest,count⟩
  · intro others v other
    exact (every moves _ others v run well other).2.1

end SpeculationFabric.Dist
