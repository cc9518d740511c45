import SpeculationFabric.Interleavings
import SpeculationFabric.Objects

/-! The engine as one sequential object. To its callers it is a book of accounts, one for
each request: its tokens, and whether and how it was closed. Every operation takes effect
at one hold of the lock, a cycle at its settlement, and what any interleaving of calls is
answered is what the book alone answers to the same questions in that order. -/
namespace SpeculationFabric
open Objects (Object Refines)

structure Account where
  tokens : List UInt32
  generation : UInt64
  attempt : UInt64
  retries : UInt32
  limit : UInt32
  cancelled : Bool := false
  finished : Bool := false
  deriving DecidableEq, Repr

abbrev Book := RequestId → Option Account

/- What the book is asked. An extension without tokens is one whose tokens are not there to read. -/
inductive Question where
  | register (id : RequestId) (tokens : List UInt32) (limit : UInt32)
  | withdraw (id : RequestId)
  | finish (id : RequestId)
  | restore (id : RequestId)
  | again (id : RequestId)
  | extend (id : RequestId) (tokens : Option (List UInt32))
  deriving DecidableEq, Repr

inductive BookReply where
  | done
  | refused (code : ErrorCode)
  | attempt (n : UInt64)
  | restored (tokens : UInt32) (generation : UInt64)
  | extended (tokens : UInt32)
  | late (code : ErrorCode)
  deriving DecidableEq, Repr

def Account.extended (a : Account) (tokens : List UInt32) : Account :=
  { a with tokens := a.tokens ++ tokens, generation := a.generation + UInt64.ofNat tokens.length }

def Account.lateness (a : Account) : ErrorCode :=
  if a.finished then .completionAfterTerminal else .completionAfterCancellation

def Book.enter (b : Book) (id : RequestId) (a : Account) : Book := Function.update b id (some a)

/- The null id is never taken: it can be registered again, and only its retries stay. -/
def Book.ask (b : Book) : Question → Book × List BookReply
  | .register id tokens limit =>
      match b id with
      | none => (b.enter id ⟨tokens,0,1,0,limit,false,false⟩,[.done])
      | some a =>
          if id.isNull then (b.enter id ⟨tokens,0,1,a.retries,limit,false,false⟩,[.done])
          else (b,[.refused .alreadyExists])
  | .withdraw id =>
      match b id with
      | none => (b,[.refused .notFound])
      | some a =>
          if a.cancelled then (b,[.done])
          else if a.finished then (b,[.refused .alreadyTerminal])
          else (b.enter id { a with cancelled := true },[.done])
  | .finish id =>
      match b id with
      | none => (b,[.refused .notFound])
      | some a => (b.enter id { a with finished := true },[.done])
  | .restore id =>
      match b id with
      | none => (b,[.refused .notFound])
      | some a => (b,[.restored (UInt32.ofNat a.tokens.length) a.generation])
  | .again id =>
      match b id with
      | none => (b,[.refused .notFound])
      | some a =>
          if a.limit ≠ 0 ∧ a.retries ≥ a.limit then (b,[.refused .retryableFailure])
          else if a.finished || a.cancelled then (b,[.refused .invalidState])
          else (b.enter id { a with attempt := a.attempt + 1, retries := a.retries + 1 },[.attempt (a.attempt + 1)])
  | .extend id tokens =>
      match b id with
      | none => (b,[.refused .notFound])
      | some a =>
          if a.finished || a.cancelled then (b,[.late a.lateness])
          else
            match tokens with
            | none => (b,[])
            | some tokens => (b.enter id (a.extended tokens),[.extended (UInt32.ofNat tokens.length)])

def requestBook : Object Book Question BookReply := ⟨Book.ask⟩

def RequestState.account (rs : RequestState) : Account :=
  ⟨rs.committed,rs.authGen.value,rs.attempt.value,rs.retryCount,rs.req.maxAttempts,rs.cancelled,rs.terminal⟩

def Fabric.book (f : Fabric) : Book := fun id => (f.find id).map RequestState.account

def Cycle.gained (c : Cycle) : Option (List UInt32) := do
  let won ← c.proposed[selectWinner c.accepted c.proposed]?
  let accept ← c.accepted[selectWinner c.accepted c.proposed]?
  let candidate ← won.pr.candidate
  readTokens candidate accept.acceptedPrefix

def Call.questions : Call → CallAction → List Question
  | .settling c,.settle _ => [.extend c.request c.gained]
  | _,_ => []

def System.questions (s : System) : Action → List Question
  | .submit _ req => [.register req.id req.prefixTokens req.maxAttempts]
  | .cancel _ id _ => [.withdraw id]
  | .complete _ id => [.finish id]
  | .rollback _ id _ => [.restore id]
  | .retry _ id => [.again id]
  | .call index action => ((s.calls[index]?).map fun call => call.questions action).getD []
  | .rollEpoch | .emitEvent _ _ _ _ _ | .runCycle _ _ _ => []

def Answer.reply : Answer → BookReply
  | .done (.ok _) => .done
  | .attempt (.ok n) => .attempt n.value
  | .rolledBack (.ok rb) => .restored rb.acceptedPrefix rb.restoredGeneration.value
  | .cycle (.ok o) => if o.outcome = .staleAuthorityRejected then .late o.error else .extended o.acceptedTokens
  | .done (.error e) | .attempt (.error e) | .rolledBack (.error e) | .cycle (.error e) => .refused e.code

def System.replies (s : System) (a : Action) : List BookReply :=
  if s.questions a = [] then [] else (s.answers a).map Answer.reply

section writes
variable {f : Fabric} {now : UInt64} {id : RequestId} {w : Write}

theorem writeBook : (f.write now id w).book = w.record.elim f.book fun rs => f.book.enter id rs.account := by
  have told : ∀ (rs : RequestState) (e : Option Event), (rs.heard e).account = rs.account := by
    intro rs e
    obtain ⟨events,same⟩ := heardSame rs e
    rw [same]
    rfl
  funext other
  by_cases same : other = id
  · subst same
    rw [Fabric.book,writeSelf]
    cases stored : w.record with
    | none =>
        simp only [Option.none_or,Option.map_map,Option.elim_none,Fabric.book]
        cases f.find other with
        | none => rfl
        | some rs => exact congrArg some (told rs _)
    | some rs =>
        simp only [Option.some_or,Option.map_some,Option.elim_some,Book.enter,Function.update_self,told]
  · rw [Fabric.book,writeOther _ _ _ same]
    cases w.record with
    | none => rfl
    | some rs =>
        rw [Option.elim_some,Book.enter,Function.update_of_ne same]
        rfl

end writes

section operations
variable (f : Fabric) (now : UInt64) (id : RequestId)

theorem submitAsked (req : SpeculationRequest) (named : ∀ rs, f.find req.id = some rs → rs.req.id = req.id) :
    f.book.ask (.register req.id req.prefixTokens req.maxAttempts) =
      ((f.submit now req).2.book,[Answer.reply (.done (f.submit now req).1)]) := by
  rw [submitSection,writeBook]
  simp only [Book.ask,Fabric.book,submitDecision]
  cases found : f.find req.id with
  | none =>
      have fresh : ({} : RequestState).req.id.isNull = true := rfl
      simp only [Option.map_none,Option.getD_none,fresh,Bool.not_true,Bool.false_eq_true,if_false]
      rfl
  | some rs =>
      simp only [Option.map_some,Option.getD_some,named rs found]
      cases req.id.isNull <;> rfl

theorem cancelAsked (why : String) : f.book.ask (.withdraw id) =
    ((f.cancel now id why).2.book,[Answer.reply (.done (f.cancel now id why).1)]) := by
  rw [cancelSection,writeBook]
  simp only [Book.ask,Fabric.book,cancelDecision]
  cases f.find id with
  | none => rfl
  | some rs =>
      cases cancelled : rs.cancelled <;> cases finished : rs.terminal <;>
        simp [RequestState.account,RequestState.withdrawn,Answer.reply,Result.err,cancelled,finished]

theorem completeAsked : f.book.ask (.finish id) =
    ((f.complete now id).2.book,[Answer.reply (.done (f.complete now id).1)]) := by
  rw [completeSection,writeBook]
  simp only [Book.ask,Fabric.book,completeDecision]
  cases f.find id <;> rfl

theorem rollbackAsked (why : String) : f.book.ask (.restore id) =
    ((f.rollback now id why).2.book,[Answer.reply (.rolledBack (f.rollback now id why).1)]) := by
  rw [rollbackSection,writeBook]
  simp only [Book.ask,Fabric.book,rollbackDecision]
  cases found : f.find id with
  | none => rfl
  | some rs =>
      refine Prod.ext (Function.update_eq_self_iff.mpr ?_).symm rfl
      show some rs.rolledBack.account = (f.find id).map RequestState.account
      rw [found]
      rfl

theorem retryAsked : f.book.ask (.again id) =
    ((f.retry now id).2.book,[Answer.reply (.attempt (f.retry now id).1)]) := by
  rw [retrySection,writeBook]
  simp only [Book.ask,Fabric.book,retryDecision]
  cases f.find id with
  | none => rfl
  | some rs =>
      by_cases limit : rs.req.maxAttempts ≠ 0 ∧ rs.retryCount ≥ rs.req.maxAttempts
      · simp [RequestState.account,Answer.reply,Result.err,limit]
      · cases cancelled : rs.cancelled <;> cases finished : rs.terminal <;>
          simp [RequestState.account,RequestState.retried,Answer.reply,Result.err,limit,cancelled,finished]

end operations

theorem settleBranchRead {rs proposed keep candidate prop outcome count rejected len} :
    (settleBranch rs proposed keep candidate prop outcome count rejected len).isSome =
      (readTokens candidate count).isSome := by
  unfold settleBranch
  split
  · simp only [settleAccepted]
    cases readTokens candidate count <;> rfl
  · split
    · simp only [settleAccepted]
      cases readTokens candidate count <;> rfl
    · rename_i nonpositive
      have zero : count = 0 := by
        by_contra nonzero
        exact nonpositive (UInt32.pos_iff_ne_zero.mpr nonzero)
      subst zero
      simp [readTokens]

theorem settleBranchGains {rs proposed keep candidate prop outcome count rejected len o rs'}
    (ok : settleBranch rs proposed keep candidate prop outcome count rejected len = some (o,rs')) :
    o.outcome ≠ .staleAuthorityRejected ∧ o.acceptedTokens = count ∧ ∃ tokens, readTokens candidate count = some tokens ∧
      UInt32.ofNat tokens.length = count ∧ rs'.account = rs.account.extended tokens := by
  obtain ⟨advanced,_,kind,_⟩ := settleBranchAdvanced ok
  have accepted : o.acceptedTokens = count := by
    rcases settleBranchCases ok with ⟨_,taken⟩ | ⟨_,_,taken⟩ | ⟨_,rfl,refused⟩
    · exact (settleAcceptedAs taken).acceptedTokens
    · exact (settleAcceptedAs taken).acceptedTokens
    · cases refused
      rfl
  have size : ((candidate.tokens.take count.toNat).map Token.id).length = count.toNat := by
    rw [List.length_map,List.length_take]
    exact Nat.min_eq_left advanced.inside
  have settled : ∀ k, SettledKind k → k ≠ .staleAuthorityRejected := by
    intro k kind
    cases kind <;> decide
  refine ⟨settled _ kind,accepted,_,if_pos advanced.inside,?_,?_⟩
  · rw [size,UInt32.ofNat_toNat]
  · simp only [RequestState.account,Account.extended,size,advanced.committed,advanced.authGen,advanced.attempt,
      advanced.retryCount,advanced.req,advanced.flags.1,advanced.flags.2,UInt64.ofNat_uInt32ToNat]

theorem settlesOpen {c : Cycle} {rs : RequestState} (live : (rs.terminal || rs.cancelled) = false) :
    (settleDecision c (some rs) = none ∧ c.gained = none) ∨
    ∃ o w mid tokens, settleDecision c (some rs) = some (.ok o,w) ∧ c.gained = some tokens ∧ w.record = some mid ∧
      (Answer.cycle (.ok o)).reply = .extended (UInt32.ofNat tokens.length) ∧
      mid.account = rs.account.extended tokens := by
  simp only [settleDecision,live,Bool.false_eq_true,if_false,Cycle.gained,bind]
  cases c.proposed[selectWinner c.accepted c.proposed]? with
  | none => exact .inl ⟨rfl,rfl⟩
  | some won =>
  cases c.accepted[selectWinner c.accepted c.proposed]? with
  | none => exact .inl ⟨rfl,rfl⟩
  | some accept =>
  simp only [Option.bind_some]
  cases won.pr.candidate with
  | none => exact .inl ⟨rfl,rfl⟩
  | some candidate =>
      simp only [Option.bind_some]
      generalize settles : settleBranch _ _ _ _ _ _ _ _ _ = result
      cases result with
      | none =>
          have unread := (congrArg Option.isSome settles).symm.trans settleBranchRead
          exact .inl ⟨rfl,Option.isSome_eq_false_iff.mp unread.symm |> Option.isNone_iff_eq_none.mp⟩
      | some result =>
          obtain ⟨fresh,accepted,tokens,read,size,account⟩ := settleBranchGains settles
          refine .inr ⟨result.1,_,_,tokens,rfl,read,rfl,?_,account⟩
          rw [Answer.reply,if_neg fresh,accepted,size]

theorem settleAsked {f : Fabric} {c : Cycle} (now : UInt64) (registered : (f.find c.request).isSome) :
    f.book.ask (.extend c.request c.gained) =
      ((c.settlementSection f now).2.book,(c.settlementSection f now).1.reports.map Answer.reply) := by
  obtain ⟨rs,found⟩ := Option.isSome_iff_exists.mp registered
  have known : f.book c.request = some rs.account := by rw [Fabric.book,found]; rfl
  rw [Cycle.settlementSection,settleSection,found]
  simp only [Book.ask,known]
  have marks : (rs.account.finished || rs.account.cancelled) = (rs.terminal || rs.cancelled) := rfl
  cases closed : rs.terminal || rs.cancelled with
  | true =>
      rw [marks,if_pos closed]
      simp only [settleDecision,closed,if_true,Option.map_some,writeBook]
      rfl
  | false =>
      rw [marks,if_neg (Bool.eq_false_iff.mp closed)]
      rcases settlesOpen (c := c) closed with ⟨none,unread⟩ | ⟨o,w,mid,tokens,decided,gains,stored,reply,account⟩
      · rw [none,unread]
        rfl
      · rw [decided,gains]
        simp only [Option.map_some,writeBook,stored,Option.elim_some,account]
        exact Prod.ext rfl (congrArg (fun r => [r]) reply.symm)

theorem callAsked {s : System} {index : Nat} {call next : Call} {action : CallAction} {f' : Fabric}
    (present : s.calls[index]? = some call) (registered : (s.fabric.find call.request).isSome)
    (taken : call.step s.fabric action = some (next,f')) :
    requestBook.askAll s.fabric.book (s.questions (.call index action)) = (f'.book,s.replies (.call index action)) := by
  have written := callWrite present registered taken
  have silent (none : call.questions action = []) (kept : (s.writes (.call index action)).2 = {}) :
      requestBook.askAll s.fabric.book (s.questions (.call index action)) = (f'.book,s.replies (.call index action)) := by
    rw [kept,writeNothing] at written
    have nothing : s.questions (.call index action) = [] := by
      simp only [System.questions,present,Option.map_some,Option.getD_some,none]
    rw [System.replies,if_pos nothing,nothing,written]
    rfl
  have settling {c : Cycle} {now : UInt64} (ready : call = .settling c) (last : action = .settle now) :
      requestBook.askAll s.fabric.book (s.questions (.call index action)) = (f'.book,s.replies (.call index action)) := by
    subst ready last
    have same : c.settlementSection s.fabric now = (next,f') := Option.some.inj taken
    have book : f'.book = (c.settlementSection s.fabric now).2.book := by rw [same]
    have asked : s.questions (.call index (.settle now)) = [.extend c.request c.gained] := by
      simp only [System.questions,present,Option.map_some,Option.getD_some,Call.questions]
    rw [System.replies,asked,if_neg (List.cons_ne_nil _ _),Objects.Object.askOne,book]
    simp only [System.answers,present,Option.bind_some,Call.step]
    exact settleAsked now registered
  cases callStep taken with
  | settles => exact settling rfl rfl
  | undecided => exact settling rfl rfl
  | _ => exact silent rfl rfl

theorem planUnasked {s : System} {now eventNow : UInt64} {id target : RequestId}
    (named : s.target (.runCycle now eventNow id) = some target) :
    ((s.writes (.runCycle now eventNow id)).2.record.elim s.fabric.book fun rs =>
      s.fabric.book.enter target rs.account) = s.fabric.book := by
  have decided := writesDecided named
  generalize (s.writes (.runCycle now eventNow id)).2 = w at decided
  cases decided with
  | nothing => rfl
  | noted => rfl
  | planned machine bypasses note found live =>
      refine Function.update_eq_self_iff.mpr ?_
      rw [Fabric.book,found]
      rfl

theorem bookStep {s t : System} {a : Action} (registry : Registry s) (taken : s.step a = some t) :
    requestBook.askAll s.fabric.book (s.questions a) = (t.fabric.book,s.replies a) := by
  cases a with
  | submit now req =>
      cases Option.some.inj taken
      exact (Objects.Object.askOne _ _ _).trans (submitAsked _ now req (registry.named req.id))
  | cancel now id why =>
      cases Option.some.inj taken
      exact (Objects.Object.askOne _ _ _).trans (cancelAsked _ now id why)
  | complete now id =>
      cases Option.some.inj taken
      exact (Objects.Object.askOne _ _ _).trans (completeAsked _ now id)
  | rollback now id why =>
      cases Option.some.inj taken
      exact (Objects.Object.askOne _ _ _).trans (rollbackAsked _ now id why)
  | retry now id =>
      cases Option.some.inj taken
      exact (Objects.Object.askOne _ _ _).trans (retryAsked _ now id)
  | rollEpoch =>
      rw [← Option.some.inj taken]
      rfl
  | emitEvent now id type detail json =>
      cases Option.some.inj taken
      refine Prod.ext ?_ rfl
      show s.fabric.book = (s.fabric.pushEvent now id type detail json).book
      rw [noteWrite,writeBook]
      rfl
  | runCycle now eventNow id =>
      obtain ⟨other,_⟩ | ⟨target,named,written⟩ := stepWrite registry taken
      · cases other
      · refine Prod.ext ?_ rfl
        show s.fabric.book = t.fabric.book
        rw [written,writeBook]
        exact (planUnasked named).symm
  | call index action =>
      obtain ⟨call,next,f',present,moved,rfl⟩ := callMoved taken
      exact callAsked present (registry.registered call (List.mem_of_getElem? present) (callStays moved).2) moved

theorem bookRefined (x : Executors) : Refines requestBook System.step x.admits Registry (fun s => s.fabric.book)
    System.questions System.replies where
  kept _ _ _ registry _ taken := registryStep taken registry
  replies _ _ _ registry _ taken := bookStep registry taken

def questioned (s : System) (actions : List Action) : List Question := Runs.logged System.step System.questions s actions

def replied (s : System) (actions : List Action) : List BookReply := Runs.logged System.step System.replies s actions

theorem engineIsBook {x : Executors} {cfg : Config} {actions : List Action} {s : System}
    (run : Run x (.start cfg) actions s) :
    requestBook.askAll (fun _ => none) (questioned (.start cfg) actions) = (s.fabric.book,replied (.start cfg) actions) ∧
    ∀ id, s.fabric.authoritativeLength id =
      ((s.fabric.book id).elim (Result.err .notFound "unknown request") fun a => .ok (UInt64.ofNat a.tokens.length)) := by
  refine ⟨((bookRefined x).run run (registryStart cfg)).2,?_⟩
  intro id
  simp only [Fabric.authoritativeLength,Fabric.book]
  cases s.fabric.find id <;> rfl

def crossing : List Action :=
  [.submit 1 (makeReq ⟨100⟩ [1]),.runCycle 2 2 ⟨100⟩,.runCycle 3 3 ⟨100⟩] ++
    oneBranchAnswers 0 (proposedTokens [5,6]) (acceptedFirst 1) ++ oneBranchAnswers 1 (proposedTokens [5,6]) (acceptedFirst 1) ++
    [.call 1 (.settle 4),.cancel 5 ⟨100⟩ "enough",.call 0 (.settle 6),.rollback 7 ⟨100⟩ "undo",.retry 8 ⟨100⟩]

def crossed : System := (runOf (drafts [5,6]) (accepts 1) (.start {}) crossing).get (by decide +kernel)

theorem crossingInBook : crossed.fabric.book ⟨100⟩ = some ⟨[1,5],1,1,0,3,true,false⟩ ∧
    replied (.start {}) crossing = [.done,.extended 1,.done,.late .completionAfterCancellation,.restored 2 1,
      .refused .invalidState] := by
  have run : Run (.functions (drafts [5,6]) (accepts 1)) (.start {}) crossing crossed := runOfRun (by decide +kernel)
  have told := (engineIsBook run).1
  have asked : questioned (.start {}) crossing = [.register ⟨100⟩ [1] 3,.extend ⟨100⟩ (some [5]),.withdraw ⟨100⟩,
      .extend ⟨100⟩ (some [5]),.restore ⟨100⟩,.again ⟨100⟩] := by decide +kernel
  rw [asked] at told
  have held := congrArg Prod.fst told
  have heard := congrArg Prod.snd told
  dsimp only at held heard
  constructor
  · rw [← held]
    decide +kernel
  · rw [← heard]
    decide +kernel

end SpeculationFabric
