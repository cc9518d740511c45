import SpeculationFabric.Unchecked
import SpeculationFabric.Totals
import Mathlib.Data.UInt
import Mathlib.Tactic.Abel

/-! The statistics as a ledger of the records. Every write adds to the counters exactly
what it adds to the records, modulo the width of the words involved: a counter of a
request and a token count of a cycle are 32 bits wide, the statistics 64. Where a
narrow word wraps, the sums part by one turn of it. -/
namespace SpeculationFabric
open Totals (total share insertTotal)

def gained (rs : RequestState) : UInt64 :=
  UInt64.ofNat rs.committed.length - UInt64.ofNat rs.req.prefixTokens.length

def recordedProposals (rs : RequestState) : UInt64 := UInt64.ofNat rs.proposals.length

def retries (rs : RequestState) : UInt64 := rs.retryCount.toUInt64

def cancellation (rs : RequestState) : UInt64 := if rs.cancelled then 1 else 0

/- What a run has to remember: successful rollbacks, and the words that wrapped. -/
inductive Mark where
  | rolledBack | retriesWrapped | tokensWrapped
  deriving DecidableEq, Repr

def rollbackMark (s : System) : Action → List Mark
  | .rollback now id why => if (s.fabric.rollback now id why).1.isOk then [.rolledBack] else []
  | _ => []

def retriesMark : Option RequestState → Option RequestState → List Mark
  | some rs,some rs' => if rs'.retryCount < rs.retryCount then [.retriesWrapped] else []
  | _,_ => []

def tokensMark (counts : Stats) : List Mark :=
  if counts.tokensProposed < counts.tokensAccepted then [.tokensWrapped] else []

def System.marks (s : System) (a : Action) : List Mark :=
  match s.target a with
  | some id =>
      rollbackMark s a ++ retriesMark (s.fabric.find id) (s.writes a).2.record ++ tokensMark (s.writes a).2.counts
  | none => []

def marked (s : System) (actions : List Action) : List Mark := Runs.logged System.step System.marks s actions

def marksOf (m : Mark) (marks : List Mark) : UInt64 := UInt64.ofNat (marks.count m)

theorem marksAppend (m : Mark) (xs ys : List Mark) : marksOf m (xs ++ ys) = marksOf m xs + marksOf m ys := by
  unfold marksOf
  rw [List.count_append,UInt64.ofNat_add]

def wordTurn : UInt64 := 4294967296

structure Balances (counts : Stats) (marks : List Mark) : Prop where
  tokens : counts.tokensAccepted + counts.tokensRejected =
    counts.tokensProposed + wordTurn * marksOf .tokensWrapped marks
  cycles : counts.fullAcceptCount + counts.partialAcceptCount + counts.fullRejectCount =
    counts.speculativeCyclesStarted
  produced : counts.speculativeCyclesStarted = counts.proposalsProduced
  verified : counts.proposalsProduced = counts.verificationsRun
  rollbacks : counts.rollbackCount =
    counts.partialAcceptCount + counts.fullRejectCount + marksOf .rolledBack marks

theorem balancesAdd {a b : Stats} {xs ys : List Mark} (one : Balances a xs) (other : Balances b ys) :
    Balances (a + b) (xs ++ ys) := by
  constructor
  · rw [marksAppend,mul_add]
    have left := one.tokens
    have right := other.tokens
    show a.tokensAccepted + b.tokensAccepted + (a.tokensRejected + b.tokensRejected) =
      a.tokensProposed + b.tokensProposed + _
    rw [add_add_add_comm,left,right,add_add_add_comm]
  · show a.fullAcceptCount + b.fullAcceptCount + (a.partialAcceptCount + b.partialAcceptCount) +
      (a.fullRejectCount + b.fullRejectCount) = a.speculativeCyclesStarted + b.speculativeCyclesStarted
    rw [← one.cycles,← other.cycles]
    abel
  · show a.speculativeCyclesStarted + b.speculativeCyclesStarted = a.proposalsProduced + b.proposalsProduced
    rw [one.produced,other.produced]
  · show a.proposalsProduced + b.proposalsProduced = a.verificationsRun + b.verificationsRun
    rw [one.verified,other.verified]
  · rw [marksAppend]
    show a.rollbackCount + b.rollbackCount = a.partialAcceptCount + b.partialAcceptCount +
      (a.fullRejectCount + b.fullRejectCount) + _
    rw [one.rollbacks,other.rollbacks]
    abel

structure Accounts (old new : Option RequestState) (counts : Stats) (marks : List Mark) : Prop where
  gained : share gained new = share gained old + counts.tokensAccepted
  proposals : share recordedProposals new = share recordedProposals old + counts.verificationsRun
  retries : share retries new + wordTurn * marksOf .retriesWrapped marks = share retries old + counts.retryCount
  cancels : share cancellation new = share cancellation old + counts.cancelCount

section words

theorem wordOf (n : UInt32) : UInt64.ofNat n.toNat = n.toUInt64 := by
  apply UInt64.toNat_inj.mp
  have small := n.toNat_lt
  rw [UInt32.toNat_toUInt64,UInt64.toNat_ofNat_of_lt' (Nat.lt_trans small (by decide))]

theorem nextWord (n : UInt32) :
    (n + 1).toUInt64 + wordTurn * marksOf .retriesWrapped (if n + 1 < n then [.retriesWrapped] else []) = n.toUInt64 + 1 := by
  have small := n.toNat_lt
  have next : (n + 1).toNat = (n.toNat + 1) % 2 ^ 32 := by
    rw [UInt32.toNat_add]
    rfl
  apply UInt64.toNat_inj.mp
  by_cases wraps : n + 1 < n
  · have full : n.toNat = 2 ^ 32 - 1 := by
      rw [UInt32.lt_iff_toNat_lt,next] at wraps
      omega
    have zero : n + 1 = 0 := by
      apply UInt32.toNat_inj.mp
      rw [next,full]
      rfl
    have last : n.toUInt64 = 4294967295 := by
      apply UInt64.toNat_inj.mp
      rw [UInt32.toNat_toUInt64,full]
      rfl
    rw [if_pos wraps,zero,last]
    decide
  · have room : n.toNat + 1 < 2 ^ 32 := by
      rw [UInt32.lt_iff_toNat_lt,next] at wraps
      omega
    rw [if_neg wraps]
    have none : wordTurn * marksOf .retriesWrapped [] = 0 := by decide
    rw [none,add_zero,UInt32.toNat_toUInt64,next,UInt64.toNat_add,UInt32.toNat_toUInt64]
    show (n.toNat + 1) % 2 ^ 32 = (n.toNat + 1) % 2 ^ 64
    omega

theorem splitWord (len count : UInt32) :
    count.toUInt64 + (len - count).toUInt64 = len.toUInt64 +
      wordTurn * marksOf .tokensWrapped (if len.toUInt64 < count.toUInt64 then [.tokensWrapped] else []) := by
  have small := len.toNat_lt
  have small' := count.toNat_lt
  have less : len.toUInt64 < count.toUInt64 ↔ len.toNat < count.toNat := by
    rw [UInt64.lt_iff_toNat_lt,UInt32.toNat_toUInt64,UInt32.toNat_toUInt64]
  apply UInt64.toNat_inj.mp
  by_cases wraps : len.toNat < count.toNat
  · rw [if_pos (less.mpr wraps)]
    have once : wordTurn * marksOf .tokensWrapped [.tokensWrapped] = 4294967296 := by decide
    rw [once,UInt64.toNat_add,UInt64.toNat_add,UInt32.toNat_toUInt64,UInt32.toNat_toUInt64,UInt32.toNat_toUInt64,
      UInt32.toNat_sub]
    show _ = (len.toNat + 4294967296) % 2 ^ 64
    omega
  · rw [if_neg (fun no => wraps (less.mp no))]
    have none : wordTurn * marksOf .tokensWrapped [] = 0 := by decide
    rw [none,add_zero,UInt64.toNat_add,UInt32.toNat_toUInt64,UInt32.toNat_toUInt64,UInt32.toNat_toUInt64,
      UInt32.toNat_sub]
    omega

end words

section totals
variable (g : RequestState → UInt64) (f : Fabric) (now : UInt64) (id : RequestId)

theorem keepTotal (record : Option RequestState) :
    total g (f.keep id record).requests + share g (f.find id) = total g f.requests + share g (record.or (f.find id)) := by
  cases record with
  | none => rfl
  | some rs =>
      have inserted := insertTotal g f.requests id rs
      rw [add_comm,add_comm (total g f.requests)]
      exact inserted

theorem tellTotal (deaf : ∀ rs events, g { rs with events := events } = g rs) (note : Option Note) :
    total g (f.tell now id note).requests = total g f.requests := by
  cases note with
  | none => rfl
  | some note =>
      unfold Fabric.tell Fabric.pushEvent
      dsimp only
      split
      · rename_i rs found
        have inserted := insertTotal g f.requests id { rs with events := bounded 512 (rs.events ++ [f.event now id note]) }
        have looked : f.requests.lookup id = some rs := found
        rw [looked,deaf] at inserted
        exact add_left_cancel inserted
      · rfl

theorem writeTotal (deaf : ∀ rs events, g { rs with events := events } = g rs) (w : Write) :
    total g (f.write now id w).requests + share g (f.find id) =
      total g f.requests + share g (w.record.or (f.find id)) := by
  have requests := (learnFields f w.ratio).1
  have found : (f.learn w.ratio).find id = f.find id := congrArg (fun m => m.lookup id) requests
  unfold Fabric.write
  rw [tellTotal g _ now id deaf w.note]
  show total g ((f.learn w.ratio).keep id w.record).requests + _ = _
  have kept := keepTotal g (f.learn w.ratio) id w.record
  rw [found,requests] at kept
  exact kept

end totals

section settled
variable (kind : CycleOutcomeKind) (len count rejected : UInt32)

theorem settledTokens : (settledCounts kind len count rejected).tokensProposed = len.toUInt64 ∧
    (settledCounts kind len count rejected).tokensAccepted = count.toUInt64 ∧
    (settledCounts kind len count rejected).tokensRejected = rejected.toUInt64 := by
  unfold settledCounts settlementStats settlementCounts
  split <;> exact ⟨zero_add _,zero_add _,zero_add _⟩

theorem settledRound : (settledCounts kind len count rejected).speculativeCyclesStarted = 1 ∧
    (settledCounts kind len count rejected).proposalsProduced = 1 ∧
    (settledCounts kind len count rejected).verificationsRun = 1 ∧
    (settledCounts kind len count rejected).retryCount = 0 ∧
    (settledCounts kind len count rejected).cancelCount = 0 := by
  unfold settledCounts settlementStats settlementCounts
  split <;> exact ⟨rfl,rfl,rfl,rfl,rfl⟩

theorem settledBalances (settled : SettledKind kind) :
    Balances (settledCounts kind len count (len - count)) (tokensMark (settledCounts kind len count (len - count))) := by
  obtain ⟨proposed,accepted,dropped⟩ := settledTokens kind len count (len - count)
  have unrolled : marksOf .rolledBack (tokensMark (settledCounts kind len count (len - count))) = 0 := by
    unfold tokensMark
    split <;> decide
  constructor
  · rw [accepted,dropped,proposed,splitWord]
    unfold tokensMark
    rw [proposed,accepted]
  · cases settled <;> rfl
  · cases settled <;> rfl
  · cases settled <;> rfl
  · rw [unrolled]
    cases settled <;> rfl

end settled

theorem quietBalances {counts : Stats} (quiet : counts.tokensProposed = 0 ∧ counts.tokensAccepted = 0 ∧
    counts.tokensRejected = 0 ∧ counts.fullAcceptCount = 0 ∧ counts.partialAcceptCount = 0 ∧
    counts.fullRejectCount = 0 ∧ counts.speculativeCyclesStarted = 0 ∧ counts.proposalsProduced = 0 ∧
    counts.verificationsRun = 0 ∧ counts.rollbackCount = 0) : Balances counts [] := by
  obtain ⟨proposed,accepted,rejected,full,part,none,started,produced,verified,rolled⟩ := quiet
  constructor
  · rw [accepted,rejected,proposed]
    rfl
  · rw [full,part,none,started]
    rfl
  · rw [started,produced]
  · rw [produced,verified]
  · rw [rolled,part,none]
    rfl

theorem keptAccounts {rs rs' : RequestState} {counts : Stats}
    (same : rs'.committed = rs.committed ∧ rs'.req = rs.req ∧ rs'.proposals = rs.proposals ∧
      rs'.retryCount = rs.retryCount ∧ rs'.cancelled = rs.cancelled)
    (quiet : counts.tokensAccepted = 0 ∧ counts.verificationsRun = 0 ∧ counts.retryCount = 0 ∧
      counts.cancelCount = 0) {marks : List Mark} (unwrapped : marksOf .retriesWrapped marks = 0) :
    Accounts (some rs) (some rs') counts marks := by
  obtain ⟨committed,req,proposals,retryCount,cancelled⟩ := same
  obtain ⟨accepted,verified,retried,withdrawn⟩ := quiet
  constructor
  · simp only [share,gained,committed,req,accepted,add_zero]
  · simp only [share,recordedProposals,proposals,verified,add_zero]
  · simp only [share,retries,retryCount,retried,unwrapped,mul_zero,add_zero]
  · simp only [share,cancellation,cancelled,withdrawn,add_zero]

theorem retriesMarkSame {rs rs' : RequestState} (same : rs'.retryCount = rs.retryCount) :
    retriesMark (some rs) (some rs') = [] := by
  simp only [retriesMark,same]
  exact if_neg (UInt32.lt_irrefl _)

def Accounted (s : System) (a : Action) (old : Option RequestState) (w : Write) : Prop :=
  Balances w.counts (rollbackMark s a ++ retriesMark old w.record ++ tokensMark w.counts) ∧
  Accounts old (w.record.or old) w.counts (rollbackMark s a ++ retriesMark old w.record ++ tokensMark w.counts)

theorem accountedBy {s : System} {a : Action} {old : Option RequestState} {w : Write} {marks : List Mark}
    (same : rollbackMark s a ++ retriesMark old w.record ++ tokensMark w.counts = marks)
    (balanced : Balances w.counts marks) (accounts : Accounts old (w.record.or old) w.counts marks) :
    Accounted s a old w := by
  subst same
  exact ⟨balanced,accounts⟩

theorem unrolledMark {s : System} {a : Action} {id : RequestId} (named : s.target a = some id)
    (failed : ∀ now why, a = .rollback now id why → s.fabric.find id = none) : rollbackMark s a = [] := by
  cases a with
  | rollback now target why =>
      cases Option.some.inj named
      have missing := failed now why rfl
      simp [rollbackMark,Fabric.rollback,missing,Result.err,Except.isOk,Except.toBool]
  | _ => rfl

section decisions
variable {s : System} {a : Action} {id : RequestId} {old : Option RequestState}

theorem idleAccounted (note : Option Note) (unrolled : rollbackMark s a = []) : Accounted s a old { note := note } := by
  have marks : rollbackMark s a ++ retriesMark old none ++ tokensMark {} = [] := by
    rw [unrolled]
    cases old <;> rfl
  refine accountedBy marks (quietBalances ⟨rfl,rfl,rfl,rfl,rfl,rfl,rfl,rfl,rfl,rfl⟩) ?_
  constructor <;> simp [marksOf]

theorem rewrittenAccounted {rs rs' : RequestState} (note : Option Note) (bypasses : UInt64)
    (unrolled : rollbackMark s a = []) (same : rs'.committed = rs.committed ∧ rs'.req = rs.req ∧
      rs'.proposals = rs.proposals ∧ rs'.retryCount = rs.retryCount ∧ rs'.cancelled = rs.cancelled) :
    Accounted s a (some rs) { record := some rs', counts := { speculationBypasses := bypasses }, note := note } := by
  have marks : rollbackMark s a ++ retriesMark (some rs) (some rs') ++ tokensMark { speculationBypasses := bypasses } =
      [] := by
    rw [unrolled,retriesMarkSame same.2.2.2.1]
    rfl
  exact accountedBy marks (quietBalances ⟨rfl,rfl,rfl,rfl,rfl,rfl,rfl,rfl,rfl,rfl⟩)
    (keptAccounts same ⟨rfl,rfl,rfl,rfl⟩ rfl)

theorem staleAccounted (note : Option Note) (unrolled : rollbackMark s a = []) :
    Accounted s a old { counts := { proposalsRejectedStale := 1 }, note := note } := by
  have marks : rollbackMark s a ++ retriesMark old none ++ tokensMark { proposalsRejectedStale := 1 } = [] := by
    rw [unrolled]
    cases old <;> rfl
  refine accountedBy marks (quietBalances ⟨rfl,rfl,rfl,rfl,rfl,rfl,rfl,rfl,rfl,rfl⟩) ?_
  constructor <;> simp [marksOf]

theorem admittedAccounted (epoch : CoordinatorEpoch) (req : SpeculationRequest) (note : Option Note)
    (unrolled : rollbackMark s a = []) :
    Accounted s a none {
      record := some (RequestState.admitted {} epoch req)
      counts := { requestsEligibleForSpeculation := 1 }
      note := note } := by
  have marks : rollbackMark s a ++ retriesMark none (some (RequestState.admitted {} epoch req)) ++
      tokensMark { requestsEligibleForSpeculation := 1 } = [] := by
    rw [unrolled]
    rfl
  refine accountedBy marks (quietBalances ⟨rfl,rfl,rfl,rfl,rfl,rfl,rfl,rfl,rfl,rfl⟩) ?_
  constructor
  · show UInt64.ofNat req.prefixTokens.length - UInt64.ofNat req.prefixTokens.length = 0
    exact UInt64.sub_self _
  · rfl
  · rfl
  · rfl

theorem withdrawnAccounted {rs : RequestState} (note : Option Note) (unrolled : rollbackMark s a = [])
    (live : rs.cancelled = false) :
    Accounted s a (some rs) { record := some rs.withdrawn, counts := { cancelCount := 1 }, note := note } := by
  have marks : rollbackMark s a ++ retriesMark (some rs) (some rs.withdrawn) ++ tokensMark { cancelCount := 1 } = [] := by
    rw [unrolled,retriesMarkSame (by rfl)]
    rfl
  refine accountedBy marks (quietBalances ⟨rfl,rfl,rfl,rfl,rfl,rfl,rfl,rfl,rfl,rfl⟩) ?_
  constructor
  · exact (add_zero (gained rs)).symm
  · exact (add_zero (recordedProposals rs)).symm
  · rfl
  · show (1 : UInt64) = (if rs.cancelled then 1 else 0) + 1
    rw [live]
    rfl

theorem rolledBackAccounted {rs : RequestState} (note : Option Note) (rolled : rollbackMark s a = [.rolledBack]) :
    Accounted s a (some rs) { record := some rs.rolledBack, counts := { rollbackCount := 1 }, note := note } := by
  have marks : rollbackMark s a ++ retriesMark (some rs) (some rs.rolledBack) ++ tokensMark { rollbackCount := 1 } =
      [.rolledBack] := by
    rw [rolled,retriesMarkSame (by rfl)]
    rfl
  have accounts : Accounts (some rs) (some rs.rolledBack) { rollbackCount := 1 } [.rolledBack] := by
    refine keptAccounts ?_ ?_ rfl
    · exact ⟨rfl,rfl,rfl,rfl,rfl⟩
    · exact ⟨rfl,rfl,rfl,rfl⟩
  exact accountedBy marks ⟨rfl,rfl,rfl,rfl,rfl⟩ accounts

theorem retriedAccounted {rs : RequestState} (note : Option Note) (unrolled : rollbackMark s a = []) :
    Accounted s a (some rs) { record := some rs.retried, counts := { retryCount := 1 }, note := note } := by
  have marks : rollbackMark s a ++ retriesMark (some rs) (some rs.retried) ++ tokensMark { retryCount := 1 } =
      if rs.retryCount + 1 < rs.retryCount then [.retriesWrapped] else [] := by
    rw [unrolled]
    exact List.append_nil _
  refine accountedBy marks ?_ ?_
  · split <;> exact ⟨rfl,rfl,rfl,rfl,rfl⟩
  · constructor
    · exact (add_zero (gained rs)).symm
    · exact (add_zero (recordedProposals rs)).symm
    · exact nextWord rs.retryCount
    · exact (add_zero (cancellation rs)).symm

theorem settledAccounted {rs rs' : RequestState} {proposed keep candidate prop} {count : UInt32}
    {kind : CycleOutcomeKind} (ratio : Option Float) (note : Option Note) (unrolled : rollbackMark s a = [])
    (settled : SettledKind kind) (advanced : Advanced rs proposed keep candidate prop count rs') :
    Accounted s a (some rs) {
      record := some rs'
      counts := settledCounts kind (UInt32.ofNat candidate.size) count (UInt32.ofNat candidate.size - count)
      ratio := ratio
      note := note } := by
  generalize UInt32.ofNat candidate.size = len
  have marks : rollbackMark s a ++ retriesMark (some rs) (some rs') ++
      tokensMark (settledCounts kind len count (len - count)) =
        tokensMark (settledCounts kind len count (len - count)) := by
    rw [unrolled,retriesMarkSame advanced.retryCount]
    rfl
  obtain ⟨_,accepted,_⟩ := settledTokens kind len count (len - count)
  obtain ⟨_,_,verified,retried,withdrawn⟩ := settledRound kind len count (len - count)
  have unwrapped : marksOf .retriesWrapped (tokensMark (settledCounts kind len count (len - count))) = 0 := by
    unfold tokensMark
    split <;> decide
  have appended : (candidate.tokens.take count.toNat).length = count.toNat := by
    rw [List.length_take]
    exact Nat.min_eq_left advanced.inside
  refine accountedBy marks (settledBalances kind len count settled) ?_
  constructor
  · show gained rs' = gained rs + (settledCounts kind len count (len - count)).tokensAccepted
    unfold gained
    rw [accepted,advanced.committed,advanced.req,List.length_append,List.length_map,appended,UInt64.ofNat_add,wordOf]
    abel
  · show recordedProposals rs' = recordedProposals rs + (settledCounts kind len count (len - count)).verificationsRun
    unfold recordedProposals
    rw [verified,advanced.proposals,List.length_append,UInt64.ofNat_add]
    rfl
  · rw [unwrapped,retried]
    show rs'.retryCount.toUInt64 + wordTurn * 0 = rs.retryCount.toUInt64 + 0
    rw [advanced.retryCount,mul_zero]
  · rw [withdrawn]
    show cancellation rs' = cancellation rs + 0
    unfold cancellation
    rw [advanced.flags.1,add_zero]

theorem decidedAccounted {w : Write} (named : s.target a = some id)
    (nonnull : ∀ rs, s.fabric.find id = some rs → rs.req.id.isNull = false) (decided : Decided s id a w) :
    Accounted s a (s.fabric.find id) w := by
  cases decided with
  | nothing _ failed => exact idleAccounted none (unrolledMark named failed)
  | noted _ note other =>
      refine idleAccounted (some note) (unrolledMark named ?_)
      intro now why same
      exact absurd same (other now why)
  | admitted note same null =>
      cases found : s.fabric.find id with
      | none => exact admittedAccounted _ _ note rfl
      | some rs =>
          -- a record that is there has an id that is not null
          rw [found,Option.getD_some,nonnull rs found] at null
          contradiction
  | withdrawn note found live =>
      rw [found]
      exact withdrawnAccounted note rfl live.2
  | finished note found =>
      rw [found]
      exact rewrittenAccounted note 0 rfl ⟨rfl,rfl,rfl,rfl,rfl⟩
  | @rolledBack now why rs note found =>
      have rolled : rollbackMark s (.rollback now id why) = [.rolledBack] := by
        simp only [rollbackMark,Fabric.rollback,found]
        rfl
      rw [found]
      exact rolledBackAccounted note rolled
  | retried note found live =>
      rw [found]
      exact retriedAccounted note rfl
  | planned machine bypasses note found live =>
      rw [found]
      exact rewrittenAccounted note bypasses rfl ⟨rfl,rfl,rfl,rfl,rfl⟩
  | stale note call same found closed => exact staleAccounted note rfl
  | settled ratio note machine call same found live winner acceptance produced branch =>
      obtain ⟨prop,outcome,ok⟩ := branch
      obtain ⟨advanced,_,kind,_⟩ := settleBranchAdvanced ok
      rw [found]
      exact settledAccounted ratio note rfl kind advanced.concluded

end decisions

structure Conserved (f : Fabric) (marks : List Mark) : Prop where
  balances : Balances f.stats marks
  accepted : f.stats.tokensAccepted = total gained f.requests
  proposals : f.stats.verificationsRun = total recordedProposals f.requests
  retries : f.stats.retryCount = total retries f.requests + wordTurn * marksOf .retriesWrapped marks
  cancels : f.stats.cancelCount = total cancellation f.requests

theorem accountedTotal {g : RequestState → UInt64} (deaf : ∀ rs events, g { rs with events := events } = g rs)
    {f : Fabric} {now : UInt64} {id : RequestId} {w : Write} {added : UInt64}
    (moved : share g (w.record.or (f.find id)) = share g (f.find id) + added) :
    total g (f.write now id w).requests = total g f.requests + added := by
  have written := writeTotal g f now id deaf w
  rw [moved,add_comm (share g _) added,← add_assoc] at written
  exact add_right_cancel written

theorem conservedWrite {s : System} {a : Action} {id : RequestId} {marks : List Mark} (conserved : Conserved s.fabric marks)
    (named : s.target a = some id) (accounted : Accounted s a (s.fabric.find id) (s.writes a).2) :
    Conserved (s.fabric.write (s.writes a).1 id (s.writes a).2) (marks ++ s.marks a) := by
  have noted : s.marks a = rollbackMark s a ++ retriesMark (s.fabric.find id) (s.writes a).2.record ++
      tokensMark (s.writes a).2.counts := by
    simp only [System.marks,named]
  obtain ⟨balanced,accounts⟩ := accounted
  rw [← noted] at balanced accounts
  have stats := writeStats s.fabric (s.writes a).1 id (s.writes a).2
  constructor
  · rw [stats]
    exact balancesAdd conserved.balances balanced
  · rw [stats,accountedTotal (fun _ _ => rfl) accounts.gained,← conserved.accepted]
    rfl
  · rw [stats,accountedTotal (fun _ _ => rfl) accounts.proposals,← conserved.proposals]
    rfl
  · -- the wrapped turn is on the other side of the account
    have moved : share retries ((s.writes a).2.record.or (s.fabric.find id)) = share retries (s.fabric.find id) +
        ((s.writes a).2.counts.retryCount - wordTurn * marksOf .retriesWrapped (s.marks a)) := by
      rw [← add_sub_assoc,← accounts.retries,add_sub_cancel_right]
    rw [stats,accountedTotal (fun _ _ => rfl) moved,marksAppend,mul_add]
    show s.fabric.stats.retryCount + (s.writes a).2.counts.retryCount = _
    rw [conserved.retries]
    abel
  · rw [stats,accountedTotal (fun _ _ => rfl) accounts.cancels,← conserved.cancels]
    rfl

def NonNull : Action → Prop
  | .submit _ req => req.id.isNull = false
  | _ => True

structure Booked (marks : List Mark) (s : System) : Prop where
  registry : Registry s
  nonnull : ∀ id rs, s.fabric.find id = some rs → rs.req.id.isNull = false
  conserved : Conserved s.fabric marks

theorem nonnullStep {s s' : System} {a : Action} (registry : Registry s) (allowed : NonNull a)
    (nonnull : ∀ id rs, s.fabric.find id = some rs → rs.req.id.isNull = false) (taken : s.step a = some s') :
    ∀ id rs, s'.fabric.find id = some rs → rs.req.id.isNull = false := by
  refine recordsKept registry taken ?_ ?_
  · rintro now req events rfl
    exact allowed
  · intro id rs rs' found _ effect
    have before := registry.named id rs found
    rw [effectNamed effect before,← before]
    exact nonnull id rs found

theorem bookedStep {marks : List Mark} {s s' : System} {a : Action} (booked : Booked marks s) (allowed : NonNull a)
    (taken : s.step a = some s') : Booked (marks ++ s.marks a) s' := by
  refine ⟨registryStep taken booked.registry,nonnullStep booked.registry allowed booked.nonnull taken,?_⟩
  rcases stepWrite booked.registry taken with ⟨rfl,rolled⟩ | ⟨id,named,written⟩
  · have nothing : marks ++ s.marks .rollEpoch = marks := List.append_nil marks
    rw [rolled,nothing]
    exact ⟨booked.conserved.balances,booked.conserved.accepted,booked.conserved.proposals,booked.conserved.retries,
      booked.conserved.cancels⟩
  · rw [written]
    exact conservedWrite booked.conserved named
      (decidedAccounted named (booked.nonnull id) (writesDecided named))

theorem bookedStart (cfg : Config) : Booked [] (.start cfg) := by
  refine ⟨registryStart cfg,?_,⟨⟨rfl,rfl,rfl,rfl,rfl⟩,rfl,rfl,rfl,rfl⟩⟩
  intro id rs found
  exact absurd found (startRecordless _ _ _)

theorem statisticsConserved {x : Executors} {cfg : Config} {actions : List Action} {s : System}
    (run : Runs.Trace System.step (fun s a => x.admits s a ∧ NonNull a) (.start cfg) actions s) :
    Conserved s.fabric (marked (.start cfg) actions) := by
  have booked : Booked (marked (.start cfg) actions) s :=
    Runs.loggedInvariant run (bookedStart cfg) (fun _ _ _ _ before allowed taken => bookedStep before allowed.2 taken)
  exact booked.conserved

theorem withinSettledConserved : withinSettled.fabric.stats.tokensAccepted = 2 ∧
    Conserved withinSettled.fabric (marked (.start {}) (claiming [5,6] 2 ++ [.call 0 (.settle 3)])) := by
  have run : Run (.functions (drafts [5,6]) (accepts 2)) (.start {}) (claiming [5,6] 2) withinClaim :=
    runOfRun (by decide +kernel)
  have settles : withinClaim.step (.call 0 (.settle 3)) = some withinSettled := (Option.some_get _).symm
  have nonnull : ∀ a ∈ claiming [5,6] 2 ++ [.call 0 (.settle 3)], System → NonNull a := by
    intro a member _
    simp only [claiming,oneBranchAnswers,List.cons_append,List.nil_append,List.mem_cons,List.not_mem_nil,or_false] at member
    rcases member with rfl | rfl | rfl | rfl | rfl | rfl | rfl <;> trivial
  refine ⟨by decide +kernel,?_⟩
  exact statisticsConserved (Runs.strengthen (run.snoc trivial settles) nonnull)

def tireless : SpeculationRequest := { makeReq ⟨100⟩ [] with maxAttempts := 0 }

def tirelessRetries (n : Nat) : List Action := [.submit 1 tireless] ++ List.replicate n (.retry 2 ⟨100⟩)

theorem tirelessRun (x : Executors) (n : Nat) : ∃ s rs,
    Runs.Trace System.step (fun s a => x.admits s a ∧ NonNull a) (.start {}) (tirelessRetries n) s ∧
    s.fabric.find ⟨100⟩ = some rs ∧ (rs.req.maxAttempts = 0 ∧ rs.terminal = false ∧ rs.cancelled = false) ∧
    rs.retryCount = UInt32.ofNat n ∧ s.fabric.stats.retryCount = UInt64.ofNat n ∧
    total retries s.fabric.requests = rs.retryCount.toUInt64 := by
  induction n with
  | zero => exact ⟨_,_,.snoc .nil ⟨trivial,rfl⟩ rfl,rfl,⟨rfl,rfl,rfl⟩,rfl,rfl,rfl⟩
  | succ n ih =>
      obtain ⟨s,rs,run,found,⟨unlimited,unfinished,uncancelled⟩,counter,counted,summed⟩ := ih
      have more : tirelessRetries (n + 1) = tirelessRetries n ++ [.retry 2 ⟨100⟩] := by
        simp only [tirelessRetries,List.replicate_succ',List.append_assoc]
      have decided : (retryDecision (s.fabric.find ⟨100⟩)).2 = {
          record := some rs.retried
          counts := { retryCount := 1 }
          note := some { type := "request.retry", detail := "new attempt " ++ rs.retried.attempt.str } } := by
        simp [retryDecision,found,unlimited,unfinished,uncancelled]
      have written := congrArg Prod.snd (retrySection s.fabric 2 ⟨100⟩)
      rw [decided] at written
      obtain ⟨events,heard⟩ := heardSame rs.retried
        (some (s.fabric.event 2 ⟨100⟩ { type := "request.retry", detail := "new attempt " ++ rs.retried.attempt.str }))
      rw [more]
      refine ⟨_,{ rs.retried with events := events },run.snoc ⟨trivial,trivial⟩ rfl,?_,⟨unlimited,unfinished,uncancelled⟩,
        ?_,?_,?_⟩
      · show Fabric.find (s.fabric.retry 2 ⟨100⟩).2 ⟨100⟩ = _
        rw [written,writeSelf,← heard]
        rfl
      · show rs.retryCount + 1 = _
        rw [counter,UInt32.ofNat_add]
        rfl
      · show (s.fabric.retry 2 ⟨100⟩).2.stats.retryCount = _
        rw [written,writeStats,UInt64.ofNat_add,← counted]
        rfl
      · show total retries (s.fabric.retry 2 ⟨100⟩).2.requests = (rs.retryCount + 1).toUInt64
        have moved := writeTotal retries s.fabric 2 ⟨100⟩ (fun _ _ => rfl) (retryDecision (s.fabric.find ⟨100⟩)).2
        rw [decided,found,summed,add_comm] at moved
        rw [written]
        exact add_left_cancel moved

section oneBranch
variable {x : Executors} {s : System} {index : Nat} {c : Cycle} {rs : RequestState} {pr : ProposalResult}
  {candidate : CandidateSequence} {accept : AcceptanceResult}

theorem judgedStats {br : BranchResult} (at_ : s.calls[index]? = some (.settling c)) (drafted : c.proposed = [br])
    (judged : c.accepted = [accept]) (found : s.fabric.find c.request = some rs)
    (live : rs.terminal = false ∧ rs.cancelled = false) (produced : br.pr.candidate = some candidate)
    (inside : accept.acceptedPrefix.toNat ≤ candidate.size) :
    ∃ s' kind, s.step (.call index (.settle 0)) = some s' ∧ s'.fabric.stats = s.fabric.stats +
      settledCounts kind (UInt32.ofNat candidate.size) accept.acceptedPrefix
        (UInt32.ofNat candidate.size - accept.acceptedPrefix) := by
  have first : selectWinner c.accepted c.proposed = 0 := by
    rw [judged]
    rfl
  have winner : c.proposed[selectWinner c.accepted c.proposed]? = some br := by
    rw [first,drafted]
    rfl
  have acceptance : c.accepted[selectWinner c.accepted c.proposed]? = some accept := by
    rw [first,judged]
    rfl
  obtain ⟨taken,_⟩ := callTaken at_ (show (Call.settling c).step s.fabric (.settle 0) =
    some ((c.settlementSection s.fabric 0).1,(c.settlementSection s.fabric 0).2) from rfl)
  rcases settlingStep at_ taken with ⟨answer,w,decided,written,_⟩ | ⟨undecided,_,_⟩
  · rw [found] at decided
    obtain ⟨o,_,_,_,_,_,_,_,counts⟩ := liveDecision winner acceptance produced live decided
    refine ⟨_,o.outcome,taken,?_⟩
    rw [written,writeStats,counts]
  · obtain ⟨answer,f',settled⟩ := settleAnswers winner acceptance produced inside s.fabric 0
    rw [settleSection,undecided] at settled
    contradiction

theorem oneBranchStats {pin : ProposalInput} (at_ : s.calls[index]? = some (.proposalSent c pin))
    (undrafted : c.proposed = []) (unjudged : c.accepted = []) (single : c.planned.branchCount = 1)
    (found : s.fabric.find c.request = some rs) (live : rs.terminal = false ∧ rs.cancelled = false)
    (produced : pr.candidate = some candidate) (inside : accept.acceptedPrefix.toNat ≤ candidate.size)
    (drafts : x.propose pin (.ok pr)) (judges : ∀ vin, vin.candidate = candidate → x.verify vin (.ok accept)) :
    ∃ s' kind, Runs.Trace System.step (fun s a => x.admits s a ∧ NonNull a) s
      [.call index (.proposalResult (.ok pr)),.call index .verificationInput,
        .call index (.verificationResult (.ok accept)),.call index (.settle 0)] s' ∧
      s'.fabric.stats = s.fabric.stats + settledCounts kind (UInt32.ofNat candidate.size) accept.acceptedPrefix
        (UInt32.ofNat candidate.size - accept.acceptedPrefix) := by
  let br : BranchResult := ⟨pr,branchIdAt 0,pin.provenance.proposerModel⟩
  let drafted : Cycle := { c with pins := c.pins ++ [pin], proposed := [br] }
  let vin := verificationInput rs c.request c.planned br candidate
  let judged : Cycle := { drafted with vins := c.vins ++ [vin], accepted := [accept] }
  have proposes : (Call.proposalSent c pin).step s.fabric (.proposalResult (.ok pr)) =
      some (.verifying drafted,s.fabric) := by
    simp only [Call.step,Cycle.proposalReturned,undrafted,single,List.nil_append,List.length_nil,List.length_singleton]
    rfl
  obtain ⟨first,at1⟩ := callTaken at_ proposes
  have asks : (Call.verifying drafted).step s.fabric .verificationInput =
      some (.verificationSent drafted vin,s.fabric) := by
    have entry : s.fabric.entry c.request = (rs,s.fabric) := entryFound found
    have here : drafted.proposed[drafted.accepted.length]? = some br := by
      show [br][c.accepted.length]? = some br
      rw [unjudged]
      rfl
    have drafting : br.pr.candidate = some candidate := produced
    have asked : drafted.request = c.request := rfl
    simp only [Call.step,Cycle.verificationSection,here,bind,Option.bind_some,asked,entry,drafting]
    rfl
  obtain ⟨second,at2⟩ := callTaken (s := ⟨s.fabric,_⟩) at1 asks
  have judges' : (Call.verificationSent drafted vin).step s.fabric (.verificationResult (.ok accept)) =
      some (.settling judged,s.fabric) := by
    show some (Cycle.verificationReturned { drafted with accepted := c.accepted } vin (.ok accept),s.fabric) = _
    simp only [Cycle.verificationReturned,unjudged,List.nil_append,List.length_singleton]
    rfl
  obtain ⟨third,at3⟩ := callTaken (s := ⟨s.fabric,_⟩) at2 judges'
  obtain ⟨s',kind,fourth,counted⟩ := judgedStats (s := ⟨s.fabric,_⟩) at3 rfl rfl found live produced inside
  refine ⟨s',kind,?_,counted⟩
  refine Runs.cons ⟨?_,trivial⟩ first (Runs.cons ⟨trivial,trivial⟩ second (Runs.cons ⟨?_,trivial⟩ third
    (.snoc .nil ⟨trivial,trivial⟩ fourth)))
  · intro c' pin' sent
    cases Option.some.inj (at_.symm.trans sent)
    exact drafts
  · intro c' vin' sent
    cases Option.some.inj (at2.symm.trans sent)
    exact judges _ rfl

end oneBranch

def careful : Executors :=
  ⟨fun _ answer => ∃ pr candidate, answer = .ok pr ∧ pr.candidate = some candidate,
    fun vin answer => ∃ accept, answer = .ok accept ∧ accept.acceptedPrefix.toNat ≤ vin.candidate.size⟩

def vast : CandidateSequence := ⟨List.replicate (2 ^ 32) {}⟩

theorem vastSize : vast.size = 2 ^ 32 := List.length_replicate

def begunActions : List Action := [.submit 1 (makeReq ⟨100⟩ []),.runCycle 2 2 ⟨100⟩,.call 0 .proposalInput]

def begunSubmitted : System := { fabric := ((Fabric.new {}).submit 1 (makeReq ⟨100⟩ [])).2 }

def begunPlanned : System := (begunSubmitted.step (.runCycle 2 2 ⟨100⟩)).get (by decide +kernel)

def begunSystem : System := (begunPlanned.step (.call 0 .proposalInput)).get (by decide +kernel)

def Call.sentProposal : Call → Option (Cycle × ProposalInput)
  | .proposalSent c pin => some (c,pin)
  | _ => none

theorem proposalOut {s : System} {index : Nat} {c : Cycle} {pin : ProposalInput}
    (out : (s.calls[index]?).bind Call.sentProposal = some (c,pin)) : s.calls[index]? = some (.proposalSent c pin) := by
  obtain ⟨call,at_,sent⟩ := Option.bind_eq_some_iff.mp out
  cases call with
  | proposalSent c' pin' =>
      cases Option.some.inj sent
      exact at_
  | _ => contradiction

theorem begunRun : Runs.Trace System.step (fun s a => careful.admits s a ∧ NonNull a) (.start {}) begunActions begunSystem :=
  .snoc (.snoc (.snoc .nil ⟨trivial,rfl⟩ (show _ = some begunSubmitted from rfl)) ⟨trivial,trivial⟩
    (Option.some_get _).symm) ⟨trivial,trivial⟩ (Option.some_get _).symm

/- One token accepted of two to the thirty-second: the length the engine reads is zero. -/
theorem vastCycle : ∃ actions s,
    Runs.Trace System.step (fun s a => careful.admits s a ∧ NonNull a) (.start {}) actions s ∧
    s.fabric.stats.tokensProposed = 0 ∧ s.fabric.stats.tokensAccepted = 1 ∧
    s.fabric.stats.tokensRejected = 4294967295 := by
  have sent : ((begunSystem.calls[0]?).bind Call.sentProposal).map
      (fun out => (out.1.request,out.1.proposed,out.1.accepted,out.1.planned.branchCount)) =
        some (⟨100⟩,[],[],1) := by decide +kernel
  obtain ⟨⟨c,pin⟩,out,fields⟩ := Option.map_eq_some_iff.mp sent
  obtain ⟨request,undrafted,unjudged,single⟩ := by simpa only [Prod.mk.injEq] using fields
  have kept : (begunSystem.fabric.find ⟨100⟩).map (fun rs => (rs.terminal,rs.cancelled)) = some (false,false) := by
    decide +kernel
  obtain ⟨rs,found,flags⟩ := Option.map_eq_some_iff.mp kept
  rw [← request] at found
  have live : rs.terminal = false ∧ rs.cancelled = false := by simpa only [Prod.mk.injEq] using flags
  have before : begunSystem.fabric.stats = { requestsEligibleForSpeculation := 1 } := by decide +kernel
  have inside : (1 : UInt32).toNat ≤ vast.size := by
    rw [vastSize]
    decide
  have drafts : careful.propose pin (.ok { candidate := some vast }) := ⟨_,_,rfl,rfl⟩
  have judges : ∀ vin, vin.candidate = vast → careful.verify vin (.ok { acceptedPrefix := 1 }) := by
    intro vin same
    exact ⟨_,rfl,same ▸ inside⟩
  obtain ⟨s',kind,rest,counted⟩ :=
    oneBranchStats (proposalOut out) undrafted unjudged single found live rfl inside drafts judges
  have length : UInt32.ofNat vast.size = 0 := by
    rw [vastSize]
    decide
  rw [before,length] at counted
  obtain ⟨proposed,accepted,rejected⟩ := settledTokens kind 0 1 (0 - 1)
  refine ⟨_,s',Runs.append begunRun rest,?_,?_,?_⟩
  · rw [counted]
    exact congrArg (0 + ·) proposed
  · rw [counted]
    exact congrArg (0 + ·) accepted
  · rw [counted]
    exact congrArg (0 + ·) rejected

theorem wrappedWordsPart :
    (∃ actions s, Runs.Trace System.step (fun s a => careful.admits s a ∧ NonNull a) (.start {}) actions s ∧
      s.fabric.stats.retryCount ≠ total retries s.fabric.requests) ∧
    ∃ actions s, Runs.Trace System.step (fun s a => careful.admits s a ∧ NonNull a) (.start {}) actions s ∧
      s.fabric.stats.tokensProposed ≠ s.fabric.stats.tokensAccepted + s.fabric.stats.tokensRejected := by
  constructor
  · obtain ⟨s,rs,run,_,_,counter,counted,summed⟩ := tirelessRun careful (2 ^ 32)
    refine ⟨_,s,run,?_⟩
    rw [summed,counter,counted]
    decide
  · obtain ⟨actions,s,run,proposed,accepted,rejected⟩ := vastCycle
    refine ⟨actions,s,run,?_⟩
    rw [proposed,accepted,rejected]
    decide

end SpeculationFabric
