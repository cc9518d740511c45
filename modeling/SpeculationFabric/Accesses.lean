import SpeculationFabric.CoordinatorRuns
import SpeculationFabric.WorkerAccesses

/-! The coordinator's handlers with the element reads they make of fields, candidates
and branch results. In every state a coordinator reaches the candidates it keeps have
the depth of its cycle, so what an arriving message must carry to be handled inside
these lists can be said of the message and the state alone. -/
namespace SpeculationFabric.Dist

open Wire
open Guarding
open Guarding.Guarded

def firstOr {A : Type} (fields : List A) (default : A) : Guarded A :=
  if fields.isEmpty then pure default else element fields 0

def Coordinator.registered (c : Coordinator) (role : UInt32) (boot : UInt64) : Coordinator :=
  if role = kRoleProposer then { c with prevProposerBoot := c.proposerBoot, proposerBoot := boot }
  else if role = kRoleVerifier then { c with verifierBoot := boot }
  else if role = kRoleDriver && !c.driver then { c with driver := true }
  else c

def Coordinator.guardedHello (c : Coordinator) (h : Message) : Guarded Coordinator :=
  if h.type ≠ Msg.hello then pure c
  else do
    let role ← firstOr h.u32Fields 0
    let boot ← firstOr h.u64Fields 0
    pure (c.registered role boot)

def guardedBetter (brs : List Br) (w i : Nat) : Guarded Nat := do
  let challenger ← element brs i
  let best ← element brs w
  pure (if challenger.accepted > best.accepted ∨
    (challenger.accepted = best.accepted ∧ challenger.branch < best.branch) then i else w)

def guardedWinner (brs : List Br) : List Nat → Nat → Guarded Nat
  | [],w => pure w
  | i :: rest,w => do
      let next ← guardedBetter brs w i
      guardedWinner brs rest next

def Coordinator.guardedConclude (c : Coordinator) (d : Drive) : Guarded Coordinator := do
  let w ← guardedWinner d.brs (List.range' 1 (d.brs.length - 1)) 0
  let win ← element d.brs w
  let taken ← elements win.toks 0 win.accepted.toNat
  pure ((c.store d.reqid ((c.request d.reqid).commit taken win.accepted)).finish d
    (.ok win.accepted win.branch win.firstrej))

def Coordinator.guardedAdvance (c : Coordinator) (d : Drive) : Guarded Coordinator :=
  if d.brs.length < d.branches.toNat then pure (c.openBranch d) else c.guardedConclude d

def Coordinator.guardedProposal (c : Coordinator) (d : Drive) (pr : Message) : Guarded Coordinator := do
  let r := c.request d.reqid
  let epoch ← element pr.u64Fields prEpoch
  let boot ← element pr.u64Fields prProposerBoot
  let attempt ← element pr.u64Fields prAttempt
  let basegen ← element pr.u64Fields prBaseGen
  let propgen ← element pr.u64Fields prPropogen
  let rej := validateAuthority r epoch boot attempt basegen propgen c.proposerBoot
  if rej ≠ "" then pure (c.finish d (.failed ("stale:" ++ rej)))
  else do
    let outcome ← element pr.u32Fields prOutcome
    if outcome ≠ kOutcomeSuccess then pure (c.finish d (.failed "proposal non-success"))
    else do
      let toks ← elements pr.u32Fields prTokens d.depth.toNat
      let sent ← elements toks 0 d.depth.toNat
      pure (c.send .toVerifier (verificationDispatch r d sent c.verifierBoot) (.verifying d toks))

def Coordinator.guardedVerdict (c : Coordinator) (d : Drive) (toks : List UInt32) (vr : Message) :
    Guarded Coordinator := do
  let r := c.request d.reqid
  let epoch ← element vr.u64Fields vrEpoch
  let attempt ← element vr.u64Fields vrAttempt
  let basegen ← element vr.u64Fields vrBaseGen
  let rej := validateAuthority r epoch c.verifierBoot attempt basegen r.propGen c.verifierBoot
  if rej ≠ "" then pure (c.finish d (.failed ("stale:" ++ rej)))
  else do
    let accepted ← element vr.u32Fields vrAccepted
    let firstrej ← element vr.u32Fields vrFirstRej
    let outcome ← element vr.u32Fields vrOutcome
    c.guardedAdvance (d.recorded ⟨(d.b + 1).toUInt64,toks,d.depth,accepted,firstrej,outcome⟩)

def Coordinator.guardedDrive (c : Coordinator) (reqid : UInt64) (depth branches aligned : UInt32) :
    Guarded Coordinator :=
  let r := c.request reqid
  (c.store reqid { r with depth := depth, branches := branches, aligned := aligned, epoch := c.epoch }).guardedAdvance
    { reqid := reqid, depth := depth, branches := branches, aligned := aligned }

def Coordinator.guardedSubmit (c : Coordinator) (m : Message) : Guarded Coordinator := do
  let reqid ← element m.u64Fields 0
  let depth ← element m.u32Fields 0
  let branches ← element m.u32Fields 1
  let aligned ← element m.u32Fields 2
  (c.store reqid ((c.request reqid).submitted reqid c.epoch)).guardedDrive reqid depth branches aligned

def Coordinator.guardedReplay (c : Coordinator) (m : Message) : Guarded Coordinator :=
  match c.inOrder with
  | [] => pure (c.send .toDriver { type := Msg.info, body := text "no_request" } .waiting)
  | ⟨_,r⟩ :: _ => do
      let epoch ← element m.u64Fields prEpoch
      let boot ← element m.u64Fields prProposerBoot
      let attempt ← element m.u64Fields prAttempt
      let basegen ← element m.u64Fields prBaseGen
      let propgen ← element m.u64Fields prPropogen
      pure (c.send .toDriver (verdictMessage (validateAuthority r epoch boot attempt basegen propgen c.proposerBoot))
        .waiting)

def Coordinator.guardedHandle (c : Coordinator) (m : Message) : Guarded Coordinator :=
  if m.type = Msg.shutdown then pure { c with phase := .stopped }
  else if m.type = Msg.proposalResult then c.guardedReplay m
  else if m.type = Msg.submitRequest then c.guardedSubmit m
  else if m.type = Msg.info then pure (c.info m.body)
  else pure c

def decodedOr (bytes : List UInt8) (refused : Coordinator) (taken : Message → Guarded Coordinator) :
    Guarded Coordinator :=
  match decode bytes with
  | .error _ => pure refused
  | .ok m => taken m

def Coordinator.guardedProposerReply (c : Coordinator) (d : Drive) : Reply → Guarded Coordinator
  | .frame bytes => decodedOr bytes (c.finish d (.failed "proposer decode failed")) (c.guardedProposal d)
  | .sendFailed => pure (c.proposerReply d .sendFailed)
  | .recvFailed => pure (c.proposerReply d .recvFailed)

def Coordinator.guardedVerifierReply (c : Coordinator) (d : Drive) (toks : List UInt32) : Reply → Guarded Coordinator
  | .frame bytes => decodedOr bytes (c.finish d (.failed "verifier decode failed")) (c.guardedVerdict d toks)
  | .sendFailed => pure (c.verifierReply d toks .sendFailed)
  | .recvFailed => pure (c.verifierReply d toks .recvFailed)

def Coordinator.guardedStep (c : Coordinator) : Event → Guarded Coordinator
  | .connection none => pure c
  | .connection (some bytes) => decodedOr bytes c c.guardedHello
  | .driverFrame none => pure { c with driver := false }
  | .driverFrame (some bytes) => decodedOr bytes c c.guardedHandle
  | .reply r =>
      match c.phase with
      | .proposing d => c.guardedProposerReply d r
      | .verifying d toks => c.guardedVerifierReply d toks r
      | _ => pure c

/- The model's state is the one computed, or without a defined continuation when a read
left its list. -/
def Follows (x : Guarded Coordinator) (t : Coordinator) : Prop :=
  x.value = some t ∨ x.value = none ∧ t.phase = .undefined

theorem Follows.ofOption {x : Guarded Coordinator} {read : Option Coordinator} (same : x.value = read) (c : Coordinator) :
    Follows x (read.getD c.undefine) := by
  cases reached : read with
  | none => exact .inr ⟨same.trans reached,rfl⟩
  | some t => exact .inl (same.trans reached)

theorem Follows.ofRead {A : Type} {xs : List A} {i : Nat} {f : A → Guarded Coordinator} {g : A → Option Coordinator}
    {c : Coordinator} (later : ∀ a, xs[i]? = some a → Follows (f a) ((g a).getD c.undefine)) :
    Follows (element xs i >>= f) ((xs[i]? >>= g).getD c.undefine) := by
  cases found : xs[i]? with
  | none => exact .inr ⟨by rw [valueBind,valueElement,found,Option.bind_none],rfl⟩
  | some a =>
      have reached : (element xs i).value = some a := found
      rw [Follows,valueAfter reached]
      exact later a found

theorem firstOrValue {A : Type} (fields : List A) (default : A) :
    (firstOr fields default).value = some ((fields[0]?).getD default) := by
  cases fields with
  | nil => rfl
  | cons a rest => rfl

theorem helloReads (c : Coordinator) (bytes : List UInt8) :
    (decodedOr bytes c c.guardedHello).value = some (c.accepted (some bytes)) := by
  rw [decodedOr,Coordinator.accepted]
  cases decode bytes with
  | error e => rfl
  | ok h =>
      simp only [Coordinator.guardedHello]
      by_cases other : h.type ≠ Msg.hello
      · rw [if_pos other,if_pos other]
        rfl
      · rw [if_neg other,if_neg other,valueAfter (firstOrValue _ _),valueAfter (firstOrValue _ _)]
        rfl

theorem winnerReads {brs : List Br} {indices : List Nat} {w : Nat} (inside : w < brs.length)
    (all : ∀ i ∈ indices, i < brs.length) :
    (guardedWinner brs indices w).value = some (indices.foldl (betterBr brs) w) := by
  induction indices generalizing w with
  | nil => rfl
  | cons i rest ih =>
      have better : (guardedBetter brs w i).value = some (betterBr brs w i) := by
        have here := List.getElem?_eq_getElem (all i List.mem_cons_self)
        have best := List.getElem?_eq_getElem inside
        simp only [guardedBetter,betterBr,valueBind,valueElement,valuePure,here,best,Option.bind_some]
      rw [guardedWinner,valueAfter better,List.foldl_cons]
      exact ih (betterInside inside) fun j member => all j (List.mem_cons_of_mem _ member)

theorem winningReads (brs : List Br) :
    (guardedWinner brs (List.range' 1 (brs.length - 1)) 0).value = some (winningBr brs) := by
  cases brs with
  | nil => rfl
  | cons br rest =>
      apply winnerReads (by simp)
      intro i member
      simp only [List.mem_range'_1] at member
      omega

theorem concludeReads (c : Coordinator) (d : Drive) : Follows (c.guardedConclude d) (c.conclude d) := by
  rw [Coordinator.guardedConclude,Coordinator.conclude,Follows,valueAfter (winningReads d.brs)]
  cases won : d.brs[winningBr d.brs]? with
  | none => exact .inr ⟨by rw [valueBind,valueElement,won,Option.bind_none],rfl⟩
  | some win =>
      have reached : (element d.brs (winningBr d.brs)).value = some win := won
      rw [valueAfter reached,valueBind,valueElements,Nat.zero_add,List.drop_zero]
      dsimp only
      by_cases inside : win.accepted.toNat ≤ win.toks.length
      · left
        rw [if_pos (.inr inside),if_pos inside,Option.bind_some,valuePure,CReq.commit,List.take_take,Nat.min_self]
        rfl
      · right
        rw [if_neg (by omega),if_neg inside]
        exact ⟨rfl,rfl⟩

theorem advanceReads (c : Coordinator) (d : Drive) : Follows (c.guardedAdvance d) (c.advance d) := by
  rw [Coordinator.guardedAdvance,Coordinator.advance]
  split
  · exact .inl rfl
  · exact concludeReads c d

theorem tokensReread {fields : List UInt32} {start count : Nat} {toks : List UInt32}
    (reads : readFields fields start count = some toks) : (elements toks 0 count).value = some toks := by
  have length := readFieldsLength reads
  rw [valueElements,if_pos (.inr (by omega)),List.drop_zero,List.take_of_length_le (by omega)]

theorem proposalReads (c : Coordinator) (d : Drive) (pr : Message) :
    (c.guardedProposal d pr).value = c.readProposal d pr := by
  rw [Coordinator.guardedProposal,Coordinator.readProposal]
  refine Option.bind_congr fun epoch _ => Option.bind_congr fun boot _ => Option.bind_congr fun attempt _ =>
    Option.bind_congr fun basegen _ => Option.bind_congr fun propgen _ => ?_
  dsimp only
  split
  · rfl
  refine Option.bind_congr fun outcome _ => ?_
  dsimp only
  split
  · rfl
  rw [valueBind,valueElements]
  refine Option.bind_congr fun toks reads => ?_
  rw [valueAfter (tokensReread reads)]
  rfl

theorem verdictReads (c : Coordinator) (d : Drive) (toks : List UInt32) (vr : Message) :
    Follows (c.guardedVerdict d toks vr) ((c.readVerdict d toks vr).getD c.undefine) := by
  rw [Coordinator.guardedVerdict,Coordinator.readVerdict]
  refine Follows.ofRead fun epoch _ => Follows.ofRead fun attempt _ => Follows.ofRead fun basegen _ => ?_
  dsimp only
  split
  · exact .inl rfl
  exact Follows.ofRead fun accepted _ => Follows.ofRead fun firstrej _ => Follows.ofRead fun outcome _ =>
    advanceReads c _

theorem replayReads (c : Coordinator) (m : Message) : (c.guardedReplay m).value = c.replayed m := by
  rw [Coordinator.guardedReplay,Coordinator.replayed]
  cases c.inOrder with
  | nil => rfl
  | cons entry rest => rfl

theorem submitReads (c : Coordinator) (m : Message) : Follows (c.guardedSubmit m) ((c.submit m).getD c.undefine) := by
  rw [Coordinator.guardedSubmit,Coordinator.submit]
  exact Follows.ofRead fun reqid _ => Follows.ofRead fun depth _ => Follows.ofRead fun branches _ =>
    Follows.ofRead fun aligned _ => advanceReads _ _

theorem handleReads (c : Coordinator) (m : Message) : Follows (c.guardedHandle m) (c.handle m) := by
  rw [Coordinator.guardedHandle,Coordinator.handle]
  split
  · exact .inl rfl
  split
  · exact Follows.ofOption (replayReads c m) c
  split
  · exact submitReads c m
  split
  · exact .inl rfl
  · exact .inl rfl

theorem driverFrameReads (c : Coordinator) (frame : Option (List UInt8)) :
    Follows (c.guardedStep (.driverFrame frame)) (c.driverFrame frame) := by
  cases frame with
  | none => exact .inl rfl
  | some bytes =>
      rw [Coordinator.guardedStep,decodedOr,Coordinator.driverFrame]
      cases decode bytes with
      | error e => exact .inl rfl
      | ok m => exact handleReads c m

theorem proposerReplyReads (c : Coordinator) (d : Drive) (r : Reply) :
    Follows (c.guardedProposerReply d r) (c.proposerReply d r) := by
  cases r with
  | sendFailed => exact .inl rfl
  | recvFailed => exact .inl rfl
  | frame bytes =>
      simp only [Coordinator.guardedProposerReply,decodedOr,Coordinator.proposerReply]
      cases decode bytes with
      | error e => exact .inl rfl
      | ok pr => exact Follows.ofOption (proposalReads c d pr) c

theorem verifierReplyReads (c : Coordinator) (d : Drive) (toks : List UInt32) (r : Reply) :
    Follows (c.guardedVerifierReply d toks r) (c.verifierReply d toks r) := by
  cases r with
  | sendFailed => exact .inl rfl
  | recvFailed => exact .inl rfl
  | frame bytes =>
      simp only [Coordinator.guardedVerifierReply,decodedOr,Coordinator.verifierReply]
      cases decode bytes with
      | error e => exact .inl rfl
      | ok vr => exact verdictReads c d toks vr

theorem stepReads {c t : Coordinator} {e : Event} (taken : c.step e = some t) : Follows (c.guardedStep e) t := by
  cases e with
  | connection hello =>
      rw [Coordinator.step] at taken
      split at taken
      · cases taken
        cases hello with
        | none => exact .inl rfl
        | some bytes => exact .inl (helloReads c bytes)
      · cases taken
  | driverFrame frame =>
      rw [Coordinator.step] at taken
      split at taken
      · split at taken
        · cases taken
          exact driverFrameReads c frame
        · cases taken
      · cases taken
  | reply r =>
      rw [Coordinator.step] at taken
      rw [Coordinator.guardedStep]
      cases waits : c.phase with
      | proposing d =>
          rw [waits] at taken
          cases taken
          exact proposerReplyReads c d r
      | verifying d toks =>
          rw [waits] at taken
          cases taken
          exact verifierReplyReads c d toks r
      | waiting =>
          rw [waits] at taken
          cases taken
      | stopped =>
          rw [waits] at taken
          cases taken
      | undefined =>
          rw [waits] at taken
          cases taken

def ProposalFields (c : Coordinator) (d : Drive) (pr : Message) : Prop :=
  10 ≤ pr.u64Fields.length ∧ (ProposalCurrent c d pr → 1 ≤ pr.u32Fields.length ∧
    (pr.u32Fields[prOutcome]? = some kOutcomeSuccess →
      d.depth.toNat = 0 ∨ prTokens + d.depth.toNat ≤ pr.u32Fields.length))

def VerdictFields (c : Coordinator) (d : Drive) (vr : Message) : Prop :=
  5 ≤ vr.u64Fields.length ∧ (VerdictCurrent c d vr → 4 ≤ vr.u32Fields.length ∧
    (d.branches.toNat ≤ d.brs.length + 1 → (∀ br ∈ d.brs, br.accepted ≤ d.depth) ∧
      ∀ accepted, vr.u32Fields[vrAccepted]? = some accepted → accepted ≤ d.depth))

def DriverFields (c : Coordinator) (m : Message) : Prop :=
  (m.type = Msg.proposalResult → c.inOrder ≠ [] → 10 ≤ m.u64Fields.length) ∧
  (m.type = Msg.submitRequest → 1 ≤ m.u64Fields.length ∧ 3 ≤ m.u32Fields.length ∧ m.u32Fields[1]? ≠ some 0)

def CarriesFields (c : Coordinator) : Event → Prop
  | .connection _ => True
  | .driverFrame frame => ∀ bytes, frame = some bytes → ∀ m, decode bytes = .ok m → DriverFields c m
  | .reply r => ∀ bytes, r = .frame bytes → ∀ m, decode bytes = .ok m →
      (∀ d, c.phase = .proposing d → ProposalFields c d m) ∧
      ∀ d toks, c.phase = .verifying d toks → VerdictFields c d m

theorem proposalSafe (c : Coordinator) (d : Drive) (pr : Message) :
    (c.guardedProposal d pr).Safe ↔ ProposalFields c d pr := by
  have clears (epoch boot attempt basegen propgen : UInt64) :=
    validateClear (c.request d.reqid) epoch boot attempt basegen propgen c.proposerBoot
  rw [Coordinator.guardedProposal]
  simp only [safeReads]
  constructor
  · rintro ⟨epoch,atEpoch,boot,atBoot,attempt,atAttempt,basegen,atBase,propgen,atProp,later⟩
    refine ⟨(existsElement _ _).mp ⟨propgen,atProp⟩,?_⟩
    intro current
    cases atEpoch.symm.trans current.epoch
    cases atBoot.symm.trans current.boot
    cases atAttempt.symm.trans current.attempt
    cases atBase.symm.trans current.baseGen
    cases atProp.symm.trans current.propGen
    rw [(clears _ _ _ _ _).mpr ⟨rfl,rfl,rfl,rfl,rfl⟩,if_neg (by simp),safeReads] at later
    obtain ⟨outcome,atOutcome,rest⟩ := later
    refine ⟨(existsElement _ _).mp ⟨outcome,atOutcome⟩,?_⟩
    intro success
    cases atOutcome.symm.trans success
    rw [if_neg (by simp),safeBind,safeElements] at rest
    exact rest.1
  · rintro ⟨u64s,later⟩
    have at64 := fieldsThere u64s
    obtain ⟨epoch,atEpoch⟩ := at64 prEpoch (by decide)
    obtain ⟨boot,atBoot⟩ := at64 prProposerBoot (by decide)
    obtain ⟨attempt,atAttempt⟩ := at64 prAttempt (by decide)
    obtain ⟨basegen,atBase⟩ := at64 prBaseGen (by decide)
    obtain ⟨propgen,atProp⟩ := at64 prPropogen (by decide)
    refine ⟨epoch,atEpoch,boot,atBoot,attempt,atAttempt,basegen,atBase,propgen,atProp,?_⟩
    split
    · exact safePure _
    rename_i clear
    obtain ⟨rfl,rfl,rfl,rfl,rfl⟩ := (clears _ _ _ _ _).mp (not_not.mp clear)
    obtain ⟨u32s,tokens⟩ := later ⟨atEpoch,atBoot,atAttempt,atBase,atProp⟩
    obtain ⟨outcome,atOutcome⟩ := fieldsThere u32s prOutcome (by decide)
    rw [safeReads]
    refine ⟨outcome,atOutcome,?_⟩
    split
    · exact safePure _
    rename_i success
    cases not_not.mp success
    rw [safeBind,safeElements]
    refine ⟨tokens atOutcome,?_⟩
    intro toks reads
    rw [valueElements] at reads
    rw [safeBind]
    exact ⟨safeOf (tokensReread reads),fun sent _ => safePure _⟩

theorem betterMost {brs : List Br} {w i : Nat} {best challenger : Br} (here : brs[i]? = some challenger)
    (there : brs[w]? = some best) :
    ∃ next, brs[betterBr brs w i]? = some next ∧ challenger.accepted ≤ next.accepted ∧
      best.accepted ≤ next.accepted := by
  simp only [betterBr,here,there]
  split
  · rename_i takes
    refine ⟨challenger,here,UInt32.le_refl _,?_⟩
    rcases takes with more | ⟨same,_⟩
    · exact UInt32.le_of_lt more
    · exact UInt32.le_of_eq same.symm
  · rename_i stays
    exact ⟨best,there,UInt32.not_lt.mp fun more => stays (.inl more),UInt32.le_refl _⟩

theorem scanMost {brs : List Br} {indices : List Nat} {w : Nat} {best : Br} (there : brs[w]? = some best)
    (all : ∀ i ∈ indices, i < brs.length) :
    ∃ win, brs[indices.foldl (betterBr brs) w]? = some win ∧ best.accepted ≤ win.accepted ∧
      ∀ i ∈ indices, ∀ br, brs[i]? = some br → br.accepted ≤ win.accepted := by
  induction indices generalizing w best with
  | nil => exact ⟨best,there,UInt32.le_refl _,fun i member => absurd member List.not_mem_nil⟩
  | cons j rest ih =>
      have here := List.getElem?_eq_getElem (all j List.mem_cons_self)
      obtain ⟨next,atNext,above,kept⟩ := betterMost here there
      obtain ⟨win,won,least,most⟩ := ih atNext fun i member => all i (List.mem_cons_of_mem _ member)
      refine ⟨win,won,UInt32.le_trans kept least,?_⟩
      intro i member br found
      rcases List.mem_cons.mp member with rfl | later
      · cases here.symm.trans found
        exact UInt32.le_trans above least
      · exact most i later br found

theorem winningMost {brs : List Br} (filled : brs ≠ []) :
    ∃ win, brs[winningBr brs]? = some win ∧ win ∈ brs ∧ ∀ br ∈ brs, br.accepted ≤ win.accepted := by
  obtain ⟨first,rest,rfl⟩ := List.exists_cons_of_ne_nil filled
  have range : ∀ i ∈ List.range' 1 ((first :: rest).length - 1), i < (first :: rest).length := by
    intro i member
    simp only [List.mem_range'_1] at member
    omega
  have start : (first :: rest)[0]? = some first := rfl
  obtain ⟨win,won,least,most⟩ := scanMost start range
  refine ⟨win,won,List.mem_of_getElem? won,?_⟩
  intro br member
  obtain ⟨i,inside,rfl⟩ := List.getElem_of_mem member
  have found := List.getElem?_eq_getElem inside
  cases i with
  | zero => exact least
  | succ i =>
      apply most (i + 1) _ _ found
      simp only [List.mem_range'_1]
      omega

def Uniform (d : Drive) : Prop := ∀ br ∈ d.brs, br.toks.length = d.depth.toNat

theorem concludeSafe (c : Coordinator) {d : Drive} (uniform : Uniform d) :
    (c.guardedConclude d).Safe ↔ d.brs ≠ [] ∧ ∀ br ∈ d.brs, br.accepted ≤ d.depth := by
  rw [Coordinator.guardedConclude,safeValue,valueAfter (winningReads d.brs),← safeValue,safeReads]
  by_cases filled : d.brs ≠ []
  · obtain ⟨win,won,member,most⟩ := winningMost filled
    have size := uniform win member
    simp only [won,Option.some.injEq,exists_eq_left']
    rw [safeThen (P := True) _ fun _ => iff_of_true (safePure _) trivial,safeElements,and_true,size]
    constructor
    · intro inside
      refine ⟨filled,fun br there => UInt32.le_trans (most br there) ?_⟩
      rw [UInt32.le_iff_toNat_le]
      omega
    · rintro ⟨_,bounded⟩
      have below := UInt32.le_iff_toNat_le.mp (bounded win member)
      omega
  · have none_ : d.brs = [] := not_not.mp filled
    simp [none_]

theorem recordedSafe (c : Coordinator) {d : Drive} {toks : List UInt32} (uniform : Uniform d)
    (size : toks.length = d.depth.toNat) (accepted firstrej outcome : UInt32) :
    (c.guardedAdvance (d.recorded ⟨(d.b + 1).toUInt64,toks,d.depth,accepted,firstrej,outcome⟩)).Safe ↔
      (d.branches.toNat ≤ d.brs.length + 1 → (∀ br ∈ d.brs, br.accepted ≤ d.depth) ∧ accepted ≤ d.depth) := by
  have grown : Uniform (d.recorded ⟨(d.b + 1).toUInt64,toks,d.depth,accepted,firstrej,outcome⟩) := by
    intro br member
    rcases List.mem_append.mp member with old | new
    · exact uniform br old
    · cases List.mem_singleton.mp new
      exact size
  have length : (d.recorded ⟨(d.b + 1).toUInt64,toks,d.depth,accepted,firstrej,outcome⟩).brs.length =
      d.brs.length + 1 := List.length_append
  have same : (d.recorded ⟨(d.b + 1).toUInt64,toks,d.depth,accepted,firstrej,outcome⟩).branches = d.branches := rfl
  rw [Coordinator.guardedAdvance,length,same]
  by_cases more : d.brs.length + 1 < d.branches.toNat
  · rw [if_pos more]
    exact iff_of_true (safePure _) fun last => absurd last (by omega)
  · have last : d.branches.toNat ≤ d.brs.length + 1 := by omega
    rw [if_neg more,concludeSafe c grown]
    simp only [Drive.recorded,List.mem_append,List.mem_singleton,or_imp,forall_and,forall_eq,ne_eq,
      List.append_eq_nil_iff,List.cons_ne_nil,and_false,not_false_eq_true,true_and,last,true_imp_iff]

theorem verdictSafe (c : Coordinator) {d : Drive} {toks : List UInt32} (uniform : Uniform d)
    (size : toks.length = d.depth.toNat) (vr : Message) : (c.guardedVerdict d toks vr).Safe ↔ VerdictFields c d vr := by
  have clears (epoch attempt basegen : UInt64) :=
    validateClear (c.request d.reqid) epoch c.verifierBoot attempt basegen (c.request d.reqid).propGen c.verifierBoot
  have advances := recordedSafe c uniform size
  rw [Coordinator.guardedVerdict]
  simp only [safeReads]
  constructor
  · rintro ⟨epoch,atEpoch,attempt,atAttempt,basegen,atBase,later⟩
    refine ⟨(existsElement _ _).mp ⟨basegen,atBase⟩,?_⟩
    intro current
    cases atEpoch.symm.trans current.epoch
    cases atAttempt.symm.trans current.attempt
    cases atBase.symm.trans current.baseGen
    rw [(clears _ _ _).mpr ⟨rfl,rfl,rfl,rfl,rfl⟩,if_neg (by simp)] at later
    simp only [safeReads,advances] at later
    obtain ⟨accepted,atAccepted,firstrej,atFirst,_,_,rest⟩ := later
    refine ⟨(existsElement _ _).mp ⟨firstrej,atFirst⟩,fun last => ⟨(rest last).1,?_⟩⟩
    intro other same
    cases atAccepted.symm.trans same
    exact (rest last).2
  · rintro ⟨u64s,later⟩
    have at64 := fieldsThere u64s
    obtain ⟨epoch,atEpoch⟩ := at64 vrEpoch (by decide)
    obtain ⟨attempt,atAttempt⟩ := at64 vrAttempt (by decide)
    obtain ⟨basegen,atBase⟩ := at64 vrBaseGen (by decide)
    refine ⟨epoch,atEpoch,attempt,atAttempt,basegen,atBase,?_⟩
    split
    · exact safePure _
    rename_i clear
    obtain ⟨rfl,_,rfl,rfl,_⟩ := (clears _ _ _).mp (not_not.mp clear)
    obtain ⟨u32s,rest⟩ := later ⟨atEpoch,atAttempt,atBase⟩
    have at32 := fieldsThere u32s
    obtain ⟨accepted,atAccepted⟩ := at32 vrAccepted (by decide)
    obtain ⟨firstrej,atFirst⟩ := at32 vrFirstRej (by decide)
    obtain ⟨outcome,atOutcome⟩ := at32 vrOutcome (by decide)
    simp only [safeReads,advances]
    exact ⟨accepted,atAccepted,firstrej,atFirst,outcome,atOutcome,
      fun last => ⟨(rest last).1,(rest last).2 accepted atAccepted⟩⟩

theorem replaySafe (c : Coordinator) (m : Message) :
    (c.guardedReplay m).Safe ↔ (c.inOrder ≠ [] → 10 ≤ m.u64Fields.length) := by
  rw [Coordinator.guardedReplay]
  cases c.inOrder with
  | nil => exact iff_of_true (safePure _) fun filled => absurd rfl filled
  | cons entry rest =>
      simp only [safeReads,exists_and_right,existsElement,safePure,and_true,prEpoch,prProposerBoot,prAttempt,prBaseGen,
        prPropogen,ne_eq,List.cons_ne_nil,not_false_eq_true,true_imp_iff]
      omega

theorem driveSafe (c : Coordinator) (reqid : UInt64) (depth branches aligned : UInt32) :
    (c.guardedDrive reqid depth branches aligned).Safe ↔ branches ≠ 0 := by
  rw [Coordinator.guardedDrive,Coordinator.guardedAdvance]
  by_cases none_ : branches = 0
  · rw [none_,if_neg (show ¬([] : List Br).length < UInt32.toNat 0 from Nat.not_lt_zero _),concludeSafe _ fun br member => absurd member List.not_mem_nil]
    simp
  · have more : 0 < branches.toNat := Nat.pos_of_ne_zero fun zero => none_ (UInt32.toNat_inj.mp zero)
    rw [if_pos (show ([] : List Br).length < _ from more)]
    exact iff_of_true (safePure _) none_

theorem submitSafe (c : Coordinator) (m : Message) :
    (c.guardedSubmit m).Safe ↔ 1 ≤ m.u64Fields.length ∧ 3 ≤ m.u32Fields.length ∧ m.u32Fields[1]? ≠ some 0 := by
  simp only [Coordinator.guardedSubmit,safeReads,driveSafe,exists_and_right,existsElement]
  constructor
  · rintro ⟨id,_,branches,atBranches,aligned,some_⟩
    refine ⟨by omega,by omega,?_⟩
    rw [atBranches]
    exact fun zero => some_ (Option.some.inj zero)
  · rintro ⟨u64s,u32s,some_⟩
    obtain ⟨branches,atBranches⟩ := fieldsThere u32s 1 (by decide)
    refine ⟨by omega,by omega,branches,atBranches,by omega,?_⟩
    rw [atBranches] at some_
    exact fun zero => some_ (congrArg some zero)

theorem handleSafe (c : Coordinator) (m : Message) : (c.guardedHandle m).Safe ↔ DriverFields c m := by
  rw [Coordinator.guardedHandle,DriverFields]
  by_cases stops : m.type = Msg.shutdown
  · simp [stops,Msg.shutdown,Msg.proposalResult,Msg.submitRequest]
  by_cases replays : m.type = Msg.proposalResult
  · rw [if_neg stops,if_pos replays,replaySafe,replays]
    simp [Msg.proposalResult,Msg.submitRequest]
  by_cases submits : m.type = Msg.submitRequest
  · rw [if_neg stops,if_neg replays,if_pos submits,submitSafe,submits]
    simp [Msg.proposalResult,Msg.submitRequest]
  rw [if_neg stops,if_neg replays,if_neg submits]
  refine iff_of_true ?_ ⟨fun same => absurd same replays,fun same => absurd same submits⟩
  split
  · exact safePure _
  · exact safePure _

structure Recorded (c : Coordinator) : Prop where
  proposing : ∀ d, c.phase = .proposing d → Uniform d
  verifying : ∀ d toks, c.phase = .verifying d toks → Uniform d

theorem idleRecorded {c : Coordinator} (idle : c.phase = .waiting ∨ c.phase = .stopped ∨ c.phase = .undefined) :
    Recorded c := by
  constructor
  · intro d waits
    simp [waits] at idle
  · intro d toks waits
    simp [waits] at idle

theorem failedRecorded (c : Coordinator) (d : Drive) {why : String} (short : Short why) :
    Recorded (c.finish d (.failed why)) := by
  rw [finishFailed c d short]
  exact idleRecorded (.inl rfl)

theorem advanceRecorded (c : Coordinator) {d : Drive} (uniform : Uniform d) : Recorded (c.advance d) := by
  obtain ⟨_,same⟩ | same | ⟨win,_,_,same⟩ := advanceCases c d
  · rw [same,openBranchSends]
    refine ⟨?_,nofun⟩
    intro d' waits
    cases waits
    exact uniform
  · rw [same]
    exact idleRecorded (.inr (.inr rfl))
  · rw [same,finishOk]
    exact idleRecorded (.inl rfl)

theorem stepRecorded {c t : Coordinator} {e : Event} (sound : Sound c) (recorded : Recorded c)
    (taken : c.step e = some t) : Recorded t := by
  obtain ⟨_,quiet⟩ | ⟨frame,reqid,depth,branches,aligned,_,_,_,rfl⟩ | ⟨d,r,waits,_,rfl⟩ | ⟨d,toks,r,waits,_,rfl⟩ :=
    stepCases taken
  · exact idleRecorded quiet.idle
  · exact advanceRecorded _ fun br member => absurd member List.not_mem_nil
  · obtain same | ⟨why,short,same⟩ | ⟨toks,_,same⟩ := proposerReplyCases c d r
    · rw [same]
      exact idleRecorded (.inr (.inr rfl))
    · rw [same]
      exact failedRecorded c d short
    · rw [same]
      refine ⟨nofun,?_⟩
      intro d' toks' inside
      cases inside
      exact recorded.proposing d waits
  · obtain same | ⟨why,short,same⟩ | ⟨_,_,br,_,_,_,_,tokens,_,same⟩ := verifierReplyCases c d toks r
    · rw [same]
      exact idleRecorded (.inr (.inr rfl))
    · rw [same]
      exact failedRecorded c d short
    · rw [same]
      apply advanceRecorded
      intro other member
      rcases List.mem_append.mp member with old | new
      · exact recorded.verifying d toks waits other old
      · cases List.mem_singleton.mp new
        rw [tokens]
        exact (sound.verifying d toks waits).2.2

theorem reachableRecorded {ok : Coordinator → Event → Prop} {proposerBoot verifierBoot : UInt64} {events : List Event}
    {t : Coordinator} (run : CoordinatorRun ok (.start proposerBoot verifierBoot) events t) : Sound t ∧ Recorded t := by
  have start : Sound (.start proposerBoot verifierBoot) ∧ Recorded (.start proposerBoot verifierBoot) :=
    ⟨startSound _ _,idleRecorded (.inl rfl)⟩
  refine Runs.invariant (P := fun c => Sound c ∧ Recorded c) run start ?_
  intro c e t kept _ taken
  exact ⟨stepSound kept.1 taken,stepRecorded kept.1 kept.2 taken⟩

theorem decodedSafe (bytes : List UInt8) (refused : Coordinator) {taken : Message → Guarded Coordinator}
    {P : Message → Prop} (exact_ : ∀ m, (taken m).Safe ↔ P m) :
    (decodedOr bytes refused taken).Safe ↔ ∀ m, decode bytes = .ok m → P m := by
  rw [decodedOr]
  cases decode bytes with
  | error e => exact iff_of_true (safePure _) nofun
  | ok m => simp [exact_]

theorem stepSafe {c : Coordinator} (sound : Sound c) (recorded : Recorded c) (e : Event) :
    (c.guardedStep e).Safe ↔ CarriesFields c e := by
  cases e with
  | connection hello =>
      cases hello with
      | none => exact iff_of_true (safePure _) trivial
      | some bytes => exact iff_of_true (safeOf (helloReads c bytes)) trivial
  | driverFrame frame =>
      cases frame with
      | none => exact iff_of_true (safePure _) nofun
      | some bytes =>
          rw [Coordinator.guardedStep,decodedSafe _ _ (handleSafe c),CarriesFields]
          simp
  | reply r =>
      rw [Coordinator.guardedStep,CarriesFields]
      cases waits : c.phase with
      | proposing d =>
          cases r with
          | frame bytes =>
              simp only [Coordinator.guardedProposerReply,decodedSafe _ _ (proposalSafe c d)]
              simp
          | sendFailed => exact iff_of_true (safePure _) nofun
          | recvFailed => exact iff_of_true (safePure _) nofun
      | verifying d toks =>
          have size := (sound.verifying d toks waits).2.2
          cases r with
          | frame bytes =>
              simp only [Coordinator.guardedVerifierReply,
                decodedSafe _ _ (verdictSafe c (recorded.verifying d toks waits) size)]
              simp
          | sendFailed => exact iff_of_true (safePure _) nofun
          | recvFailed => exact iff_of_true (safePure _) nofun
      | waiting => exact iff_of_true (safePure _) (by simp)
      | stopped => exact iff_of_true (safePure _) (by simp)
      | undefined => exact iff_of_true (safePure _) (by simp)

theorem accessesInsideExactly {proposerBoot verifierBoot : UInt64} {events : List Event} {c : Coordinator}
    (run : CoordinatorRun (fun _ _ => True) (.start proposerBoot verifierBoot) events c) :
    (∀ e, (c.guardedStep e).Safe ↔ CarriesFields c e) ∧ ∀ frame, (guardedServe frame).Safe ↔ WorkerFields frame := by
  obtain ⟨sound,recorded⟩ := reachableRecorded run
  exact ⟨stepSafe sound recorded,serveSafe⟩

def candidateSent : List Event := [fromDriver (submission 42 1 1 1),fromWorker drafted]

theorem judgedInside : ∃ c, CoordinatorRun (fun _ _ => True) (.start 7 8) candidateSent c ∧
    (c.guardedStep (fromWorker judged)).Safe := by
  have ends : (runFrom (.start 7 8) candidateSent).any
      (fun t => decide (t.phase = .verifying ⟨42,1,1,1,[]⟩ [3270])) = true := by decide +kernel
  obtain ⟨c,run,waits⟩ := reaches (P := fun t => t.phase = .verifying ⟨42,1,1,1,[]⟩ [3270]) ends
  refine ⟨c,run,((accessesInsideExactly run).1 _).mpr ?_⟩
  intro bytes same m decoded
  cases same
  cases judgedRead.symm.trans decoded
  constructor
  · intro d proposing
    cases waits.symm.trans proposing
  · intro d toks verifying
    cases waits.symm.trans verifying
    refine ⟨by decide,fun _ => ⟨by decide,fun _ => ⟨nofun,?_⟩⟩⟩
    intro accepted found
    cases found
    decide

def declaredOnly : Message :=
  { type := Msg.verificationDispatch, u64Fields := [42,43,1,1,0,0,0,1,2042,8], u32Fields := [9,4096,1] }

def judgedAbove : Message :=
  { type := Msg.verificationResult, u64Fields := [42,43,1,1,0,2042,17661420568835545970,0], u32Fields := [0,2,1,1] }

theorem shortMessagesReadPast :
    ¬(guardedServe (layout { type := Msg.proposalDispatch })).Safe ∧ ¬(guardedServe (layout declaredOnly)).Safe ∧
    ¬((Coordinator.start 7 8).guardedStep (fromDriver { type := Msg.submitRequest })).Safe ∧
    ¬((Coordinator.start 7 8).guardedStep (fromDriver (submission 42 1 0 1))).Safe ∧
    ∃ c, CoordinatorRun (fun _ _ => True) (.start 7 8) candidateSent c ∧
      ¬(c.guardedStep (fromWorker judgedAbove)).Safe := by
  have ends : (runFrom (.start 7 8) candidateSent).any
      (fun t => decide (¬(t.guardedStep (fromWorker judgedAbove)).value.isSome)) = true := by decide +kernel
  obtain ⟨c,run,above⟩ := reaches (P := fun t => ¬(t.guardedStep (fromWorker judgedAbove)).value.isSome) ends
  simp only [safeValue]
  exact ⟨by decide +kernel,by decide +kernel,by decide +kernel,by decide +kernel,c,run,above⟩

end SpeculationFabric.Dist
