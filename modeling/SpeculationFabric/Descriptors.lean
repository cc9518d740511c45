import Mathlib.Data.Finset.Card
import SpeculationFabric.DeploymentRuns

/-! The coordinator process with its sockets: the loop that waits for the three roles, the
reconnections it takes afterwards, and what it does with the descriptors of both. The
system hands out any descriptor that is not open, also one that was closed before. -/
namespace SpeculationFabric.Dist

open Wire

inductive Role where
  | proposer | verifier | driver
  deriving DecidableEq, Repr

def Role.named (role : UInt32) : Option Role :=
  if role = kRoleProposer then some .proposer
  else if role = kRoleVerifier then some .verifier
  else if role = kRoleDriver then some .driver
  else none

/- `fds` are `proposerFd`, `verifierFd` and `driverFd`. `table` is what the system holds
open for the process, and `stray` what was closed without being open. -/
structure Sockets where
  listener : Nat
  fds : Role → Option Nat := fun _ => none
  table : Finset Nat
  stray : List Nat := []

def Sockets.opened (s : Sockets) (fd : Nat) : Sockets := { s with table := insert fd s.table }

def Sockets.closesocket (s : Sockets) (fd : Nat) : Sockets :=
  { s with table := s.table.erase fd, stray := if fd ∈ s.table then s.stray else s.stray ++ [fd] }

def Sockets.assign (s : Sockets) (r : Role) (fd : Option Nat) : Sockets := { s with fds := Function.update s.fds r fd }

def greeting : List UInt8 → Option (UInt32 × UInt64)
  | bytes =>
      match decode bytes with
      | .error _ => none
      | .ok h => if h.type ≠ Msg.hello then none else some ((h.u32Fields[0]?).getD 0,(h.u64Fields[0]?).getD 0)

/- While the roles gather, a later greeting for a role takes its place, and one for no
role is kept open. -/
def Sockets.gathered (s : Sockets) (fd : Nat) (role : UInt32) : Sockets :=
  match Role.named role with
  | some r => s.assign r (some fd)
  | none => s

/- `if (old >= 0 && old != c) closesocket(old)` -/
def Sockets.dropOld (s : Sockets) (r : Role) (fd : Nat) : Sockets :=
  match s.fds r with
  | some old => if old ≠ fd then s.closesocket old else s
  | none => s

def Sockets.drained (s : Sockets) (fd : Nat) : Option (List UInt8) → Sockets
  | none => s.closesocket fd
  | some bytes =>
      match greeting bytes with
      | none => s.closesocket fd
      | some (role,_) =>
          match Role.named role with
          | some .driver => if (s.fds .driver).isNone then s.assign .driver (some fd) else s.closesocket fd
          | some r => (s.dropOld r fd).assign r (some fd)
          | none => s.closesocket fd

def Sockets.driverLost (s : Sockets) : Sockets :=
  match s.fds .driver with
  | some fd => (s.closesocket fd).assign .driver none
  | none => s

inductive Process where
  | starting (s : Sockets) (proposerBoot verifierBoot : UInt64)
  | serving (s : Sockets) (c : Coordinator)
  | failed

inductive SocketEvent where
  | connection (fd : Nat) (hello : Option (List UInt8))
  | driverFrame (frame : Option (List UInt8))
  | reply (r : Reply)
  deriving DecidableEq, Repr

def SocketEvent.event : SocketEvent → Event
  | .connection _ hello => .connection hello
  | .driverFrame frame => .driverFrame frame
  | .reply r => .reply r

def Sockets.after (s : Sockets) : SocketEvent → Sockets
  | .connection fd hello => (s.opened fd).drained fd hello
  | .driverFrame none => s.driverLost
  | .driverFrame (some _) | .reply _ => s

/- `while (proposerFd < 0 || verifierFd < 0 || driverFd < 0)` -/
def Process.gathering (s : Sockets) (proposerBoot verifierBoot : UInt64) : Process :=
  if (s.fds .proposer).isNone || (s.fds .verifier).isNone || (s.fds .driver).isNone then
    .starting s proposerBoot verifierBoot
  else .serving s (.start proposerBoot verifierBoot)

def Process.step : Process → SocketEvent → Option Process
  | .starting _ _ _,.connection _ none => some .failed
  | .starting s proposerBoot verifierBoot,.connection fd (some bytes) =>
      match greeting bytes with
      | none => some (.gathering ((s.opened fd).closesocket fd) proposerBoot verifierBoot)
      | some (role,boot) =>
          some (.gathering ((s.opened fd).gathered fd role) (if role = kRoleProposer then boot else proposerBoot)
            (if role = kRoleVerifier then boot else verifierBoot))
  | .serving s c,e => (c.step e.event).map (.serving (s.after e))
  | _,_ => none

def Process.listening (listener : Nat) : Process := .starting { listener := listener, table := {listener} } 0 0

def Process.sockets : Process → Finset Nat
  | .starting s _ _ | .serving s _ => s.table
  | .failed => ∅

/- What the system promises: a new connection's descriptor is not one that is open. -/
def Process.fresh (p : Process) : SocketEvent → Prop
  | .connection fd _ => fd ∉ p.sockets
  | _ => True

def Process.greeted : Process → SocketEvent → List (UInt32 × UInt64)
  | .starting _ _ _,.connection _ (some bytes) => (greeting bytes).toList
  | _,_ => []

def Sockets.held (s : Sockets) : Nat := ([Role.proposer,.verifier,.driver].filter fun r => (s.fds r).isSome).length

structure Owned (s : Sockets) (loose : Finset Nat) : Prop where
  stray : s.stray = []
  listening : s.listener ∈ s.table ∧ s.listener ∉ loose
  holds : ∀ r fd, s.fds r = some fd → fd ∈ s.table ∧ fd ≠ s.listener ∧ fd ∉ loose
  apart : ∀ r r' fd, s.fds r = some fd → s.fds r' = some fd → r = r'
  within : loose ⊆ s.table
  counted : s.table.card = 1 + s.held + loose.card

section sockets
variable {s : Sockets} {loose : Finset Nat} {fd : Nat} {r : Role}

@[simp] theorem assignSelf (v : Option Nat) : (s.assign r v).fds r = v := Function.update_self _ _ _

@[simp] theorem assignOther {r' : Role} (different : r' ≠ r) (v : Option Nat) : (s.assign r v).fds r' = s.fds r' :=
  Function.update_of_ne different _ _

theorem assignTwice (v w : Option Nat) : (s.assign r v).assign r w = s.assign r w := by
  simp only [Sockets.assign,Function.update_idem]

theorem assignedFrom {v : Option Nat} {r' : Role} {x : Nat} (taken : (s.assign r v).fds r' = some x) :
    r' = r ∧ v = some x ∨ r' ≠ r ∧ s.fds r' = some x := by
  by_cases same : r' = r
  · subst same
    rw [assignSelf] at taken
    exact .inl ⟨rfl,taken⟩
  · rw [assignOther same] at taken
    exact .inr ⟨same,taken⟩

theorem heldAssigned (vacant : s.fds r = none) : (s.assign r (some fd)).held = s.held + 1 := by
  cases r <;> simp only [Sockets.held,Sockets.assign,Function.update,List.filter,vacant] <;>
    cases s.fds .proposer <;> cases s.fds .verifier <;> cases s.fds .driver <;> simp_all

theorem heldVacated (taken : s.fds r = some fd) : (s.assign r none).held + 1 = s.held := by
  have again : (s.assign r none).assign r (some fd) = s := by
    simp only [Sockets.assign,Function.update_idem,← taken,Function.update_eq_self]
  have vacant : (s.assign r none).fds r = none := Function.update_self _ _ _
  have held : ((s.assign r none).assign r (some fd)).held = (s.assign r none).held + 1 := heldAssigned vacant
  rw [← held,again]

theorem openedOwned (owned : Owned s loose) (new : fd ∉ s.table) : Owned (s.opened fd) (insert fd loose) := by
  have other : ∀ x ∈ s.table, x ≠ fd := by
    rintro x member rfl
    exact new member
  refine ⟨owned.stray,⟨Finset.mem_insert_of_mem owned.listening.1,?_⟩,?_,owned.apart,?_,?_⟩
  · rw [Finset.mem_insert,not_or]
    exact ⟨other _ owned.listening.1,owned.listening.2⟩
  · intro r x taken
    obtain ⟨there,apart,firm⟩ := owned.holds r x taken
    refine ⟨Finset.mem_insert_of_mem there,apart,?_⟩
    rw [Finset.mem_insert,not_or]
    exact ⟨other x there,firm⟩
  · exact Finset.insert_subset_insert fd owned.within
  · have count := owned.counted
    show (insert fd s.table).card = 1 + s.held + (insert fd loose).card
    rw [Finset.card_insert_of_notMem new,Finset.card_insert_of_notMem fun member => new (owned.within member)]
    omega

theorem closedOwned (owned : Owned s loose) (member : fd ∈ loose) : Owned (s.closesocket fd) (loose.erase fd) := by
  have there := owned.within member
  have other : s.listener ≠ fd := by
    intro same
    exact owned.listening.2 (same ▸ member)
  refine ⟨?_,⟨Finset.mem_erase.mpr ⟨other,owned.listening.1⟩,fun inside => owned.listening.2 (Finset.mem_of_mem_erase inside)⟩,
    ?_,owned.apart,Finset.erase_subset_erase fd owned.within,?_⟩
  · show (if fd ∈ s.table then s.stray else _) = []
    rw [if_pos there]
    exact owned.stray
  · intro r x taken
    obtain ⟨held,apart,firm⟩ := owned.holds r x taken
    refine ⟨Finset.mem_erase.mpr ⟨?_,held⟩,apart,fun inside => firm (Finset.mem_of_mem_erase inside)⟩
    rintro rfl
    exact firm member
  · have count := owned.counted
    have some_ : 0 < loose.card := Finset.card_pos.mpr ⟨fd,member⟩
    show (s.table.erase fd).card = 1 + s.held + (loose.erase fd).card
    rw [Finset.card_erase_of_mem there,Finset.card_erase_of_mem member]
    omega

theorem assignedOwned (owned : Owned s loose) (member : fd ∈ loose) (vacant : s.fds r = none) :
    Owned (s.assign r (some fd)) (loose.erase fd) := by
  refine ⟨owned.stray,⟨owned.listening.1,fun inside => owned.listening.2 (Finset.mem_of_mem_erase inside)⟩,?_,?_,
    fun x inside => owned.within (Finset.mem_of_mem_erase inside),?_⟩
  · intro r' x taken
    rcases assignedFrom taken with ⟨_,same⟩ | ⟨_,before⟩
    · cases same
      refine ⟨owned.within member,?_,Finset.notMem_erase _ _⟩
      intro listener
      exact owned.listening.2 (listener ▸ member)
    · obtain ⟨there,apart,firm⟩ := owned.holds r' x before
      exact ⟨there,apart,fun inside => firm (Finset.mem_of_mem_erase inside)⟩
  · intro r' r'' x taken taken'
    rcases assignedFrom taken with ⟨rfl,same⟩ | ⟨_,before⟩ <;> rcases assignedFrom taken' with ⟨rfl,same'⟩ | ⟨_,before'⟩
    · rfl
    · cases same
      exact absurd member (owned.holds r'' fd before').2.2
    · cases same'
      exact absurd member (owned.holds r' fd before).2.2
    · exact owned.apart r' r'' x before before'
  · have count := owned.counted
    have some_ : 0 < loose.card := Finset.card_pos.mpr ⟨fd,member⟩
    rw [heldAssigned vacant,Finset.card_erase_of_mem member]
    show s.table.card = _
    omega

theorem vacatedOwned (owned : Owned s loose) (taken : s.fds r = some fd) : Owned (s.assign r none) (insert fd loose) := by
  obtain ⟨there,apart,firm⟩ := owned.holds r fd taken
  have others {r' : Role} {x : Nat} (taken' : (s.assign r none).fds r' = some x) : r' ≠ r ∧ s.fds r' = some x := by
    rcases assignedFrom taken' with ⟨_,none⟩ | kept
    · cases none
    · exact kept
  refine ⟨owned.stray,⟨owned.listening.1,?_⟩,?_,?_,Finset.insert_subset there owned.within,?_⟩
  · rw [Finset.mem_insert,not_or]
    exact ⟨Ne.symm apart,owned.listening.2⟩
  · intro r' x taken'
    obtain ⟨other,before⟩ := others taken'
    obtain ⟨there',apart',firm'⟩ := owned.holds r' x before
    refine ⟨there',apart',?_⟩
    rw [Finset.mem_insert,not_or]
    refine ⟨?_,firm'⟩
    rintro rfl
    exact other (owned.apart r' r x before taken)
  · intro r' r'' x taken' taken''
    exact owned.apart r' r'' x (others taken').2 (others taken'').2
  · have count := owned.counted
    have less := heldVacated taken
    rw [Finset.card_insert_of_notMem firm]
    show s.table.card = _
    omega

theorem replacedOwned {old : Nat} (owned : Owned s loose) (member : fd ∈ loose) (taken : s.fds r = some old) :
    Owned (s.assign r (some fd)) ((insert old loose).erase fd) := by
  rw [← assignTwice none]
  exact assignedOwned (vacatedOwned owned taken) (Finset.mem_insert_of_mem member) (assignSelf none)

theorem closedNew (owned : Owned s loose) (new : fd ∉ s.table) : Owned ((s.opened fd).closesocket fd) loose := by
  have closed := closedOwned (openedOwned owned new) (Finset.mem_insert_self fd loose)
  rwa [Finset.erase_insert fun member => new (owned.within member)] at closed

theorem assignedNew (owned : Owned s loose) (new : fd ∉ s.table) (vacant : s.fds r = none) :
    Owned ((s.opened fd).assign r (some fd)) loose := by
  have assigned := assignedOwned (openedOwned owned new) (Finset.mem_insert_self fd loose) vacant
  rwa [Finset.erase_insert fun member => new (owned.within member)] at assigned

theorem droppedNew (owned : Owned s loose) (new : fd ∉ s.table) :
    Owned (((s.opened fd).dropOld r fd).assign r (some fd)) loose := by
  cases taken : s.fds r with
  | none =>
      have kept : (s.opened fd).dropOld r fd = s.opened fd := by
        simp only [Sockets.dropOld,Sockets.opened,taken]
      rw [kept]
      exact assignedNew owned new taken
  | some old =>
      obtain ⟨there,_,firm⟩ := owned.holds r old taken
      have other : old ≠ fd := by
        rintro rfl
        exact new there
      have closes : ((s.opened fd).dropOld r fd).assign r (some fd) =
          (((s.opened fd).assign r none).closesocket old).assign r (some fd) := by
        have drops : (s.opened fd).dropOld r fd = (s.opened fd).closesocket old := by
          rw [Sockets.dropOld,show (s.opened fd).fds r = some old from taken]
          exact if_pos other
        rw [drops,← assignTwice (s := (s.opened fd).closesocket old) none]
        rfl
      have opened := openedOwned owned new
      have apart : old ∉ insert fd loose := (opened.holds r old taken).2.2
      have vacated := vacatedOwned opened taken
      have closed := closedOwned vacated (Finset.mem_insert_self old _)
      rw [Finset.erase_insert apart] at closed
      have assigned := assignedOwned closed (Finset.mem_insert_self fd loose) (assignSelf none)
      rw [Finset.erase_insert fun member => new (owned.within member)] at assigned
      rw [closes]
      exact assigned

theorem lostOwned (owned : Owned s loose) : Owned s.driverLost loose := by
  cases taken : s.fds .driver with
  | none =>
      simp only [Sockets.driverLost,taken]
      exact owned
  | some fd =>
      have closed := closedOwned (vacatedOwned owned taken) (Finset.mem_insert_self fd loose)
      rw [Finset.erase_insert (owned.holds _ fd taken).2.2] at closed
      simp only [Sockets.driverLost,taken]
      exact closed

theorem gatheredOwned (owned : Owned s loose) (new : fd ∉ s.table) (role : UInt32) :
    ∃ more, Owned ((s.opened fd).gathered fd role) more ∧
      more.card + ((s.opened fd).gathered fd role).held = loose.card + s.held + 1 := by
  have firm : fd ∉ loose := fun member => new (owned.within member)
  have held : (s.opened fd).held = s.held := rfl
  rw [Sockets.gathered]
  cases Role.named role with
  | none =>
      refine ⟨_,openedOwned owned new,?_⟩
      rw [Finset.card_insert_of_notMem firm,held]
      omega
  | some r =>
      cases taken : s.fds r with
      | none =>
          refine ⟨_,assignedNew owned new taken,?_⟩
          rw [heldAssigned (s := s.opened fd) taken,held]
          omega
      | some old =>
          have opened := openedOwned owned new
          have replaced := replacedOwned opened (Finset.mem_insert_self fd loose) (r := r) taken
          have apart : old ∉ insert fd loose := (opened.holds r old taken).2.2
          have vacant : ((s.opened fd).assign r none).fds r = none := assignSelf none
          have same : ((s.opened fd).assign r (some fd)).held = s.held := by
            rw [← assignTwice none,heldAssigned vacant]
            exact heldVacated (s := s.opened fd) taken
          refine ⟨_,replaced,?_⟩
          rw [same,Finset.card_erase_of_mem (Finset.mem_insert_of_mem (Finset.mem_insert_self fd loose)),
            Finset.card_insert_of_notMem apart,Finset.card_insert_of_notMem firm]
          omega

end sockets

theorem drainedOwned {s : Sockets} {c : Coordinator} {loose : Finset Nat} {fd : Nat} (owned : Owned s loose)
    (new : fd ∉ s.table) (driver : (s.fds .driver).isSome = c.driver) (hello : Option (List UInt8)) :
    Owned ((s.opened fd).drained fd hello) loose ∧
    ((((s.opened fd).drained fd hello).fds .driver).isSome = (c.accepted hello).driver) ∧
    ∀ r, (s.fds r).isSome → (((s.opened fd).drained fd hello).fds r).isSome := by
  have closes : Owned ((s.opened fd).closesocket fd) loose ∧
      ((((s.opened fd).closesocket fd).fds .driver).isSome = c.driver) ∧
      ∀ r, (s.fds r).isSome → (((s.opened fd).closesocket fd).fds r).isSome :=
    ⟨closedNew owned new,driver,fun r taken => taken⟩
  have keeps (r r' : Role) (taken : (s.fds r').isSome) : ((((s.opened fd).dropOld r fd).assign r (some fd)).fds r').isSome := by
    by_cases same : r' = r
    · subst same
      rw [assignSelf]
      rfl
    · rw [assignOther same,Sockets.dropOld]
      split
      · split <;> exact taken
      · exact taken
  have apart (r : Role) (other : Role.driver ≠ r) :
      (((s.opened fd).dropOld r fd).assign r (some fd)).fds .driver = s.fds .driver := by
    rw [assignOther other,Sockets.dropOld]
    split
    · split <;> rfl
    · rfl
  cases hello with
  | none => exact closes
  | some bytes =>
      simp only [Sockets.drained,greeting,Coordinator.accepted]
      cases decode bytes with
      | error e => exact closes
      | ok h =>
          by_cases other : h.type ≠ Msg.hello
          · simp only [if_pos other]
            exact closes
          simp only [if_neg other,Role.named]
          generalize (h.u32Fields[0]?).getD 0 = role
          generalize (h.u64Fields[0]?).getD 0 = boot
          by_cases proposer : role = kRoleProposer
          · simp only [if_pos proposer]
            exact ⟨droppedNew owned new,by rw [apart _ (by decide)]; exact driver,keeps _⟩
          by_cases verifier : role = kRoleVerifier
          · simp only [if_neg proposer,if_pos verifier]
            exact ⟨droppedNew owned new,by rw [apart _ (by decide)]; exact driver,keeps _⟩
          by_cases comes : role = kRoleDriver
          · cases vacant : s.fds .driver with
            | none =>
                have absent : c.driver = false := by rw [← driver,vacant]; rfl
                have free : (s.opened fd).fds .driver = none := vacant
                simp only [if_neg proposer,if_neg verifier,if_pos comes,free,absent,decide_eq_true comes,Bool.not_false,
                  Option.isNone_none,if_true,Bool.and_self]
                refine ⟨assignedNew owned new vacant,by rw [assignSelf]; rfl,?_⟩
                intro r taken
                by_cases same : r = .driver
                · subst same
                  rw [assignSelf]
                  rfl
                · rw [assignOther same]
                  exact taken
            | some old =>
                have present : c.driver = true := by rw [← driver,vacant]; rfl
                have busy : (s.opened fd).fds .driver = some old := vacant
                simp only [if_neg proposer,if_neg verifier,if_pos comes,busy,present,Option.isNone_some,
                  Bool.false_eq_true,if_false,Bool.not_true,Bool.and_false]
                exact present ▸ closes
          · simp only [if_neg proposer,if_neg verifier,if_neg comes,decide_eq_false comes,Bool.false_and,
              Bool.false_eq_true,if_false]
            exact closes

theorem stepDriver {c t : Coordinator} {e : Event} (taken : c.step e = some t) (connects : ∀ hello, e ≠ .connection hello) :
    t.driver = (c.driver && decide (e ≠ .driverFrame none)) := by
  cases e with
  | connection hello => exact absurd rfl (connects hello)
  | driverFrame frame =>
      simp only [Coordinator.step] at taken
      split at taken
      · split at taken
        · cases Option.some.inj taken
          cases frame with
          | none =>
              rw [decide_eq_false (not_not_intro rfl),Bool.and_false]
              rfl
          | some bytes =>
              rw [decide_eq_true (by simp),Bool.and_true,Coordinator.driverFrame]
              split
              · rfl
              · exact handleDriver _ _
        · cases taken
      · cases taken
  | reply r =>
      rw [decide_eq_true (by simp),Bool.and_true]
      exact congrArg Desk.driver (replyEmits taken).1

def lastBoot (role : UInt32) (greetings : List (UInt32 × UInt64)) : UInt64 :=
  ((greetings.filter fun g => g.1 = role).getLast?.map Prod.snd).getD 0

theorem lastBootAppend (role : UInt32) (greetings : List (UInt32 × UInt64)) (g : UInt32 × UInt64) :
    lastBoot role (greetings ++ [g]) = if g.1 = role then g.2 else lastBoot role greetings := by
  rw [lastBoot,List.filter_append]
  by_cases same : g.1 = role
  · simp [same]
  · simp [same,lastBoot]

inductive Holding (greetings : List (UInt32 × UInt64)) (past : List SocketEvent) : Process → Prop where
  | starting {s : Sockets} {proposerBoot verifierBoot : UInt64} {loose : Finset Nat} (owned : Owned s loose)
      (count : loose.card + s.held = greetings.length) (proposer : proposerBoot = lastBoot kRoleProposer greetings)
      (verifier : verifierBoot = lastBoot kRoleVerifier greetings) :
      Holding greetings past (.starting s proposerBoot verifierBoot)
  | serving {s : Sockets} {c : Coordinator} {loose : Finset Nat} {before after : List SocketEvent} (owned : Owned s loose)
      (count : loose.card + 3 = greetings.length) (proposer : (s.fds .proposer).isSome)
      (verifier : (s.fds .verifier).isSome) (driver : (s.fds .driver).isSome = c.driver) (split : past = before ++ after)
      (run : CoordinatorRun (fun _ _ => True)
        (.start (lastBoot kRoleProposer greetings) (lastBoot kRoleVerifier greetings)) (after.map SocketEvent.event) c) :
      Holding greetings past (.serving s c)
  | failed : Holding greetings past .failed

theorem gatheringHolds {s : Sockets} {loose : Finset Nat} {greetings : List (UInt32 × UInt64)} (past : List SocketEvent)
    (owned : Owned s loose) (count : loose.card + s.held = greetings.length) :
    Holding greetings past (.gathering s (lastBoot kRoleProposer greetings) (lastBoot kRoleVerifier greetings)) := by
  rw [Process.gathering]
  split
  · exact .starting owned count rfl rfl
  · rename_i all
    simp only [Bool.or_eq_true,Option.isNone_iff_eq_none,not_or,← Option.isSome_iff_ne_none] at all
    obtain ⟨⟨proposer,verifier⟩,driver⟩ := all
    have three : s.held = 3 := by
      simp only [Sockets.held,List.filter,proposer,verifier,driver,List.length_cons,List.length_nil]
    have nothing : CoordinatorRun (fun _ _ => True)
        (.start (lastBoot kRoleProposer greetings) (lastBoot kRoleVerifier greetings))
        (([] : List SocketEvent).map SocketEvent.event)
        (.start (lastBoot kRoleProposer greetings) (lastBoot kRoleVerifier greetings)) := .nil
    exact .serving owned (three ▸ count) proposer verifier driver (List.append_nil past).symm nothing

theorem holdingStep {p q : Process} {e : SocketEvent} {greetings : List (UInt32 × UInt64)} {past : List SocketEvent}
    (sound : Holding greetings past p) (fresh : p.fresh e) (taken : p.step e = some q) :
    Holding (greetings ++ p.greeted e) (past ++ [e]) q := by
  cases sound with
  | failed => cases e <;> cases taken
  | @starting s proposerBoot verifierBoot loose owned count proposer verifier =>
      cases e with
      | driverFrame frame => cases taken
      | reply r => cases taken
      | connection fd hello =>
          cases hello with
          | none =>
              cases taken
              exact .failed
          | some bytes =>
              subst proposer verifier
              simp only [Process.step] at taken
              cases greeted : greeting bytes with
              | none =>
                  rw [greeted] at taken
                  cases taken
                  have none : Process.greeted (.starting s (lastBoot kRoleProposer greetings)
                      (lastBoot kRoleVerifier greetings)) (.connection fd (some bytes)) = [] := by
                    simp only [Process.greeted,greeted,Option.toList_none]
                  rw [none,List.append_nil]
                  exact gatheringHolds _ (closedNew owned fresh) count
              | some g =>
                  obtain ⟨role,boot⟩ := g
                  rw [greeted] at taken
                  cases taken
                  have one : Process.greeted (.starting s (lastBoot kRoleProposer greetings)
                      (lastBoot kRoleVerifier greetings)) (.connection fd (some bytes)) = [(role,boot)] := by
                    simp only [Process.greeted,greeted,Option.toList_some]
                  obtain ⟨more,gathered,total⟩ := gatheredOwned owned fresh role
                  rw [one,← lastBootAppend kRoleProposer greetings (role,boot),
                    ← lastBootAppend kRoleVerifier greetings (role,boot)]
                  refine gatheringHolds _ gathered ?_
                  rw [total,count,List.length_append,List.length_singleton]
  | @serving s c loose before after owned count proposer verifier driver split run =>
      have quiet : Process.greeted (.serving s c) e = [] := by cases e <;> rfl
      rw [quiet,List.append_nil]
      obtain ⟨t,moved,rfl⟩ := Option.map_eq_some_iff.mp (show (c.step e.event).map (Process.serving (s.after e)) = some q from taken)
      have later : CoordinatorRun (fun _ _ => True)
          (.start (lastBoot kRoleProposer greetings) (lastBoot kRoleVerifier greetings))
          ((after ++ [e]).map SocketEvent.event) t := by
        rw [List.map_append]
        exact run.snoc trivial moved
      have longer : past ++ [e] = before ++ (after ++ [e]) := by rw [split,List.append_assoc]
      cases e with
      | connection fd hello =>
          obtain ⟨drained,taken',kept⟩ := drainedOwned owned fresh driver hello
          have accepted : t = c.accepted hello := by
            simp only [Coordinator.step,SocketEvent.event] at moved
            split at moved
            · exact (Option.some.inj moved).symm
            · cases moved
          subst accepted
          exact .serving drained count (kept _ proposer) (kept _ verifier) taken' longer later
      | driverFrame frame =>
          have kept := stepDriver moved (by intro hello same; cases same)
          cases frame with
          | none =>
              have gone : t.driver = false := by
                rw [kept,SocketEvent.event,decide_eq_false (not_not_intro rfl),Bool.and_false]
              have places : (s.driverLost.fds .driver).isSome = t.driver ∧ s.driverLost.fds .proposer = s.fds .proposer ∧
                  s.driverLost.fds .verifier = s.fds .verifier := by
                rw [gone,Sockets.driverLost]
                cases there : s.fds .driver with
                | none => exact ⟨by simp [there],rfl,rfl⟩
                | some fd => exact ⟨by simp,by simp [Sockets.closesocket],by simp [Sockets.closesocket]⟩
              exact .serving (lostOwned owned) count (places.2.1 ▸ proposer) (places.2.2 ▸ verifier) places.1 longer later
          | some bytes =>
              rw [SocketEvent.event,decide_eq_true (by simp),Bool.and_true] at kept
              exact .serving owned count proposer verifier (driver.trans kept.symm) longer later
      | reply r =>
          have kept := stepDriver moved (by intro hello same; cases same)
          rw [SocketEvent.event,decide_eq_true (by simp),Bool.and_true] at kept
          exact .serving owned count proposer verifier (driver.trans kept.symm) longer later

abbrev ProcessRun (listener : Nat) (events : List SocketEvent) (p : Process) : Prop :=
  Runs.Trace Process.step Process.fresh (.listening listener) events p

def greetings (listener : Nat) (events : List SocketEvent) : List (UInt32 × UInt64) :=
  Runs.logged Process.step Process.greeted (.listening listener) events

theorem processHolds {listener : Nat} {events : List SocketEvent} {p : Process} (run : ProcessRun listener events p) :
    Holding (greetings listener events) events p := by
  induction run with
  | nil =>
      have none : Owned { listener := listener, table := {listener} } ∅ := by
        refine ⟨rfl,⟨Finset.mem_singleton_self _,Finset.notMem_empty _⟩,?_,?_,Finset.empty_subset _,
          Finset.card_singleton listener⟩
        · intro r fd taken
          cases taken
        · intro r r' fd taken
          cases taken
      exact .starting none rfl rfl rfl
  | @snoc past p e q before fresh taken ih =>
      have last : Runs.logged Process.step Process.greeted p [e] = p.greeted e := by
        simp only [Runs.logged,taken,List.append_nil]
      have grown : greetings listener (past ++ [e]) = greetings listener past ++ p.greeted e := by
        rw [greetings,Runs.loggedAppend before,last]
        rfl
      rw [grown]
      exact holdingStep ih fresh taken

theorem placeOpen {s : Sockets} {loose : Finset Nat} {r : Role} {fd : Nat} (owned : Owned s loose)
    (taken : s.fds r = some fd) : fd ∈ s.table ∧ fd ≠ s.listener := by
  obtain ⟨inside,other,_⟩ := owned.holds r fd taken
  exact ⟨inside,other⟩

theorem descriptorsHeld {listener : Nat} {events : List SocketEvent} :
    (∀ s proposerBoot verifierBoot, ProcessRun listener events (.starting s proposerBoot verifierBoot) →
      s.stray = [] ∧ (∀ r fd, s.fds r = some fd → fd ∈ s.table ∧ fd ≠ s.listener) ∧
      (∀ r r' fd, s.fds r = some fd → s.fds r' = some fd → r = r') ∧
      s.table.card = (greetings listener events).length + 1) ∧
    ∀ s c, ProcessRun listener events (.serving s c) →
      s.stray = [] ∧ (∀ r fd, s.fds r = some fd → fd ∈ s.table ∧ fd ≠ s.listener) ∧
      (∀ r r' fd, s.fds r = some fd → s.fds r' = some fd → r = r') ∧
      (s.fds .proposer).isSome ∧ (s.fds .verifier).isSome ∧ (s.fds .driver).isSome = c.driver ∧
      s.table.card = (greetings listener events).length + (if c.driver then 1 else 0) ∧
      ∃ before after, events = before ++ after ∧ CoordinatorRun (fun _ _ => True)
        (.start (lastBoot kRoleProposer (greetings listener events)) (lastBoot kRoleVerifier (greetings listener events)))
        (after.map SocketEvent.event) c := by
  constructor
  · intro s proposerBoot verifierBoot run
    cases processHolds run with
    | starting owned count =>
        have all := owned.counted
        exact ⟨owned.stray,fun _ _ => placeOpen owned,owned.apart,by omega⟩
  · intro s c run
    have sound := processHolds run
    generalize greetings listener events = heard at sound ⊢
    cases sound with
    | serving owned count proposer verifier driver split later =>
        refine ⟨owned.stray,fun _ _ => placeOpen owned,owned.apart,
          proposer,verifier,driver,?_,_,_,split,later⟩
        have all := owned.counted
        have places : s.held = 2 + (if c.driver then 1 else 0) := by
          rw [← driver]
          cases there : s.fds .driver <;>
            simp only [Sockets.held,List.filter,proposer,verifier,there,Option.isSome_none,Option.isSome_some,
              List.length_cons,List.length_nil] <;> rfl
        omega

def freshCheck (p : Process) : SocketEvent → Bool
  | .connection fd _ => decide (fd ∉ p.sockets)
  | _ => true

theorem freshChecked (p : Process) (e : SocketEvent) (passed : freshCheck p e = true) : p.fresh e := by
  cases e with
  | connection fd hello =>
      show fd ∉ p.sockets
      exact of_decide_eq_true passed
  | _ => trivial

def reconnecting : List SocketEvent :=
  let hello (role : UInt32) (boot : UInt64) := some (layout { type := Msg.hello, u64Fields := [boot], u32Fields := [role] })
  [.connection 4 (hello kRoleProposer 11),.connection 5 (hello kRoleVerifier 12),.connection 6 (hello kRoleProposer 13),
    .connection 7 (some [0]),.connection 7 (hello kRoleDriver 1),.connection 8 (hello kRoleProposer 14),
    .connection 6 (hello kRoleVerifier 15),.driverFrame none,.connection 5 none,.connection 7 (hello kRoleDriver 2)]

def reconnected (events : List SocketEvent) : Option Process := Runs.exec Process.step freshCheck (.listening 3) events

theorem reconnectedHolds :
    (∃ s proposerBoot verifierBoot, ProcessRun 3 (reconnecting.take 4) (.starting s proposerBoot verifierBoot) ∧
      s.stray = [] ∧ s.table.card = 4) ∧
    ∃ s c, ProcessRun 3 reconnecting (.serving s c) ∧ s.stray = [] ∧ s.table.card = 5 ∧ c.proposerBoot = 14 ∧
      c.prevProposerBoot = 13 := by
  constructor
  · have gathers : (reconnected (reconnecting.take 4)).any (fun p => match p with
        | .starting _ _ _ => true
        | _ => false) = true := by decide +kernel
    obtain ⟨p,ended,seen⟩ := (Option.any_eq_true _ _).mp gathers
    cases p with
    | serving => cases seen
    | failed => cases seen
    | starting s proposerBoot verifierBoot =>
        have run : ProcessRun 3 (reconnecting.take 4) (.starting s proposerBoot verifierBoot) :=
          Runs.ofExec freshChecked ended
        obtain ⟨stray,_,_,count⟩ := descriptorsHeld.1 s proposerBoot verifierBoot run
        have greeted : (greetings 3 (reconnecting.take 4)).length = 3 := by decide +kernel
        rw [greeted] at count
        exact ⟨s,proposerBoot,verifierBoot,run,stray,count⟩
  · have serves : ((reconnected reconnecting).map fun p => match p with
        | .serving _ c => some (c.driver,c.proposerBoot,c.prevProposerBoot)
        | _ => none) = some (some (true,14,13)) := by decide +kernel
    obtain ⟨p,ended,seen⟩ := Option.map_eq_some_iff.mp serves
    cases p with
    | starting => cases seen
    | failed => cases seen
    | serving s c =>
        have run : ProcessRun 3 reconnecting (.serving s c) := Runs.ofExec freshChecked ended
        obtain ⟨stray,_,_,_,_,_,count,_⟩ := descriptorsHeld.2 s c run
        obtain ⟨driver,boots⟩ := Prod.mk.inj (Option.some.inj seen)
        obtain ⟨proposer,before⟩ := Prod.mk.inj boots
        have greeted : (greetings 3 reconnecting).length = 4 := by decide +kernel
        rw [greeted,driver] at count
        exact ⟨s,c,run,stray,count,proposer,before⟩

end SpeculationFabric.Dist
