import SpeculationFabric.Identity
import SpeculationFabric.Runs
import SpeculationFabric.Tickets

/-! The identifier factory under concurrent calls. A call increments the shared counter
once, or twice when its first draw is zero, and other calls may increment it between the
two. The identifiers handed out are counted against one turn of the counter. -/
namespace SpeculationFabric

structure IdFactory (tag : Tag) (w : Nat) where
  next_ : BitVec w := 1
  deriving DecidableEq, Repr

variable {tag : Tag} {w : Nat}

def IdFactory.startingAt (start : BitVec w) : IdFactory tag w := { next_ := if start = 0 then 1 else start }

def IdFactory.fetchAdd (f : IdFactory tag w) : BitVec w × IdFactory tag w := (f.next_,{ next_ := f.next_ + 1 })

def IdFactory.next (f : IdFactory tag w) : StrongId tag (BitVec w) × IdFactory tag w :=
  let (v,f) := f.fetchAdd
  if v = 0 then
    let (u,f) := f.fetchAdd
    (⟨u⟩,f)
  else (⟨v⟩,f)

inductive IdFactory.Constructed : IdFactory tag w → Prop where
  | new : Constructed {}
  | startingAt (start : BitVec w) : Constructed (.startingAt start)

inductive NextCall (tag : Tag) (w : Nat) where
  | entered
  | drewZero
  | returned (id : StrongId tag (BitVec w))
  deriving DecidableEq, Repr

def NextCall.id : NextCall tag w → Option (StrongId tag (BitVec w))
  | .returned id => some id
  | _ => none

def NextCall.step (f : IdFactory tag w) : NextCall tag w → Option (NextCall tag w × IdFactory tag w)
  | .entered =>
      let (v,f) := f.fetchAdd
      some (if v = 0 then .drewZero else .returned ⟨v⟩,f)
  | .drewZero =>
      let (v,f) := f.fetchAdd
      some (.returned ⟨v⟩,f)
  | .returned _ => none

structure Callers (tag : Tag) (w : Nat) where
  factory : IdFactory tag w
  calls : List (NextCall tag w) := []
  deriving DecidableEq, Repr

inductive CallerAction where
  | enter
  | fetchAdd (index : Nat)
  deriving DecidableEq, Repr

def Callers.step (c : Callers tag w) : CallerAction → Option (Callers tag w)
  | .enter => some { c with calls := c.calls ++ [.entered] }
  | .fetchAdd index => do
      let call ← c.calls[index]?
      let (call,factory) ← call.step c.factory
      some { factory := factory, calls := c.calls.set index call }

def Callers.ids (c : Callers tag w) : List (StrongId tag (BitVec w)) := c.calls.filterMap NextCall.id

theorem constructedNonzero {f : IdFactory tag w} (wide : 0 < w) (made : f.Constructed) : f.next_ ≠ 0 := by
  have one : (1 : BitVec w) ≠ 0 := by
    intro same
    have values := congrArg BitVec.toNat same
    simp [Nat.one_mod_two_pow wide] at values
  cases made with
  | new => exact one
  | startingAt start =>
      simp only [IdFactory.startingAt]
      split
      · exact one
      · assumption

theorem enteredStep (f : IdFactory tag w) : NextCall.step f .entered =
    if f.next_ = 0 then some (.drewZero,{ next_ := f.next_ + 1 })
    else some (.returned ⟨f.next_⟩,{ next_ := f.next_ + 1 }) := by
  simp only [NextCall.step]
  split
  · exact (if_pos (by assumption)).symm
  · exact (if_neg (by assumption)).symm

inductive Drew (c : Callers tag w) : Callers tag w → Prop where
  | entered : Drew c { c with calls := c.calls ++ [.entered] }
  | zero (index : Nat) (there : c.calls[index]? = some .entered) (drawn : c.factory.next_ = 0) :
      Drew c { factory := { next_ := c.factory.next_ + 1 }, calls := c.calls.set index .drewZero }
  | first (index : Nat) (there : c.calls[index]? = some .entered) (drawn : c.factory.next_ ≠ 0) :
      Drew c { factory := { next_ := c.factory.next_ + 1 }, calls := c.calls.set index (.returned ⟨c.factory.next_⟩) }
  | second (index : Nat) (there : c.calls[index]? = some .drewZero) :
      Drew c { factory := { next_ := c.factory.next_ + 1 }, calls := c.calls.set index (.returned ⟨c.factory.next_⟩) }

theorem stepDrew {c d : Callers tag w} {action : CallerAction} (taken : c.step action = some d) : Drew c d := by
  cases action with
  | enter => cases taken; exact .entered
  | fetchAdd index =>
      simp only [Callers.step,bind,Option.bind_eq_some_iff] at taken
      obtain ⟨call,there,⟨after,factory⟩,moved,last⟩ := taken
      cases last
      cases call with
      | returned id => cases moved
      | drewZero => cases moved; exact .second index there
      | entered =>
          rw [enteredStep] at moved
          split at moved
          · cases moved
            exact .zero index there (by assumption)
          · cases moved
            exact .first index there (by assumption)

theorem nextAlone (c : Callers tag w) : ∃ actions, Runs.Trace Callers.step (fun _ _ => True) c actions
    { factory := c.factory.next.2, calls := c.calls ++ [.returned c.factory.next.1] } := by
  have entered : Callers.step c .enter = some { c with calls := c.calls ++ [.entered] } := rfl
  have drawn (f : IdFactory tag w) (call : NextCall tag w) :
      Callers.step { factory := f, calls := c.calls ++ [call] } (.fetchAdd c.calls.length) =
        (call.step f).map (fun moved => { factory := moved.2, calls := c.calls ++ [moved.1] }) := by
    simp only [Callers.step,List.getElem?_concat_length,bind,Option.bind_some]
    cases call.step f with
    | none => rfl
    | some moved => simp
  by_cases zero : c.factory.next_ = 0
  · refine ⟨[.enter,.fetchAdd c.calls.length,.fetchAdd c.calls.length],Runs.cons trivial entered ?_⟩
    have first := drawn c.factory .entered
    rw [enteredStep,if_pos zero] at first
    have second := drawn { next_ := c.factory.next_ + 1 } .drewZero
    refine Runs.cons trivial first (Runs.cons trivial second ?_)
    have both : c.factory.next = (⟨c.factory.next_ + 1⟩,{ next_ := c.factory.next_ + 1 + 1 }) := if_pos zero
    rw [both]
    exact .nil
  · refine ⟨[.enter,.fetchAdd c.calls.length],Runs.cons trivial entered ?_⟩
    have first := drawn c.factory .entered
    rw [enteredStep,if_neg zero] at first
    refine Runs.cons trivial first ?_
    have once : c.factory.next = (⟨c.factory.next_⟩,{ next_ := c.factory.next_ + 1 }) := if_neg zero
    rw [once]
    exact .nil

/- After `n` increments from `start`: everything drawn but zero has been handed out, and a call that
holds a zero accounts for the one there was. -/
structure HandedOut (start : BitVec w) (c : Callers tag w) (n : Nat) : Prop where
  counter : c.factory.next_ = start + BitVec.ofNat w n
  within : n ≤ 2^w
  ids : (c.ids.map StrongId.value).Perm ((Tickets.drawn start n).filter (· != 0))
  held : .drewZero ∈ c.calls → 0 ∈ Tickets.drawn start n

theorem idsEntered (c : Callers tag w) (f : IdFactory tag w) :
    Callers.ids { factory := f, calls := c.calls ++ [.entered] } = c.ids := by
  simp only [Callers.ids,List.filterMap_append,List.filterMap_cons,NextCall.id,List.filterMap_nil,List.append_nil]

section draw
variable {c : Callers tag w} {call : NextCall tag w} {index : Nat} (there : c.calls[index]? = some call)
  (open_ : call.id = none)
include there open_

theorem idsHeld (f : IdFactory tag w) : (Callers.ids { factory := f, calls := c.calls.set index .drewZero }).Perm c.ids :=
  Tickets.filterMapSet NextCall.id .drewZero there open_

theorem idsReturned (f : IdFactory tag w) (id : StrongId tag (BitVec w)) :
    (Callers.ids { factory := f, calls := c.calls.set index (.returned id) }).Perm (id :: c.ids) :=
  Tickets.filterMapSet NextCall.id (.returned id) there open_

end draw

theorem idsGrow {c d : Callers tag w} (drew : Drew c d) : c.ids.length ≤ d.ids.length := by
  cases drew with
  | entered => rw [idsEntered]
  | zero index there drawn => rw [(idsHeld there rfl _).length_eq]
  | first index there drawn =>
      rw [(idsReturned there rfl _ _).length_eq,List.length_cons]
      omega
  | second index there =>
      rw [(idsReturned there rfl _ _).length_eq,List.length_cons]
      omega

section held
variable {start : BitVec w} {c d : Callers tag w} {n : Nat} (before : HandedOut start c n)
include before

theorem HandedOut.turnOpen {id : StrongId tag (BitVec w)} (one : d.ids.Perm (id :: c.ids))
    (few : d.ids.length < 2^w) : n < 2^w := by
  refine Nat.lt_of_le_of_ne before.within ?_
  rintro rfl
  have out := before.ids.length_eq
  rw [Tickets.turnWithout,List.length_map] at out
  rw [one.length_eq,List.length_cons] at few
  omega

theorem HandedOut.zeroOpen (nonzero : start ≠ 0) (zero : c.factory.next_ = 0) : n < 2^w := by
  refine Nat.lt_of_le_of_ne before.within ?_
  rintro rfl
  have back := before.counter
  rw [Tickets.drawnAround,zero] at back
  exact nonzero back.symm

theorem HandedOut.counterNext : c.factory.next_ + 1 = start + BitVec.ofNat w (n + 1) ∧
    Tickets.drawn start (n + 1) = Tickets.drawn start n ++ [c.factory.next_] := by
  rw [before.counter,Tickets.drawnNext,BitVec.ofNat_add,BitVec.add_assoc]
  exact ⟨rfl,rfl⟩

theorem HandedOut.fresh (room : n < 2^w) : c.factory.next_ ∉ Tickets.drawn start n := by
  rw [before.counter]
  exact Tickets.drawnFresh start room

theorem HandedOut.returns {index : Nat} {call : NextCall tag w} (there : c.calls[index]? = some call)
    (open_ : call.id = none) (room : n < 2^w) (some_ : c.factory.next_ ≠ 0) :
    HandedOut start { factory := { next_ := c.factory.next_ + 1 },
                      calls := c.calls.set index (.returned ⟨c.factory.next_⟩) } (n + 1) := by
  obtain ⟨counter,grown⟩ := before.counterNext
  refine ⟨counter,room,?_,?_⟩
  · have out := (idsReturned there open_ { next_ := c.factory.next_ + 1 } ⟨c.factory.next_⟩).map StrongId.value
    rw [grown,List.filter_append,List.filter_cons_of_pos (by simpa using some_),List.filter_nil]
    exact (out.trans (before.ids.cons _)).trans (List.perm_append_singleton _ _).symm
  · intro member
    rw [grown]
    rcases List.mem_or_eq_of_mem_set member with old | new
    · exact List.mem_append_left _ (before.held old)
    · cases new

theorem handedOutStep (nonzero : start ≠ 0) (drew : Drew c d) (few : d.ids.length < 2^w) :
    ∃ m, HandedOut start d m := by
  cases drew with
  | entered =>
      refine ⟨n,before.counter,before.within,?_,?_⟩
      · rw [idsEntered]
        exact before.ids
      · intro member
        rcases List.mem_append.mp member with old | new
        · exact before.held old
        · simp at new
  | zero index there drawn =>
      obtain ⟨counter,grown⟩ := before.counterNext
      refine ⟨n + 1,counter,before.zeroOpen nonzero drawn,?_,?_⟩
      · have out := (idsHeld there rfl { next_ := c.factory.next_ + 1 }).map StrongId.value
        rw [grown,List.filter_append,List.filter_cons_of_neg (by simpa using drawn),List.filter_nil,List.append_nil]
        exact out.trans before.ids
      · intro _
        rw [grown,drawn]
        exact List.mem_append_right _ (List.mem_singleton_self _)
  | first index there drawn =>
      exact ⟨n + 1,before.returns there rfl (before.turnOpen (idsReturned there rfl _ _) few) drawn⟩
  | second index there =>
      have room := before.turnOpen (idsReturned there rfl _ _) few
      -- the zero of this turn is already in this call's hands, so it cannot draw it again
      have some_ : c.factory.next_ ≠ 0 := by
        intro zero
        exact before.fresh room (zero ▸ before.held (List.mem_of_getElem? there))
      exact ⟨n + 1,before.returns there rfl room some_⟩

end held

theorem handedOutRun {f : IdFactory tag w} {actions : List CallerAction} {c : Callers tag w} (nonzero : f.next_ ≠ 0)
    (run : Runs.Trace Callers.step (fun _ _ => True) { factory := f } actions c) (few : c.ids.length < 2^w) :
    ∃ n, HandedOut f.next_ c n := by
  refine Runs.invariant (P := fun c => c.ids.length < 2^w → ∃ n, HandedOut f.next_ c n) run ?_ ?_ few
  · intro _
    refine ⟨0,?_,Nat.zero_le _,?_,?_⟩
    · simp
    · exact .refl _
    · intro member
      cases member
  · intro before action after out _ taken few
    have drew := stepDrew taken
    obtain ⟨n,held⟩ := out (Nat.lt_of_le_of_lt (idsGrow drew) few)
    exact handedOutStep held nonzero drew few

theorem nextNeverRepeats {f : IdFactory tag w} {actions : List CallerAction} {c : Callers tag w} (made : f.Constructed)
    (run : Runs.Trace Callers.step (fun _ _ => True) { factory := f } actions c) (few : c.ids.length ≤ 2^w - 1) :
    (∀ id ∈ c.ids, id.isNull = false) ∧ c.ids.Nodup := by
  cases w with
  | zero =>
      have none : c.ids = [] := List.length_eq_zero_iff.mp (by omega)
      rw [none]
      exact ⟨by simp,List.nodup_nil⟩
  | succ w =>
      have turn := Nat.two_pow_pos (w + 1)
      obtain ⟨n,held⟩ := handedOutRun (constructedNonzero (by omega) made) run (by omega)
      refine ⟨?_,?_⟩
      · intro id member
        have value := held.ids.mem_iff.mp (List.mem_map_of_mem member)
        exact decide_eq_false (bne_iff_ne.mp (List.mem_filter.mp value).2)
      · have unique := (Tickets.drawnUnique f.next_ held.within).filter (fun v => v != 0)
        exact List.Nodup.of_map StrongId.value (held.ids.nodup_iff.mpr unique)

/- Two bits, three calls at once: the second draws the zero, and the third draws before it draws again. -/
theorem aroundNeverRepeats : ∃ c : Callers .request 2, c.ids = [⟨3⟩,⟨2⟩,⟨1⟩] ∧
    (∀ id ∈ c.ids, id.isNull = false) ∧ c.ids.Nodup := by
  have always (c : Callers .request 2) (action : CallerAction) : (fun _ _ => true) c action = true → True :=
    fun _ => trivial
  have run : Runs.Trace Callers.step (fun _ _ => True) { factory := IdFactory.startingAt 3 }
      [.enter,.enter,.enter,.fetchAdd 0,.fetchAdd 1,.fetchAdd 2,.fetchAdd 1]
      (⟨{ next_ := 3 },[.returned ⟨3⟩,.returned ⟨2⟩,.returned ⟨1⟩]⟩ : Callers .request 2) := Runs.ofExec always rfl
  exact ⟨_,rfl,nextNeverRepeats (.startingAt 3) run (by decide)⟩

end SpeculationFabric
