import SpeculationFabric.Sections

/-! The numbers events carry. An event is numbered by the length of the global history
before it, and that history is cut at two thousand entries: the numbers count up to
two thousand and one and then stand still. Every history is part of what was
recorded, in its order. -/
namespace SpeculationFabric

def System.recording (s : System) (a : Action) : List Event :=
  match s.target a,(s.writes a).2.note with
  | some id,some note => [s.fabric.event (s.writes a).1 id note]
  | _,_ => []

def recorded (s : System) (actions : List Action) : List Event := Runs.logged System.step System.recording s actions

theorem settleBranchEvents {rs proposed keep candidate prop outcome count rejected len o rs'}
    (ok : settleBranch rs proposed keep candidate prop outcome count rejected len = some (o,rs')) :
    rs'.events = rs.events := by
  rcases settleBranchCases ok with ⟨_,taken⟩ | ⟨_,_,taken⟩ | ⟨_,_,refused⟩
  · exact (settleAcceptedAs taken).events
  · exact (settleAcceptedAs taken).events
  · cases refused
    rfl

theorem writesEvents {s : System} {a : Action} {id : RequestId} {rs : RequestState} (named : s.target a = some id)
    (stored : (s.writes a).2.record = some rs) : rs.events = ((s.fabric.find id).getD {}).events := by
  have decided := writesDecided named
  generalize (s.writes a).2 = w at decided stored
  cases decided with
  | nothing _ failed => contradiction
  | noted _ note other => contradiction
  | stale note call same found closed => contradiction
  | admitted note same null =>
      cases Option.some.inj stored
      rfl
  | settled ratio note machine call same found live winner acceptance produced branch =>
      obtain ⟨prop,outcome,settled⟩ := branch
      have handed := settleBranchEvents settled
      cases Option.some.inj stored
      rw [found]
      exact handed
  | withdrawn note found live =>
      cases Option.some.inj stored
      rw [found]
      rfl
  | finished note found =>
      cases Option.some.inj stored
      rw [found]
      rfl
  | rolledBack note found =>
      cases Option.some.inj stored
      rw [found]
      rfl
  | retried note found live =>
      cases Option.some.inj stored
      rw [found]
      rfl
  | planned machine bypasses note found live =>
      cases Option.some.inj stored
      rw [found]
      rfl

def numberAfter (n : Nat) : EventId := ⟨UInt64.ofNat (min n 2000 + 1)⟩

structure History (past : List Event) (s : System) : Prop where
  registry : Registry s
  numbered : past.map Event.id = (List.range past.length).map numberAfter
  global : s.fabric.globalEvents = past.drop (past.length - 2000)
  own : ∀ id rs, s.fabric.find id = some rs → List.Sublist rs.events past

theorem boundedSublist {α : Type} (limit : Nat) (xs : List α) : List.Sublist (bounded limit xs) xs := by
  unfold bounded
  split
  · exact List.drop_sublist 1 xs
  · exact List.Sublist.refl xs

theorem boundedLatest {α : Type} (limit : Nat) (past : List α) (a : α) :
    bounded limit (past.drop (past.length - limit) ++ [a]) =
      (past ++ [a]).drop ((past ++ [a]).length - limit) := by
  unfold bounded
  have enough : past.length - limit ≤ past.length := Nat.sub_le _ _
  rw [← List.drop_append_of_le_length enough]
  simp only [List.length_drop,List.length_append,List.length_singleton]
  split
  · rw [List.drop_drop]
    congr 1
    omega
  · congr 1
    omega

theorem historyNumbers {past : List Event} {s : System} (history : History past s) (now : UInt64) (id : RequestId)
    (note : Note) : (s.fabric.event now id note).id = numberAfter past.length := by
  have length : s.fabric.globalEvents.length = min past.length 2000 := by
    rw [history.global,List.length_drop]
    omega
  unfold Fabric.event numberAfter
  rw [length]

theorem writeHistory {past : List Event} {s : System} {a : Action} {id : RequestId} (history : History past s)
    (named : s.target a = some id) :
    let f := s.fabric.write (s.writes a).1 id (s.writes a).2
    let all := past ++ s.recording a
    f.globalEvents = all.drop (all.length - 2000) ∧ ∀ other rs, f.find other = some rs → List.Sublist rs.events all := by
  have old : List.Sublist past (past ++ s.recording a) := List.sublist_append_left _ _
  have before : List.Sublist ((s.fabric.find id).getD {}).events past := by
    cases found : s.fabric.find id with
    | none => exact List.nil_sublist past
    | some rs => exact history.own id rs found
  have kept : ∀ rs, (s.writes a).2.record.or (s.fabric.find id) = some rs → List.Sublist rs.events past := by
    intro rs held
    cases stored : (s.writes a).2.record with
    | none =>
        rw [stored,Option.none_or] at held
        exact history.own id rs held
    | some written =>
        rw [stored] at held
        cases Option.some.inj held
        rw [writesEvents named stored]
        exact before
  constructor
  · rw [writeEvents]
    cases noted : (s.writes a).2.note with
    | none => simp only [System.recording,named,noted,List.append_nil,history.global]
    | some note =>
        simp only [System.recording,named,noted]
        rw [← boundedLatest,history.global]
  · intro other rs found
    by_cases here : other = id
    · subst here
      rw [writeSelf] at found
      obtain ⟨mid,held,rfl⟩ := Option.map_eq_some_iff.mp found
      cases noted : (s.writes a).2.note with
      | none => exact (kept mid held).trans old
      | some note =>
          simp only [System.recording,named,noted]
          exact (boundedSublist 512 _).trans ((kept mid held).append (List.Sublist.refl _))
    · rw [writeOther _ _ _ here] at found
      exact (history.own other rs found).trans old

theorem historyStep {past : List Event} {s s' : System} {a : Action} (history : History past s)
    (taken : s.step a = some s') : History (past ++ s.recording a) s' := by
  have numbered : (past ++ s.recording a).map Event.id =
      (List.range (past ++ s.recording a).length).map numberAfter := by
    unfold System.recording
    split
    · rename_i id note _ _
      rw [List.map_append,history.numbered,List.length_append,List.length_singleton,List.range_succ,List.map_append]
      exact congrArg (fun e => _ ++ [e]) (historyNumbers history _ id note)
    · rw [List.append_nil]
      exact history.numbered
  rcases stepWrite history.registry taken with ⟨rfl,rolled⟩ | ⟨id,named,written⟩
  · have nothing : past ++ s.recording .rollEpoch = past := List.append_nil past
    rw [nothing] at numbered ⊢
    refine ⟨registryStep taken history.registry,numbered,?_,?_⟩
    · rw [rolled]
      exact history.global
    · intro id rs found
      rw [rolled] at found
      exact history.own id rs found
  · obtain ⟨global,own⟩ := writeHistory history named
    refine ⟨registryStep taken history.registry,numbered,?_,?_⟩
    · rw [written]
      exact global
    · intro other rs found
      rw [written] at found
      exact own other rs found

theorem historyRun {x : Executors} {cfg : Config} {actions : List Action} {s : System}
    (run : Run x (.start cfg) actions s) : History (recorded (.start cfg) actions) s := by
  refine Runs.loggedInvariant run ⟨registryStart cfg,rfl,rfl,?_⟩ (fun _ _ _ _ history _ taken => historyStep history taken)
  intro id rs found
  exact absurd found (startRecordless _ _ _)

structure FreshIds (past : List Event) (s : System) : Prop where
  increasing : past.Pairwise (fun e later => e.id.value < later.id.value)
  global : (s.fabric.globalEvents.map Event.id).Nodup
  own : ∀ id rs, s.fabric.find id = some rs → (rs.events.map Event.id).Nodup

theorem numberAfterValue (n : Nat) : (numberAfter n).value.toNat = min n 2000 + 1 := by
  have small : min n 2000 + 1 < 2 ^ 64 := by omega
  exact UInt64.toNat_ofNat_of_lt' small

theorem numbersIncrease (n : Nat) :
    ((List.range n).map numberAfter).Pairwise (fun e later => e.value < later.value) ↔ n ≤ 2001 := by
  rw [List.pairwise_map,List.pairwise_iff_getElem]
  constructor
  · intro increasing
    by_contra long
    have last := increasing 2000 2001 (by rw [List.length_range]; omega) (by rw [List.length_range]; omega) (by omega)
    rw [List.getElem_range,List.getElem_range] at last
    exact absurd last (by decide)
  · intro short i j inside below before
    rw [List.length_range] at below
    rw [List.getElem_range,List.getElem_range,UInt64.lt_iff_toNat_lt,numberAfterValue,numberAfterValue]
    omega

theorem increasingDistinct {past part : List Event} (within : List.Sublist part past)
    (increasing : past.Pairwise (fun e later => e.id.value < later.id.value)) : (part.map Event.id).Nodup := by
  refine List.pairwise_map.mpr ((increasing.sublist within).imp ?_)
  intro e later before same
  rw [same] at before
  exact absurd before (UInt64.lt_irrefl _)

theorem eventIdsFreshExactly {x : Executors} {cfg : Config} {actions : List Action} {s : System}
    (run : Run x (.start cfg) actions s) :
    FreshIds (recorded (.start cfg) actions) s ↔ (recorded (.start cfg) actions).length ≤ 2001 := by
  have history := historyRun run
  have increases : (recorded (.start cfg) actions).Pairwise (fun e later => e.id.value < later.id.value) ↔
      (recorded (.start cfg) actions).length ≤ 2001 := by
    rw [← numbersIncrease,← history.numbered,List.pairwise_map]
  constructor
  · intro fresh
    exact increases.mp fresh.increasing
  · intro short
    have increasing := increases.mpr short
    refine ⟨increasing,?_,?_⟩
    · rw [history.global]
      exact increasingDistinct (List.drop_sublist _ _) increasing
    · intro id rs found
      exact increasingDistinct (history.own id rs found) increasing

def probe : Action := .emitEvent 0 ⟨1⟩ "probe" "" "\x7b\x7d"

def probes (n : Nat) : List Action := [.submit 0 (makeReq ⟨1⟩ [])] ++ List.replicate n probe

theorem probesRun (n : Nat) : ∃ s rs, Run .any (.start {}) (probes n) s ∧
    (recorded (.start {}) (probes n)).length = n + 1 ∧ s.fabric.find ⟨1⟩ = some rs ∧
    rs.events = (recorded (.start {}) (probes n)).drop ((recorded (.start {}) (probes n)).length - 512) := by
  induction n with
  | zero => exact ⟨_,_,.snoc .nil trivial rfl,rfl,rfl,rfl⟩
  | succ n ih =>
      obtain ⟨s,rs,run,length,found,events⟩ := ih
      have more : probes (n + 1) = probes n ++ [probe] := by
        simp only [probes,List.replicate_succ',List.append_assoc]
      have noted : recorded (.start {}) (probes n ++ [probe]) = recorded (.start {}) (probes n) ++ s.recording probe :=
        Runs.loggedAppend run [probe]
      have written := noteWrite s.fabric 0 ⟨1⟩ "probe" "" "\x7b\x7d"
      rw [more,noted]
      refine ⟨_,rs.heard (some (s.fabric.event 0 ⟨1⟩ ⟨"probe","","\x7b\x7d"⟩)),run.snoc trivial rfl,?_,?_,?_⟩
      · rw [List.length_append,length]
        rfl
      · show Fabric.find (s.fabric.pushEvent 0 ⟨1⟩ "probe" "" "\x7b\x7d") ⟨1⟩ = _
        rw [written,writeSelf,Option.none_or,found]
        rfl
      · show bounded 512 (rs.events ++ _) = _
        rw [events]
        exact boundedLatest 512 _ _

theorem numbersRepeat {k : Nat} (early : k ≤ 2000) : ¬ (((List.range 2002).map numberAfter).drop k).Nodup := by
  intro distinct
  have length : (((List.range 2002).map numberAfter).drop k).length = 2002 - k := by
    rw [List.length_drop,List.length_map,List.length_range]
  have same := List.pairwise_iff_getElem.mp distinct (2000 - k) (2001 - k) (by omega) (by omega) (by omega)
  rw [List.getElem_drop,List.getElem_drop,List.getElem_map,List.getElem_map,List.getElem_range,List.getElem_range] at same
  apply same
  unfold numberAfter
  congr 3
  omega

theorem eventIdsRepeat : ∃ actions s, Run .any (.start {}) actions s ∧
    (recorded (.start {}) actions).length = 2002 ∧
    ¬ (recorded (.start {}) actions).Pairwise (fun e later => e.id.value < later.id.value) ∧
    ¬ (s.fabric.globalEvents.map Event.id).Nodup ∧
    ∃ rs, s.fabric.find ⟨1⟩ = some rs ∧ ¬ (rs.events.map Event.id).Nodup := by
  obtain ⟨s,rs,run,length,found,events⟩ := probesRun 2001
  have history := historyRun run
  have numbered := history.numbered
  rw [length] at numbered
  refine ⟨probes 2001,s,run,length,?_,?_,rs,found,?_⟩
  · rw [← List.pairwise_map (f := Event.id) (R := fun e later => e.value < later.value),numbered,numbersIncrease]
    decide
  · rw [history.global,length,List.map_drop,numbered]
    exact numbersRepeat (by decide)
  · rw [events,length,List.map_drop,numbered]
    exact numbersRepeat (by decide)

theorem probedOnceFresh : ∃ actions s, Run .any (.start {}) actions s ∧ FreshIds (recorded (.start {}) actions) s := by
  obtain ⟨s,rs,run,length,_⟩ := probesRun 1
  exact ⟨probes 1,s,run,(eventIdsFreshExactly run).mpr (by rw [length]; decide)⟩

end SpeculationFabric
