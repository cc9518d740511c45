import SpeculationFabric.CoordinatorRuns

/-! Results the driver sends by itself. With no request there is nothing to hold one
against and the driver is told so; otherwise the gate compares it with the entry of
the least id, under the epoch that entry was last driven in. -/
namespace SpeculationFabric.Dist

open Wire

def noRequest : Message := { type := Msg.info, body := text "no_request" }

def noRejection : Message := { type := Msg.info, body := text "no_rejection" }

def rejection (rej : String) : Message := { type := Msg.reject, body := text rej }

structure Agrees (m : Message) (r : CReq) (epoch boot : UInt64) : Prop where
  epoch : m.u64Fields[prEpoch]? = some epoch
  boot : m.u64Fields[prProposerBoot]? = some boot
  attempt : m.u64Fields[prAttempt]? = some r.attempt.value
  baseGen : m.u64Fields[prBaseGen]? = some r.authGen.value
  propGen : m.u64Fields[prPropogen]? = some r.propGen

structure First (c : Coordinator) (id : UInt64) (r : CReq) : Prop where
  there : c.requests.lookup id = some r
  least : ∀ other s, c.requests.lookup other = some s → id ≤ other

theorem orderedNil {c : Coordinator} (empty : c.inOrder = []) (id : UInt64) : c.requests.lookup id = none := by
  cases found : c.requests.lookup id with
  | none => rfl
  | some r =>
      have member : ⟨id,r⟩ ∈ c.inOrder := (List.mem_insertionSort _).mpr (AList.mem_lookup_iff.mp found)
      rw [empty] at member
      cases member

theorem orderedFirst {c : Coordinator} {id : UInt64} {r : CReq} {rest : List (Sigma fun _ : UInt64 => CReq)}
    (order : c.inOrder = ⟨id,r⟩ :: rest) : First c id r := by
  have head : ⟨id,r⟩ ∈ c.inOrder := by
    rw [order]
    exact List.mem_cons_self
  refine ⟨AList.mem_lookup_iff.mpr ((List.mem_insertionSort _).mp head),?_⟩
  intro other s found
  have member : ⟨other,s⟩ ∈ c.inOrder := (List.mem_insertionSort _).mpr (AList.mem_lookup_iff.mp found)
  have sorted : c.inOrder.Pairwise (fun left right => left.1 ≤ right.1) := List.pairwise_insertionSort _ _
  rw [order] at member sorted
  rcases List.mem_cons.mp member with same | later
  · cases same
    exact UInt64.le_refl _
  · exact (List.pairwise_cons.mp sorted).1 _ later

theorem First.unique {c : Coordinator} {id other : UInt64} {r s : CReq} (one : First c id r) (two : First c other s) :
    id = other ∧ r = s := by
  have same : id = other := UInt64.le_antisymm (one.least other s two.there) (two.least id r one.there)
  subst same
  exact ⟨rfl,Option.some.inj (one.there.symm.trans two.there)⟩

theorem verdictMessageConforms (r : CReq) (epoch boot attempt basegen propgen current : UInt64) :
    Conforming (verdictMessage (validateAuthority r epoch boot attempt basegen propgen current)) := by
  rw [verdictMessage]
  split
  · exact typedConforms Msg.info rfl rfl (by decide) (by simp) (by simp) (by decide +kernel)
  · exact typedConforms Msg.reject rfl rfl (by decide) (by simp) (by simp) (verdictShort _ _ _ _ _ _ _)

theorem verdictMessageCases (rej : String) :
    (rej = "" ∧ verdictMessage rej = noRejection) ∨ (rej ≠ "" ∧ verdictMessage rej = rejection rej) := by
  rw [verdictMessage]
  split
  · rename_i clear
    exact .inl ⟨clear,rfl⟩
  · rename_i stale
    exact .inr ⟨stale,rfl⟩

theorem rejectionOther (rej : String) : noRejection ≠ rejection rej := by
  intro same
  have types : Msg.info = Msg.reject := congrArg Message.type same
  exact absurd types (by decide)

theorem replayedAnswer {c t : Coordinator} {m : Message} (answers : c.replayed m = some t) :
    (c.inOrder = [] ∧ t = { c with log := c.log ++ [.toDriver noRequest], phase := .waiting }) ∨
    ∃ id r answer, First c id r ∧ t = { c with log := c.log ++ [.toDriver answer], phase := .waiting } ∧
      ((answer = noRejection ∧ Agrees m r r.epoch.value c.proposerBoot) ∨
        (∃ rej, answer = rejection rej) ∧ ¬Agrees m r r.epoch.value c.proposerBoot) := by
  rw [Coordinator.replayed] at answers
  split at answers
  · rename_i empty
    cases answers
    refine .inl ⟨empty,sendConforming _ _ _ ?_⟩
    exact typedConforms Msg.info rfl rfl (by decide) (by simp) (by simp) (by decide +kernel)
  · rename_i id r rest order
    simp only [bind,Option.bind_eq_some_iff] at answers
    obtain ⟨epoch,atEpoch,boot,atBoot,attempt,atAttempt,basegen,atBase,propgen,atProp,last⟩ := answers
    cases last
    refine .inr ⟨id,r,_,orderedFirst order,sendConforming _ _ _ (verdictMessageConforms _ _ _ _ _ _ _),?_⟩
    obtain ⟨clear,told⟩ | ⟨stale,told⟩ :=
      verdictMessageCases (validateAuthority r epoch boot attempt basegen propgen c.proposerBoot)
    · obtain ⟨rfl,rfl,rfl,rfl,rfl⟩ := (validateClear _ _ _ _ _ _ _).mp clear
      exact .inl ⟨told,atEpoch,atBoot,atAttempt,atBase,atProp⟩
    · refine .inr ⟨⟨_,told⟩,?_⟩
      intro agrees
      exact stale ((validateClear _ _ _ _ _ _ _).mpr ⟨Option.some.inj (atEpoch.symm.trans agrees.epoch),
        Option.some.inj (atBoot.symm.trans agrees.boot),Option.some.inj (atAttempt.symm.trans agrees.attempt),
        Option.some.inj (atBase.symm.trans agrees.baseGen),Option.some.inj (atProp.symm.trans agrees.propGen)⟩)

theorem replayedDefined (c : Coordinator) {m : Message} (u64s : 11 ≤ m.u64Fields.length) :
    ∃ t, c.replayed m = some t := by
  obtain ⟨epoch,boot,attempt,basegen,propgen,atEpoch,atBoot,atAttempt,atBase,atProp⟩ := gateFields u64s
  rw [Coordinator.replayed]
  split
  · exact ⟨_,rfl⟩
  · simp only [atEpoch,atBoot,atAttempt,atBase,atProp,bind,Option.bind_some]
    exact ⟨_,rfl⟩

theorem resultTaken {c t : Coordinator} {bytes : List UInt8} {m : Message}
    (taken : c.step (.driverFrame (some bytes)) = some t) (decoded : decode bytes = .ok m)
    (result : m.type = Msg.proposalResult) (u64s : 11 ≤ m.u64Fields.length) : c.replayed m = some t := by
  have notShutdown : m.type ≠ Msg.shutdown := by rw [result]; decide
  obtain ⟨u,found⟩ := replayedDefined c u64s
  have handled : c.driverFrame (some bytes) = u := by
    simp only [Coordinator.driverFrame,decoded]
    rw [Coordinator.handle,if_neg notShutdown,if_pos result,found,Option.getD_some]
  rw [Coordinator.step] at taken
  split at taken
  · split at taken
    · rw [found,← Option.some.inj taken,handled]
    · cases taken
  · cases taken

theorem replayVerdicts {proposerBoot verifierBoot : UInt64} {events : List Event} {c t : Coordinator}
    {bytes : List UInt8} {m : Message}
    (run : CoordinatorRun (fun _ _ => True) (.start proposerBoot verifierBoot) events c)
    (taken : c.step (.driverFrame (some bytes)) = some t) (decoded : decode bytes = .ok m)
    (result : m.type = Msg.proposalResult) (u64s : 11 ≤ m.u64Fields.length) :
    ∃ answer, t = { c with log := c.log ++ [.toDriver answer], phase := .waiting } ∧
      ((∀ id, c.requests.lookup id = none) → answer = noRequest) ∧
      ((∃ id r, c.requests.lookup id = some r) → answer = noRejection ∨ ∃ rej, answer = rejection rej) ∧
      (answer = noRejection → m.u64Fields[prProposerBoot]? = some c.proposerBoot ∧
        ∀ id r, c.requests.lookup id = some r → m.u64Fields[prAttempt]? = some r.attempt.value) ∧
      ∀ id r, m.u64Fields[prRequest]? = some id → First c id r → r.epoch = c.epoch →
        (answer = noRejection ↔ Agrees m r c.epoch.value c.proposerBoot) ∧
        (¬Agrees m r c.epoch.value c.proposerBoot → ∃ rej, answer = rejection rej) := by
  obtain ⟨empty,rfl⟩ | ⟨first,held,answer,least,rfl,verdict⟩ := replayedAnswer (resultTaken taken decoded result u64s)
  · have none := orderedNil empty
    refine ⟨noRequest,rfl,fun _ => rfl,?_,?_,?_⟩
    · rintro ⟨id,r,found⟩
      rw [none id] at found
      cases found
    · intro same
      exact absurd same (by decide +kernel)
    · intro id r _ least _
      have found := least.there
      rw [none id] at found
      cases found
  · have standing := (reachableSound run).steady.standing
    refine ⟨answer,rfl,?_,?_,?_,?_⟩
    · intro none
      have found := least.there
      rw [none first] at found
      cases found
    · intro _
      obtain ⟨clear,_⟩ | ⟨told,_⟩ := verdict
      · exact .inl clear
      · exact .inr told
    · intro clear
      obtain ⟨_,agrees⟩ | ⟨⟨rej,told⟩,_⟩ := verdict
      · refine ⟨agrees.boot,?_⟩
        intro id r found
        rw [(standing id r found).attempt,agrees.attempt,(standing first held least.there).attempt]
      · exact absurd (clear.symm.trans told) (rejectionOther rej)
    · intro id r _ named epoch
      obtain ⟨rfl,rfl⟩ := named.unique least
      rw [epoch] at verdict
      obtain ⟨clear,agrees⟩ | ⟨⟨rej,told⟩,differs⟩ := verdict
      · exact ⟨⟨fun _ => agrees,fun _ => clear⟩,fun differs => absurd agrees differs⟩
      · refine ⟨⟨?_,fun agrees => absurd agrees differs⟩,fun _ => ⟨rej,told⟩⟩
        intro clear
        exact absurd (clear.symm.trans told) (rejectionOther rej)

def replay (reqid epoch propgen : UInt64) : Message :=
  { type := Msg.proposalResult, u64Fields := [reqid,0,1,epoch,0,0,1,7,1,propgen,0], u32Fields := [0,1,3270] }

def roll : Message := { type := Msg.info, body := text "rollEpoch" }

theorem otherReplaysPass :
    (∃ t, CoordinatorRun (fun _ _ => True) (.start 7 8) [fromDriver (replay 42 1 1)] t ∧
      t.log.getLast? = some (.toDriver noRequest)) ∧
    (∃ t, CoordinatorRun (fun _ _ => True) (.start 7 8) (firstCommit ++ [fromDriver (replay 99 1 1)]) t ∧
      t.requests.lookup 99 = none ∧ t.log.getLast? = some (.toDriver noRejection)) ∧
    (∃ t, CoordinatorRun (fun _ _ => True) (.start 7 8) (firstCommit ++ [fromDriver roll,fromDriver (replay 42 1 1)]) t ∧
      t.epoch = ⟨2⟩ ∧ t.log.getLast? = some (.toDriver noRejection)) ∧
    noRequest.type ≠ Msg.reject ∧ noRejection.type ≠ Msg.reject := by
  refine ⟨reaches ?_,reaches ?_,reaches ?_,by decide,by decide⟩
  all_goals decide +kernel

theorem currentReplayPasses :
    ∃ t, CoordinatorRun (fun _ _ => True) (.start 7 8) firstCommit afterFirst ∧
      afterFirst.step (fromDriver (replay 42 1 1)) = some t ∧ 11 ≤ (replay 42 1 1).u64Fields.length ∧
      Agrees (replay 42 1 1) firstRecord afterFirst.epoch.value afterFirst.proposerBoot ∧
      t.log = afterFirst.log ++ [.toDriver noRejection] := by
  obtain ⟨order,_,epoch,boot,_⟩ := afterFirstState
  have run : CoordinatorRun (fun _ _ => True) (.start 7 8) firstCommit afterFirst := runFromRun firstCommitRuns
  have decoded : decode (layout (replay 42 1 1)) = .ok (replay 42 1 1) :=
    layoutDecodes (typedConforms Msg.proposalResult rfl rfl (by decide) (by decide) (by decide) (by decide))
  have agrees : Agrees (replay 42 1 1) firstRecord afterFirst.epoch.value afterFirst.proposerBoot := by
    rw [epoch,boot]
    exact ⟨rfl,rfl,rfl,rfl,rfl⟩
  have wide : 11 ≤ (replay 42 1 1).u64Fields.length := Nat.le_refl 11
  have stepped := afterFirstTakes (some (layout (replay 42 1 1)))
  obtain ⟨answer,same,_,_,_,named⟩ := replayVerdicts run stepped decoded rfl wide
  have clear := (named 42 firstRecord rfl (orderedFirst order) epoch.symm).1.mpr agrees
  refine ⟨_,run,stepped,wide,agrees,?_⟩
  rw [same,clear]

end SpeculationFabric.Dist
