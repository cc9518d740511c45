import SpeculationFabric.EventIds

/-! What the histories hold. The global one keeps the last two thousand events of all, a
request's own keeps the last five hundred and twelve of its own events, and an event is
the request's own from the moment the request is there. -/
namespace SpeculationFabric

def Fabric.events (f : Fabric) (id : RequestId) : List Event :=
  match f.find id with
  | none => []
  | some rs => rs.events

/- What a step adds to one request's history: nothing before there is a record to add it to. -/
def System.ownRecording (id : RequestId) (s : System) (a : Action) : List Event :=
  if s.target a = some id ∧ ((s.writes a).2.record.or (s.fabric.find id)).isSome then s.recording a else []

def ownRecorded (id : RequestId) (s : System) (actions : List Action) : List Event :=
  Runs.logged System.step (System.ownRecording id) s actions

def ofRequest (id : RequestId) (events : List Event) : List Event := events.filter fun e => e.request = id

theorem recordingNamed (s : System) (a : Action) : ∀ e ∈ s.recording a, s.target a = some e.request := by
  intro e member
  simp only [System.recording] at member
  split at member
  · rename_i id note named _
    cases List.mem_singleton.mp member
    exact named
  · cases member

theorem ofRequestOwn {s : System} {a : Action} {id : RequestId} (named : s.target a = some id) :
    ofRequest id (s.recording a) = s.recording a := by
  refine List.filter_eq_self.mpr fun e member => ?_
  have same := recordingNamed s a e member
  rw [named] at same
  exact decide_eq_true (Option.some.inj same).symm

theorem ofRequestOther {s : System} {a : Action} {id : RequestId} (other : s.target a ≠ some id) :
    ofRequest id (s.recording a) = [] := by
  refine List.filter_eq_nil_iff.mpr fun e member => ?_
  have named := recordingNamed s a e member
  simp only [decide_eq_true_eq]
  rintro rfl
  exact other named

theorem ownWhilePresent {s : System} {a : Action} {id : RequestId} (present : (s.fabric.find id).isSome) :
    s.ownRecording id a = ofRequest id (s.recording a) := by
  have held : ((s.writes a).2.record.or (s.fabric.find id)).isSome := by
    rw [Option.isSome_or,present,Bool.or_true]
  rw [System.ownRecording]
  by_cases named : s.target a = some id
  · rw [if_pos ⟨named,held⟩,ofRequestOwn named]
  · rw [if_neg fun both => named both.1,ofRequestOther named]

theorem ownSuffix (s : System) (a : Action) (id : RequestId) : s.ownRecording id a <:+ ofRequest id (s.recording a) := by
  rw [System.ownRecording]
  split
  · rename_i own
    rw [ofRequestOwn own.1]
  · exact List.nil_suffix

structure OwnHistory (id : RequestId) (past : List Event) (s : System) : Prop where
  latest : s.fabric.events id = past.drop (past.length - 512)
  absent : s.fabric.find id = none → past = []

theorem ownHistoryStep {id : RequestId} {past : List Event} {s s' : System} {a : Action} (registry : Registry s)
    (taken : s.step a = some s') (own : OwnHistory id past s) :
    OwnHistory id (past ++ s.ownRecording id a) s' := by
  have untouched (same : s'.fabric.find id = s.fabric.find id) (nothing : s.ownRecording id a = []) :
      OwnHistory id (past ++ s.ownRecording id a) s' := by
    rw [nothing,List.append_nil]
    refine ⟨?_,fun gone => own.absent (same ▸ gone)⟩
    rw [Fabric.events,same]
    exact own.latest
  rcases stepWrite registry taken with ⟨rfl,rolled⟩ | ⟨target,named,written⟩
  · refine untouched (by rw [rolled]; rfl) ?_
    have unnamed : s.target .rollEpoch ≠ some id := by
      intro named
      cases named
    exact if_neg fun both => unnamed both.1
  by_cases here : target = id
  · subst here
    have after := writeSelf s.fabric (s.writes a).1 target (s.writes a).2
    rw [← written] at after
    have before : ∀ mid, (s.writes a).2.record.or (s.fabric.find target) = some mid →
        mid.events = past.drop (past.length - 512) := by
      intro mid held
      rw [← own.latest,Fabric.events]
      cases stored : (s.writes a).2.record with
      | some rs =>
          rw [stored] at held
          cases Option.some.inj held
          rw [writesEvents named stored]
          cases s.fabric.find target <;> rfl
      | none =>
          rw [stored,Option.none_or] at held
          rw [held]
    cases held : (s.writes a).2.record.or (s.fabric.find target) with
    | none =>
        have nothing : s.ownRecording target a = [] := by
          rw [System.ownRecording,held]
          exact if_neg fun both => Bool.noConfusion both.2
        rw [held] at after
        refine untouched (after.trans ?_) nothing
        exact (Option.or_eq_none_iff.mp held).2.symm
    | some mid =>
        have recording : s.ownRecording target a = s.recording a := by
          rw [System.ownRecording,held]
          exact if_pos ⟨named,rfl⟩
        rw [held,Option.map_some] at after
        refine ⟨?_,fun gone => by rw [after] at gone; cases gone⟩
        rw [Fabric.events,after,recording]
        cases noted : (s.writes a).2.note with
        | none =>
            simp only [Option.map_none,RequestState.heard,System.recording,named,noted,List.append_nil]
            exact before mid held
        | some note =>
            simp only [Option.map_some,RequestState.heard,System.recording,named,noted]
            rw [before mid held]
            exact boundedLatest 512 _ _
  · refine untouched ?_ ?_
    · rw [written]
      exact writeOther _ _ _ (Ne.symm here)
    · exact if_neg fun both => here (Option.some.inj (named.symm.trans both.1))

theorem ownHistoryRun {x : Executors} {cfg : Config} {actions : List Action} {s : System}
    (run : Run x (.start cfg) actions s) (id : RequestId) : OwnHistory id (ownRecorded id (.start cfg) actions) s := by
  have both : Registry s ∧ OwnHistory id (ownRecorded id (.start cfg) actions) s := by
    refine Runs.loggedInvariant run (P := fun past v => Registry v ∧ OwnHistory id past v)
      ⟨registryStart cfg,?_,fun _ => rfl⟩ ?_
    · rfl
    · intro past v a w before _ taken
      exact ⟨registryStep taken before.1,ownHistoryStep before.1 taken before.2⟩
  exact both.2

theorem ownFromPresent {id : RequestId} {t : System} (present : (t.fabric.find id).isSome) (actions : List Action) :
    ownRecorded id t actions = ofRequest id (recorded t actions) := by
  induction actions generalizing t with
  | nil => rfl
  | cons a rest ih =>
      have here := ownWhilePresent (a := a) present
      simp only [ownRecorded,recorded,Runs.logged,ofRequest,List.filter_append] at here ih ⊢
      rw [here]
      refine congrArg (fun later : List Event => ofRequest id (t.recording a) ++ later) ?_
      cases taken : t.step a with
      | none => rfl
      | some u => exact ih (stepFound taken present)

theorem ownSuffixRun {x : Executors} {cfg : Config} {actions : List Action} {s : System}
    (run : Run x (.start cfg) actions s) (id : RequestId) :
    ownRecorded id (.start cfg) actions <:+ ofRequest id (recorded (.start cfg) actions) := by
  induction run with
  | nil => exact List.nil_suffix
  | @snoc past v a w before _ taken ih =>
      have own : ownRecorded id (.start cfg) (past ++ [a]) = ownRecorded id (.start cfg) past ++ v.ownRecording id a := by
        rw [ownRecorded,Runs.loggedAppend before,ownRecorded]
        simp only [Runs.logged,taken,List.append_nil]
      have all : recorded (.start cfg) (past ++ [a]) = recorded (.start cfg) past ++ v.recording a := by
        rw [recorded,Runs.loggedAppend before,recorded]
        simp only [Runs.logged,taken,List.append_nil]
      rw [own,all,ofRequest,List.filter_append]
      cases found : v.fabric.find id with
      | none =>
          rw [(ownHistoryRun before id).absent found,List.nil_append]
          exact (ownSuffix v a id).trans (List.suffix_append _ _)
      | some rs =>
          rw [ownWhilePresent (by rw [found]; rfl)]
          obtain ⟨early,whole⟩ := ih
          exact ⟨early,by rw [← List.append_assoc,whole]; rfl⟩

theorem historiesKeepLatest {x : Executors} {cfg : Config} {actions : List Action} {s : System}
    (run : Run x (.start cfg) actions s) :
    s.fabric.globalEvents =
      (recorded (.start cfg) actions).drop ((recorded (.start cfg) actions).length - 2000) ∧
    ∀ id, s.fabric.events id =
        (ownRecorded id (.start cfg) actions).drop ((ownRecorded id (.start cfg) actions).length - 512) ∧
      ownRecorded id (.start cfg) actions <:+ ofRequest id (recorded (.start cfg) actions) ∧
      ∀ before after t, actions = before ++ after → Run x (.start cfg) before t → (t.fabric.find id).isSome →
        ownRecorded id (.start cfg) actions =
          ownRecorded id (.start cfg) before ++ ofRequest id (recorded t after) := by
  refine ⟨(historyRun run).global,?_⟩
  intro id
  refine ⟨(ownHistoryRun run id).latest,ownSuffixRun run id,?_⟩
  rintro before after t rfl first present
  rw [ownRecorded,Runs.loggedAppend first]
  exact congrArg (fun later : List Event => _ ++ later) (ownFromPresent present after)

theorem earlyEventNotOwn : ∃ s, Run .any (.start {}) [probe,.submit 0 (makeReq ⟨1⟩ []),probe] s ∧
    s.fabric.globalEvents.length = 3 ∧ (s.fabric.events ⟨1⟩).map Event.type = ["request.submit","probe"] := by
  have run : Run .any (.start {}) [probe,.submit 0 (makeReq ⟨1⟩ []),probe] _ :=
    Runs.cons trivial rfl (Runs.cons trivial rfl (.snoc .nil trivial rfl))
  obtain ⟨global,own⟩ := historiesKeepLatest run
  refine ⟨_,run,?_,?_⟩
  · rw [global]
    rfl
  · rw [(own ⟨1⟩).1]
    decide +kernel

end SpeculationFabric
