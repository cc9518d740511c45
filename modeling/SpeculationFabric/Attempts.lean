import SpeculationFabric.Registration

/-! Attempts and the limit on them. The attempt id counts the tries, the first included,
and the limit is held against a counter of the retries, which is one behind. So a
request with room for `n` attempts can reach attempt `n + 1`, by the retry that is made
after `n - 1` others. -/
namespace SpeculationFabric

def Retries (s : System) (id : RequestId) (a : Action) : Prop :=
  ∃ now attempt, a = .retry now id ∧ (s.fabric.retry now id).1 = .ok attempt

structure Retryable (rs : RequestState) : Prop where
  live : rs.terminal = false ∧ rs.cancelled = false
  below : ¬ (rs.req.maxAttempts ≠ 0 ∧ rs.retryCount ≥ rs.req.maxAttempts)

theorem retryAnswers {f : Fabric} {id : RequestId} {rs : RequestState} (found : f.find id = some rs) (now : UInt64) :
    (∃ attempt, (f.retry now id).1 = .ok attempt) ↔ Retryable rs := by
  unfold Fabric.retry
  simp only [found]
  split
  · rename_i limit
    refine iff_of_false ?_ (fun retryable => retryable.below limit)
    rintro ⟨attempt,refused⟩
    cases refused
  · rename_i below
    split
    · rename_i closed
      refine iff_of_false ?_ ?_
      · rintro ⟨attempt,refused⟩
        cases refused
      · intro retryable
        rw [retryable.live.1,retryable.live.2] at closed
        contradiction
    · rename_i unfinished
      exact iff_of_true ⟨_,rfl⟩ ⟨by simpa using unfinished,below⟩

theorem retryStores {f : Fabric} {id : RequestId} {rs : RequestState} (found : f.find id = some rs)
    (retryable : Retryable rs) (now : UInt64) :
    ∃ events, (f.retry now id).2.find id = some { rs.retried with events := events } := by
  unfold Fabric.retry
  have unfinished : ¬(rs.terminal || rs.cancelled) = true := by
    rw [retryable.live.1,retryable.live.2]
    decide
  simp only [found]
  rw [if_neg retryable.below,if_neg unfinished]
  exact updateSelf f now id rs.retried _ _ _

def Replaces (id : RequestId) (a : Action) : Prop := ∃ now req, a = .submit now req ∧ req.id = id ∧ id.isNull = true

theorem attemptStep {s s' : System} {a : Action} {id : RequestId} {rs : RequestState} (registry : Registry s)
    (found : s.fabric.find id = some rs) (kept : ¬Replaces id a) (taken : s.step a = some s') :
    ∃ rs', s'.fabric.find id = some rs' ∧ rs'.req = rs.req ∧
      (Retries s id a ∧ Retryable rs ∧ rs'.attempt = ⟨rs.attempt.value + 1⟩ ∧ rs'.retryCount = rs.retryCount + 1 ∨
        ¬Retries s id a ∧ rs'.attempt = rs.attempt ∧ rs'.retryCount = rs.retryCount) := by
  by_cases retries : Retries s id a
  · obtain ⟨now,attempt,rfl,answered⟩ := retries
    have retryable := (retryAnswers found now).mp ⟨attempt,answered⟩
    obtain ⟨events,stored⟩ := retryStores found retryable now
    cases Option.some.inj taken
    exact ⟨_,stored,rfl,.inl ⟨⟨now,attempt,rfl,answered⟩,retryable,rfl,rfl⟩⟩
  · obtain ⟨rs',stored,effect⟩ := stepEffect taken found
    refine ⟨rs',stored,?_⟩
    cases effect with
    | retried events live below =>
        obtain ⟨attempt,answered⟩ := (retryAnswers found _).mpr ⟨live,below⟩
        exact absurd ⟨_,attempt,rfl,answered⟩ retries
    | resubmitted events same null =>
        rw [registry.named id rs found] at null
        exact absurd ⟨_,_,rfl,same,null⟩ kept
    | settled call same facts =>
        exact ⟨facts.advanced.req,.inr ⟨retries,facts.advanced.attempt,facts.advanced.retryCount⟩⟩
    | _ => exact ⟨rfl,.inr ⟨retries,rfl,rfl⟩⟩

def LastRetry (rs : RequestState) : Prop :=
  rs.terminal = false ∧ rs.cancelled = false ∧ rs.retryCount + 1 = rs.req.maxAttempts

def Spared (id : RequestId) (s : System) (a : Action) : Prop :=
  ¬Replaces id a ∧ ∀ now rs, a = .retry now id → s.fabric.find id = some rs → ¬LastRetry rs

structure Attempted (req : SpeculationRequest) (k : Nat) (rs : RequestState) : Prop where
  request : rs.req = req
  counted : rs.attempt.value.toNat + k = 1 + rs.retryCount.toNat
  positive : 1 ≤ rs.attempt.value.toNat
  bounded : rs.attempt.value.toNat ≤ req.maxAttempts.toNat

section limited
variable {req : SpeculationRequest} {k : Nat} {rs rs' : RequestState} (limited : 1 ≤ req.maxAttempts)
include limited

theorem retryableBelow (same : rs.req = req) (retryable : Retryable rs) : rs.retryCount.toNat < req.maxAttempts.toNat := by
  have below := retryable.below
  have least : 1 ≤ req.maxAttempts.toNat := UInt32.le_iff_toNat_le.mp limited
  rw [same,not_and_or,not_not,ge_iff_le,UInt32.le_iff_toNat_le] at below
  rcases below with none | under
  · rw [none] at least
    contradiction
  · omega

theorem retriedAttempted (attempted : Attempted req k rs) (retryable : Retryable rs) (same : rs'.req = rs.req)
    (attempt : rs'.attempt = ⟨rs.attempt.value + 1⟩) (count : rs'.retryCount = rs.retryCount + 1) :
    rs'.attempt.value.toNat = rs.attempt.value.toNat + 1 ∧ rs'.retryCount.toNat = rs.retryCount.toNat + 1 ∧
    (¬LastRetry rs → Attempted req k rs') := by
  have below := retryableBelow limited attempted.request retryable
  have bounded := attempted.bounded
  have range := req.maxAttempts.toNat_lt
  have one : (1 : UInt64).toNat = 1 ∧ (1 : UInt32).toNat = 1 := ⟨rfl,rfl⟩
  have attempts : rs'.attempt.value.toNat = rs.attempt.value.toNat + 1 := by
    rw [attempt,UInt64.toNat_add,one.1]
    exact Nat.mod_eq_of_lt (by omega)
  have counts : (rs.retryCount + 1).toNat = rs.retryCount.toNat + 1 := by
    rw [UInt32.toNat_add,one.2]
    exact Nat.mod_eq_of_lt (by omega)
  refine ⟨attempts,by rw [count,counts],?_⟩
  intro spared
  have apart : rs.retryCount.toNat + 1 ≠ req.maxAttempts.toNat := by
    intro equal
    rw [← counts,UInt32.toNat_inj,← attempted.request] at equal
    exact spared ⟨retryable.live.1,retryable.live.2,equal⟩
  have counted := attempted.counted
  refine ⟨same.trans attempted.request,?_,?_,?_⟩
  · rw [attempts,count,counts]
    omega
  · omega
  · omega

theorem lastRetryable (same : rs.req = req) (last : LastRetry rs) :
    Retryable rs ∧ rs.retryCount.toNat + 1 = req.maxAttempts.toNat := by
  obtain ⟨unfinished,uncancelled,equal⟩ := last
  have least : 1 ≤ req.maxAttempts.toNat := UInt32.le_iff_toNat_le.mp limited
  have range := rs.retryCount.toNat_lt
  have one : (1 : UInt32).toNat = 1 := rfl
  have counts := congrArg UInt32.toNat equal
  rw [same,UInt32.toNat_add,one] at counts
  have value : rs.retryCount.toNat + 1 = req.maxAttempts.toNat := by omega
  refine ⟨⟨⟨unfinished,uncancelled⟩,?_⟩,value⟩
  rintro ⟨_,above⟩
  rw [same,ge_iff_le,UInt32.le_iff_toNat_le] at above
  omega

theorem attemptedStep {s s' : System} {a : Action} (registry : Registry s)
    (found : s.fabric.find req.id = some rs) (attempted : Attempted req k rs)
    (spared : Spared req.id s a) (taken : s.step a = some s') :
    ∃ rs', s'.fabric.find req.id = some rs' ∧ Attempted req k rs' := by
  obtain ⟨rs',stored,same,moved | ⟨_,attempt,count⟩⟩ := attemptStep registry found spared.1 taken
  · obtain ⟨⟨now,_,rfl,_⟩,retryable,attempt,count⟩ := moved
    exact ⟨rs',stored,(retriedAttempted limited attempted retryable same attempt count).2.2
      (spared.2 now rs rfl found)⟩
  · refine ⟨rs',stored,same.trans attempted.request,?_,?_,?_⟩
    · rw [attempt,count]
      exact attempted.counted
    · rw [attempt]
      exact attempted.positive
    · rw [attempt]
      exact attempted.bounded

end limited

theorem attemptedRun {x : Executors} {cfg : Config} {before after : List Action} {v s : System} {now : UInt64}
    {req : SpeculationRequest} (run : Run x (.start cfg) before v) (accepted : (v.fabric.submit now req).1 = .ok ())
    (limited : 1 ≤ req.maxAttempts)
    (later : Runs.Trace System.step (fun u a => x.admits u a ∧ Spared req.id u a)
      { v with fabric := (v.fabric.submit now req).2 } after s) :
    Registry s ∧ ∃ k rs, s.fabric.find req.id = some rs ∧ Attempted req k rs ∧ (req.id.isNull = false → k = 0) := by
  have start : Registry { v with fabric := (v.fabric.submit now req).2 } :=
    registryStep (a := .submit now req) rfl (registry run)
  obtain ⟨old,events,stored,origin⟩ := submittedRecord accepted
  have admitted : Attempted req old.retryCount.toNat { old.admitted v.fabric.epoch req with events := events } :=
    ⟨rfl,rfl,Nat.le_refl 1,UInt32.le_iff_toNat_le.mp limited⟩
  have zero : req.id.isNull = false → old.retryCount.toNat = 0 := by
    intro real
    rcases origin with ⟨found,null⟩ | ⟨_,rfl⟩
    · rw [(registry run).named req.id old found,real] at null
      contradiction
    · rfl
  have both : Registry s ∧ ∃ rs, s.fabric.find req.id = some rs ∧ Attempted req old.retryCount.toNat rs := by
    refine Runs.invariant (P := fun u => Registry u ∧ ∃ rs, u.fabric.find req.id = some rs ∧
      Attempted req old.retryCount.toNat rs) later ⟨start,_,stored,admitted⟩ ?_
    rintro u a w ⟨registry,rs,found,attempted⟩ ⟨_,spared⟩ taken
    exact ⟨registryStep taken registry,attemptedStep limited registry found attempted spared taken⟩
  obtain ⟨registry,rs,found,attempted⟩ := both
  exact ⟨registry,_,rs,found,attempted,zero⟩

theorem attemptsBoundedWhen {x : Executors} {cfg : Config} {before after : List Action} {v s : System} {now : UInt64}
    {req : SpeculationRequest} (run : Run x (.start cfg) before v) (accepted : (v.fabric.submit now req).1 = .ok ())
    (limited : 1 ≤ req.maxAttempts)
    (later : Runs.Trace System.step (fun u a => x.admits u a ∧ Spared req.id u a)
      { v with fabric := (v.fabric.submit now req).2 } after s) :
    (∃ rs, (v.fabric.submit now req).2.find req.id = some rs ∧ rs.attempt = ⟨1⟩) ∧
    ∃ rs, s.fabric.find req.id = some rs ∧ rs.req = req ∧ 1 ≤ rs.attempt.value.toNat ∧
      rs.attempt.value.toNat ≤ req.maxAttempts.toNat ∧
      (∀ a s', ¬Replaces req.id a → s.step a = some s' → ∃ rs', s'.fabric.find req.id = some rs' ∧
        (Retries s req.id a → rs'.attempt.value.toNat = rs.attempt.value.toNat + 1) ∧
        (¬Retries s req.id a → rs'.attempt = rs.attempt)) ∧
      (req.id.isNull = false → ∀ a s', s.step a = some s' →
        ((∃ rs', s'.fabric.find req.id = some rs' ∧ rs'.attempt.value.toNat ≤ req.maxAttempts.toNat) ↔
          Spared req.id s a)) := by
  obtain ⟨registry,k,rs,found,attempted,zero⟩ := attemptedRun run accepted limited later
  obtain ⟨_,_,admitted,_⟩ := submittedRecord accepted
  refine ⟨⟨_,admitted,rfl⟩,rs,found,attempted.request,attempted.positive,attempted.bounded,?_,?_⟩
  · intro a s' kept taken
    obtain ⟨rs',stored,same,⟨retries,retryable,attempt,count⟩ | ⟨none,attempt,_⟩⟩ :=
      attemptStep registry found kept taken
    · have moved := (retriedAttempted limited attempted retryable same attempt count).1
      exact ⟨rs',stored,fun _ => moved,fun none => absurd retries none⟩
    · exact ⟨rs',stored,fun retries => absurd retries none,fun _ => attempt⟩
  · intro real a s' taken
    have kept : ¬Replaces req.id a := by
      rintro ⟨_,_,_,_,null⟩
      rw [real] at null
      contradiction
    obtain ⟨rs',stored,same,moved⟩ := attemptStep registry found kept taken
    constructor
    · rintro ⟨held,there,within⟩
      refine ⟨kept,?_⟩
      rintro t other rfl present last
      cases Option.some.inj (present.symm.trans found)
      cases Option.some.inj (there.symm.trans stored)
      obtain ⟨retryable,full⟩ := lastRetryable limited attempted.request last
      obtain ⟨answer,answered⟩ := (retryAnswers found t).mpr retryable
      rcases moved with ⟨_,_,attempt,count⟩ | ⟨none,_,_⟩
      · have past := (retriedAttempted limited attempted retryable same attempt count).1
        have counted := attempted.counted
        rw [zero real] at counted
        omega
      · exact none ⟨t,answer,rfl,answered⟩
    · intro spared
      obtain ⟨next,there,bounded⟩ := attemptedStep limited registry found attempted spared taken
      exact ⟨next,there,bounded.bounded⟩

def twoAttempts : SpeculationRequest := { makeReq ⟨100⟩ [] with maxAttempts := 2 }

def submittedTwo : System := { fabric := ((System.start {}).fabric.submit 1 twoAttempts).2 }

def retriedTwo : System := { fabric := (submittedTwo.fabric.retry 2 ⟨100⟩).2 }

theorem secondAttemptWithin : ∃ rs, retriedTwo.fabric.find ⟨100⟩ = some rs ∧ rs.req = twoAttempts ∧
    rs.attempt.value.toNat ≤ 2 := by
  have accepted : ((System.start {}).fabric.submit 1 twoAttempts).1 = .ok () := by decide +kernel
  have counter : (submittedTwo.fabric.find ⟨100⟩).map (fun rs => (rs.retryCount,rs.req.maxAttempts)) = some (0,2) := by
    decide +kernel
  have later : Runs.Trace System.step (fun u a => Executors.any.admits u a ∧ Spared twoAttempts.id u a) submittedTwo
      [.retry 2 ⟨100⟩] retriedTwo := by
    refine Runs.cons ⟨trivial,?_,?_⟩ rfl .nil
    · rintro ⟨_,_,same,_⟩
      cases same
    · intro now rs _ found last
      have found : submittedTwo.fabric.find ⟨100⟩ = some rs := found
      rw [found] at counter
      obtain ⟨count,most⟩ := Prod.mk.inj (Option.some.inj counter)
      have full := last.2.2
      rw [count,most] at full
      exact absurd full (by decide)
  obtain ⟨_,rs,found,same,_,bounded,_⟩ := attemptsBoundedWhen (x := Executors.any) (v := System.start {}) .nil accepted
    (by decide) later
  exact ⟨rs,found,same,bounded⟩

def oneAttempt : SpeculationRequest := { makeReq ⟨100⟩ [] with maxAttempts := 1 }

theorem secondAttemptAllowed : ∃ s rs, Run Executors.any (.start {}) [.submit 1 oneAttempt,.retry 2 ⟨100⟩] s ∧
    s.fabric.find ⟨100⟩ = some rs ∧ rs.req.maxAttempts = 1 ∧ rs.attempt = ⟨2⟩ := by
  have reached : ((((System.start {}).fabric.submit 1 oneAttempt).2.retry 2 ⟨100⟩).2.find ⟨100⟩).map
      (fun rs => (rs.req.maxAttempts,rs.attempt)) = some (1,⟨2⟩) := by decide +kernel
  obtain ⟨rs,found,same⟩ := Option.map_eq_some_iff.mp reached
  obtain ⟨most,attempt⟩ := Prod.mk.inj same
  have run : Run Executors.any (.start {}) [.submit 1 oneAttempt,.retry 2 ⟨100⟩]
      { fabric := (((System.start {}).fabric.submit 1 oneAttempt).2.retry 2 ⟨100⟩).2 } :=
    Runs.cons trivial rfl (Runs.cons trivial rfl .nil)
  exact ⟨_,rs,run,found,most,attempt⟩

end SpeculationFabric
