import SpeculationFabric.CallFacts

/-! Registration of request ids. `submit` looks for an earlier submission in the
stored request's id, so the null id never counts as registered. Every other id
keeps its record, and nothing in it is taken back afterwards. -/
namespace SpeculationFabric

structure Extends (rs rs' : RequestState) : Prop where
  committed : rs.committed <+: rs'.committed
  proposals : rs.proposals <+: rs'.proposals

theorem Extends.refl (rs : RequestState) : Extends rs rs := ⟨List.prefix_refl _,List.prefix_refl _⟩

theorem Extends.trans {a b c : RequestState} (left : Extends a b) (right : Extends b c) : Extends a c :=
  ⟨left.committed.trans right.committed,left.proposals.trans right.proposals⟩

theorem effectExtends {s : System} {id : RequestId} {a : Action} {rs rs' : RequestState}
    (effect : Effect s id a rs rs') (named : rs.req.id = id) (real : id.isNull = false) : Extends rs rs' := by
  cases effect with
  | resubmitted events same null =>
      rw [named,real] at null
      contradiction
  | settled call same facts =>
      refine ⟨?_,?_⟩
      · rw [facts.advanced.committed]
        exact List.prefix_append _ _
      · rw [facts.advanced.proposals]
        exact List.prefix_append _ _
  | _ => exact ⟨List.prefix_refl _,List.prefix_refl _⟩

theorem runExtends {x : Executors} {s t : System} {actions : List Action} {id : RequestId} {rs : RequestState}
    (before : Registry s) (real : id.isNull = false) (found : s.fabric.find id = some rs)
    (run : Run x s actions t) : Registry t ∧ ∃ rs', t.fabric.find id = some rs' ∧ Extends rs rs' := by
  refine Runs.invariant (P := fun u => Registry u ∧ ∃ rs', u.fabric.find id = some rs' ∧ Extends rs rs')
    run ⟨before,rs,found,.refl rs⟩ ?_
  rintro u a v ⟨registry,held,present,grown⟩ allowed taken
  obtain ⟨next,stored,effect⟩ := stepEffect taken present
  have more := effectExtends effect (registry.named id held present) real
  exact ⟨registryStep taken registry,next,stored,grown.trans more⟩

structure DuplicateRejected (f : Fabric) (now : UInt64) (req : SpeculationRequest) : Prop where
  answer : (f.submit now req).1 = Result.err .alreadyExists "request id already registered"
  record : (f.submit now req).2.find req.id = f.find req.id
  stats : (f.submit now req).2.stats = f.stats

/- A `std::vector` has fewer than `2^64` elements, which is all the last premise says. -/
def NeverShrinks (x : Executors) (s : System) (id : RequestId) : Prop :=
  ∀ actions t more u n m, Run x s actions t → Run x t more u →
    t.fabric.authoritativeLength id = .ok n → u.fabric.authoritativeLength id = .ok m →
    (∀ rs, u.fabric.find id = some rs → rs.committed.length < 2^64) → n ≤ m

section submitted
variable {f : Fabric} {rs : RequestState} (req : SpeculationRequest)

theorem submitKnown (found : f.find req.id = some rs) (registered : rs.req.id.isNull = false) (now : UInt64) :
    f.submit now req = (Result.err .alreadyExists "request id already registered",f) := by
  simp only [Fabric.submit,entryFound found,registered,Bool.not_false,if_true]

theorem submitNull (found : f.find req.id = some rs) (null : rs.req.id.isNull = true) (now : UInt64) :
    (f.submit now req).1 = .ok () ∧
    ∃ events, (f.submit now req).2.find req.id = some { rs.admitted f.epoch req with events := events } := by
  simp only [Fabric.submit,entryFound found,null,Bool.not_true]
  exact ⟨rfl,updateSelf f now req.id (rs.admitted f.epoch req) _ _ _⟩

end submitted

theorem lengthOf {f : Fabric} {id : RequestId} {n : UInt64} (length : f.authoritativeLength id = .ok n) :
    ∃ rs, f.find id = some rs ∧ n = UInt64.ofNat rs.committed.length := by
  unfold Fabric.authoritativeLength at length
  split at length
  · contradiction
  · rename_i rs found
    cases length
    exact ⟨rs,found,rfl⟩

theorem neverShrinks {x : Executors} {s : System} {id : RequestId} {rs : RequestState} (before : Registry s)
    (real : id.isNull = false) (found : s.fabric.find id = some rs) : NeverShrinks x s id := by
  intro actions t more u n m first second length length' small
  obtain ⟨registry,_⟩ := runExtends before real found first
  obtain ⟨held,present,rfl⟩ := lengthOf length
  obtain ⟨held',present',rfl⟩ := lengthOf length'
  obtain ⟨_,next,stored,grown⟩ := runExtends registry real present second
  cases Option.some.inj (present'.symm.trans stored)
  have shorter := grown.committed.length_le
  have bound : held'.committed.length < UInt64.size := small held' present'
  rw [UInt64.le_iff_toNat_le,UInt64.toNat_ofNat_of_lt' (shorter.trans_lt bound),UInt64.toNat_ofNat_of_lt' bound]
  exact shorter

theorem nullShrinks {x : Executors} {s : System} {rs : RequestState} {id : RequestId} (null : id.isNull = true)
    (found : s.fabric.find id = some rs) (named : rs.req.id = id) : ¬ NeverShrinks x s id := by
  intro never
  -- one token is admitted under the null id, then none
  let long : SpeculationRequest := { id := id, prefixTokens := [0] }
  let short : SpeculationRequest := { id := id }
  obtain ⟨_,events,stored⟩ := submitNull long found (by rw [named]; exact null) 0
  obtain ⟨_,events',stored'⟩ := submitNull short stored null 0
  let t : System := { s with fabric := (s.fabric.submit 0 long).2 }
  let u : System := { t with fabric := (t.fabric.submit 0 short).2 }
  have first : Run x s [.submit 0 long] t := .snoc .nil trivial rfl
  have second : Run x t [.submit 0 short] u := .snoc .nil trivial rfl
  have length : t.fabric.authoritativeLength id = .ok 1 := by
    simp only [Fabric.authoritativeLength]
    rw [stored]
    rfl
  have length' : u.fabric.authoritativeLength id = .ok 0 := by
    simp only [Fabric.authoritativeLength]
    rw [stored']
    rfl
  have small : ∀ held, u.fabric.find id = some held → held.committed.length < 2^64 := by
    intro held present
    cases Option.some.inj (present.symm.trans stored')
    exact Nat.two_pow_pos 64
  exact absurd (never _ t _ u 1 0 first second length length' small) (by decide)

theorem submittedRecord {f : Fabric} {now : UInt64} {req : SpeculationRequest}
    (accepted : (f.submit now req).1 = .ok ()) :
    ∃ old events, (f.submit now req).2.find req.id = some { old.admitted f.epoch req with events := events } ∧
      (f.find req.id = some old ∧ old.req.id.isNull = true ∨ f.find req.id = none ∧ old = {}) := by
  cases found : f.find req.id with
  | some old =>
      cases null : old.req.id.isNull with
      | true =>
          obtain ⟨_,events,stored⟩ := submitNull req found null now
          exact ⟨old,events,stored,.inl ⟨rfl,null⟩⟩
      | false =>
          rw [submitKnown req found null now] at accepted
          cases accepted
  | none =>
      have fresh : f.entry req.id = ({},f.store req.id {}) := by
        simp only [Fabric.entry,found]
      simp only [Fabric.submit,fresh]
      obtain ⟨events,stored⟩ := updateSelf (f.store req.id {}) now req.id (RequestState.admitted {} f.epoch req)
        { f.stats with requestsEligibleForSpeculation := f.stats.requestsEligibleForSpeculation + 1 }
        "request.submit" "request admitted"
      exact ⟨{},events,stored,.inr ⟨trivial,rfl⟩⟩

theorem duplicateRejectedExactly {x : Executors} {cfg : Config} {before after : List Action} {v s : System}
    {now : UInt64} {earlier : SpeculationRequest} (run : Run x (.start cfg) before v)
    (first : (v.fabric.submit now earlier).1 = .ok ())
    (later : Run x { v with fabric := (v.fabric.submit now earlier).2 } after s)
    (req : SpeculationRequest) (same : req.id = earlier.id) (again : UInt64) :
    (DuplicateRejected s.fabric again req ↔ req.id.isNull = false) ∧
    (NeverShrinks x s req.id ↔ req.id.isNull = false) := by
  obtain ⟨old,events,stored,_⟩ := submittedRecord first
  have whole : Run x (.start cfg) (before ++ .submit now earlier :: after) s :=
    Runs.append run (Runs.cons trivial rfl later)
  have registry := registry whole
  obtain ⟨rs,found⟩ : ∃ rs, s.fabric.find req.id = some rs := by
    rw [same]
    refine Runs.invariant (P := fun u => ∃ rs, u.fabric.find earlier.id = some rs) later ⟨_,stored⟩ ?_
    rintro u a w ⟨rs,present⟩ allowed taken
    obtain ⟨next,kept,_⟩ := stepEffect taken present
    exact ⟨next,kept⟩
  have named := registry.named req.id rs found
  cases null : req.id.isNull with
  | false =>
      have answered := submitKnown req found (by rw [named]; exact null) again
      refine ⟨⟨fun _ => rfl,fun _ => ?_⟩,⟨fun _ => rfl,fun _ => neverShrinks registry null found⟩⟩
      exact ⟨by rw [answered],by rw [answered],by rw [answered]⟩
  | true =>
      have accepted := (submitNull req found (by rw [named]; exact null) again).1
      refine ⟨⟨fun rejected => ?_,nofun⟩,⟨fun never => absurd never (nullShrinks null found named),nofun⟩⟩
      rw [rejected.answer] at accepted
      contradiction

theorem nullIdOverwritten :
    ((Fabric.new {}).submit 1 (makeReq ⟨0⟩ [1,2])).1 = .ok () ∧
    ((Fabric.new {}).submit 1 (makeReq ⟨0⟩ [1,2])).2.authoritativeLength ⟨0⟩ = .ok 2 ∧
    ¬ DuplicateRejected ((Fabric.new {}).submit 1 (makeReq ⟨0⟩ [1,2])).2 2 (makeReq ⟨0⟩ []) ∧
    (((Fabric.new {}).submit 1 (makeReq ⟨0⟩ [1,2])).2.submit 2 (makeReq ⟨0⟩ [])).2.authoritativeLength ⟨0⟩ = .ok 0 := by
  refine ⟨by decide,by decide,?_,by decide⟩
  intro rejected
  exact absurd rejected.answer (by decide)

theorem duplicateAfterRetry :
    DuplicateRejected (((Fabric.new {}).submit 1 (makeReq ⟨100⟩ [1,2])).2.retry 2 ⟨100⟩).2 3 (makeReq ⟨100⟩ []) := by
  have later : Run .any { System.start {} with fabric := ((System.start {}).fabric.submit 1 (makeReq ⟨100⟩ [1,2])).2 }
      [.retry 2 ⟨100⟩] ⟨(((Fabric.new {}).submit 1 (makeReq ⟨100⟩ [1,2])).2.retry 2 ⟨100⟩).2,[]⟩ :=
    .snoc .nil trivial rfl
  exact (duplicateRejectedExactly .nil (by decide) later (makeReq ⟨100⟩ []) rfl 3).1.mpr (by decide)

end SpeculationFabric
