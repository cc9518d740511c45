import SpeculationFabric.OddWords
import SpeculationFabric.Registration

/-! The identities the engine derives. A record's state is named by its sequence and a
dispatch by its request and generation, each times an odd constant of 64 bits, so two of
them agree only where what they were derived from does. -/
namespace SpeculationFabric

theorem stateMultiplierOdd : (0x9E3779B97F4A7C15 : UInt64).toNat % 2 = 1 := rfl

theorem dispatchMultiplierOdd : (0x100000001B3 : UInt64).toNat % 2 = 1 := rfl

theorem idInj {tag : Tag} {T : Type} {a b : T} : (⟨a⟩ : StrongId tag T) = ⟨b⟩ ↔ a = b := by
  rw [StrongId.mk.injEq]

theorem idNull {tag : Tag} (id : StrongId tag UInt64) : id.isNull = true ↔ id.value = 0 := decide_eq_true_iff

def stateOf (sequence : SequenceId) : StateId := ⟨sequence.value * 0x9E3779B97F4A7C15⟩

theorem stateOfSame {a b : SequenceId} : stateOf a = stateOf b ↔ a = b :=
  idInj.trans ((OddWords.wordMul stateMultiplierOdd).trans idInj.symm)

theorem stateOfNull (a : SequenceId) : (stateOf a).isNull = true ↔ a.isNull = true := by
  rw [idNull,idNull]
  exact OddWords.wordMulZero stateMultiplierOdd

theorem submittedState {f : Fabric} {now : UInt64} {req : SpeculationRequest} (accepted : (f.submit now req).1 = .ok ()) :
    ∃ rs, (f.submit now req).2.find req.id = some rs ∧ rs.authState.id = stateOf req.sequence := by
  obtain ⟨old,events,stored,_⟩ := submittedRecord accepted
  exact ⟨_,stored,rfl⟩

theorem stateNamedStep {s : System} {id : RequestId} {a : Action} {rs rs' : RequestState} (effect : Effect s id a rs rs')
    (named : rs.authState.id = stateOf rs.req.sequence) : rs'.authState.id = stateOf rs'.req.sequence := by
  cases effect with
  | resubmitted events same null => rfl
  | settled call same facts =>
      rw [facts.advanced.authState,facts.advanced.req]
      exact named
  | _ => exact named

theorem stateNamed {x : Executors} {cfg : Config} {actions : List Action} {s : System}
    (run : Run x (.start cfg) actions s) :
    ∀ id rs, s.fabric.find id = some rs → rs.authState.id = stateOf rs.req.sequence := by
  refine everyRecord run ?_ ?_
  · intro epoch req events
    rfl
  · intro past u id a rs rs' _ effect named
    exact stateNamedStep effect named

theorem plannedDispatch (p : SpeculationScheduler) (req : SpeculationRequest) (generation : AuthGeneration)
    (depth memory : UInt32) (saturation : Float) :
    (p.planProposal req generation depth memory saturation).dispatch =
      ⟨(req.id.value * 0x100000001B3) ^^^ (generation.value * 0x9E3779B97F4A7C15)⟩ := rfl

theorem dispatchesOfRequest (p p' : SpeculationScheduler) {req req' : SpeculationRequest} (same : req.id = req'.id)
    (a b : AuthGeneration) (depth depth' memory memory' : UInt32) (saturation saturation' : Float) :
    (p.planProposal req a depth memory saturation).dispatch =
      (p'.planProposal req' b depth' memory' saturation').dispatch ↔ a = b := by
  rw [plannedDispatch,plannedDispatch,same]
  exact idInj.trans ((OddWords.mixedRight stateMultiplierOdd _).trans idInj.symm)

theorem dispatchesAtGeneration (p p' : SpeculationScheduler) (req req' : SpeculationRequest)
    (generation : AuthGeneration) (depth depth' memory memory' : UInt32) (saturation saturation' : Float) :
    (p.planProposal req generation depth memory saturation).dispatch =
      (p'.planProposal req' generation depth' memory' saturation').dispatch ↔ req.id = req'.id := by
  rw [plannedDispatch,plannedDispatch]
  exact idInj.trans ((OddWords.mixedLeft dispatchMultiplierOdd _).trans idInj.symm)

theorem derivedIdentitiesDistinct :
    (∀ (f g : Fabric) (now later : UInt64) (req req' : SpeculationRequest),
      (f.submit now req).1 = .ok () → (g.submit later req').1 = .ok () →
      ∃ rs rs', (f.submit now req).2.find req.id = some rs ∧ (g.submit later req').2.find req'.id = some rs' ∧
        (rs.authState.id = rs'.authState.id ↔ req.sequence = req'.sequence) ∧
        (rs.authState.id.isNull = true ↔ req.sequence.isNull = true)) ∧
    (∀ (x y : Executors) (cfg cfg' : Config) (actions actions' : List Action) (s t : System) (id id' : RequestId)
      (rs rs' : RequestState), Run x (.start cfg) actions s → Run y (.start cfg') actions' t →
      s.fabric.find id = some rs → t.fabric.find id' = some rs' →
      (rs.authState.id = rs'.authState.id ↔ rs.req.sequence = rs'.req.sequence) ∧
      (rs.authState.id.isNull = true ↔ rs.req.sequence.isNull = true)) ∧
    (∀ (p p' : SpeculationScheduler) (req req' : SpeculationRequest) (a b : AuthGeneration)
      (depth depth' memory memory' : UInt32) (saturation saturation' : Float), req.id = req'.id → a ≠ b →
      (p.planProposal req a depth memory saturation).dispatch ≠
        (p'.planProposal req' b depth' memory' saturation').dispatch) ∧
    (∀ (p p' : SpeculationScheduler) (req req' : SpeculationRequest) (generation : AuthGeneration)
      (depth depth' memory memory' : UInt32) (saturation saturation' : Float), req.id ≠ req'.id →
      (p.planProposal req generation depth memory saturation).dispatch ≠
        (p'.planProposal req' generation depth' memory' saturation').dispatch) := by
  refine ⟨?_,?_,?_,?_⟩
  · intro f g now later req req' accepted accepted'
    obtain ⟨rs,found,named⟩ := submittedState accepted
    obtain ⟨rs',found',named'⟩ := submittedState accepted'
    refine ⟨rs,rs',found,found',?_⟩
    rw [named,named']
    exact ⟨stateOfSame,stateOfNull _⟩
  · intro x y cfg cfg' actions actions' s t id id' rs rs' run run' found found'
    rw [stateNamed run id rs found,stateNamed run' id' rs' found']
    exact ⟨stateOfSame,stateOfNull _⟩
  · intro p p' req req' a b depth depth' memory memory' saturation saturation' same different
    exact different ∘ (dispatchesOfRequest p p' same a b depth depth' memory memory' saturation saturation').mp
  · intro p p' req req' generation depth depth' memory memory' saturation saturation' different
    exact different ∘ (dispatchesAtGeneration p p' req req' generation depth depth' memory memory' saturation
      saturation').mp

theorem twoStatesDistinct :
    ∃ rs rs', ((Fabric.new {}).submit 0 { id := ⟨100⟩, sequence := ⟨7⟩ }).2.find ⟨100⟩ = some rs ∧
      ((Fabric.new {}).submit 0 { id := ⟨101⟩, sequence := ⟨0⟩ }).2.find ⟨101⟩ = some rs' ∧
      rs.authState.id ≠ rs'.authState.id ∧ rs.authState.id.isNull = false := by
  obtain ⟨rs,rs',found,found',same,null⟩ := derivedIdentitiesDistinct.1 (.new {})
    (.new {}) 0 0 { id := ⟨100⟩, sequence := ⟨7⟩ } { id := ⟨101⟩, sequence := ⟨0⟩ } rfl rfl
  refine ⟨rs,rs',found,found',?_,?_⟩
  · intro equal
    exact absurd (same.mp equal) (by decide)
  · exact Bool.eq_false_iff.mpr (fun isNull => absurd (null.mp isNull) (by decide))

end SpeculationFabric
